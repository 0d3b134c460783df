import RecoNIC.Driver.ReceiveQueue
import RecoNIC.Driver.Setup
import RecoNIC.Driver.Teardown

/-!
# The life of a queue pair

`allocate_rdma_qp` does three things that are looked at one by one elsewhere: it allocates the
buffers of the queues (`RdmaApi`), enters the queue pair into the table of the device
(`Teardown`), and programs the registers (`Setup`).  `destroy_rdma_qp` waits for the device and
clears registers (`Destroy`), and only then frees the buffers (`Teardown`).

Here the calls are put together again, and the pieces are compared.

* `qpRegsOf_allocate`: the registers that `Setup` writes are those that `RdmaApi` says the call
  leaves behind, and so the receive queue is as `ReceiveQueue` takes it to be
  (`configured_allocate`).
* `destroy_eq_returned_iff`: the call returns iff its wait does, and has then freed what
  `Teardown` says.
* `run_eq_program` and `bases_run`: over a whole program, the table and what has been done to
  memory are those of `Teardown.program`, and the registers of each queue pair in the table hold
  the addresses of its own buffers.
-/

namespace RecoNIC
namespace QueuePair

open Synchronous RdmaApi AxilPort Assign
open Destroy (Device Driver hostWrite qpidOf)
open Setup (MacAddr QpArgs QpConfig Config numOf)
open Teardown (Handle Pd Event)

/-! ## The calls -/

/-- The arguments of `allocate_rdma_qp`; `pdNum` is the number in its protection domain. -/
structure Args where
  dstQpid : BitVec 32
  qpid : BitVec 32
  pdEntry : Pd
  pdNum : BitVec 32
  cqCidbAddr : BitVec 64
  rqCidbAddr : BitVec 64
  qdepth : BitVec 32
  bufLocation : BufLocation
  dstMac : MacAddr
  dstIp : BitVec 32
  partionKey : BitVec 32

/-- What goes to the registers once the buffers are there. -/
def Args.toQpArgs (a : Args) (qp : RdmaQp) : QpArgs where
  qpid := a.qpid
  dstQpid := a.dstQpid
  pdNum := a.pdNum
  cqCidbAddr := a.cqCidbAddr
  rqCidbAddr := a.rqCidbAddr
  qdepth := a.qdepth
  sqDmaAddr := qp.sq.dmaAddr
  cqDmaAddr := qp.cq.dmaAddr
  rqDmaAddr := qp.rq.dmaAddr
  dstMac := a.dstMac
  dstIp := a.dstIp
  partionKey := a.partionKey

/-- A program with its device: the members of `struct rdma_dev_t` and of `struct rn_dev_t` that
the calls use, the queues of each queue pair, the registers, and what has been done to memory. -/
structure Sys where
  winSize : WinSize
  rnDev : RnDev
  table : Teardown.RdmaDev
  queues : List RdmaQp
  regs : RegFile
  events : List Event

/-- The device as the queues see it. -/
def Sys.dev (s : Sys) : RdmaApi.RdmaDev := ⟨s.table.numQp, s.winSize⟩

/-- The registers after some writes of the driver. -/
def applyWrites (regs : RegFile) (ws : List (BitVec 32 × BitVec 32)) : RegFile :=
  (ws.map hostWrite).foldl applyWrite regs

/-- `allocate_rdma_qp`; `none` is an exit. -/
def allocateRdmaQp (paddr : BitVec 64 → BitVec 64) (s : Sys) (a : Args) : Option Sys := do
  let (qp, _, rnDev) ← RdmaApi.allocateRdmaQp paddr s.dev s.rnDev a.qdepth a.bufLocation
  let (table, events) := Teardown.allocateRdmaQp s.table a.qpid a.pdEntry
  return { s with
    rnDev := rnDev
    table := table
    queues := s.queues ++ [qp]
    regs := applyWrites s.regs (Setup.allocateRdmaQp s.dev (a.toQpArgs qp))
    events := s.events ++ events }

/-- `destroy_rdma_qp`.  It is done with the device before it frees anything. -/
def destroyRdmaQp (dev : Device) (table : Teardown.RdmaDev) (h : Handle) (fuel : Nat) :
    Driver (List Event) :=
  match table.qps[h]? with
  | none => pure []
  | some qp => do
    Destroy.destroyRdmaQp dev qp.qpid fuel
    return [.destroy h, .free (.sq h), .free (.rq h), .free (.cq h)] ++
      Teardown.destroyRdmaPdEntry qp.pdEntry

/-- A call, with what the device answers it. -/
inductive Call where
  | allocate (a : Args)
  | destroy (h : Handle) (dev : Device) (fuel : Nat)

/-- One call of a program.  There is no state behind a call that does not return. -/
def step (paddr : BitVec 64 → BitVec 64) (s : Sys) : Call → Option Sys
  | .allocate a => allocateRdmaQp paddr s a
  | .destroy h dev fuel =>
    match destroyRdmaQp dev s.table h fuel .start with
    | .returned events p =>
      some { s with regs := applyWrites s.regs p.writes, events := s.events ++ events }
    | _ => none

/-! ## Destroying -/

section Destroying

variable {dev : Device} {table : Teardown.RdmaDev} {h : Handle} {fuel : Nat}
  {p p' : Destroy.Progress} {events : List Event}

/-- `NULL` is let alone. -/
theorem destroy_of_none (hqp : table.qps[h]? = none) :
    destroyRdmaQp dev table h fuel = pure (Teardown.destroyRdmaQp table h) := by
  rw [destroyRdmaQp, Teardown.destroyRdmaQp, hqp]

/-- **What is freed, and when.**  The call returns iff the device lets it go, and has then done to
memory what `Teardown` says. -/
theorem destroy_eq_returned_iff {qp : Teardown.Qp} (hqp : table.qps[h]? = some qp) :
    destroyRdmaQp dev table h fuel p = .returned events p' ↔
      Destroy.destroyRdmaQp dev qp.qpid fuel p = .returned () p' ∧
        events = Teardown.destroyRdmaQp table h := by
  rw [destroyRdmaQp, Teardown.destroyRdmaQp, hqp]
  simp only
  rw [Driver.bind_eq_returned]
  constructor
  · rintro ⟨_, p₁, hret, heq⟩
    cases heq
    exact ⟨hret, rfl⟩
  · rintro ⟨hret, rfl⟩
    exact ⟨(), p', hret, rfl⟩

end Destroying

/-! ## The registers of an allocated queue pair -/

/-- The registers of a queue pair that its allocation is about. -/
def qpRegsOf (row : RegRow) : QpRegs where
  sqBa := (QpConfig.of row).sqBa
  cqBa := (QpConfig.of row).cqBa
  rqBa := (QpConfig.of row).rqBa
  qpConf := (QpConfig.of row).qpConf

section Allocating

variable {paddr : BitVec 64 → BitVec 64} {dev : RdmaApi.RdmaDev} {rnDev rnDev' : RnDev} {a : Args}
  {qp : RdmaQp} {r : QpRegs}

/-- The number of a queue pair of the driver. -/
def Args.Valid (a : Args) : Prop := 1 ≤ a.qpid.toNat ∧ a.qpid.toNat ≤ 256

/-- The rows of all queue pairs after the writes. -/
theorem qp_applyWrites_allocate (dev : RdmaApi.RdmaDev) (qp : RdmaQp) (ha : a.Valid)
    (regs : RegFile) :
    (Config.of (applyWrites regs (Setup.allocateRdmaQp dev (a.toQpArgs qp)))).qp =
      Function.update (Config.of regs).qp (numOf a.qpid)
        (.allocated dev (a.toQpArgs qp) ((Config.of regs).qp (numOf a.qpid))) :=
  congrArg Config.qp (Setup.of_writes dev regs (c := .allocateRdmaQp (a.toQpArgs qp)) ha)

/-- **The registers are those of the queues.**  What the call writes puts the addresses of the
buffers that it has allocated into the registers of its queue pair. -/
theorem qpRegsOf_allocate (ha : a.Valid)
    (halloc : RdmaApi.allocateRdmaQp paddr dev rnDev a.qdepth a.bufLocation =
      some (qp, r, rnDev')) (regs : RegFile) :
    qpRegsOf ((applyWrites regs (Setup.allocateRdmaQp dev (a.toQpArgs qp))).qp (numOf a.qpid)) =
      r := by
  have hrow := congrFun (qp_applyWrites_allocate dev qp ha regs) (numOf a.qpid)
  rw [Function.update_self] at hrow
  change QpConfig.of _ = _ at hrow
  rw [qpRegsOf, hrow, (of_allocate halloc).2.2]
  rfl

/-- The counter of the SENDs is not among them. -/
theorem statrqpidbi_allocate (ha : a.Valid) (regs : RegFile) :
    (applyWrites regs (Setup.allocateRdmaQp dev (a.toQpArgs qp))).qp (numOf a.qpid)
      statrqpidbiIdx = regs.qp (numOf a.qpid) statrqpidbiIdx := by
  have hknown : ((Setup.qpWords dev (a.toQpArgs qp)).all fun w => Setup.isQpAddr w.1) = true := by
    simp only [Setup.qpWords, List.all_cons, List.all_nil]
    decide +kernel
  have hinj : Function.Injective (RegFile.Cell.qp (numOf a.qpid)) := fun r r' h => by
    cases h
    rfl
  have hread := congrFun (Setup.read_perQ regs ha _ hknown) (.qp (numOf a.qpid) statrqpidbiIdx)
  refine hread.trans ((assign_map_apply _ hinj _ _).trans ?_)
  simp only [Setup.qpRow, Setup.qpWords, List.flatMap_cons, List.flatMap_nil]
  rfl

/-- **The receive queue is configured.**  On a device whose counter of SENDs is still zero, the
hardware puts the first message where the receive queue begins. -/
theorem configured_allocate (ha : a.Valid)
    (halloc : RdmaApi.allocateRdmaQp paddr dev rnDev a.qdepth a.bufLocation =
      some (qp, r, rnDev')) {regs : RegFile}
    (hcount : regs.qp (numOf a.qpid) statrqpidbiIdx = 0) :
    ReceiveQueue.Configured
      (applyWrites regs (Setup.allocateRdmaQp dev (a.toQpArgs qp))) (numOf a.qpid) r := by
  have hrow := congrFun (qp_applyWrites_allocate dev qp ha regs) (numOf a.qpid)
  rw [Function.update_self] at hrow
  have hrq : r.rqBa = maskedAddr dev.winSize qp.rq.dmaAddr := by rw [(of_allocate halloc).2.2]
  constructor
  · rw [Receiving.Pointers.ofRow, statrqpidbi_allocate ha, hcount, hrq]
    exact congrArg (Receiving.Pointers.mk · 0) (congrArg QpConfig.statRqBufCa hrow)
  · rw [← qpRegsOf_allocate ha halloc regs]
    rfl

end Allocating

/-! ## The table -/

section Table

variable {paddr : BitVec 64 → BitVec 64} {s s' : Sys}

/-- What a call is to the table. -/
def Call.onTable : Call → Teardown.Call
  | .allocate a => .allocate a.qpid a.pdEntry
  | .destroy h _ _ => .destroy h

theorem allocate_eq_some_iff {a : Args} :
    allocateRdmaQp paddr s a = some s' ↔ ∃ qp r rnDev',
      RdmaApi.allocateRdmaQp paddr s.dev s.rnDev a.qdepth a.bufLocation = some (qp, r, rnDev') ∧
        s' = { s with
          rnDev := rnDev'
          table := (Teardown.allocateRdmaQp s.table a.qpid a.pdEntry).1
          queues := s.queues ++ [qp]
          regs := applyWrites s.regs (Setup.allocateRdmaQp s.dev (a.toQpArgs qp))
          events := s.events ++ (Teardown.allocateRdmaQp s.table a.qpid a.pdEntry).2 } := by
  simp only [allocateRdmaQp, Option.bind_eq_bind, Option.bind_eq_some_iff, Option.pure_def,
    Option.some.injEq, Prod.exists]
  exact exists_congr fun qp => exists_congr fun r => exists_congr fun rnDev' =>
    and_congr Iff.rfl eq_comm

/-- A queue pair is destroyed by a call that returns. -/
theorem step_destroy_eq_some {h : Handle} {dev : Device} {fuel : Nat}
    (hstep : step paddr s (.destroy h dev fuel) = some s') : ∃ p,
      destroyRdmaQp dev s.table h fuel .start = .returned (Teardown.destroyRdmaQp s.table h) p ∧
        s' = { s with
          regs := applyWrites s.regs p.writes
          events := s.events ++ Teardown.destroyRdmaQp s.table h } := by
  rw [step] at hstep
  cases hcall : destroyRdmaQp dev s.table h fuel .start with
  | returned events p =>
    rw [hcall] at hstep
    have hevents : events = Teardown.destroyRdmaQp s.table h := by
      cases hqp : s.table.qps[h]? with
      | none =>
        rw [destroy_of_none hqp] at hcall
        cases hcall
        rfl
      | some qp => exact ((destroy_eq_returned_iff hqp).mp hcall).2
    subst hevents
    exact ⟨p, rfl, (Option.some.inj hstep).symm⟩
  | exited =>
    rw [hcall] at hstep
    cases hstep
  | waiting =>
    rw [hcall] at hstep
    cases hstep

/-- One call. -/
theorem onTable_step (numQp : BitVec 32) {c : Call} (hstep : step paddr s c = some s') :
    (s'.table, s'.events) =
      (Teardown.program numQp).step (s.table, s.events) c.onTable := by
  cases c with
  | allocate a =>
    obtain ⟨_, _, _, -, rfl⟩ := allocate_eq_some_iff.mp hstep
    rfl
  | destroy h dev fuel =>
    obtain ⟨_, -, rfl⟩ := step_destroy_eq_some hstep
    rfl

/-- A program that has just created its device. -/
def created (numQp : BitVec 32) (winSize : WinSize) (rnDev : RnDev) (regs : RegFile) : Sys :=
  ⟨winSize, rnDev, Teardown.createRdmaDev numQp, [], regs, []⟩

/-- **The table of a program.**  Calls that all return leave behind the table of `Teardown`, and
have done to memory what they do there. -/
theorem run_eq_program {numQp : BitVec 32} {winSize : WinSize} {rnDev : RnDev} {regs : RegFile}
    {calls : List Call}
    (hrun : calls.foldlM (step paddr) (created numQp winSize rnDev regs) = some s') :
    (s'.table, s'.events) = (Teardown.program numQp).run (calls.map Call.onTable) := by
  have hfrom : ∀ s : Sys, calls.foldlM (step paddr) s = some s' → (s'.table, s'.events) =
      (Teardown.program numQp).runFrom (s.table, s.events) (calls.map Call.onTable) := by
    clear hrun
    intro s hrun
    induction calls generalizing s with
    | nil =>
      cases hrun
      rfl
    | cons c calls ih =>
      obtain ⟨s₁, hstep, hrest⟩ := Option.bind_eq_some_iff.mp hrun
      rw [List.map_cons, Machine.runFrom_cons, ← onTable_step numQp hstep]
      exact ih s₁ hrest
  exact hfrom _ hrun

end Table

/-! ## The registers over a program -/

section Bases

variable {paddr : BitVec 64 → BitVec 64} {s s' : Sys}

/-- The registers have the addresses of these queues. -/
structure Bases (winSize : WinSize) (qp : RdmaQp) (c : QpConfig) : Prop where
  sqBa : c.sqBa = maskedAddr winSize qp.sq.dmaAddr
  cqBa : c.cqBa = maskedAddr winSize qp.cq.dmaAddr
  rqBa : c.rqBa = maskedAddr winSize qp.rq.dmaAddr

/-- The numbers are all in range, and whoever is in the table owns the registers. -/
structure Inv (s : Sys) : Prop where
  wellFormed : Teardown.WellFormed s.table
  length : s.queues.length = s.table.qps.length
  range : ∀ e ∈ s.table.qps, 1 ≤ e.qpid.toNat ∧ e.qpid.toNat ≤ 256
  bases : ∀ (i : ℕ) (h : Handle) (e : Teardown.Qp), s.table.qpsPtr i = some h →
    s.table.qps[h]? = some e →
      ∃ qp, s.queues[h]? = some qp ∧ Bases s.winSize qp ((Config.of s.regs).qp (numOf e.qpid))

/-- A call for a queue pair that exists. -/
def Call.Valid : Call → Prop
  | .allocate a => a.Valid
  | .destroy _ _ _ => True

theorem toNat_numOf {qpid : BitVec 32} (hq : 1 ≤ qpid.toNat ∧ qpid.toNat ≤ 256) :
    (numOf qpid).toNat = qpid.toNat - 1 := by
  rw [numOf, BitVec.toNat_setWidth,
    BitVec.toNat_sub_of_le (show (1 : BitVec 32) ≤ qpid from BitVec.le_def.mpr hq.1)]
  exact Nat.mod_eq_of_lt (show qpid.toNat - 1 < 256 by omega)

/-- The driver and the hardware mean the same queue pair. -/
theorem qpidOf_numOf {qpid : BitVec 32} (hq : 1 ≤ qpid.toNat ∧ qpid.toNat ≤ 256) :
    qpidOf (numOf qpid) = qpid := by
  refine BitVec.eq_of_toNat_eq ?_
  have hnum := toNat_numOf hq
  simp only [qpidOf, BitVec.toNat_add, BitVec.toNat_setWidth, hnum, BitVec.toNat_ofNat,
    BitVec.ofNat_eq_ofNat]
  omega

theorem Inv.allocate (hs : Inv s) {a : Args} (ha : a.Valid)
    (hstep : allocateRdmaQp paddr s a = some s') : Inv s' := by
  obtain ⟨qp, r, rnDev', halloc, rfl⟩ := allocate_eq_some_iff.mp hstep
  refine ⟨hs.wellFormed.call (.allocate a.qpid a.pdEntry), ?_, ?_, ?_⟩
  · show (s.queues ++ [qp]).length = (s.table.qps ++ [_]).length
    simp only [List.length_append, List.length_singleton, hs.length]
  · intro e he
    rcases List.mem_append.mp he with hold | hnew
    · exact hs.range e hold
    · rw [List.mem_singleton.mp hnew]
      exact ha
  · intro i h e hi he
    rw [qp_applyWrites_allocate _ _ ha]
    change Function.update s.table.qpsPtr a.qpid.toNat (some s.table.qps.length) i = some h at hi
    change (s.table.qps ++ [⟨a.qpid, some a.pdEntry⟩])[h]? = some e at he
    show ∃ qp', (s.queues ++ [qp])[h]? = some qp' ∧ _
    by_cases hcell : i = a.qpid.toNat
    · -- the new queue pair
      subst hcell
      rw [Function.update_self, Option.some.injEq] at hi
      subst hi
      rw [List.getElem?_concat_length, Option.some.injEq] at he
      subst he
      rw [Function.update_self, ← hs.length]
      exact ⟨qp, List.getElem?_concat_length, rfl, rfl, rfl⟩
    · -- the others have other rows
      rw [Function.update_of_ne hcell] at hi
      obtain ⟨e', he', hindex⟩ := hs.wellFormed.index i h hi
      obtain ⟨hlt, -⟩ := List.getElem?_eq_some_iff.mp he'
      rw [List.getElem?_append_left hlt, he', Option.some.injEq] at he
      subst he
      obtain ⟨qp', hqp', hbases⟩ := hs.bases i h e' hi he'
      have hrange := hs.range e' (List.mem_of_getElem? he')
      have hne : numOf e'.qpid ≠ numOf a.qpid := fun heq => hcell <| by
        have hnat := congrArg BitVec.toNat heq
        rw [toNat_numOf hrange, toNat_numOf ha] at hnat
        have hlow := hrange.1
        have hlow' : 1 ≤ a.qpid.toNat := ha.1
        omega
      rw [Function.update_of_ne hne]
      exact ⟨qp', by rwa [List.getElem?_append_left (hs.length ▸ hlt)], hbases⟩

/-- Destroying leaves alone what it does not clear. -/
theorem qp_destroyed (hs : Inv s) {h : Handle} {dev : Device} {fuel : Nat} {events : List Event}
    {p : Destroy.Progress}
    (hret : destroyRdmaQp dev s.table h fuel .start = .returned events p) {r : RegIdx}
    (hr : ∀ low ∈ 0x00 :: Destroy.resetLows, r ∉ Destroy.written low) (q : BitVec 8) :
    (applyWrites s.regs p.writes).qp q r = s.regs.qp q r := by
  cases hqp : s.table.qps[h]? with
  | none =>
    rw [destroy_of_none hqp] at hret
    cases hret
    rfl
  | some e =>
    have hcall := ((destroy_eq_returned_iff hqp).mp hret).1
    rw [← qpidOf_numOf (hs.range e (List.mem_of_getElem? hqp))] at hcall
    exact Destroy.qp_destroy_of_not_mem hr s.regs hcall q

theorem Inv.destroy (hs : Inv s) {h : Handle} {dev : Device} {fuel : Nat}
    (hstep : step paddr s (.destroy h dev fuel) = some s') : Inv s' := by
  obtain ⟨p, hret, rfl⟩ := step_destroy_eq_some hstep
  refine ⟨hs.wellFormed, hs.length, hs.range, fun i h' e hi he => ?_⟩
  obtain ⟨qp, hqp, hbases⟩ := hs.bases i h' e hi he
  have hkeep (r : RegIdx) (hr : ∀ low ∈ 0x00 :: Destroy.resetLows, r ∉ Destroy.written low) :=
    qp_destroyed hs hret hr (numOf e.qpid)
  refine ⟨qp, hqp, Eq.trans ?_ hbases.sqBa, Eq.trans ?_ hbases.cqBa, Eq.trans ?_ hbases.rqBa⟩
  · exact congrArg₂ (· ++ ·) (hkeep sqbamsbiIdx (by decide)) (hkeep sqbaiIdx (by decide))
  · exact congrArg₂ (· ++ ·) (hkeep cqbamsbiIdx (by decide)) (hkeep cqbaiIdx (by decide))
  · exact congrArg₂ (· ++ ·) (hkeep rqbamsbiIdx (by decide)) (hkeep rqbaiIdx (by decide))

theorem inv_created (numQp : BitVec 32) (winSize : WinSize) (rnDev : RnDev) (regs : RegFile) :
    Inv (created numQp winSize rnDev regs) :=
  ⟨Teardown.wellFormed_createRdmaDev numQp, rfl, nofun, nofun⟩

theorem Inv.run (hs : Inv s) {calls : List Call} (hcalls : ∀ c ∈ calls, c.Valid)
    (hrun : calls.foldlM (step paddr) s = some s') : Inv s' := by
  induction calls generalizing s with
  | nil =>
    cases hrun
    exact hs
  | cons c calls ih =>
    obtain ⟨s₁, hstep, hrest⟩ := Option.bind_eq_some_iff.mp hrun
    refine ih ?_ (fun c' hc' => hcalls c' (List.mem_cons_of_mem c hc')) hrest
    cases c with
    | allocate a => exact hs.allocate (hcalls _ List.mem_cons_self) hstep
    | destroy h dev fuel => exact hs.destroy hstep

/-- **Whoever is in the table owns the registers.**  After any calls that return, the registers of
a queue pair that is in the table hold the addresses of the buffers that were allocated for it,
whatever has been allocated and destroyed besides. -/
theorem bases_run {numQp : BitVec 32} {winSize : WinSize} {rnDev : RnDev} {regs : RegFile}
    {calls : List Call} (hcalls : ∀ c ∈ calls, c.Valid)
    (hrun : calls.foldlM (step paddr) (created numQp winSize rnDev regs) = some s')
    {h : Handle} (hmem : h ∈ s'.table.table) : ∃ e qp, s'.table.qps[h]? = some e ∧
      s'.queues[h]? = some qp ∧ Bases s'.winSize qp ((Config.of s'.regs).qp (numOf e.qpid)) := by
  have hinv := (inv_created numQp winSize rnDev regs).run hcalls hrun
  obtain ⟨i, -, hi⟩ := Teardown.mem_table.mp hmem
  obtain ⟨e, he, -⟩ := hinv.wellFormed.index i h hi
  obtain ⟨qp, hqp, hbases⟩ := hinv.bases i h e hi he
  exact ⟨e, qp, he, hqp, hbases⟩

end Bases

end QueuePair
end RecoNIC
