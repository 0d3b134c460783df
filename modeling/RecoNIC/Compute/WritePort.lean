import RecoNIC.Synchronous.Machine
import Mathlib.Data.BitVec

/-!
# The write interface of the control command processor

`control_command_processor` takes AXI-Lite writes in a machine of four states and pushes
those to `CTL_CMD` into the command FIFO; one that finds the FIFO full waits in
`AXIL_WRITE_WAIT`.

The response is a pulse of its own making.  `bvalid` is high in the cycle after
`AXIL_WRITE_RESP`, whatever happens, and the state is left as soon as `bready` is high, also
in a cycle in which `bvalid` is not high yet.  So a host that is ready at the wrong time gets
no response, or two.  `AnsweredOnce` says which hosts get one (`oneResponse_run`).

This module has the registers and the responses; what becomes of the commands is in
`Compute.CommandQueue`.
-/

namespace RecoNIC
namespace CommandPort

open Synchronous

/-! ## The registers -/

/-- `axil_write_state`. -/
inductive AxilWriteState where
  | idle | wready | wait | resp
  deriving DecidableEq

/-- The registers that the write interface drives. -/
structure Regs where
  awready : Bool
  wready : Bool
  bvalid : Bool
  awaddr : BitVec 12
  templateReg : BitVec 32
  ctlCmdData : BitVec 32
  ctlCmdWrEn : Bool
  axilWriteState : AxilWriteState
  deriving DecidableEq

/-- The signals of the host in one cycle. -/
structure Bus where
  awvalid : Bool
  awaddr : BitVec 12
  wvalid : Bool
  wdata : BitVec 32
  bready : Bool
  deriving DecidableEq

/-- `CTL_CMD`. -/
def ctlCmd : BitVec 12 := 0x000

/-- `TEMPLATE_REG`. -/
def templateRegAddr : BitVec 12 := 512

namespace Regs

/-- After reset. -/
def reset : Regs := ⟨true, false, false, 0, 0, 0, false, .idle⟩

/-- One clock edge.  `full` and `wrRstBusy` are the flags of the command FIFO. -/
def step (s : Regs) (full wrRstBusy : Bool) (i : Bus) : Regs :=
  match s.axilWriteState with
  | .idle =>
    let s' := { s with ctlCmdWrEn := false, bvalid := false }
    if i.awvalid && s.awready then
      let s' := { s' with wready := true, awready := false, awaddr := i.awaddr }
      if i.wvalid then
        if i.awaddr = ctlCmd then
          let s' := { s' with ctlCmdData := i.wdata, wready := !s.wready }
          if full || wrRstBusy then { s' with axilWriteState := .wait }
          else { s' with ctlCmdWrEn := true, axilWriteState := .resp }
        else if i.awaddr = templateRegAddr then
          { s' with templateReg := i.wdata, axilWriteState := .resp }
        else { s' with axilWriteState := .resp }
      else { s' with axilWriteState := .wready }
    else s'
  | .wready =>
    let s' := { s with ctlCmdWrEn := false }
    if i.wvalid then
      let s' := { s' with wready := false }
      if s.awaddr = ctlCmd then
        let s' := { s' with ctlCmdData := i.wdata }
        if full then { s' with axilWriteState := .wait }
        else { s' with ctlCmdWrEn := true, axilWriteState := .resp }
      else if s.awaddr = templateRegAddr then
        { s' with templateReg := i.wdata, axilWriteState := .resp }
      else { s' with axilWriteState := .resp }
    else s'
  | .wait =>
    if !full && !wrRstBusy then
      { s with ctlCmdWrEn := true, bvalid := true, axilWriteState := .resp }
    else { s with ctlCmdWrEn := false }
  | .resp =>
    { s with
      bvalid := true
      awaddr := 0
      awready := true
      wready := false
      ctlCmdWrEn := false
      axilWriteState := if i.bready then .idle else .resp }

end Regs

/-- The address handshake of a cycle. -/
def takesAddr (s : Regs) (i : Bus) : Bool := i.awvalid && s.awready

/-- The data handshake. -/
def takesData (s : Regs) (i : Bus) : Bool := i.wvalid && s.wready

/-- The response handshake. -/
def givesResp (s : Regs) (i : Bus) : Bool := s.bvalid && i.bready

/-! ## Responses -/

/-- The number of handshakes of each kind, and whether the last cycle had a response
handshake. -/
structure Handshakes where
  addrs : Nat
  beats : Nat
  resps : Nat
  answered : Bool
  deriving DecidableEq

/-- What one cycle adds. -/
def Handshakes.note (l : Handshakes) (s : Regs) (i : Bus) : Handshakes where
  addrs := l.addrs + (takesAddr s i).toNat
  beats := l.beats + (takesData s i).toNat
  resps := l.resps + (givesResp s i).toNat
  answered := givesResp s i

/-- The writes whose address and data have both been accepted. -/
def Handshakes.writes (l : Handshakes) : Nat := min l.addrs l.beats

/-- The host and the flags of the FIFO in one cycle. -/
structure Cycle extends Bus where
  full : Bool
  wrRstBusy : Bool
  deriving DecidableEq

/-- The write interface with the count of its handshakes.  The flags of the FIFO come from
outside, in any order. -/
def writePort : Machine (Regs × Handshakes) Cycle :=
  Machine.watch ⟨Regs.reset, fun s c => s.step c.full c.wrRstBusy c.toBus⟩ ⟨0, 0, 0, false⟩
    fun l s c => l.note s c.toBus

/-- The machine is about to respond. -/
def Regs.Owes (s : Regs) : Prop :=
  s.axilWriteState = .wait ∨ s.axilWriteState = .resp ∨ s.bvalid = true

instance (s : Regs) : Decidable s.Owes := inferInstanceAs (Decidable (_ ∨ _))

/-- **One response for each write.**  No response comes before its write has been accepted,
no write is accepted before the response of the write before it, and a write that has no
response yet is going to get one. -/
structure OneResponse (x : Regs × Handshakes) : Prop where
  afterWrite : x.2.resps ≤ x.2.writes
  beforeNext : x.2.writes ≤ x.2.resps + 1
  owed : x.2.resps < x.2.writes → x.1.Owes

instance (x : Regs × Handshakes) : Decidable (OneResponse x) :=
  decidable_of_iff
    (x.2.resps ≤ x.2.writes ∧ x.2.writes ≤ x.2.resps + 1 ∧ (x.2.resps < x.2.writes → x.1.Owes))
    ⟨fun h => ⟨h.1, h.2.1, h.2.2⟩, fun h => ⟨h.afterWrite, h.beforeNext, h.owed⟩⟩

/-- The host suits the machine.  While `wready` is high and the machine already has the data,
the host hands over the beat it has come with, and no other; and in the cycle after
`AXIL_WRITE_RESP` it is ready iff it has not taken the response in the cycle before. -/
structure AnsweredOnce (x : Regs × Handshakes) (c : Cycle) : Prop where
  beat : x.1.axilWriteState = .wait ∨ x.1.axilWriteState = .resp → x.1.wready = true →
    (c.wvalid = true ↔ x.2.beats = x.2.resps)
  ready : x.1.axilWriteState = .idle → x.1.bvalid = true →
    (c.bready = true ↔ x.2.answered = false)

instance (x : Regs × Handshakes) (c : Cycle) : Decidable (AnsweredOnce x c) :=
  decidable_of_iff
    ((x.1.axilWriteState = .wait ∨ x.1.axilWriteState = .resp → x.1.wready = true →
        (c.wvalid = true ↔ x.2.beats = x.2.resps)) ∧
      (x.1.axilWriteState = .idle → x.1.bvalid = true →
        (c.bready = true ↔ x.2.answered = false)))
    ⟨fun h => ⟨h.1, h.2⟩, fun h => ⟨h.beat, h.ready⟩⟩

/-! ## The invariant -/

/-- Where a write stands.  Until its response, the beat that came with its address may still
have to be handed over. -/
def Serves (x : Regs × Handshakes) : Prop :=
  match x.1.axilWriteState with
  | .idle => x.1.awready = true ∧ x.1.wready = false ∧ x.2.beats ≤ x.2.addrs ∧
      x.2.beats = x.2.resps + (x.1.bvalid && !x.2.answered).toNat
  | .wready => x.1.awready = false ∧ x.1.wready = true ∧ x.1.bvalid = false ∧
      x.2.beats = x.2.resps ∧ x.2.resps + 1 ≤ x.2.addrs
  | .wait => x.1.awready = false ∧ x.1.bvalid = false ∧ x.2.resps + 1 ≤ x.2.addrs ∧
      (x.2.beats = x.2.resps + 1 ∨ x.1.wready = true ∧ x.2.beats = x.2.resps)
  | .resp => x.2.resps + 1 ≤ x.2.addrs ∧
      (x.2.beats = x.2.resps + 1 ∨ x.1.wready = true ∧ x.2.beats = x.2.resps)

section Steps

variable {x : Regs × Handshakes} {c : Cycle}

/-- The beat of a write that has been accepted or is handed over in this cycle. -/
theorem beats_of_answeredOnce (hok : AnsweredOnce x c)
    (hstate : x.1.axilWriteState = .wait ∨ x.1.axilWriteState = .resp)
    (hbeat : x.2.beats = x.2.resps + 1 ∨ x.1.wready = true ∧ x.2.beats = x.2.resps) :
    x.2.beats + (takesData x.1 c.toBus).toNat = x.2.resps + 1 := by
  rcases hbeat with hdone | ⟨hready, hdue⟩
  · have hnone : takesData x.1 c.toBus = false := by
      cases hready : x.1.wready with
      | false => simp [takesData, hready]
      | true =>
        have hiff := hok.beat hstate hready
        rw [hdone] at hiff
        have hvalid : c.wvalid ≠ true := fun h => absurd (hiff.mp h) (by omega)
        simpa [takesData, hready] using hvalid
    rw [hnone, hdone]
    rfl
  · have htake : takesData x.1 c.toBus = true := by
      have hvalid := (hok.beat hstate hready).mpr hdue
      simp [takesData, hready, hvalid]
    rw [htake, hdue]
    rfl

theorem Serves.step_idle (h : Serves x) (hok : AnsweredOnce x c)
    (hstate : x.1.axilWriteState = .idle) : Serves (writePort.step x c) := by
  simp only [Serves, hstate] at h
  obtain ⟨haw, hw, hle, hbeats⟩ := h
  have hresps : x.2.beats = x.2.resps + (givesResp x.1 c.toBus).toNat := by
    have hiff := hok.ready hstate
    cases hb : x.1.bvalid with
    | false => simpa [givesResp, hb] using hbeats
    | true =>
      rw [hb] at hbeats hiff
      have heq : c.bready = !x.2.answered := by
        cases hans : x.2.answered <;> simpa [hans] using hiff
      simpa [givesResp, hb, heq] using hbeats
  have hdata : takesData x.1 c.toBus = false := by
    simp [takesData, hw]
  show Serves (x.1.step c.full c.wrRstBusy c.toBus, x.2.note x.1 c.toBus)
  cases hvalid : c.awvalid with
  | false =>
    simp only [Regs.step, hstate, hvalid, Bool.false_and, Bool.false_eq_true, if_false, Serves,
      Handshakes.note, hdata, takesAddr, Bool.toNat_false]
    exact ⟨haw, hw, hle, hresps⟩
  | true =>
    simp only [Regs.step, hstate, hvalid, haw, hw, Bool.and_self, if_true]
    split_ifs <;>
      simp only [Serves, Handshakes.note, hdata, takesAddr, hvalid, haw, Bool.and_self,
        Bool.toNat_true, Bool.toNat_false, Bool.not_false, true_and] <;>
      omega

theorem Serves.step_wready (h : Serves x) (hstate : x.1.axilWriteState = .wready) :
    Serves (writePort.step x c) := by
  simp only [Serves, hstate] at h
  obtain ⟨haw, hw, hb, hbeats, hle⟩ := h
  show Serves (x.1.step c.full c.wrRstBusy c.toBus, x.2.note x.1 c.toBus)
  cases hvalid : c.wvalid with
  | false =>
    simp only [Regs.step, hstate, hvalid, Bool.false_eq_true, if_false, Serves, Handshakes.note,
      takesData, takesAddr, givesResp, haw, hw, hb, Bool.and_false, Bool.false_and,
      Bool.toNat_false, true_and]
    exact ⟨hbeats, hle⟩
  | true =>
    simp only [Regs.step, hstate, hvalid, if_true]
    split_ifs <;>
      simp only [Serves, Handshakes.note, takesData, takesAddr, givesResp, haw, hw, hb, hvalid,
        Bool.and_false, Bool.false_and, Bool.and_self, Bool.toNat_true, Bool.toNat_false,
        true_and] <;>
      omega

theorem Serves.step_wait (h : Serves x) (hok : AnsweredOnce x c)
    (hstate : x.1.axilWriteState = .wait) : Serves (writePort.step x c) := by
  simp only [Serves, hstate] at h
  obtain ⟨haw, hb, hle, hbeat⟩ := h
  have hdone := beats_of_answeredOnce hok (Or.inl hstate) hbeat
  show Serves (x.1.step c.full c.wrRstBusy c.toBus, x.2.note x.1 c.toBus)
  simp only [Regs.step, hstate]
  split_ifs <;>
    simp only [Serves, Handshakes.note, takesAddr, givesResp, haw, hb, Bool.and_false,
      Bool.false_and, Bool.toNat_false, Nat.add_zero, true_and] <;>
    exact ⟨hle, Or.inl hdone⟩

theorem Serves.step_resp (h : Serves x) (hok : AnsweredOnce x c)
    (hstate : x.1.axilWriteState = .resp) : Serves (writePort.step x c) := by
  simp only [Serves, hstate] at h
  obtain ⟨hle, hbeat⟩ := h
  have hdone := beats_of_answeredOnce hok (Or.inr hstate) hbeat
  show Serves (x.1.step c.full c.wrRstBusy c.toBus, x.2.note x.1 c.toBus)
  cases hready : c.bready with
  | false =>
    simp only [Regs.step, hstate, hready, Bool.false_eq_true, if_false, Serves, Handshakes.note,
      givesResp, Bool.and_false, Bool.toNat_false, Nat.add_zero]
    exact ⟨by omega, Or.inl hdone⟩
  | true =>
    simp only [Regs.step, hstate, hready, if_true, Serves, Handshakes.note, givesResp,
      Bool.and_true, true_and]
    cases hb : x.1.bvalid <;>
      simp only [Bool.not_false, Bool.not_true, Bool.and_false, Bool.and_true, Bool.toNat_true,
        Bool.toNat_false] <;>
      omega

/-- **One cycle.** -/
theorem Serves.step (h : Serves x) (hok : AnsweredOnce x c) : Serves (writePort.step x c) := by
  cases hstate : x.1.axilWriteState with
  | idle => exact h.step_idle hok hstate
  | wready => exact h.step_wready hstate
  | wait => exact h.step_wait hok hstate
  | resp => exact h.step_resp hok hstate

/-- What the invariant says about responses. -/
theorem Serves.oneResponse (h : Serves x) : OneResponse x := by
  unfold Serves at h
  cases hstate : x.1.axilWriteState <;> simp only [hstate] at h
  case idle =>
    obtain ⟨-, -, hle, hbeats⟩ := h
    cases hb : x.1.bvalid with
    | false =>
      rw [hb, Bool.false_and, Bool.toNat_false] at hbeats
      exact ⟨by rw [Handshakes.writes]; omega, by rw [Handshakes.writes]; omega,
        fun hlt => absurd hlt (by rw [Handshakes.writes]; omega)⟩
    | true =>
      have hone := Bool.toNat_le (x.1.bvalid && !x.2.answered)
      exact ⟨by rw [Handshakes.writes]; omega, by rw [Handshakes.writes]; omega,
        fun _ => Or.inr (Or.inr hb)⟩
  case wready =>
    obtain ⟨-, -, -, hbeats, hle⟩ := h
    exact ⟨by rw [Handshakes.writes]; omega, by rw [Handshakes.writes]; omega,
      fun hlt => absurd hlt (by rw [Handshakes.writes]; omega)⟩
  case wait =>
    obtain ⟨-, -, hle, hbeat⟩ := h
    exact ⟨by rw [Handshakes.writes]; omega, by rw [Handshakes.writes]; omega,
      fun _ => Or.inl hstate⟩
  case resp =>
    obtain ⟨hle, hbeat⟩ := h
    exact ⟨by rw [Handshakes.writes]; omega, by rw [Handshakes.writes]; omega,
      fun _ => Or.inr (Or.inl hstate)⟩

end Steps

theorem serves_reset : Serves writePort.reset := ⟨rfl, rfl, Nat.le_refl 0, rfl⟩

/-- **Responses.**  With a host that suits the machine, each write gets one response, whatever
else the host does and however full the command FIFO is. -/
theorem oneResponse_run (cs : List Cycle)
    (hok : writePort.Guarded AnsweredOnce writePort.reset cs) :
    writePort.Always OneResponse writePort.reset cs := by
  have hserves : writePort.Always Serves writePort.reset cs :=
    Machine.always_of_guarded (fun _ _ h hc => h.step hc) serves_reset hok
  exact hserves.mono fun _ h => h.oneResponse

/-- A write to `TEMPLATE_REG` and a command that finds the FIFO full. -/
theorem oneResponse_run_two :
    writePort.Always OneResponse writePort.reset
      [⟨⟨true, 512, true, 7, false⟩, false, false⟩, ⟨⟨false, 0, true, 7, true⟩, false, false⟩,
        ⟨⟨true, 0, false, 0, true⟩, false, false⟩, ⟨⟨false, 0, true, 6, true⟩, true, false⟩,
        ⟨⟨false, 0, false, 0, true⟩, true, false⟩, ⟨⟨false, 0, false, 0, true⟩, false, false⟩,
        ⟨⟨false, 0, false, 0, false⟩, false, false⟩, ⟨⟨false, 0, false, 0, true⟩, false, false⟩,
        ⟨⟨false, 0, false, 0, false⟩, false, false⟩] :=
  oneResponse_run _ (by decide)

/-- A host that is always ready gets two responses for a command that has waited for the FIFO,
and one that is ready for one cycle, two cycles after its write, gets none. -/
theorem two_responses_and_none :
    ¬ writePort.Always OneResponse writePort.reset
        [⟨⟨true, 0, true, 6, true⟩, true, false⟩, ⟨⟨false, 0, true, 6, true⟩, false, false⟩,
          ⟨⟨false, 0, false, 0, true⟩, false, false⟩,
          ⟨⟨false, 0, false, 0, true⟩, false, false⟩] ∧
      ¬ writePort.Always OneResponse writePort.reset
        [⟨⟨true, 512, true, 7, false⟩, false, false⟩, ⟨⟨false, 0, true, 7, true⟩, false, false⟩,
          ⟨⟨false, 0, false, 0, false⟩, false, false⟩] := by
  decide

end CommandPort
end RecoNIC
