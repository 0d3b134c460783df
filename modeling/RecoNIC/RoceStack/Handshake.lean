import RecoNIC.RoceStack.Side

/-!
# Handler and lookup in step

A request handler and its lookup machine work on one packet at a time: the packet is taken
from the stack, its address is looked up if need be, and a command goes to the data mover.
The question to the lookup machine is a level, and so is its answer; the packet is taken by
a ready signal that stands in `RQ_IDLE` whatever the handler does with the packet.

What happens at the two outer interfaces is written down as a trace.  `InStep` says that in
this trace every packet is followed by its command, and the command by the next packet, and
that no answer of the lookup machine is left over in `RQ_IDLE`.  The ready signal also stands
in `RQ_WB_DBADD`, where a packet is taken and forgotten, and `inStep_iff` says that this is
all that can go wrong.
-/

namespace RecoNIC
namespace Handshake

open Synchronous
open Side (Cycle)
open RequestHandler hiding Input step

/-! ## The trace -/

/-- What happens at the interfaces to the stack and to the data mover. -/
inductive Event where
  | packet (r : Req)
  | command (w : BitVec 104)

/-- A packet is taken. -/
def taken (s : Side) (c : Cycle) : List Event :=
  if c.1.reqValid && s.handler.reqReady then [.packet c.1.reqData] else []

/-- A command is handed over. -/
def handed (s : Side) (c : Cycle) : List Event :=
  if s.handler.cmdValid && c.1.cmdReady then [.command s.handler.cmdData] else []

/-- A handler and its lookup machine, with their trace. -/
def traced (READ : Bool) : Machine (Side × List Event) Cycle :=
  (Side.machine READ).watch [] fun t s c => t ++ handed s c ++ taken s c

/-- Packets, each with its command. -/
def exchanges (l : List (Req × BitVec 104)) : List Event :=
  l.flatMap fun e => [.packet e.1, .command e.2]

/-! ## The promise -/

/-- Cycles in which the register port and the data mover are ready again and again. -/
structure Fair (q : ℕ → Cycle) : Prop where
  port : ∀ n, ∃ k, n ≤ k ∧ (q k).2.findPdReady = true
  mover : ∀ n, ∃ k, n ≤ k ∧ (q k).1.cmdReady = true

/-- Whatever follows, the next event is a command. -/
def Answered (READ : Bool) (x : Side × List Event) : Prop :=
  ∀ q, Fair q → ∃ n w, ((traced READ).runFrom x ((List.range n).map q)).2 = x.2 ++ [.command w]

/-- Every packet leads to one command, before the next packet is taken, and `RQ_IDLE` finds
the lookup machine without an answer. -/
structure InStep (READ : Bool) (x : Side × List Event) : Prop where
  trace : ∃ l, x.2 = exchanges l ∨ ∃ r, x.2 = exchanges l ++ [.packet r] ∧ Answered READ x
  lookup : x.1.handler.reqState = .idle → x.1.vtp.st = .idle

/-- No packet is offered in `RQ_WB_DBADD`. -/
def Heard (x : Side × List Event) (c : Cycle) : Prop :=
  c.1.reqValid = true → x.1.handler.reqState ≠ .wbDbAdd

instance (x : Side × List Event) (c : Cycle) : Decidable (Heard x c) :=
  inferInstanceAs (Decidable (_ → _))

/-! ## Resting and working -/

/-- The handler waits for a packet. -/
structure Resting (s : Side) : Prop where
  reqState : s.handler.reqState = .idle ∨ s.handler.reqState = .wbDbAdd
  vtp : s.vtp.st = .idle

/-- The handler works on a packet. -/
inductive Working (s : Side) : Prop where
  | lookup (hs : s.handler.reqState = .getPaddr)
      (hv : s.vtp.st = .idle ∨ s.vtp.st = .rdPdn ∨ s.vtp.st = .reqPd ∨ s.vtp.st = .prepResp ∨
        s.vtp.st = .valid)
  | check (hs : s.handler.reqState = .middle) (hv : s.vtp.st = .idle)
  | send (hs : s.handler.reqState = .sendCmd) (hv : s.vtp.st = .idle)

/-- What the work waits for. -/
def Awaits (s : Side) (c : Cycle) : Prop :=
  match s.handler.reqState, s.vtp.st with
  | .getPaddr, .rdPdn | .getPaddr, .prepResp => c.2.findPdReady = true
  | .sendCmd, _ => c.1.cmdReady = true
  | _, _ => True

/-- How far the command is. -/
def rank (s : Side) : ℕ :=
  match s.handler.reqState, s.vtp.st with
  | .getPaddr, .idle => 7
  | .getPaddr, .rdPdn => 6
  | .getPaddr, .reqPd => 5
  | .getPaddr, .prepResp => 4
  | .getPaddr, _ => 3
  | .middle, _ => 2
  | _, _ => 1

section Step

variable {READ : Bool} {s : Side} {c : Cycle}

/-! ### The lookup -/

/-- The lookup machine goes on when the register port answers. -/
theorem lookup_step (hs : s.handler.reqState = .getPaddr) (hv : s.vtp.st ≠ .valid)
    (h : Working s) (ha : Awaits s c) :
    Working (s.step READ c.1 c.2) ∧ rank (s.step READ c.1 c.2) < rank s := by
  have hh : (s.step READ c.1 c.2).handler = s.handler := Side.handler_step_of_lookup hs hv
  have hnext (hst : (s.step READ c.1 c.2).vtp.st = .idle ∨ (s.step READ c.1 c.2).vtp.st = .rdPdn ∨
      (s.step READ c.1 c.2).vtp.st = .reqPd ∨ (s.step READ c.1 c.2).vtp.st = .prepResp ∨
      (s.step READ c.1 c.2).vtp.st = .valid) : Working (s.step READ c.1 c.2) :=
    Working.lookup (by rw [hh, hs]) hst
  have hask : s.lookup.valid = true := by rw [Side.lookup_of_getPaddr hs]
  cases h with
  | lookup _ hv' =>
    rcases hv' with hst | hst | hst | hst | hst
    · -- a new question; the read side may answer it at once
      have hvtp : (s.step READ c.1 c.2).vtp.st = .valid ∨
          (s.step READ c.1 c.2).vtp.st = .rdPdn := by
        cases READ
        · simp [Side.step, Vtp.step, Vtp.wrStep, hst, hask, Vtp.Regs.askQp]
        · by_cases hz : s.lookup.vaddr = 0#64 <;>
            simp [Side.step, Vtp.step, Vtp.rdStep, hst, hask, hz, Vtp.Regs.askQp]
      rcases hvtp with hvtp | hvtp <;>
        exact ⟨hnext (by simp [hvtp]), by simp [rank, hh, hs, hst, hvtp]⟩
    · have hready : c.2.findPdReady = true := by simpa [Awaits, hs, hst] using ha
      have hvtp : (s.step READ c.1 c.2).vtp.st = .valid ∨
          (s.step READ c.1 c.2).vtp.st = .reqPd := by
        cases READ
        · by_cases hz : s.lookup.vaddr = 0#64 <;>
            simp [Side.step, Vtp.step, Vtp.wrStep, hst, hready, hz]
        · simp [Side.step, Vtp.step, Vtp.rdStep, hst, hready]
      rcases hvtp with hvtp | hvtp <;>
        exact ⟨hnext (by simp [hvtp]), by simp [rank, hh, hs, hst, hvtp]⟩
    · have hvtp : (s.step READ c.1 c.2).vtp.st = .prepResp := by
        cases READ <;> simp [Side.step, Vtp.step, Vtp.wrStep, Vtp.rdStep, hst, Vtp.Regs.askPd]
      exact ⟨hnext (by simp [hvtp]), by simp [rank, hh, hs, hst, hvtp]⟩
    · have hready : c.2.findPdReady = true := by simpa [Awaits, hs, hst] using ha
      have hvtp : (s.step READ c.1 c.2).vtp.st = .valid := by
        cases READ <;> simp [Side.step, Vtp.step, Vtp.wrStep, Vtp.rdStep, Vtp.Regs.finish, hst,
          hready]
      exact ⟨hnext (by simp [hvtp]), by simp [rank, hh, hs, hst, hvtp]⟩
    · exact absurd hst hv
  | check hno => simp [hs] at hno
  | send hno => simp [hs] at hno

/-- The answer is taken, and the lookup machine is free again. -/
theorem answer_step (hs : s.handler.reqState = .getPaddr) (hv : s.vtp.st = .valid) :
    Working (s.step READ c.1 c.2) ∧ rank (s.step READ c.1 c.2) < rank s := by
  have hh : (s.step READ c.1 c.2).handler.reqState = .middle := by
    simp [Side.step, Side.handlerIn, RequestHandler.step, hs, Vtp.Regs.respValid, hv]
  have hvtp : (s.step READ c.1 c.2).vtp.st = .idle := by
    cases READ <;> simp [Side.step, Vtp.step, Vtp.rdStep, Vtp.wrStep, Vtp.Regs.finish, hv,
      Handler.respAddrReady, hs]
  exact ⟨.check hh hvtp, by simp [rank, hh, hs, hv]⟩

/-! ### One cycle -/

/-- A packet that is worked on keeps the others out. -/
theorem Working.taken_eq_nil (h : Working s) : taken s c = [] := by
  cases h <;> simp [taken, Handler.reqReady, *]

theorem Resting.handed_eq_nil (h : Resting s) : handed s c = [] := by
  rcases h.reqState with hs | hs <;> simp [handed, Handler.cmdValid, hs]

theorem step_eq_self (hh : (s.step READ c.1 c.2).handler = s.handler)
    (hvtp : (s.step READ c.1 c.2).vtp = s.vtp) : s.step READ c.1 c.2 = s :=
  calc s.step READ c.1 c.2
    _ = ⟨(s.step READ c.1 c.2).handler, (s.step READ c.1 c.2).vtp⟩ := rfl
    _ = s := by rw [hh, hvtp]

/-- A cycle that is not awaited changes nothing. -/
theorem Working.stays (READ : Bool) (h : Working s) (ha : ¬ Awaits s c) :
    s.step READ c.1 c.2 = s ∧ handed s c = [] := by
  cases h with
  | lookup hs hv =>
    refine ⟨?_, by simp [handed, Handler.cmdValid, hs]⟩
    rcases hv with hst | hst | hst | hst | hst <;> simp [Awaits, hs, hst] at ha
    · have hvtp : (s.step READ c.1 c.2).vtp = s.vtp := by
        cases READ <;> simp [Side.step, Vtp.step, Vtp.wrStep, Vtp.rdStep, hst, ha]
      exact step_eq_self (Side.handler_step_of_lookup hs (by simp [hst])) hvtp
    · have hvtp : (s.step READ c.1 c.2).vtp = s.vtp := by
        cases READ <;> simp [Side.step, Vtp.step, Vtp.wrStep, Vtp.rdStep, Vtp.Regs.finish, hst, ha]
      exact step_eq_self (Side.handler_step_of_lookup hs (by simp [hst])) hvtp
  | check hs => simp [Awaits, hs] at ha
  | send hs hv =>
    have hready : c.1.cmdReady = false := by simpa [Awaits, hs] using ha
    have hh : (s.step READ c.1 c.2).handler = s.handler := step_sendCmd_of_not_ready hs hready
    have hvtp : (s.step READ c.1 c.2).vtp = s.vtp :=
      Side.vtp_step_of_not_getPaddr hv (by simp [hs])
    exact ⟨step_eq_self hh hvtp, by simp [handed, hready]⟩

/-- An awaited cycle hands the command over, or brings it nearer. -/
theorem Working.moves (READ : Bool) (h : Working s) (ha : Awaits s c) :
    (handed s c = [.command s.handler.cmdData] ∧ Resting (s.step READ c.1 c.2)) ∨
      handed s c = [] ∧ Working (s.step READ c.1 c.2) ∧ rank (s.step READ c.1 c.2) < rank s := by
  cases h with
  | lookup hs hv =>
    have hno : handed s c = [] := by simp [handed, Handler.cmdValid, hs]
    by_cases hvalid : s.vtp.st = .valid
    · exact Or.inr ⟨hno, answer_step hs hvalid⟩
    · exact Or.inr ⟨hno, lookup_step hs hvalid (.lookup hs hv) ha⟩
  | check hs hv =>
    have hh : (s.step READ c.1 c.2).handler.reqState = .sendCmd := by
      cases hc : checkPasses READ s.handler <;>
        simp [Side.step, RequestHandler.step, hs, hc]
    have hvtp : (s.step READ c.1 c.2).vtp = s.vtp :=
      Side.vtp_step_of_not_getPaddr hv (by simp [hs])
    refine Or.inr ⟨by simp [handed, Handler.cmdValid, hs], .send hh (by rw [hvtp, hv]), ?_⟩
    simp [rank, hh, hs]
  | send hs hv =>
    have hready : c.1.cmdReady = true := by simpa [Awaits, hs] using ha
    have hvtp : (s.step READ c.1 c.2).vtp = s.vtp :=
      Side.vtp_step_of_not_getPaddr hv (by simp [hs])
    refine Or.inl ⟨by simp [handed, Handler.cmdValid, hs, hready], ⟨?_, by rw [hvtp, hv]⟩⟩
    simp only [Side.step, Side.handlerIn, RequestHandler.step, hs, hready]
    split_ifs <;> simp

/-- A packet in `RQ_IDLE` is worked on. -/
theorem Resting.begins (h : Resting s) (hs : s.handler.reqState = .idle)
    (hvalid : c.1.reqValid = true) : Working (s.step READ c.1 c.2) := by
  have hvtp : (s.step READ c.1 c.2).vtp = s.vtp :=
    Side.vtp_step_of_not_getPaddr h.vtp (by simp [hs])
  have hready := Side.reqReady_lookup h.vtp hs
  have hst : (s.step READ c.1 c.2).handler.reqState = .getPaddr ∨
      (s.step READ c.1 c.2).handler.reqState = .middle := by
    simp only [Side.step, Side.handlerIn, RequestHandler.step, hs, hvalid, hready]
    split_ifs <;> simp
  rcases hst with hst | hst
  · exact .lookup hst (Or.inl (by rw [hvtp, h.vtp]))
  · exact .check hst (by rw [hvtp, h.vtp])

/-- Without a packet the handler goes on resting, and `RQ_WB_DBADD` goes to `RQ_IDLE` in any
case. -/
theorem Resting.rests (READ : Bool) (h : Resting s)
    (hvalid : c.1.reqValid = false ∨ s.handler.reqState = .wbDbAdd) :
    Resting (s.step READ c.1 c.2) ∧ (s.step READ c.1 c.2).handler.reqState = .idle := by
  have hvtp : (s.step READ c.1 c.2).vtp = s.vtp := by
    refine Side.vtp_step_of_not_getPaddr h.vtp ?_
    rcases h.reqState with hs | hs <;> simp [hs]
  have hst : (s.step READ c.1 c.2).handler.reqState = .idle := by
    rcases h.reqState with hs | hs
    · have hquiet : c.1.reqValid = false := by simpa [hs] using hvalid
      have hh : (s.step READ c.1 c.2).handler = s.handler := step_idle_of_quiet hs hquiet
      rw [hh, hs]
    · simp [Side.step, RequestHandler.step, hs]
  exact ⟨⟨Or.inl hst, by rw [hvtp, h.vtp]⟩, hst⟩

end Step

/-! ## Runs -/

section Run

variable {READ : Bool} {x : Side × List Event} {c : Cycle}

@[simp] theorem traced_step (x : Side × List Event) (c : Cycle) :
    (traced READ).step x c = (x.1.step READ c.1 c.2, x.2 ++ handed x.1 c ++ taken x.1 c) := rfl

theorem length_exchanges (l : List (Req × BitVec 104)) :
    (exchanges l).length = 2 * l.length := by
  induction l with
  | nil => rfl
  | cons e l ih =>
    simp only [exchanges, List.flatMap_cons, List.length_append, List.length_cons,
      List.length_nil] at ih ⊢
    omega

theorem exchanges_append (l : List (Req × BitVec 104)) (r : Req) (w : BitVec 104) :
    exchanges l ++ [.packet r] ++ [.command w] = exchanges (l ++ [(r, w)]) := by
  simp [exchanges]

/-- A packet that is worked on gets its command. -/
theorem Working.answered (h : Working x.1) : Answered READ x := by
  intro q hq
  refine (traced READ).exists_runFrom_of_fair (fun y => rank y.1)
    (fun y => Working y.1 ∧ y.2 = x.2) (fun y => ∃ w, y.2 = x.2 ++ [.command w])
    (fun y c => Awaits y.1 c) ?_ ?_ ⟨h, rfl⟩ q ?_
  · rintro ⟨s, t⟩ c ⟨hw, ht⟩ ha
    obtain ⟨hstep, hhanded⟩ := hw.stays READ ha
    simp [hstep, hhanded, hw.taken_eq_nil]
  · rintro ⟨s, t⟩ c ⟨hw, rfl⟩ ha
    rcases hw.moves READ ha with ⟨hhanded, -⟩ | ⟨hhanded, hw', hlt⟩
    · exact Or.inl ⟨s.handler.cmdData, by simp [hhanded, hw.taken_eq_nil]⟩
    · exact Or.inr ⟨⟨hw', by simp [hhanded, hw.taken_eq_nil]⟩, hlt⟩
  · rintro ⟨s, t⟩ - n
    by_cases hs : s.handler.reqState = .sendCmd
    · obtain ⟨k, hk, hready⟩ := hq.mover n
      exact ⟨k, hk, by simpa [Awaits, hs] using hready⟩
    · obtain ⟨k, hk, hready⟩ := hq.port n
      refine ⟨k, hk, ?_⟩
      cases hr : s.handler.reqState <;> cases hv : s.vtp.st <;> simp [Awaits, hr, hv, hready]
      all_goals exact absurd hr hs

/-- **The invariant.**  The handler rests behind complete exchanges, or it works on the packet
that was taken last. -/
inductive Inv (x : Side × List Event) : Prop where
  | resting (h : Resting x.1) (l : List (Req × BitVec 104)) (ht : x.2 = exchanges l)
  | working (h : Working x.1) (l : List (Req × BitVec 104)) (r : Req)
      (ht : x.2 = exchanges l ++ [.packet r])

theorem Inv.inStep (h : Inv x) : InStep READ x := by
  cases h with
  | resting h l ht => exact ⟨⟨l, Or.inl ht⟩, fun _ => h.vtp⟩
  | working h l r ht =>
    refine ⟨⟨l, Or.inr ⟨r, ht, h.answered⟩⟩, fun hs => ?_⟩
    cases h with
    | lookup hno => simp [hs] at hno
    | check hno => simp [hs] at hno
    | send hno => simp [hs] at hno

theorem Inv.step (h : Inv x) (hc : Heard x c) : Inv ((traced READ).step x c) := by
  cases h with
  | resting h l ht =>
    by_cases hvalid : c.1.reqValid = true
    · have hs : x.1.handler.reqState = .idle := by simpa [hc hvalid] using h.reqState
      refine .working (h.begins hs hvalid) l c.1.reqData ?_
      simp [h.handed_eq_nil, taken, hvalid, Handler.reqReady, hs, ht]
    · have hquiet : c.1.reqValid = false := by simpa using hvalid
      refine .resting (h.rests READ (Or.inl hquiet)).1 l ?_
      simp [h.handed_eq_nil, taken, hquiet, ht]
  | working h l r ht =>
    by_cases ha : Awaits x.1 c
    · rcases h.moves READ ha with ⟨hhanded, hrest⟩ | ⟨hhanded, hw, -⟩
      · refine .resting hrest (l ++ [(r, x.1.handler.cmdData)]) ?_
        rw [traced_step, h.taken_eq_nil, hhanded, ht, List.append_nil, exchanges_append]
      · exact .working hw l r (by simp [hhanded, h.taken_eq_nil, ht])
    · obtain ⟨hstep, hhanded⟩ := h.stays READ ha
      exact .working (by rw [traced_step, hstep]; exact h) l r
        (by simp [hhanded, h.taken_eq_nil, ht])

/-- Cycles without a packet. -/
def silence : ℕ → Cycle := fun _ =>
  (⟨false, default, true⟩, ⟨true, fun _ => 0, fun _ => 0, fun _ => 0⟩)

theorem fair_silence : Fair silence :=
  ⟨fun n => ⟨n, le_rfl, rfl⟩, fun n => ⟨n, le_rfl, rfl⟩⟩

/-- Nothing comes of nothing. -/
theorem Resting.runFrom_silence (h : Resting x.1) (hs : x.1.handler.reqState = .idle) (n : ℕ) :
    (traced READ).runFrom x ((List.range n).map silence) = x := by
  refine (traced READ).runFrom_eq_self fun c hc => ?_
  obtain ⟨t, -, rfl⟩ := List.mem_map.mp hc
  have hh : (x.1.step READ (silence t).1 (silence t).2).handler = x.1.handler :=
    step_idle_of_quiet hs rfl
  have hvtp : (x.1.step READ (silence t).1 (silence t).2).vtp = x.1.vtp :=
    Side.vtp_step_of_not_getPaddr h.vtp (by simp [hs])
  refine Prod.ext (step_eq_self hh hvtp) ?_
  rw [traced_step, h.handed_eq_nil]
  simp [taken, silence]

/-- A packet that is taken in `RQ_WB_DBADD` is never answered. -/
theorem Inv.lost (h : Inv x) (hc : ¬ Heard x c) : ¬ InStep READ ((traced READ).step x c) := by
  obtain ⟨hvalid, hs⟩ : c.1.reqValid = true ∧ x.1.handler.reqState = .wbDbAdd := by
    simpa [Heard] using hc
  cases h with
  | working h =>
    cases h with
    | lookup hno => simp [hs] at hno
    | check hno => simp [hs] at hno
    | send hno => simp [hs] at hno
  | resting h l ht =>
    obtain ⟨hrest, hidle⟩ : Resting ((traced READ).step x c).1 ∧ _ := h.rests READ (Or.inr hs)
    have htrace : ((traced READ).step x c).2 = exchanges l ++ [.packet c.1.reqData] := by
      simp [h.handed_eq_nil, taken, hvalid, Handler.reqReady, hs, ht]
    rintro ⟨⟨l', htrace' | ⟨r, -, hans⟩⟩, -⟩
    · -- the trace of complete exchanges is even
      have hlen := congrArg List.length (htrace.symm.trans htrace')
      simp only [List.length_append, length_exchanges, List.length_cons, List.length_nil] at hlen
      omega
    · obtain ⟨n, w, hn⟩ := hans silence fair_silence
      rw [hrest.runFrom_silence hidle] at hn
      simpa using congrArg List.length hn

end Run

/-- **Handler and lookup in step, exactly.**  On either side, for every stream of packets, every
pattern of the data mover and every delay of the register port: in every state of a run each
packet taken leads to one command, before the next packet is taken, and `RQ_IDLE` finds the
lookup machine without an answer, iff no packet is offered in `RQ_WB_DBADD`. -/
theorem inStep_iff (READ : Bool) (cs : List Cycle) :
    (traced READ).Always (InStep READ) (traced READ).reset cs ↔
      (traced READ).Guarded Heard (traced READ).reset cs :=
  Machine.always_iff_guarded (fun _ (h : Inv _) => h.inStep)
    (fun _ _ h _ hc => h.step hc) (fun _ _ h _ hc => h.lost hc)
    (.resting ⟨Or.inl rfl, rfl⟩ [] rfl) (Machine.guarded_true _ _)

/-! ### A packet behind a SEND -/

/-- A SEND of 64 bytes in one packet. -/
def sendOnly : Req :=
  { (default : Req) with opcode := rcSendOnly, vaddr := 0, len := 64, last := true }

/-- An inbound write of 64 bytes in one packet. -/
def writeOnly : Req :=
  { (default : Req) with opcode := rcRdmaWriteOnly, vaddr := 0x1000, len := 64, last := true }

/-- A cycle with a packet, and everybody ready. -/
def offer (r : Req) : Cycle := (⟨true, r, true⟩, (silence 0).2)

/-- The SEND and the cycles of its command. -/
def oneSend : List Cycle := offer sendOnly :: (List.range 5).map silence

/-- **The write behind the SEND is forgotten.**  It is offered in the cycle in which the
handler reports the receive buffer of the SEND, and it is taken. -/
theorem packet_behind_send_forgotten :
    ¬ (traced false).Always (InStep false) (traced false).reset (oneSend ++ [offer writeOnly]) := by
  intro h
  have hlast := h.last
  rw [Machine.runFrom_append] at hlast
  have hinv : Inv ((traced false).run oneSend) :=
    .resting ⟨Or.inr (by decide), by decide⟩ [(sendOnly, cmdWord 0 64)] (by rfl)
  exact Inv.lost (c := offer writeOnly) hinv (by decide) hlast

end Handshake
end RecoNIC
