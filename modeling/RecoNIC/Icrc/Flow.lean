import RecoNIC.Icrc.Frames
import RecoNIC.Icrc.BackPressure

/-!
# Packets in the pipeline

The other side is always ready, so a word that has come out of the CRC paths leaves without
delay.  Then everything the pipeline holds is a list of words that will be sent, and the
context for the next word can be read from two registers.

The state of the three CRC paths is a `Phase`.  The 512-bit and the 320-bit path hold a word
for one cycle.  The 32-bit path holds a word for as many cycles as it has lanes and one
more, and during this time `crc32_in_flight` keeps other words out.  It is set one cycle
late: a word that is accepted right behind a word for the 32-bit path waits in the masking
stage and is taken once in each cycle.

`Clear` cycles keep out the three kinds of words that come too early: that one, a word
behind a packet of several words, which is not masked, and a word that meets the extra word
at the write port.
-/

namespace RecoNIC
namespace Icrc

open Synchronous

/-! ## What a state holds -/

namespace State

variable (s : State)

/-- The word in the masking stage. -/
def maskingWord : Word := ⟨s.masking.data, s.masking.keep, s.masking.last⟩

/-- What the words so far leave for the word in the masking stage. -/
def context : Context := if s.crcFollowUpWord then ⟨s.crc512.crc, false⟩ else .start

/-- The word in the masking stage, as it will be joined. -/
def upcoming : List Stage :=
  if s.masking.valid then
    [⟨true, s.masking.data, ~~~s.context.crcAfter s.maskingWord, s.masking.keep, s.masking.last⟩]
  else []

/-- No word is on the 32-bit path. -/
structure Quiet32 : Prop where
  valid : ∀ n, (s.crc32 n).valid = false
  earlyDone : s.crc32EarlyDone = false
  inFlight : s.crc32InFlight = false

/-- Nothing is on the other paths or comes from the masking stage, and no packet is open. -/
structure Alone : Prop where
  crc512 : s.crc512.valid = false
  crc320 : s.crc320.valid = false
  masking : s.masking.valid = false
  followUp : s.crcFollowUpWord = false

end State

/-- The words that a joined stage becomes. -/
def Stage.words (r : Stage) : List Word :=
  if r.last then lastWords ⟨r.data, r.keep, true⟩ r.crc else [⟨r.data, r.keep, false⟩]

/-- A word of `n` lanes on the 32-bit path. -/
structure Flight where
  n : Nat
  data : BitVec 512
  masked : BitVec 512
  seed : BitVec 32
  pos : 1 ≤ n
  short : n ≤ 15

namespace Flight

variable (w : Flight)

/-- The CRC behind the first `k` lanes. -/
def crc (k : Nat) : BitVec 32 := Crc.run polynomial w.seed ((dataBits w.masked).take (32 * k))

/-- The word as it will be joined. -/
def result : Stage := ⟨true, w.data, ~~~w.crc w.n, ones w.n, true⟩

/-- The word in a stage, the CRC behind `k` lanes. -/
def stage (k : Nat) : Crc32Stage := ⟨⟨true, w.data, w.crc k, ones w.n, true⟩, w.masked⟩

/-- Stage `k` holds the word, and no other stage holds one. -/
structure In (s : State) (k lanes : Nat) : Prop where
  stage : ∀ j : Fin 16, j.val = k → s.crc32 j = w.stage lanes
  valid : ∀ j : Fin 16, (s.crc32 j).valid = decide (j.val = k)

end Flight

theorem Flight.In.valid_eq_false {w : Flight} {s : State} {k lanes : Nat} (h : w.In s k lanes)
    {j : Fin 16} (hj : j.val ≠ k) : (s.crc32 j).valid = false := by
  rw [h.valid, decide_eq_false hj]

/-- `Phase s f left`: the paths hold the words `f`, and the last of them is joined in the
`left`-th cycle from now. -/
inductive Phase (s : State) : List Stage → Nat → Prop
  | idle (hquiet : s.Quiet32) (h512 : s.crc512.valid = false) (h320 : s.crc320.valid = false) :
      Phase s [] 0
  | wide (hquiet : s.Quiet32) (hvalid : (s.crc512.valid || s.crc320.valid) = true) :
      Phase s [s.nextJoin] 1
  | lanes (w : Flight) (k : Nat) (hk : k < w.n) (halone : s.Alone) (hin : w.In s k (k + 1))
      (hearly : s.crc32EarlyDone = false) (hflight : s.crc32InFlight = true) :
      Phase s [w.result] (w.n - k + 1)
  | done (w : Flight) (halone : s.Alone) (hin : w.In s w.n w.n)
      (hearly : s.crc32EarlyDone = true) (hcounter : s.crc32CounterWord.val = w.n)
      (hflight : s.crc32InFlight = true) : Phase s [w.result] 1
  | late (halone : s.Alone) (hvalid : ∀ n, (s.crc32 n).valid = false)
      (hlast : (s.crc32 15).last = false) (hearly : s.crc32EarlyDone = true)
      (hcounter : s.crc32CounterWord = 15) (hflight : s.crc32InFlight = false) : Phase s [] 0

/-! ## One cycle of the 32-bit path -/

namespace State

variable {s : State}

theorem doneStage_eq_none (h : ∀ n : Fin 16, n ≠ 0 → s.doneAt (n - 1) n = false) :
    s.doneStage = none := by
  rw [doneStage, List.find?_eq_none]
  intro n _
  by_cases hn : n = 0
  · simp [hn]
  · simp [h n hn]

theorem doneStage_eq_some {n : Fin 16} (hn : n ≠ 0) (h : s.doneAt (n - 1) n = true)
    (honly : ∀ m : Fin 16, m ≠ 0 → s.doneAt (m - 1) m = true → m = n) :
    s.doneStage = some n := by
  cases hfind : s.doneStage with
  | none =>
    have hnot := List.find?_eq_none.mp hfind n (by simp)
    simp [hn, h] at hnot
  | some m =>
    have hm := List.find?_some hfind
    simp only [Bool.and_eq_true, bne_iff_ne, ne_eq] at hm
    rw [honly m hm.1 hm.2]

theorem val_pred {n : Fin 16} (h : n ≠ 0) : (n - 1).val = n.val - 1 := by
  revert n
  decide

/-- Nothing on the path is done. -/
theorem Quiet32.step_earlyDone (hq : s.Quiet32) (i : Input) :
    (s.step i).crc32EarlyDone = false := by
  have hnone : s.doneStage = none := doneStage_eq_none fun n _ => by simp [doneAt, hq.valid]
  change s.nextEarlyDone = false
  simp [nextEarlyDone, hnone, hq.earlyDone]

/-- Nothing comes into a later stage. -/
theorem Quiet32.step_valid (hq : s.Quiet32) (i : Input) {n : Fin 16} (hn : n ≠ 0) :
    ((s.step i).crc32 n).valid = false := by
  change (s.nextCrc32 n).valid = false
  rw [nextCrc32, if_neg hn, nextCrc32Later, hq.earlyDone]
  exact hq.valid _

/-- Nothing on the path and nothing for it. -/
theorem Quiet32.step (hq : s.Quiet32) (i : Input) (h32 : s.to32 = false) :
    (s.step i).Quiet32 := by
  refine ⟨fun n => ?_, hq.step_earlyDone i, ?_⟩
  · by_cases hn : n = 0
    · change (s.nextCrc32 n).valid = false
      rw [nextCrc32, if_pos hn, nextCrc32First, h32]
      rfl
    · exact hq.step_valid i hn
  · change s.nextInFlight = false
    simp [nextInFlight, h32, hq.inFlight]

end State

/-- A word enters the 32-bit path. -/
theorem Flight.enter {s : State} (w : Flight) (hq : s.Quiet32) (i : Input) (h32 : s.to32 = true)
    (hvalid : s.masking.valid = true) (hlast : s.masking.last = true)
    (hdata : s.masking.data = w.data) (hkeep : s.masking.keep = ones w.n) (hd : s.d = w.masked)
    (hc : s.c = w.seed) :
    w.In (s.step i) 0 1 ∧ (s.step i).crc32EarlyDone = false ∧
      (s.step i).crc32InFlight = true := by
  refine ⟨⟨fun j hj => ?_, fun j => ?_⟩, hq.step_earlyDone i, ?_⟩
  · change s.nextCrc32 j = _
    have hj' : j = 0 := Fin.ext hj
    have hcrc : nextCrc crc32Rows (lane 0 w.masked) w.seed = w.crc 1 := by
      have hlane := run_lane w.seed w.masked (n := 0) (by decide)
      rw [Nat.mul_zero, List.take_zero, Crc.run_nil] at hlane
      exact hlane
    rw [State.nextCrc32, if_pos hj', State.nextCrc32First, if_pos h32, State.handOn, hvalid, hdata,
      hkeep, hlast, hd, hc, hcrc]
    rfl
  · by_cases hj : j = 0
    · change (s.nextCrc32 j).valid = _
      rw [State.nextCrc32, if_pos hj, State.nextCrc32First, if_pos h32, hj]
      exact hvalid
    · have hj' : j.val ≠ 0 := fun h => hj (Fin.ext h)
      rw [hq.step_valid i hj, decide_eq_false hj']
  · change s.nextInFlight = true
    simp [State.nextInFlight, State.leavesEarly, State.leavesLate, hq.earlyDone, hq.valid, h32]

namespace Flight

variable {s : State} (w : Flight)

theorem keepStage_result (k : Nat) (hk : k < 16) :
    (keepStage k (ones w.n) == 0xf#4) = decide (k < w.n) :=
  keepStage_ones w.n (Nat.le_trans w.short (by decide)) k hk

/-- A word with lanes left is not in the last stage. -/
theorem last_invalid {k lanes : Nat} (hin : w.In s k lanes) (hk : k < w.n) :
    (s.crc32 15).valid = false := by
  refine hin.valid_eq_false ?_
  have hshort := w.short
  change 15 ≠ k
  omega

theorem crc_succ (k : Nat) (hk : k < 16) :
    nextCrc crc32Rows (lane k w.masked) (w.crc k) = w.crc (k + 1) :=
  run_lane w.seed w.masked hk

/-- The stage behind the one that holds the word. -/
theorem later {k : Nat} (hin : w.In s k (k + 1)) (hearly : s.crc32EarlyDone = false)
    (j : Fin 16) (hj : j.val = k + 1) :
    s.nextCrc32 j = w.stage (if k + 1 < w.n then k + 2 else k + 1) := by
  have hne : j ≠ 0 := by
    rintro rfl
    exact Nat.succ_ne_zero k hj.symm
  have hpred : (j - 1).val = k := by
    rw [State.val_pred hne, hj]
    rfl
  rw [State.nextCrc32, if_neg hne, State.nextCrc32Later, hin.stage _ hpred, hearly]
  have hkeep := w.keepStage_result j j.isLt
  rw [hj] at hkeep ⊢
  by_cases hlt : k + 1 < w.n
  · rw [if_pos hlt]
    rw [decide_eq_true hlt] at hkeep
    simp only [stage, if_true, hkeep, Bool.false_eq_true, if_false]
    rw [w.crc_succ (k + 1) (by have := j.isLt; omega)]
  · rw [if_neg hlt]
    rw [decide_eq_false hlt] at hkeep
    simp [stage, hkeep]

/-- The word moves on by a stage. -/
theorem moves {k : Nat} (hin : w.In s k (k + 1)) (halone : s.Alone)
    (hearly : s.crc32EarlyDone = false) (i : Input) :
    w.In (s.step i) (k + 1) (if k + 1 < w.n then k + 2 else k + 1) where
  stage := fun j hj => w.later hin hearly j hj
  valid := by
    intro j
    change (s.nextCrc32 j).valid = _
    by_cases hj : j = 0
    · have h32 : s.to32 = false := by simp [State.to32, halone.masking]
      rw [State.nextCrc32, if_pos hj, State.nextCrc32First, h32, hj]
      rfl
    · have hvalid : (s.nextCrc32 j).valid = (s.crc32 (j - 1)).valid := by
        rw [State.nextCrc32, if_neg hj, State.nextCrc32Later, hearly]
        rfl
      rw [hvalid, hin.valid, State.val_pred hj, decide_eq_decide]
      have hj' : j.val ≠ 0 := fun h => hj (Fin.ext h)
      omega

/-- A stage finds the word done exactly if it is the next one and the word has no more
lanes. -/
theorem doneAt_iff {k : Nat} (hin : w.In s k (k + 1)) (j : Fin 16) (hj : j ≠ 0) :
    s.doneAt (j - 1) j = true ↔ j.val = k + 1 ∧ w.n ≤ k + 1 := by
  have hj' : j.val ≠ 0 := fun h => hj (Fin.ext h)
  rw [State.doneAt, hin.valid, State.val_pred hj]
  by_cases hk : j.val = k + 1
  · have hpred : (j - 1).val = k := by
      rw [State.val_pred hj, hk]
      rfl
    have hkeep := w.keepStage_result j j.isLt
    rw [hin.stage _ hpred]
    simp only [stage, bne, hkeep]
    simp [hk]
  · have hne : ¬ j.val - 1 = k := by omega
    simp [hk, hne]

/-- A word with lanes left is not done. -/
theorem step_of_lt {k : Nat} (hin : w.In s k (k + 1)) (halone : s.Alone)
    (hearly : s.crc32EarlyDone = false) (hflight : s.crc32InFlight = true) (i : Input)
    (hlt : k + 1 < w.n) :
    w.In (s.step i) (k + 1) (k + 2) ∧ (s.step i).crc32EarlyDone = false ∧
      (s.step i).crc32InFlight = true := by
  have hnone : s.doneStage = none := State.doneStage_eq_none fun j hj => by
    have hnot : ¬ s.doneAt (j - 1) j = true := by
      rw [w.doneAt_iff hin j hj]
      omega
    simpa using hnot
  have h15 : (s.crc32 15).valid = false := w.last_invalid hin (by omega)
  have hmoves := w.moves hin halone hearly i
  rw [if_pos hlt] at hmoves
  refine ⟨hmoves, ?_, ?_⟩
  · change s.nextEarlyDone = false
    simp [State.nextEarlyDone, hnone, hearly]
  · change s.nextInFlight = true
    simp [State.nextInFlight, State.leavesEarly, State.leavesLate, hearly, h15, hflight]

/-- Behind its last lane it is done. -/
theorem step_of_eq {k : Nat} (hin : w.In s k (k + 1)) (halone : s.Alone)
    (hearly : s.crc32EarlyDone = false) (hflight : s.crc32InFlight = true) (i : Input)
    (heq : k + 1 = w.n) :
    w.In (s.step i) w.n w.n ∧ (s.step i).crc32EarlyDone = true ∧
      (s.step i).crc32CounterWord.val = w.n ∧ (s.step i).crc32InFlight = true := by
  have hshort := w.short
  have hsome : s.doneStage = some ⟨k + 1, by omega⟩ := by
    have hne : (⟨k + 1, by omega⟩ : Fin 16) ≠ 0 := by
      intro h
      exact Nat.succ_ne_zero k (congrArg Fin.val h)
    refine State.doneStage_eq_some hne ?_ fun m hm hdone => ?_
    · rw [w.doneAt_iff hin _ hne]
      exact ⟨rfl, by omega⟩
    · exact Fin.ext ((w.doneAt_iff hin m hm).mp hdone).1
  have h15 : (s.crc32 15).valid = false := w.last_invalid hin (by omega)
  have hleaves : s.leavesEarly = false := by simp [State.leavesEarly, hearly]
  have hmoves := w.moves hin halone hearly i
  rw [if_neg (by omega), heq] at hmoves
  refine ⟨hmoves, ?_, ?_, ?_⟩
  · change s.nextEarlyDone = true
    simp [State.nextEarlyDone, hleaves, hearly, hsome]
  · change s.nextCounterWord.val = w.n
    simp [State.nextCounterWord, hleaves, hearly, hsome, heq]
  · change s.nextInFlight = true
    simp [State.nextInFlight, hleaves, State.leavesLate, h15, hflight]

/-- A word that is done is joined. -/
theorem nextJoin_of_done (hin : w.In s w.n w.n) (halone : s.Alone)
    (hearly : s.crc32EarlyDone = true) (hcounter : s.crc32CounterWord.val = w.n) :
    s.nextJoin = w.result := by
  have hjoined : s.joined = (w.stage w.n).toStage := by
    rw [State.joined, halone.crc512, halone.crc320]
    by_cases h15 : (s.crc32 15).valid = true
    · have hn : (15 : Fin 16).val = w.n := by simpa [hin.valid] using h15
      rw [if_neg Bool.false_ne_true, if_neg Bool.false_ne_true, if_pos h15, hin.stage 15 hn]
    · rw [if_neg Bool.false_ne_true, if_neg Bool.false_ne_true, if_neg h15, if_pos hearly,
        hin.stage _ hcounter]
  rw [State.nextJoin, hearly, Bool.or_true, if_pos rfl, hjoined]
  simp only [stage, result, Stage.mk.injEq, true_and, and_true]
  exact BitVec.xor_allOnes

end Flight

/-! ## One cycle of the paths -/

/-- The masking stage holds a word of a packet, masked if it is the first one. -/
structure MaskOk (s : State) : Prop where
  formed : s.masking.valid = true → Formed s.maskingWord
  masked : s.masking.valid = true → s.crcFollowUpWord = false →
    s.masking.maskedData = s.masking.data ||| bitmask

theorem State.valid_of_to32 {s : State} (h32 : s.to32 = true) : s.masking.valid = true := by
  simp only [State.to32, Bool.and_eq_true] at h32
  exact h32.1.1

/-- A word for the 32-bit path is the last one of its packet. -/
theorem MaskOk.last_of_to32 {s : State} (h : MaskOk s) (h32 : s.to32 = true) :
    s.masking.last = true := by
  have hv := State.valid_of_to32 h32
  by_contra hlast
  have hfull : s.masking.keep = ones 16 :=
    (h.formed hv).full (by simpa [State.maskingWord] using hlast)
  simp [State.to32, hfull] at h32

/-- A word that is accepted in the very next cycle behind the last word of a packet: that
packet has one word only, the word is not for the 32-bit path, and if it is full then the
new one is for the 32-bit path. -/
def Clear (s : State) (i : Input) : Prop :=
  i.tvalid = true → s.rxReady = true → s.masking.valid = true → s.masking.last = true →
    s.crcFollowUpWord = false ∧ s.to32 = false ∧
      (s.to512 = true → i.beat.keep ≠ ones 16 ∧ i.beat.keep ≠ ones 10)

instance (s : State) (i : Input) : Decidable (Clear s i) :=
  inferInstanceAs (Decidable (_ → _ → _ → _ → _ ∧ _ ∧ _))

namespace State

variable {s : State}

theorem d_eq (h : MaskOk s) (hv : s.masking.valid = true) :
    s.d = s.context.masked s.maskingWord := by
  unfold d context Context.masked
  cases hf : s.crcFollowUpWord with
  | true => rfl
  | false => exact h.masked hv hf

theorem c_eq : s.c = s.context.crc := by
  unfold c context
  cases s.crcFollowUpWord <;> rfl

/-- The CRC that each path computes. -/
theorem crcAfter_eq {n : Nat} (hm : MaskOk s) (hv : s.masking.valid = true)
    (hkeep : s.masking.keep = ones n) (h1 : 1 ≤ n) (h16 : n ≤ 16) :
    s.context.crcAfter s.maskingWord =
      Crc.run polynomial s.c ((dataBits s.d).take (32 * n)) := by
  have hwidth : width s.maskingWord.keep = n := by
    change width s.masking.keep = n
    rw [hkeep, width_ones h1 h16]
  rw [Context.crcAfter, hwidth, d_eq hm hv, c_eq]

theorem step_crc512_valid (i : Input) : (s.step i).crc512.valid = s.to512 := by
  change s.nextCrc512.valid = s.to512
  unfold nextCrc512
  cases h : s.to512 with
  | true => exact (Bool.and_eq_true_iff.mp h).1
  | false => cases s.masking.valid <;> rfl

theorem step_crc320_valid (i : Input) : (s.step i).crc320.valid = s.to320 := by
  change s.nextCrc320.valid = s.to320
  unfold nextCrc320
  cases h : s.to320 with
  | true => exact (Bool.and_eq_true_iff.mp h).1
  | false => rfl

theorem paths_of_not_valid (h : s.masking.valid = false) :
    s.to512 = false ∧ s.to320 = false ∧ s.to32 = false := by
  simp [to512, to320, to32, h]

/-- Without a word on the 32-bit path only the other two are joined. -/
theorem Quiet32.nextJoin_valid (h : s.Quiet32) :
    s.nextJoin.valid = (s.crc512.valid || s.crc320.valid) := by
  unfold nextJoin joined
  rw [h.valid 15, h.earlyDone]
  cases h512 : s.crc512.valid <;> cases h320 : s.crc320.valid <;> simp [h512, h320, Stage.zero]

/-- What does not join leaves the join stage empty. -/
theorem nextJoin_eq_zero (h512 : s.crc512.valid = false) (h320 : s.crc320.valid = false)
    (h15 : (s.crc32 15).valid = false) (hearly : s.crc32EarlyDone = false) :
    s.nextJoin = .zero := by
  simp [nextJoin, h512, h320, h15, hearly]

/-- A word on the 32-bit path keeps others out. -/
theorem Alone.step (h : s.Alone) (hflight : s.crc32InFlight = true) (i : Input) :
    (s.step i).Alone where
  crc512 := by rw [step_crc512_valid, (paths_of_not_valid h.masking).1]
  crc320 := by rw [step_crc320_valid, (paths_of_not_valid h.masking).2.1]
  masking := by
    change (s.nextMasking i).valid = false
    simp [nextMasking, rxReady, hflight, h.masking]
  followUp := by
    change (if s.masking.valid then !s.masking.last else s.crcFollowUpWord) = false
    rw [h.masking]
    exact h.followUp

/-- Early done, the stages are emptied. -/
theorem Alone.cleared (h : s.Alone) (hearly : s.crc32EarlyDone = true) (n : Fin 16) :
    (s.nextCrc32 n).valid = false ∧ (s.nextCrc32 n).last = false := by
  unfold nextCrc32
  by_cases hn : n = 0
  · rw [if_pos hn, nextCrc32First, (paths_of_not_valid h.masking).2.2]
    exact ⟨rfl, rfl⟩
  · rw [if_neg hn, nextCrc32Later, hearly]
    exact ⟨rfl, rfl⟩

/-- Early done with nothing in the last stage, the paths are idle next. -/
theorem Alone.step_idle (h : s.Alone) (hearly : s.crc32EarlyDone = true)
    (h15 : (s.crc32 15).valid = false) (i : Input) : Phase (s.step i) [] 0 := by
  have hleaves : s.leavesEarly = true := by
    simp [leavesEarly, h.crc512, h.crc320, h15, hearly]
  refine .idle ⟨fun n => (h.cleared hearly n).1, ?_, ?_⟩ ?_ ?_
  · change s.nextEarlyDone = false
    rw [nextEarlyDone, if_pos hleaves]
  · change s.nextInFlight = false
    rw [nextInFlight, hleaves, Bool.true_or, if_pos rfl]
  · rw [step_crc512_valid, (paths_of_not_valid h.masking).1]
  · rw [step_crc320_valid, (paths_of_not_valid h.masking).2.1]

/-- Early done with nothing in the stages, nothing is joined. -/
theorem Alone.nextJoin_empty (h : s.Alone) (hearly : s.crc32EarlyDone = true)
    (hvalid : ∀ n, (s.crc32 n).valid = false) (hlast : (s.crc32 15).last = false)
    (hcounter : s.crc32CounterWord = 15) :
    s.nextJoin.valid = false ∧ s.nextJoin.last = false := by
  simp [nextJoin, joined, h.crc512, h.crc320, hvalid, hearly, hcounter, hlast]

theorem upcoming_of_not_valid (h : s.masking.valid = false) : s.upcoming = [] := by
  simp [upcoming, h]

/-- The word in the masking stage, as the paths hand it to the join. -/
theorem upcoming_of_valid (hv : s.masking.valid = true) :
    s.upcoming = [{ s.handOn (s.context.crcAfter s.maskingWord) with
      crc := s.context.crcAfter s.maskingWord ^^^ 0xffffffff#32 }] := by
  rw [upcoming, if_pos hv, handOn, hv]
  exact congrArg (fun c => [(⟨true, s.masking.data, c, s.masking.keep, s.masking.last⟩ : Stage)])
    BitVec.xor_allOnes.symm

/-- A word goes into one of the two wide paths. -/
theorem Quiet32.step_wide (hq : s.Quiet32) (hm : MaskOk s) (i : Input)
    (hv : s.masking.valid = true) (h : (s.to512 || s.to320) = true) :
    Phase (s.step i) s.upcoming 1 := by
  have h32 : s.to32 = false := by
    cases h512 : s.to512 <;> cases h320 : s.to320 <;> simp_all [to512, to320, to32]
  have hnext : s.upcoming = [(s.step i).nextJoin] := by
    have hq' := hq.step i h32
    cases h512 : s.to512 with
    | true =>
      have hkeep : s.masking.keep = ones 16 := by
        simpa using (Bool.and_eq_true_iff.mp h512).2
      have hstage : (s.step i).crc512 = s.handOn (s.context.crcAfter s.maskingWord) := by
        change s.nextCrc512 = _
        rw [nextCrc512, if_pos h512, crcAfter_eq hm hv hkeep (by decide) (by decide), run_full]
      have hvalid : (s.step i).crc512.valid = true := by rw [step_crc512_valid, h512]
      rw [upcoming_of_valid hv, nextJoin, hvalid, Bool.true_or, Bool.true_or, Bool.true_or,
        if_pos rfl, joined, if_pos hvalid, hstage]
      rfl
    | false =>
      have h320 : s.to320 = true := by simpa [h512] using h
      have hkeep : s.masking.keep = ones 10 := by
        simpa using (Bool.and_eq_true_iff.mp h320).2
      have hstage : (s.step i).crc320 = s.handOn (s.context.crcAfter s.maskingWord) := by
        change s.nextCrc320 = _
        rw [nextCrc320, if_pos h320, crcAfter_eq hm hv hkeep (by decide) (by decide), run_header]
      have hnot : (s.step i).crc512.valid = false := by rw [step_crc512_valid, h512]
      have hvalid : (s.step i).crc320.valid = true := by rw [step_crc320_valid, h320]
      rw [upcoming_of_valid hv, nextJoin, hvalid, Bool.or_true, Bool.true_or, Bool.true_or,
        if_pos rfl, joined, hnot, if_neg Bool.false_ne_true, if_pos hvalid, hstage]
      rfl
  rw [hnext]
  refine .wide (hq.step i h32) ?_
  rw [step_crc512_valid, step_crc320_valid, h]

/-- A word goes into the 32-bit path. -/
theorem Quiet32.step_lanes (hq : s.Quiet32) (hm : MaskOk s) (i : Input)
    (hv : s.masking.valid = true) (h32 : s.to32 = true) (hnone : (s.nextMasking i).valid = false) :
    ∃ left, Phase (s.step i) s.upcoming left ∧ left ≤ 16 := by
  obtain ⟨n, h1, h16, hkeep⟩ := (hm.formed hv).keep
  change s.masking.keep = ones n at hkeep
  have hne16 : n ≠ 16 := by
    rintro rfl
    simp [to32, hkeep] at h32
  have hlast : s.masking.last = true := hm.last_of_to32 h32
  let w : Flight := ⟨n, s.masking.data, s.d, s.c, h1, by omega⟩
  obtain ⟨hin, hearly, hflight⟩ := w.enter hq i h32 hv hlast rfl hkeep rfl rfl
  have halone : (s.step i).Alone := by
    refine ⟨?_, ?_, hnone, ?_⟩
    · rw [step_crc512_valid]
      simp_all [to512, to32]
    · rw [step_crc320_valid]
      simp_all [to320, to32]
    · change (if s.masking.valid then !s.masking.last else s.crcFollowUpWord) = false
      simp [hv, hlast]
  have hup : s.upcoming = [w.result] := by
    rw [upcoming, if_pos hv, crcAfter_eq hm hv hkeep h1 h16, hkeep, hlast]
    rfl
  rw [hup]
  refine ⟨_, .lanes w 0 h1 halone hin hearly hflight, ?_⟩
  have := w.short
  omega

/-- What the word in the masking stage leaves for the next one. -/
theorem step_context (hm : MaskOk s) (i : Input) :
    (s.step i).context =
      if s.masking.valid then s.context.next s.maskingWord else s.context := by
  change (if (if s.masking.valid then !s.masking.last else s.crcFollowUpWord) then
    (⟨s.nextCrc512.crc, false⟩ : Context) else .start) = _
  cases hv : s.masking.valid with
  | false =>
    have h512 := (paths_of_not_valid hv).1
    rw [if_neg Bool.false_ne_true, if_neg Bool.false_ne_true, nextCrc512, h512, hv, context]
    cases s.crcFollowUpWord <;> rfl
  | true =>
    rw [if_pos rfl, if_pos rfl, Context.next]
    change _ = if s.masking.last then Context.start else _
    cases hl : s.masking.last with
    | true => rfl
    | false =>
      have hkeep : s.masking.keep = ones 16 := (hm.formed hv).full hl
      have h512 : s.to512 = true := by simp [to512, hv, hkeep]
      rw [Bool.not_false, if_pos rfl, if_neg Bool.false_ne_true, nextCrc512, if_pos h512,
        crcAfter_eq hm hv hkeep (by decide) (by decide), ← run_full]
      rfl

end State

/-- What a joined stage in the masking stage becomes is what its word becomes. -/
theorem State.words_upcoming (s : State) :
    s.upcoming.flatMap Stage.words =
      if s.masking.valid then s.context.words s.maskingWord else [] := by
  unfold State.upcoming
  cases s.masking.valid with
  | false => rfl
  | true =>
    simp only [if_true, List.flatMap_cons, List.flatMap_nil, List.append_nil, Stage.words,
      Context.words, State.maskingWord]
    rcases Bool.eq_false_or_eq_true s.masking.last with hl | hl
    · simp only [hl, if_true]
    · simp only [hl, Bool.false_eq_true, if_false]

/-- Behind a word that is done the paths are empty.  If it was done in the last stage,
`stage_crc32_early_done` stays for another cycle. -/
theorem Flight.step_of_done {s : State} (w : Flight) (hin : w.In s w.n w.n) (halone : s.Alone)
    (hearly : s.crc32EarlyDone = true) (hcounter : s.crc32CounterWord.val = w.n)
    (hflight : s.crc32InFlight = true) (i : Input) : Phase (s.step i) [] 0 := by
  by_cases h15 : (s.crc32 15).valid = true
  · have hn : w.n = 15 := by
      have hval : (15 : Fin 16).val = w.n := by simpa [hin.valid] using h15
      exact hval.symm
    have hleaves : s.leavesEarly = false := by simp [State.leavesEarly, h15]
    refine .late (halone.step hflight i) (fun n => (halone.cleared hearly n).1)
      (halone.cleared hearly 15).2 ?_ ?_ ?_
    · change s.nextEarlyDone = true
      simp [State.nextEarlyDone, hleaves, hearly]
    · change s.nextCounterWord = 15
      rw [State.nextCounterWord, hleaves, if_neg Bool.false_ne_true, if_pos hearly]
      exact Fin.ext (hcounter.trans hn)
    · change s.nextInFlight = false
      simp [State.nextInFlight, State.leavesLate, halone.crc512, halone.crc320, h15]
  · exact halone.step_idle hearly (by simpa using h15) i

namespace Phase

variable {s : State} {f : List Stage} {left : Nat}

/-- A word in the masking stage can be replaced. -/
theorem rxReady (h : Phase s f left) (hm : s.masking.valid = true)
    (hhalf : s.bf.halffull = false) : s.rxReady = true := by
  have hflight : s.crc32InFlight = false := by
    cases h with
    | idle hquiet => exact hquiet.inFlight
    | wide hquiet => exact hquiet.inFlight
    | lanes w k hk halone => exact absurd (halone.masking.symm.trans hm) Bool.false_ne_true
    | done w halone => exact absurd (halone.masking.symm.trans hm) Bool.false_ne_true
    | late halone => exact absurd (halone.masking.symm.trans hm) Bool.false_ne_true
  simp [State.rxReady, hhalf, hflight]

/-- Words that are left take time. -/
theorem left_pos (h : Phase s f left) (hf : f ≠ []) : 0 < left := by
  cases h with
  | idle => exact absurd rfl hf
  | wide => exact Nat.one_pos
  | lanes => exact Nat.succ_pos _
  | done => exact Nat.one_pos
  | late => exact absurd rfl hf

/-- An empty join stage is not the last word of a packet. -/
theorem nextJoin_last (h : Phase s f left) (hv : s.nextJoin.valid = false) :
    s.nextJoin.last = false := by
  cases h with
  | idle hquiet h512 h320 =>
    rw [State.nextJoin_eq_zero h512 h320 (hquiet.valid 15) hquiet.earlyDone]
    rfl
  | wide hquiet hvalid => rw [hquiet.nextJoin_valid, hvalid] at hv; cases hv
  | lanes w k hk halone hin hearly hflight =>
    have h15 : (s.crc32 15).valid = false := w.last_invalid hin hk
    rw [State.nextJoin_eq_zero halone.crc512 halone.crc320 h15 hearly]
    rfl
  | done w halone hin hearly hcounter hflight =>
    rw [w.nextJoin_of_done hin halone hearly hcounter] at hv
    cases hv
  | late halone hvalid hlast hearly hcounter hflight =>
    exact (halone.nextJoin_empty hearly hvalid hlast hcounter).2

/-- With the lane pipeline empty, the word in the masking stage enters a path. -/
theorem step_quiet (h : Phase s f left) (hm : MaskOk s) (i : Input) (hc : Clear s i)
    (hhalf : s.bf.halffull = false) (hq : s.Quiet32) :
    ∃ left', Phase (s.step i) s.upcoming left' ∧ left' ≤ 16 ∧
      (s.masking.valid = false → left' = 0) := by
  cases hv : s.masking.valid with
  | false =>
    obtain ⟨h512, h320, h32⟩ := State.paths_of_not_valid hv
    refine ⟨0, ?_, Nat.zero_le _, fun _ => rfl⟩
    rw [State.upcoming_of_not_valid hv]
    refine .idle (hq.step i h32) ?_ ?_
    · rw [State.step_crc512_valid, h512]
    · rw [State.step_crc320_valid, h320]
  | true =>
    by_cases hwide : (s.to512 || s.to320) = true
    · exact ⟨1, hq.step_wide hm i hv hwide, by decide, fun h => absurd h (by simp)⟩
    · have h32 : s.to32 = true := by
        simp only [State.to512, State.to320, hv, Bool.true_and, Bool.or_eq_true,
          not_or] at hwide
        simp [State.to32, hv, bne, hwide.1, hwide.2]
      have hready : s.rxReady = true := h.rxReady hv hhalf
      have hnone : (s.nextMasking i).valid = false := by
        rw [State.nextMasking, if_pos hready]
        by_contra hne
        obtain ⟨-, hnot, -⟩ := hc (by simpa using hne) hready hv (hm.last_of_to32 h32)
        exact absurd (hnot.symm.trans h32) Bool.false_ne_true
      obtain ⟨left', hphase, hle⟩ := hq.step_lanes hm i hv h32 hnone
      exact ⟨left', hphase, hle, fun h => absurd h (by simp)⟩

/-- **One cycle.**  What the paths and the masking stage hold is joined in order, and without
a word in the masking stage it takes a cycle less. -/
theorem step (h : Phase s f left) (hm : MaskOk s) (i : Input) (hc : Clear s i)
    (hhalf : s.bf.halffull = false) :
    ∃ f' left', Phase (s.step i) f' left' ∧
      f ++ s.upcoming = (if s.nextJoin.valid then [s.nextJoin] else []) ++ f' ∧ left' ≤ 16 ∧
      (s.masking.valid = false → left' ≤ left - 1) := by
  cases h with
  | idle hquiet h512 h320 =>
    obtain ⟨left', hphase, hle, hleft⟩ :=
      (Phase.idle hquiet h512 h320).step_quiet hm i hc hhalf hquiet
    refine ⟨s.upcoming, left', hphase, ?_, hle, fun hv => by rw [hleft hv]⟩
    rw [State.nextJoin_eq_zero h512 h320 (hquiet.valid 15) hquiet.earlyDone]
    rfl
  | wide hquiet hvalid =>
    obtain ⟨left', hphase, hle, hleft⟩ :=
      (Phase.wide hquiet hvalid).step_quiet hm i hc hhalf hquiet
    refine ⟨s.upcoming, left', hphase, ?_, hle, fun hv => by rw [hleft hv]⟩
    rw [hquiet.nextJoin_valid, hvalid, if_pos rfl]
  | lanes w k hk halone hin hearly hflight =>
    have hjoin : s.nextJoin = .zero := by
      exact State.nextJoin_eq_zero halone.crc512 halone.crc320 (w.last_invalid hin hk) hearly
    have hnone := State.upcoming_of_not_valid halone.masking
    have hword : [w.result] ++ s.upcoming =
        (if s.nextJoin.valid then [s.nextJoin] else []) ++ [w.result] := by
      rw [hjoin, hnone]
      rfl
    have hshort := w.short
    rcases Nat.lt_or_eq_of_le (Nat.succ_le_of_lt hk) with hlt | heq
    · obtain ⟨hin', hearly', hflight'⟩ := w.step_of_lt hin halone hearly hflight i hlt
      exact ⟨[w.result], _, .lanes w (k + 1) hlt (halone.step hflight i) hin' hearly' hflight',
        hword, by omega, fun _ => by omega⟩
    · obtain ⟨hin', hearly', hcounter', hflight'⟩ := w.step_of_eq hin halone hearly hflight i heq
      exact ⟨[w.result], 1, .done w (halone.step hflight i) hin' hearly' hcounter' hflight',
        hword, by omega, fun _ => by omega⟩
  | done w halone hin hearly hcounter hflight =>
    have hword : [w.result] ++ s.upcoming =
        (if s.nextJoin.valid then [s.nextJoin] else []) ++ [] := by
      rw [w.nextJoin_of_done hin halone hearly hcounter,
        State.upcoming_of_not_valid halone.masking]
      rfl
    exact ⟨[], 0, w.step_of_done hin halone hearly hcounter hflight i, hword, by omega,
      fun _ => by omega⟩
  | late halone hvalid hlast hearly hcounter hflight =>
    have hjoin := (halone.nextJoin_empty hearly hvalid hlast hcounter).1
    refine ⟨[], 0, halone.step_idle hearly (hvalid 15) i, ?_, by omega, fun _ => by omega⟩
    rw [hjoin, State.upcoming_of_not_valid halone.masking]
    rfl

end Phase

end Icrc
end RecoNIC
