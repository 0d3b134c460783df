import RecoNIC.Icrc.Flow

/-!
# Behind the join

The join stage, the insertion and the extra word.  The other side is always ready, so the
buffer holds at most one word and everything behind the join moves on in each cycle.

`port_extra_step` is the step of the insertion: what the join stage becomes is at the write
port next, and the extra word of a full last word behind it.  It needs the join stage empty
in the cycle of the extra word, which `Phase.step_nextJoin_empty` provides.
-/

namespace RecoNIC
namespace Icrc

open Synchronous

namespace State

variable (s : State)

/-- The word at the write port. -/
def port : List Word := if s.toFifo.valid then [s.toFifoWord] else []

/-- The extra word that is to come. -/
def extra : List Word :=
  if s.stallPipeline then [⟨s.reinsertion.crc.setWidth 512, 0xf#64, true⟩] else []

/-- What the join stage becomes. -/
def joins : List Word := if s.join.valid then s.join.words else []

/-- What the registers behind the paths hold. -/
structure Ordered : Prop where
  keep : s.join.valid = true → ∃ n, 1 ≤ n ∧ n ≤ 16 ∧ s.join.keep = ones n
  last : s.join.valid = false → s.join.last = false
  stall : s.stallPipeline = true → s.join.valid = false
  /-- Nothing is joined behind a full last word. -/
  full : s.join.valid = true → s.join.last = true → s.join.keep = ones 16 →
    s.nextJoin.valid = false

/-- What the registers before the join hold. -/
structure Spaced : Prop where
  header : s.crc320.valid = true → s.crc320.keep = ones 10
  /-- Behind a full last word nothing follows on a path that is as short. -/
  waits : s.crc512.valid = true → s.crc512.last = true → s.to512 = false ∧ s.to320 = false

end State

/-! ## The insertion -/

variable {s : State} {f : List Stage} {left : Nat}

/-- What is joined is at the write port next, and then its extra word. -/
theorem port_extra_step (h : s.Ordered) (i : Input) :
    (s.step i).port ++ (s.step i).extra = s.extra ++ s.joins := by
  change (if (if s.stallPipeline then s.nextAddWord else s.nextReinsertion).valid then
      [(s.step i).toFifoWord] else []) ++
    (if s.nextStall then [⟨s.nextReinsertion.crc.setWidth 512, 0xf#64, true⟩] else []) = _
  have hport : (s.step i).toFifoWord =
      ⟨(if s.stallPipeline then s.nextAddWord else s.nextReinsertion).data,
        (if s.stallPipeline then s.nextAddWord else s.nextReinsertion).keep,
        (if s.stallPipeline then s.nextAddWord else s.nextReinsertion).last⟩ := rfl
  rw [hport]
  unfold State.extra State.joins State.nextStall
  cases hstall : s.stallPipeline with
  | true =>
    have hjoin := h.stall hstall
    simp [State.nextAddWord, hstall, hjoin]
  | false =>
    cases hv : s.join.valid with
    | false =>
      have hlast := h.last hv
      simp [State.nextReinsertion, hlast, hv]
    | true =>
      cases hl : s.join.last with
      | false => simp [State.nextReinsertion, Stage.words, hl, hv]
      | true =>
        obtain ⟨n, h1, h16, hkeep⟩ := h.keep hv
        have hbit : (ones n)[63] = decide (n = 16) := getLsbD_ones n h16
        rcases Nat.lt_or_eq_of_le h16 with hlt | rfl
        · rw [decide_eq_false (Nat.ne_of_lt hlt)] at hbit
          have hlanes := lanesOf_ones n (by simp; omega)
          simp [State.nextReinsertion, Stage.words, lastWords, hl, hv, hkeep, hbit, hlanes]
        · rw [decide_eq_true rfl] at hbit
          simp [State.nextReinsertion, Stage.words, lastWords, hl, hv, hkeep, hbit,
            lanesOf_ones_full]

/-- An extra word comes behind a full last word only. -/
theorem State.Ordered.join_of_nextStall (h : s.Ordered) (hstall : s.nextStall = true) :
    s.join.valid = true ∧ s.join.last = true ∧ s.join.keep = ones 16 := by
  unfold State.nextStall at hstall
  cases hl : s.join.last with
  | false => simp_all
  | true =>
    have hv : s.join.valid = true := by
      by_contra hv
      have hnot := h.last (Bool.eq_false_iff.mpr hv)
      exact absurd (hnot.symm.trans hl) Bool.false_ne_true
    obtain ⟨n, -, h16, hn⟩ := h.keep hv
    have hbit := getLsbD_ones n h16
    have hfull : n = 16 := by simp_all
    exact ⟨hv, rfl, by rw [hn, hfull]⟩

/-- What is inserted was joined. -/
theorem State.Ordered.join_of_nextReinsertion (h : s.Ordered)
    (hv : s.nextReinsertion.valid = true) : s.join.valid = true := by
  cases hl : s.join.last with
  | false => simpa [State.nextReinsertion, hl] using hv
  | true =>
    by_contra hnot
    have hlast := h.last (Bool.eq_false_iff.mpr hnot)
    exact absurd (hlast.symm.trans hl) Bool.false_ne_true

/-- Nothing is joined behind a full last word. -/
theorem Phase.step_nextJoin_empty (h : Phase s f left) (hs : s.Spaced) (i : Input)
    (hv : s.nextJoin.valid = true) (hl : s.nextJoin.last = true)
    (hkeep : s.nextJoin.keep = ones 16) : (s.step i).nextJoin.valid = false := by
  cases h with
  | idle hquiet h512 h320 =>
    rw [State.nextJoin_eq_zero h512 h320 (hquiet.valid 15) hquiet.earlyDone] at hv
    cases hv
  | wide hquiet hvalid =>
    cases h512 : s.crc512.valid with
    | true =>
      have hlast : s.crc512.last = true := by
        simpa [State.nextJoin, State.joined, h512] using hl
      obtain ⟨hto512, hto320⟩ := hs.waits h512 hlast
      rw [State.nextJoin_eq_zero _ _ (hquiet.step_valid i (by decide)) (hquiet.step_earlyDone i)]
      · rfl
      · rw [State.step_crc512_valid, hto512]
      · rw [State.step_crc320_valid, hto320]
    | false =>
      have h320 : s.crc320.valid = true := by simpa [h512] using hvalid
      have hten : s.nextJoin.keep = ones 10 := by
        simpa [State.nextJoin, State.joined, h512, h320] using hs.header h320
      have hne := (ones_eq_iff 10 (by decide) 16 (by decide)).mp (hten.symm.trans hkeep)
      exact absurd hne (by decide)
  | lanes w k hk halone hin hearly hflight =>
    rw [State.nextJoin_eq_zero halone.crc512 halone.crc320 (w.last_invalid hin hk) hearly] at hv
    cases hv
  | done w halone hin hearly hcounter hflight =>
    rw [w.nextJoin_of_done hin halone hearly hcounter] at hkeep
    have hshort := w.short
    have hne := (ones_eq_iff w.n (by omega) 16 (by decide)).mp hkeep
    omega
  | late halone hvalid hlast hearly hcounter hflight =>
    rw [(halone.nextJoin_empty hearly hvalid hlast hcounter).1] at hv
    cases hv

/-! ## Everything the pipeline holds -/

/-- The other side is ready, a word that comes is a word of a packet, and it is clear. -/
structure Steady (s : State) (i : Input) : Prop where
  formed : i.tvalid = true → Formed i.beat
  ready : i.txReady = true
  clear : Clear s i

instance (s : State) (i : Input) : Decidable (Steady s i) :=
  decidable_of_iff ((i.tvalid = true → Formed i.beat) ∧ i.txReady = true ∧ Clear s i)
    ⟨fun h => ⟨h.1, h.2.1, h.2.2⟩, fun h => ⟨h.formed, h.ready, h.clear⟩⟩

/-- The state holds the words `f` on its paths, for `left` cycles. -/
structure Holds (s : State) (f : List Stage) (left : Nat) : Prop where
  phase : Phase s f left
  soon : left ≤ 16
  keep : ∀ r ∈ f, ∃ n, 1 ≤ n ∧ n ≤ 16 ∧ r.keep = ones n
  mask : MaskOk s
  spaced : s.Spaced
  ordered : s.Ordered
  few : s.bf.count ≤ 1

namespace Holds

theorem halffull (h : Holds s f left) : s.bf.halffull = false := by
  by_contra hne
  have hcount := s.bf.count_of_halffull (by simpa using hne)
  have hfew := h.few
  omega

/-- Without a word in the masking stage none comes unless it is accepted. -/
theorem nextMasking_valid (h : Holds s f left) (i : Input) :
    (s.nextMasking i).valid = (i.tvalid && s.rxReady) := by
  rw [State.nextMasking]
  cases hready : s.rxReady with
  | true => exact (Bool.and_true _).symm
  | false =>
    rw [if_neg Bool.false_ne_true, Bool.and_false]
    by_contra hv
    have hyes := h.phase.rxReady (by simpa using hv) h.halffull
    exact absurd (hready.symm.trans hyes) Bool.false_ne_true

/-- A word that is accepted is in the masking stage. -/
theorem nextMasking_eq (h : Holds s f left) {i : Input} (hv : (s.nextMasking i).valid = true) :
    i.tvalid = true ∧ s.rxReady = true ∧ (s.step i).maskingWord = i.beat := by
  rw [h.nextMasking_valid] at hv
  obtain ⟨htvalid, hready⟩ := Bool.and_eq_true_iff.mp hv
  refine ⟨htvalid, hready, ?_⟩
  change (⟨(s.nextMasking i).data, (s.nextMasking i).keep, (s.nextMasking i).last⟩ : Word) = _
  rw [State.nextMasking, if_pos hready]

theorem step_mask (h : Holds s f left) {i : Input} (hi : Steady s i) : MaskOk (s.step i) where
  formed := by
    intro hv
    obtain ⟨htvalid, -, hword⟩ := h.nextMasking_eq hv
    rw [hword]
    exact hi.formed htvalid
  masked := by
    intro hv hfollow
    obtain ⟨htvalid, hready, -⟩ := h.nextMasking_eq hv
    have hnow : s.crcFollowUpWord = false := by
      change (if s.masking.valid then !s.masking.last else s.crcFollowUpWord) = false at hfollow
      cases hm : s.masking.valid with
      | false => simpa [hm] using hfollow
      | true => exact (hi.clear htvalid hready hm (by simpa [hm] using hfollow)).1
    change (s.nextMasking i).maskedData = (s.nextMasking i).data ||| bitmask
    simp [State.nextMasking, hready, htvalid, hnow]

theorem step_spaced (h : Holds s f left) {i : Input} (hi : Steady s i) :
    (s.step i).Spaced where
  header := by
    intro hv
    change s.nextCrc320.keep = _
    rw [State.step_crc320_valid] at hv
    rw [State.nextCrc320, if_pos hv]
    have hkeep : s.masking.keep = ones 10 := by simpa using (Bool.and_eq_true_iff.mp hv).2
    exact hkeep
  waits := by
    intro hv hl
    rw [State.step_crc512_valid] at hv
    have hm : s.masking.valid = true := (Bool.and_eq_true_iff.mp hv).1
    have hlast : s.masking.last = true := by
      change s.nextCrc512.last = true at hl
      rwa [State.nextCrc512, if_pos hv] at hl
    by_cases hnext : (s.nextMasking i).valid = true
    · obtain ⟨htvalid, hready, hword⟩ := h.nextMasking_eq hnext
      obtain ⟨hne16, hne10⟩ := (hi.clear htvalid hready hm hlast).2.2 hv
      have hkeep : (s.step i).masking.keep = i.beat.keep := congrArg Word.keep hword
      simp [State.to512, State.to320, hkeep, hne16, hne10]
    · have hnone : (s.step i).masking.valid = false := Bool.eq_false_iff.mpr hnext
      exact ⟨(State.paths_of_not_valid hnone).1, (State.paths_of_not_valid hnone).2.1⟩

/-- What is joined is one of the words on the paths or the one that comes to them. -/
theorem nextJoin_keep (h : Holds s f left) {f' : List Stage}
    (heq : f ++ s.upcoming = (if s.nextJoin.valid then [s.nextJoin] else []) ++ f') :
    (s.nextJoin.valid = true → ∃ n, 1 ≤ n ∧ n ≤ 16 ∧ s.nextJoin.keep = ones n) ∧
      ∀ r ∈ f', ∃ n, 1 ≤ n ∧ n ≤ 16 ∧ r.keep = ones n := by
  have hall : ∀ r ∈ f ++ s.upcoming, ∃ n, 1 ≤ n ∧ n ≤ 16 ∧ r.keep = ones n := by
    intro r hr
    rcases List.mem_append.mp hr with hf | hup
    · exact h.keep r hf
    · unfold State.upcoming at hup
      cases hv : s.masking.valid with
      | false => simp [hv] at hup
      | true =>
        rw [hv, if_pos rfl, List.mem_singleton] at hup
        rw [hup]
        exact (h.mask.formed hv).keep
  rw [heq] at hall
  refine ⟨fun hv => hall _ ?_, fun r hr => hall r (List.mem_append_right _ hr)⟩
  rw [hv, if_pos rfl]
  exact List.mem_append_left _ (List.mem_singleton_self _)

theorem step_ordered (h : Holds s f left) (i : Input)
    (hkeep : s.nextJoin.valid = true → ∃ n, 1 ≤ n ∧ n ≤ 16 ∧ s.nextJoin.keep = ones n) :
    (s.step i).Ordered where
  keep := hkeep
  last := h.phase.nextJoin_last
  stall := by
    intro hstall
    obtain ⟨hv, hl, hfull⟩ := h.ordered.join_of_nextStall hstall
    exact h.ordered.full hv hl hfull
  full := h.phase.step_nextJoin_empty h.spaced i

/-- What is in the buffer is read in this cycle. -/
theorem tail_contents (h : Holds s f left) : s.bf.contents.tail = [] := by
  rw [← List.length_eq_zero_iff, List.length_tail, BufferFifo.length_contents]
  have hfew := h.few
  omega

/-- The buffer takes what comes. -/
theorem step_contents (h : Holds s f left) {i : Input} (hready : i.txReady = true) :
    (s.step i).bf.contents = s.port := by
  have htakes : s.bf.Takes i.txReady := by
    refine ⟨?_, fun _ => hready⟩
    by_contra hfull
    have hcount := s.bf.count_of_full (by simpa using hfull)
    have hfew := h.few
    omega
  have hstep := s.bf.contents_step s.toFifo.valid i.txReady s.toFifoWord fun _ => htakes
  rw [if_pos hready, h.tail_contents] at hstep
  exact hstep

/-- **One cycle.**  The words on the paths are joined in order, and a word in the masking
stage goes to the paths. -/
theorem step (h : Holds s f left) {i : Input} (hi : Steady s i) :
    ∃ f' left', Holds (s.step i) f' left' ∧
      f ++ s.upcoming = (if s.nextJoin.valid then [s.nextJoin] else []) ++ f' ∧
      (s.masking.valid = false → left' ≤ left - 1) := by
  obtain ⟨f', left', hphase, heq, hsoon, hless⟩ :=
    h.phase.step h.mask i hi.clear h.halffull
  obtain ⟨hkeep, hkeeps⟩ := h.nextJoin_keep heq
  refine ⟨f', left', ⟨hphase, hsoon, hkeeps, h.step_mask hi, h.step_spaced hi,
    h.step_ordered i hkeep, ?_⟩, heq, hless⟩
  rw [← BufferFifo.length_contents, h.step_contents hi.ready]
  unfold State.port
  split <;> simp

end Holds

end Icrc
end RecoNIC
