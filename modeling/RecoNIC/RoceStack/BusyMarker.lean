import RecoNIC.RoceStack.WqCycle

/-!
# The busy marker

A queue pair is busy when the producer index in its entry of the send-queue cache is not
zero, and the doorbell of a busy queue pair only updates the entry.  The marker should
therefore stand for an element in progress: when that one is acknowledged, the rest of
the queue pair is served.

It does as long as two things do not happen.  `SQ_IF_READY` gives a doorbell up whose
producer index is not above its head, after `SQ_CHECK_QUEUE_BUSY` has already written the
entry, so a doorbell that asks for nothing new marks the queue pair busy for ever.  And
the `ACK_*` machine can clear the marker between the look-up and the write-back of the
`SQ_*` machine, which then sets it again.
-/

namespace RecoNIC

open Synchronous

namespace Lane

/-- A set marker, and one that the first machine has looked up, stands for an element in
progress. -/
structure Marked (l : Lane) : Prop where
  batch : l.BatchLive
  cache : l.cache.prod ≠ 0#32 → 0 < l.tokens
  seen : ∀ x, l.sq.seen = some x → x.prod ≠ 0#32 → 0 < l.tokens

/-- The first machine drops no element, and the second one does not clear the marker
between the look-up and the write-back of the first. -/
structure Keeping (l : Lane) (a : Action) : Prop where
  skip : a = .skip → ∀ out, l.sq = .ready out → out.prod = 0#32
  finish : ∀ room, a = .finish room → ∀ e, l.ack = .finish e → e.prod = 0#32 →
    ∀ x, l.sq.seen = some x → x.prod = 0#32

section Step

variable {l l' : Lane} {a : Action}

/-- Elements that go out of progress do so with the marker cleared and not looked up. -/
theorem Keeping.tokens_le (h : Keeping l a) (hf : Fires l a l') (hbatch : l.BatchLive) :
    l.tokens ≤ l'.tokens ∨
      (l'.cache.prod = 0#32 ∧ ∀ x, l'.sq.seen = some x → x.prod = 0#32) := by
  have hle := hf.tokens_le hbatch
  cases hf with
  | @skip out hsq =>
    left
    simpa [drops, hsq, h.skip rfl out hsq] using hle
  | @finishEmpty room e hack he => exact Or.inr ⟨he, h.finish room rfl e hack he⟩
  | finishBatch hack he | finishFull hack he =>
    left
    simpa [drops, hack, he] using hle
  | _ =>
    left
    simpa [drops] using hle

/-- The marker is set by a check, which puts an element in progress unless it finds the
marker set, or comes back with an acknowledgement. -/
theorem Marked.tokens_pos (h : Marked l) (hf : Fires l a l') (hcache : l'.cache.prod ≠ 0#32) :
    0 < l.tokens ∨ 0 < l'.tokens := by
  cases hf with
  | @check out seen hsq =>
    by_cases hs : seen.prod = 0#32
    · right
      have hne : out.prod ≠ 0#32 := hcache
      simp only [tokens, hs, hne, if_true, if_false, SqPhase.holds]
      omega
    · exact Or.inl (h.seen seen (by simp [hsq]) hs)
  | finishEmpty room hack he => exact absurd he hcache
  | finishBatch hack he | finishFull hack he => exact Or.inl (tokens_pos_of_ack (by simp [hack]))
  | _ => exact Or.inl (h.cache hcache)

theorem Marked.step (h : Marked l) (hk : Keeping l a) (hf : Fires l a l') : Marked l' := by
  refine ⟨hf.batchLive h.batch, fun hne => ?_, fun x hx hne => ?_⟩
  · rcases hk.tokens_le hf h.batch with hle | ⟨hzero, -⟩
    · rcases h.tokens_pos hf hne with hpos | hpos <;> omega
    · exact absurd hzero hne
  · rcases hk.tokens_le hf h.batch with hle | ⟨-, hzero⟩
    · rcases hf.seen hx with hseen | rfl
      · exact (h.seen x hseen hne).trans_le hle
      · exact (h.cache hne).trans_le hle
    · exact absurd (hzero x hx) hne

end Step

theorem marked_reset : Marked reset := ⟨nofun, fun hne => absurd rfl hne, nofun⟩

end Lane

namespace WqManager

open Lane

/-! ## The work-queue manager -/

/-- An element of the queue pair `q` is in progress: in the hands of the `SQ_*` machine,
which keeps it while the `AR_*` and `QP_*` machines work for it, in the batch FIFO, in the
hands of the `ACK_*` machine, or issued and not yet acknowledged. -/
def InProgress (q : BitVec 8) (s : State × Ledger) : Prop :=
  (s.1.sq.output.sqIdx = q ∧ (s.1.sq.st.working = true ∨
      (s.1.sq.st = .ifReady ∧ s.1.sq.output.sqProdIdx ≠ 0#32))) ∨
    (∃ d ∈ s.1.sqFifoBatch.contents, d.sqIdx = q) ∨
    (s.1.ack.st ≠ .idle ∧ s.1.ackQp = q) ∨
    0 < s.2.unacked q

instance (q : BitVec 8) (s : State × Ledger) : Decidable (InProgress q s) :=
  inferInstanceAs (Decidable (_ ∨ _))

/-- The busy marker of every queue pair is truthful, and so is what the `SQ_*` machine goes
by when it ignores a doorbell. -/
structure Truthful (s : State × Ledger) : Prop where
  marker : ∀ q, (s.1.sqCache.ram q).sqProdIdx ≠ 0#32 → InProgress q s
  ignored : s.1.sq.st = .checkQueueBusy → s.1.sq.cDouta.sqProdIdx ≠ 0#32 →
    InProgress s.1.sq.output.sqIdx s

/-- `SQ_IF_READY` gives up no doorbell whose producer index is not zero, and no marker that
the `SQ_*` machine has looked up is cleared before its write-back. -/
structure MarkerKept (s : State × Ledger) (i : Input) : Prop where
  ready : s.1.sq.st = .ifReady → s.1.sq.output.sqProdIdx ≤ s.1.sq.output.cqHeadIdx →
    s.1.sq.output.sqProdIdx = 0#32
  race : s.1.overtakes i → s.1.ack.sqCDoutb.sqProdIdx = 0#32 → s.1.lookedUp.sqProdIdx = 0#32

instance (s : State × Ledger) (i : Input) : Decidable (MarkerKept s i) :=
  decidable_of_iff
    ((s.1.sq.st = .ifReady → s.1.sq.output.sqProdIdx ≤ s.1.sq.output.cqHeadIdx →
        s.1.sq.output.sqProdIdx = 0#32) ∧
      (s.1.overtakes i → s.1.ack.sqCDoutb.sqProdIdx = 0#32 → s.1.lookedUp.sqProdIdx = 0#32))
    ⟨fun h => ⟨h.1, h.2⟩, fun h => ⟨h.1, h.2⟩⟩

section Run

variable {q : BitVec 8} {s : State × Ledger} {i : Input}

theorem inProgress_of_tokens (h : 0 < (lane q s).tokens) : InProgress q s := by
  by_contra hno
  simp only [InProgress, not_or, not_and, not_exists] at hno
  obtain ⟨hsq, hbatch, hack, hun⟩ := hno
  have hholds : (s.1.sqPhase q).holds = 0 := by
    by_cases hidx : s.1.sq.output.sqIdx = q
    · obtain ⟨hworking, hready⟩ := hsq hidx
      cases hst : s.1.sq.st with
      | ifReady => simpa [State.sqPhase, hidx, hst, entryOf] using hready hst
      | waitQp | write | send | read | valid => simp [hst, SqState.working] at hworking
      | _ => simp [State.sqPhase, hidx, hst]
    · simp [State.sqPhase, hidx]
  have hlist : entriesOf q s.1.sqFifoBatch.contents = [] := by
    simp only [entriesOf, List.filterMap_eq_nil_iff]
    intro d hd
    rw [if_neg (hbatch d hd)]
  have hphase : s.1.ackPhase q = .away := by
    by_cases hqp : s.1.ackQp = q
    · have hidle : s.1.ack.st = .idle := by
        by_contra hne
        exact hack hne hqp
      simp [State.ackPhase, hidle]
    · simp [State.ackPhase, hqp]
  simp only [tokens, lane, hholds, hlist, hphase, List.length_nil, AckPhase.holds] at h
  omega

/-- The two conditions, where the actions are taken. -/
theorem MarkerKept.keeping (h : MarkerKept s i) (hs : Sound s) :
    queuePair.Guarded Keeping (lane q s) (s.1.actions q i) := by
  refine hs.guarded_actions ?_ ?_ ?_
  · rintro a m ha hsq -
    refine ⟨?_, fun room heq => ?_⟩
    · rintro rfl out hout
      obtain ⟨hst, hle, hidx⟩ := (sqAction_eq_skip_iff q s.1 i).mp ha
      have hzero := h.ready hst hle
      rw [hsq] at hout
      obtain rfl : entryOf s.1.sq.output = out := by
        simpa [State.sqPhase, hst, hidx] using hout
      exact hzero
    · exact absurd (heq ▸ ha) (sqAction_ne_ack (.finish room) (by rintro ⟨⟩))
  · rintro a m ha hack hsq -
    refine ⟨fun heq => absurd (heq ▸ ha) (ackAction_ne_sq .skip (by rintro ⟨⟩)), ?_⟩
    rintro room rfl e he hzero x hx
    obtain ⟨hfin, hqp, -⟩ := (ackAction_eq_finish_iff q s.1 i room).mp ha
    obtain ⟨hrace, rfl⟩ := hs.overtakes_of_seen hfin hqp hsq hx
    refine h.race hrace ?_
    rw [hack] at he
    obtain rfl : entryOf s.1.ack.sqCDoutb = e := by
      simpa [State.ackPhase, hfin, hqp] using he
    exact hzero
  · rintro a m ha - -
    exact ⟨fun heq => absurd (heq ▸ ha) (bellAction_ne .skip (by rintro ⟨⟩)),
      fun room heq => absurd (heq ▸ ha) (bellAction_ne (.finish room) (by rintro ⟨⟩))⟩

theorem truthful_of_marked (h : ∀ q, Marked (lane q s)) : Truthful s where
  marker q hq := inProgress_of_tokens ((h q).cache hq)
  ignored hst hq := by
    refine inProgress_of_tokens ((h _).seen (entryOf s.1.sq.cDouta) ?_ hq)
    simp [lane, State.sqPhase, hst]

/-- **The busy marker is truthful** in every run that drops no doorbell in `SQ_IF_READY`
and clears no marker that has been looked up. -/
theorem truthful_of_markerKept (is : List Input)
    (hkept : ledgered.Guarded MarkerKept ledgered.reset is) :
    ledgered.Always Truthful ledgered.reset is := by
  have hall : ledgered.Always (fun s => Sound s ∧ ∀ q, Marked (lane q s)) ledgered.reset is := by
    refine Machine.always_of_guarded (fun s i h hk => ?_) ⟨sound_reset, fun q => ?_⟩ hkept
    · exact ⟨h.1.step i, fun q => h.1.keeps (fun _ _ _ hm hg hf => hm.step hg hf)
        (hk.keeping h.1) (h.2 q)⟩
    · rw [lane_reset]
      exact marked_reset
  exact hall.mono fun s h => truthful_of_marked h.2

end Run

/-- A write of queue pair 1, from the doorbell to the write-back of its acknowledgement. -/
def writeDone : List Input := oneWrite 1 1 0 ++ acknowledge 1 :: List.replicate 6 Input.quiet

theorem truthful_of_markerKept_writeDone : ledgered.Always Truthful ledgered.reset writeDone :=
  truthful_of_markerKept writeDone (by decide +kernel)

/-- The write is done, and its doorbell is rung once more. -/
def repeatedDoorbell : List Input := writeDone ++ ring 1 1 1 :: List.replicate 7 Input.quiet

/-- The repeated doorbell leaves the queue pair marked busy with nothing in progress. -/
theorem repeatedDoorbell_not_truthful :
    ledgered.Guarded AcksIssued ledgered.reset repeatedDoorbell ∧
      ¬ Truthful (ledgered.run repeatedDoorbell) :=
  ⟨by decide +kernel, fun h =>
    absurd (h.marker 1 (by decide +kernel)) (by decide +kernel)⟩

end WqManager
end RecoNIC
