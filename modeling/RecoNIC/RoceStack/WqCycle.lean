import RecoNIC.RoceStack.WqLanes

/-!
# A cycle of the work-queue manager as a run of its queue pairs

`Sound.lane_step` puts the components together: a cycle of the work-queue manager is,
for each queue pair, the run of the cycle's actions.  Whatever every action keeps, under
a guard, every cycle keeps in which each action meets the guard where it is taken
(`Sound.keeps`), and `guarded_actions` says what is known there of the two machines.

There are two orders to consider.  As a rule the first machine goes first; each component of
the lane is then the one that WqLanes has found, since the later actions leave it alone
(`Sound.lane_step_first`).  Only when its check writes the entry after the second machine is it
the other way round (`Sound.lane_step_last`).

`State.overtakes` is the case in which the two write-backs meet.  When the second machine writes
an entry back that the first one has looked up, it is this case (`Sound.overtakes_of_seen`).
-/

namespace RecoNIC
namespace WqManager

open Synchronous Lane

/-! ## The whole cycle -/

section Cycle

variable {q : BitVec 8} {s : State × Ledger} {i : Input}

/-- The lane after the actions of the cycle, in their order. -/
theorem run_actions (l : Lane) :
    queuePair.runFrom l (s.1.actions q i) =
      if s.1.sqFirst i then
        ((l.act (s.1.sqAction q i)).act (s.1.ackAction q i)).act (s.1.bellAction q i)
      else ((l.act (s.1.ackAction q i)).act (s.1.sqAction q i)).act (s.1.bellAction q i) := by
  unfold State.actions
  cases s.1.sqFirst i <;> cases s.1.sqAction q i <;> cases s.1.ackAction q i <;>
    cases s.1.bellAction q i <;> rfl

/-- When the second machine writes back, it is the last to write.  If it does not, the entry is
that of the check of the first machine, or has not changed. -/
theorem cache_lane_step_first (hfirst : s.1.sqFirst i = true ∨ s.1.sqAction q i = none) :
    entryOf ((s.1.step i).sqCache.ram q) =
      ((((lane q s).act (s.1.sqAction q i)).act (s.1.ackAction q i)).act
        (s.1.bellAction q i)).cache := by
  rw [cache_lane_step,
    cache_act _ (bellAction_ne _ (by rintro ⟨⟩)) (fun _ => bellAction_ne _ (by rintro ⟨⟩))]
  by_cases hfin : s.1.ack.st = .finish ∧ s.1.ackQp = q
  · -- a check that would come later has no action, or goes first
    have hlast : ¬ (s.1.sq.st = .checkQueueBusy ∧ s.1.sq.output.sqIdx = q ∧
        i.bLast = false) := by
      rintro ⟨hst, hq, hb⟩
      rcases hfirst with hfirst | hnone
      · simp [State.sqFirst, hst, hb] at hfirst
      · rw [(sqAction_eq_check_iff q s.1 i).mpr ⟨hst, hq⟩] at hnone
        cases hnone
    have hphase : (lane q s).ack = .finish (entryOf s.1.ack.sqCDoutb) := by
      simp [lane, State.ackPhase, hfin]
    rw [if_pos ⟨hfin.1, hfin.2, hlast⟩,
      (ackAction_eq_finish_iff q s.1 i s.1.sqFifoBatch.readyWr).mpr ⟨hfin.1, hfin.2, rfl⟩]
    have hack := ack_act (lane q s) (o := s.1.sqAction q i) fun a ha => by
      rw [actor_sqAction q s.1 i a ha]
      rintro ⟨⟩
    simp [hack, hphase]
  · rw [if_neg fun hc => hfin ⟨hc.1, hc.2.1⟩, cache_act _ (ackAction_ne_sq _ (by rintro ⟨⟩))
      (fun room hop => hfin ?_)]
    · by_cases hcheck : s.1.sq.st = .checkQueueBusy ∧ s.1.sq.output.sqIdx = q
      · have hphase : (lane q s).sq = .check (entryOf s.1.sq.output) (entryOf s.1.sq.cDouta) := by
          simp [lane, State.sqPhase, hcheck]
        rw [if_pos hcheck, (sqAction_eq_check_iff q s.1 i).mpr hcheck]
        simp [hphase]
      · rw [if_neg hcheck, cache_act _ (fun hop => hcheck ((sqAction_eq_check_iff q s.1 i).mp hop))
          (fun _ => sqAction_ne_ack _ (by rintro ⟨⟩))]
    · obtain ⟨hst, hq, -⟩ := (ackAction_eq_finish_iff q s.1 i room).mp hop
      exact ⟨hst, hq⟩

/-- The cycle, when the first machine goes first, or does nothing for this queue pair.  The goals
are the components of the lane, in their order. -/
theorem Sound.lane_step_first (h : Sound s)
    (hfirst : s.1.sqFirst i = true ∨ s.1.sqAction q i = none) :
    lane q (ledgered.step s i) =
      (((lane q s).act (s.1.sqAction q i)).act (s.1.ackAction q i)).act (s.1.bellAction q i) := by
  have hA : ∀ a ∈ s.1.sqAction q i, a.actor ≠ .ack := fun a ha => by
    rw [actor_sqAction q s.1 i a ha]
    nofun
  have hK : ∀ a ∈ s.1.ackAction q i, a.actor ≠ .sq := fun a ha => by
    rw [actor_ackAction q s.1 i a ha]
    nofun
  have hB := actor_bellAction q s.1 i
  have hack := ack_act (lane q s) hA
  ext1
  · rw [rung_act_congr hB (rung_act _ (ackAction_ne_sq _ nofun) fun _ _ => ackAction_ne_sq _ nofun)]
    exact h.rung_lane_step.symm
  · rw [sq_act _ fun a ha => by rw [hB a ha]; nofun, sq_act _ hK]
    exact h.sq_lane_step.symm
  · rw [batch_act _ (bellAction_ne _ nofun) (fun _ => bellAction_ne _ nofun)]
    exact h.batch_lane_step.symm
  · rw [ack_act _ fun a ha => by rw [hB a ha]; nofun, ack_act_congr hack (fun hop => ?_)]
    · exact ack_lane_step.symm
    · -- the second machine looks up what the first one has left there
      refine cache_act _ (fun hcheck => ?_) (fun _ => sqAction_ne_ack _ nofun)
      have hget := ((ackAction_eq_ackLookup_iff q s.1 i).mp hop).1
      have hst := ((sqAction_eq_check_iff q s.1 i).mp hcheck).1
      rcases hfirst with hfirst | hnone
      · simp [State.sqFirst, hst, hget] at hfirst
      · rw [hnone] at hcheck
        cases hcheck
  · exact cache_lane_step_first hfirst
  · rw [unacked_act _ (bellAction_ne _ nofun) (bellAction_ne _ nofun)]
    exact h.unacked_lane_step.symm
  · rw [lastPi_act_congr (m := lane q s)]
    · exact lastPi_lane_step.symm
    · rw [lastPi_act _ fun _ _ => ackAction_ne_sq _ nofun,
        lastPi_act _ fun _ _ => sqAction_ne_ack _ nofun]
  · rw [fetched_act _ (bellAction_ne _ nofun), fetched_act _ (ackAction_ne_sq _ nofun)]
    exact h.fetched_lane_step.symm
  · rw [issued_act _ (bellAction_ne _ nofun), issued_act _ (ackAction_ne_sq _ nofun)]
    exact h.issued_lane_step.symm

/-- The cycle, when the write-back of the first machine comes last.  The check does not look at
what the second machine does at the same edge, and overwrites it. -/
theorem Sound.lane_step_last (h : Sound s) (hfirst : s.1.sqFirst i = false)
    (hcheck : s.1.sqAction q i = some .check) :
    lane q (ledgered.step s i) =
      (((lane q s).act (s.1.ackAction q i)).act (s.1.sqAction q i)).act (s.1.bellAction q i) := by
  obtain ⟨hst, hq⟩ := (sqAction_eq_check_iff q s.1 i).mp hcheck
  have hphase : (lane q s).sq = .check (entryOf s.1.sq.output) (entryOf s.1.sq.cDouta) := by
    simp [lane, State.sqPhase, hst, hq]
  have hK := actor_ackAction q s.1 i
  have hB := actor_bellAction q s.1 i
  have hsq : ((lane q s).act (s.1.ackAction q i)).sq = (lane q s).sq :=
    sq_act _ fun a ha => by rw [hK a ha]; rintro ⟨⟩
  ext1
  · rw [rung_act_congr hB (m := (lane q s).act (s.1.sqAction q i))]
    · exact h.rung_lane_step.symm
    · rw [hcheck]
      exact rung_act _ (ackAction_ne_sq _ (by rintro ⟨⟩)) fun _ _ =>
        ackAction_ne_sq _ (by rintro ⟨⟩)
  · rw [sq_act _ fun a ha => by rw [hB a ha]; rintro ⟨⟩]
    have := h.sq_lane_step (q := q) (i := i)
    rw [hcheck] at this ⊢
    simp only [act_some, sq_step, sqAfter, hsq, hphase] at this ⊢
    exact this.symm
  · rw [batch_act _ (bellAction_ne _ (by rintro ⟨⟩)) (fun _ => bellAction_ne _ (by rintro ⟨⟩))]
    refine h.batch_lane_step.symm.trans ?_
    rw [hcheck]
    exact batch_act_congr hK rfl rfl
  · rw [ack_act _ fun a ha => by rw [hB a ha]; rintro ⟨⟩, hcheck]
    exact ack_lane_step.symm
  · rw [cache_act _ (bellAction_ne _ (by rintro ⟨⟩)) (fun _ => bellAction_ne _ (by rintro ⟨⟩)),
      hcheck]
    refine cache_lane_step.trans ?_
    rw [if_neg, if_pos ⟨hst, hq⟩]
    · simp [hsq, hphase]
    · rintro ⟨hfin, -, hno⟩
      refine hno ⟨hst, hq, ?_⟩
      simpa [State.sqFirst, hst, hfin] using hfirst
  · rw [unacked_act _ (bellAction_ne _ (by rintro ⟨⟩)) (bellAction_ne _ (by rintro ⟨⟩))]
    refine h.unacked_lane_step.symm.trans ?_
    rw [hcheck]
    exact unacked_act_congr hK rfl rfl
  · rw [lastPi_act_congr (m := lane q s)]
    · exact lastPi_lane_step.symm
    · rw [lastPi_act _ fun _ _ => sqAction_ne_ack _ (by rintro ⟨⟩),
        lastPi_act _ fun _ _ => ackAction_ne_sq _ (by rintro ⟨⟩)]
  · refine (h.fetched_lane_step (i := i)).symm.trans ?_
    rw [fetched_act _ (bellAction_ne _ (by rintro ⟨⟩)), hcheck]
    exact (fetched_act (lane q s) (ackAction_ne_sq _ (by rintro ⟨⟩))).symm
  · refine (h.issued_lane_step (i := i)).symm.trans ?_
    rw [issued_act _ (bellAction_ne _ (by rintro ⟨⟩)), hcheck]
    exact (issued_act (lane q s) (ackAction_ne_sq _ (by rintro ⟨⟩))).symm

/-- **A cycle of the work-queue manager is a run of each of its queue pairs.**  What happens to
one queue pair depends on the others only through the order in which the machines come to it. -/
theorem Sound.lane_step (h : Sound s) :
    lane q (ledgered.step s i) = queuePair.runFrom (lane q s) (s.1.actions q i) := by
  rw [run_actions]
  cases hfirst : s.1.sqFirst i with
  | true => exact h.lane_step_first (Or.inl hfirst)
  | false =>
    by_cases hcheck : s.1.sqAction q i = some .check
    · exact h.lane_step_last hfirst hcheck
    · -- the check is for another queue pair, and this one sees only the second machine
      have hst : s.1.sq.st = .checkQueueBusy := by
        by_contra hne
        simp [State.sqFirst, hne] at hfirst
      have hnone : s.1.sqAction q i = none := by
        have hq : s.1.sq.output.sqIdx ≠ q := fun hq =>
          hcheck ((sqAction_eq_check_iff q s.1 i).mpr ⟨hst, hq⟩)
        simp [State.sqAction, State.sqTarget, hst, hq]
      have := h.lane_step_first (i := i) (Or.inr hnone)
      rw [hnone] at this ⊢
      exact this

/-- After reset every lane is empty. -/
theorem lane_reset (q : BitVec 8) : lane q ledgered.reset = Lane.reset := by
  have hsq : ledgered.reset.1.sqPhase q = .away := ite_self _
  have hack : ledgered.reset.1.ackPhase q = .away := ite_self _
  ext1
  · rfl
  · exact hsq
  · rfl
  · exact hack
  all_goals rfl

/-- What every action keeps where it is taken, the cycle keeps.  This is the only way in which the
invariants of queue pairs are carried over to the work-queue manager. -/
theorem Sound.keeps {I : Lane → Prop} {G : Lane → Action → Prop}
    (hstep : ∀ l a l', I l → G l a → Fires l a l' → I l') (h : Sound s)
    (hg : queuePair.Guarded G (lane q s) (s.1.actions q i)) (hI : I (lane q s)) :
    I (lane q (ledgered.step s i)) := by
  rw [h.lane_step]
  refine (Machine.always_of_guarded (M := queuePair) (fun l a hl ha => ?_) hI hg).last
  rcases step_eq_or_fires l a with hsame | hf
  · show I (l.step a)
    rw [hsame]
    exact hl
  · exact hstep l a _ hl ha hf

end Cycle

/-! ## What is known where an action is taken -/

section Moment

variable {q : BitVec 8} {s : State × Ledger} {i : Input}

/-- The actions of a cycle meet a guard: the first machine finds itself where it was, and the
second one too, unless the check comes last; and the other way round. -/
theorem Sound.guarded_actions {G : Lane → Action → Prop} (h : Sound s)
    (hsq : ∀ a m, s.1.sqAction q i = some a → m.sq = s.1.sqPhase q →
      m.ack = (if s.1.sqFirst i then s.1.ackPhase q else (s.1.step i).ackPhase q) → G m a)
    (hack : ∀ a m, s.1.ackAction q i = some a → m.ack = s.1.ackPhase q →
      m.sq = (if s.1.sqFirst i then (s.1.step i).sqPhase q else s.1.sqPhase q) →
      s.2.unacked q ≤ m.unacked → G m a)
    (hbell : ∀ a m, s.1.bellAction q i = some a → m.lastPi = s.2.lastPi q →
      (∀ x, (lane q s).Done x → m.Done x) → G m a) :
    queuePair.Guarded G (lane q s) (s.1.actions q i) := by
  have hA := actor_sqAction q s.1 i
  have hK := actor_ackAction q s.1 i
  have hrun : ∀ (l : Lane) (o : Option Action), queuePair.runFrom l o.toList = l.act o :=
    fun l o => by cases o <;> rfl
  have hlast : ∀ l : Lane, ((l.act (s.1.sqAction q i)).act (s.1.ackAction q i)).lastPi = l.lastPi :=
    fun l => by
      rw [lastPi_act _ fun _ _ => ackAction_ne_sq _ nofun,
        lastPi_act _ fun _ _ => sqAction_ne_ack _ nofun]
  have hlast' : ∀ l : Lane,
      ((l.act (s.1.ackAction q i)).act (s.1.sqAction q i)).lastPi = l.lastPi := fun l => by
    rw [lastPi_act _ fun _ _ => sqAction_ne_ack _ nofun,
      lastPi_act _ fun _ _ => ackAction_ne_sq _ nofun]
  unfold State.actions
  cases hfirst : s.1.sqFirst i with
  | true =>
    -- the first machine is where it was, and the second one sees what it leaves
    simp only [hfirst, if_true] at hsq hack ⊢
    rw [Machine.guarded_append, Machine.guarded_append, Machine.runFrom_append, hrun, hrun,
      Machine.guarded_toList, Machine.guarded_toList, Machine.guarded_toList]
    refine ⟨⟨fun a ha => hsq a _ ha rfl rfl, fun a ha => hack a _ ha ?_ ?_ ?_⟩, fun a ha => ?_⟩
    · exact ack_act _ fun b hb => by rw [hA b hb]; nofun
    · exact h.sq_lane_step
    · exact unacked_le_act (lane q s) (sqAction_ne_ack _ nofun)
    · exact hbell a _ ha (hlast _) fun x hx => (hx.act _).act _
  | false =>
    -- the check comes last, and the second machine has moved by then
    simp only [hfirst, Bool.false_eq_true, if_false] at hsq hack ⊢
    rw [Machine.guarded_append, Machine.guarded_append, Machine.runFrom_append, hrun, hrun,
      Machine.guarded_toList, Machine.guarded_toList, Machine.guarded_toList]
    refine ⟨⟨fun a ha => hack a _ ha rfl rfl le_rfl, fun a ha => hsq a _ ha ?_ ?_⟩, fun a ha => ?_⟩
    · exact sq_act _ fun b hb => by rw [hK b hb]; nofun
    · exact ack_lane_step
    · exact hbell a _ ha (hlast' _) fun x hx => (hx.act _).act _

/-- A machine that is away takes an acknowledgement or stays away. -/
theorem ackPhase_step_of_away (h : s.1.ackPhase q = .away) :
    (s.1.step i).ackPhase q = .away ∨ (s.1.step i).ackPhase q = .get := by
  have haway : (lane q s).ack = .away := h
  rw [← ack_lane_step (s := s)]
  rcases s.1.ackAction q i with _ | a
  · exact Or.inl haway
  · cases a <;> simp [haway]

end Moment

/-! ## The race of the two write-backs -/

namespace State

variable (s : State) (i : Input)

/-- The `ACK_*` machine writes an entry back that the `SQ_*` machine has looked up, or looks
up at this edge, and will write back after it. -/
def overtakes : Prop :=
  s.ack.st = .finish ∧ s.sq.output.sqIdx = s.ackQp ∧
    (s.sq.st = .getQueue ∨ s.sq.st = .readCache ∨ (s.sq.st = .checkQueueBusy ∧ i.bLast = false))

instance : Decidable (s.overtakes i) := inferInstanceAs (Decidable (_ ∧ _))

/-- What the `SQ_*` machine has looked up, with what it reads at this edge. -/
def lookedUp : SQdata :=
  match s.sq.st with
  | .getQueue => s.sqCache.ram s.sq.output.sqIdx
  | .readCache => s.sqCache.douta
  | _ => s.sq.cDouta

end State

section Race

variable {q : BitVec 8} {s : State × Ledger} {i : Input}

/-- **The race.**  When the second machine writes back and the first one has looked up, or
looks up, the entry of that queue pair, the write-back is overtaken. -/
theorem Sound.overtakes_of_seen (h : Sound s) (hfin : s.1.ack.st = .finish) (hq : s.1.ackQp = q)
    {p : SqPhase} (hp : p = if s.1.sqFirst i then (s.1.step i).sqPhase q else s.1.sqPhase q)
    {x : Entry} (hx : p.seen = some x) : s.1.overtakes i ∧ x = entryOf s.1.lookedUp := by
  have hread : (s.1.sqPhase q).seen = some x → s.1.sq.output.sqIdx = q ∧
      ((s.1.sq.st = .readCache ∨ s.1.sq.st = .checkQueueBusy) ∧ x = entryOf s.1.lookedUp) := by
    intro hseen
    by_cases hidx : s.1.sq.output.sqIdx = q
    · cases hst : s.1.sq.st with
      | readCache | checkQueueBusy => simp_all [State.sqPhase, State.lookedUp]
      | waitQp =>
        by_cases har : s.1.ar.st = .calcAddr <;> simp [State.sqPhase, hidx, hst, har] at hseen
      | _ => simp [State.sqPhase, hidx, hst] at hseen
    · simp [State.sqPhase, hidx] at hseen
  cases hfirst : s.1.sqFirst i with
  | true =>
    rw [hfirst, if_pos rfl, ← h.sq_lane_step] at hp
    rw [hp] at hx
    -- it is looked up at this edge, or was before and is not written back
    rcases seen_act _ hx with ⟨hop, rfl⟩ | ⟨hold, hcheck⟩
    · obtain ⟨hst, hidx⟩ := (sqAction_eq_lookup_iff q s.1 i).mp hop
      exact ⟨⟨hfin, hidx.trans hq.symm, Or.inl hst⟩, by simp [State.lookedUp, hst, hidx, lane]⟩
    · obtain ⟨hidx, hst | hst, hx⟩ := hread hold
      · exact ⟨⟨hfin, hidx.trans hq.symm, Or.inr (Or.inl hst)⟩, hx⟩
      · refine absurd ?_ (hcheck ((sqAction_eq_check_iff q s.1 i).mpr ⟨hst, hidx⟩)
          (entryOf s.1.sq.output))
        simp [lane, State.sqPhase, hst, hidx, hx, State.lookedUp]
  | false =>
    rw [hfirst, if_neg Bool.false_ne_true] at hp
    rw [hp] at hx
    obtain ⟨hidx, -, hx⟩ := hread hx
    simp only [State.sqFirst, Bool.or_eq_false_iff, bne_eq_false_iff_eq, hfin, beq_self_eq_true,
      Bool.true_and] at hfirst
    exact ⟨⟨hfin, hidx.trans hq.symm, Or.inr (Or.inr hfirst)⟩, hx⟩

end Race

end WqManager
end RecoNIC
