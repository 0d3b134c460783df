import RecoNIC.RoceStack.BusyMarker

/-!
# No doorbell is lost

When everything has come to rest, every element up to the last doorbell has been fetched
and issued.  A doorbell travels from the capture register through the FIFO and the `SQ_*`
machine into the cache entry, where it replaces the producer index of the one before; the
entry is cleared when its producer index has been reached.  So the doorbells of a queue
pair form a chain of growing producer indices, from the entry to the last one rung, and a
chain that has been worked off ends below a finished index.

A link is lost when a doorbell comes while the one before is still in the capture register
or the FIFO is full, and when the two machines have the entry looked up at once: the one
that writes back last undoes what the other one did.

`Complete` is the invariant of one queue pair, with one lemma for each of its parts, and `Heard`
the condition on an action.  Then the conditions on the cycles of the work-queue manager
(`BellsHeard`) and on its surroundings (`Surroundings`) are shown to give `Heard` for every
action of the cycle.
-/

namespace RecoNIC

open Synchronous

namespace Lane

/-- The doorbell the first machine works on. -/
@[simp] def SqPhase.bell : SqPhase → List Entry
  | .get out | .read out _ | .check out _ => [out]
  | _ => []

/-- The element in the hands of the first machine. -/
@[simp] def SqPhase.current : SqPhase → List Entry
  | .ready out => if out.prod = 0#32 then [] else [out]
  | .fetch out | .busy out => [out]
  | _ => []

/-- The doorbells that have not been checked. -/
def bells (l : Lane) : List Entry := l.sq.bell ++ l.rung

/-- What waits behind the entry, in the order of arrival. -/
structure Chain (l : Lane) (prod : BitVec 32) (bells : List (BitVec 32)) (lastPi : BitVec 32) :
    Prop where
  /-- The producer indices do not go back. -/
  sorted : (prod :: bells).Pairwise (· ≤ ·)
  below : ∀ p ∈ prod :: bells, p ≤ lastPi
  /-- The last one is that of the last doorbell, or all is done. -/
  newest : bells.getLastD prod = lastPi ∨ (bells = [] ∧ l.Done lastPi)

/-- What the marker and the head of the entry stand for, while no doorbell is lost. -/
structure Complete (l : Lane) : Prop where
  batch : l.BatchLive
  free : l.cache.prod = 0#32 → l.tokens = 0
  marked : l.cache.prod ≠ 0#32 → l.tokens = 1
  /-- All elements below the head have been fetched and issued. -/
  cache : l.Done l.cache.head
  bells : ∀ e ∈ l.bells, l.Done e.head
  /-- Whoever has the element has the head of the entry. -/
  current : ∀ e ∈ l.sq.current ++ l.batch, e.head = l.cache.head
  fetched : ∀ out, l.sq = .busy out → out.head ∈ l.fetched
  past : 0 < l.unacked ∨ l.ack.early → l.cache.head ∈ l.fetched ∧ l.cache.head ∈ l.issued
  /-- What the machines have looked up is not out of date. -/
  looked : ∀ e, l.ack = .read e → e = l.cache
  reported : ∀ e, l.ack = .report e → e.prod = l.cache.prod
  advanced : ∀ e, l.ack.advanced = some e →
    l.Done e.head ∧ (e.prod = l.cache.prod ∨ (e.prod = 0#32 ∧ l.Done l.cache.prod))
  seen : ∀ e, l.sq.seen = some e → e = l.cache
  adopted : ∀ out seen, l.sq = .check out seen → seen.prod ≠ 0#32 → out.head = seen.head
  chain : l.Chain l.cache.prod (l.bells.map Entry.prod) l.lastPi

/-- Every doorbell is kept, producer indices do not go back, the head that comes with a
doorbell stands for finished elements, no element is dropped, and only one of the machines
has the entry looked up --- unless the doorbell asks for nothing new. -/
structure Heard (l : Lane) (a : Action) : Prop where
  acked : Acked l a
  ring : ∀ e kept, a = .ring e kept → kept = true ∧ l.lastPi ≤ e.prod ∧ l.Done e.head
  skip : a = .skip → ∀ out, l.sq = .ready out → out.prod = 0#32
  check : a = .check → l.ack = .away ∨ l.ack = .get ∨
    ∀ out seen, l.sq = .check out seen → out.prod = seen.prod
  finish : ∀ room, a = .finish room → ∀ e, l.ack = .finish e → l.sq.seen = none

section Step

variable {l l' : Lane} {a : Action}

theorem Complete.one (h : Complete l) : l.tokens ≤ 1 := by
  by_cases hz : l.cache.prod = 0#32
  · have := h.free hz
    omega
  · exact (h.marked hz).le

/-! ### The marker and the elements -/

/-- The second machine has the only element.  So the first one has nothing but doorbells, and the
batch list is empty. -/
theorem Complete.alone_ack (h : Complete l) (hack : l.ack ≠ .away) :
    l.cache.prod ≠ 0#32 ∧ l.sq.current = [] ∧ l.batch = [] ∧ l.unacked = 0 := by
  have hpos := tokens_pos_of_ack hack
  have hone := h.one
  have hholds : l.ack.holds = 1 := by
    cases hk : l.ack with
    | away => exact absurd hk hack
    | _ => rfl
  have hcur : l.sq.holds = 0 := by
    rw [tokens, hholds] at hone
    omega
  refine ⟨fun hz => by have := h.free hz; omega, ?_, ?_, ?_⟩
  · cases hk : l.sq with
    | ready out =>
      by_cases ho : out.prod = 0#32
      · simp [ho]
      · simp [hk, ho] at hcur
    | fetch out => simp [hk] at hcur
    | busy out => simp [hk] at hcur
    | _ => rfl
  · rw [← List.length_eq_zero_iff]
    rw [tokens, hholds] at hone
    omega
  · rw [tokens, hholds] at hone
    omega

/-- A checked doorbell is not below the producer index of the entry. -/
theorem Complete.prod_ne_zero (h : Complete l) {out seen : Entry} (hsq : l.sq = .check out seen)
    (hs : seen.prod ≠ 0#32) : out.prod ≠ 0#32 := by
  have hseen := h.seen seen (by simp [hsq])
  have hle : l.cache.prod ≤ out.prod := by
    refine (List.pairwise_cons.mp h.chain.sorted).1 _ ?_
    simp [Lane.bells, hsq]
  rintro hz
  rw [hseen] at hs
  rw [hz] at hle
  exact hs (by simpa using hle)

/-- The marker is set as long as there is an element in progress, and no longer. -/
theorem Complete.step_marker (h : Complete l) (hg : Heard l a) (hf : Fires l a l') :
    (l'.cache.prod = 0#32 → l'.tokens = 0) ∧ (l'.cache.prod ≠ 0#32 → l'.tokens = 1) := by
  have htokens := hf.tokens_add h.batch hg.acked
  cases hf with
  | @check out seen hsq =>
    have hseen := h.seen seen (by simp [hsq])
    have hdrops : l.drops .check = 0 := rfl
    by_cases hs : seen.prod = 0#32
    · -- the queue pair was idle, and is started unless the doorbell asks for nothing
      have hzero := h.free (hseen ▸ hs)
      refine ⟨fun hz => ?_, fun hz => ?_⟩
      · have hgains : l.gains .check = 0 := by simp [gains, hsq, show out.prod = 0#32 from hz]
        omega
      · have hgains : l.gains .check = 1 := by
          simp [gains, hsq, hs, show out.prod ≠ 0#32 from hz]
        omega
    · -- it was busy, and stays so with the new producer index
      have hone := h.marked (hseen ▸ hs)
      have hgains : l.gains .check = 0 := by simp [gains, hsq, hs]
      exact ⟨fun hz => absurd hz (h.prod_ne_zero hsq hs), fun _ => by omega⟩
  | @skip out hsq =>
    have hdrops : l.drops .skip = 0 := by simp [drops, hsq, hg.skip rfl out hsq]
    have hgains : l.gains .skip = 0 := rfl
    exact ⟨fun hz => by have := h.free hz; omega, fun hz => by have := h.marked hz; omega⟩
  | @finishEmpty room e hack he =>
    have hone := h.marked (h.alone_ack (by simp [hack])).1
    have hdrops : l.drops (.finish room) = 1 := by simp [drops, hack, he]
    have hgains : l.gains (.finish room) = 0 := rfl
    exact ⟨fun _ => by omega, fun hne => absurd he hne⟩
  | @finishBatch e hack he =>
    have hone := h.marked (h.alone_ack (by simp [hack])).1
    have hdrops : l.drops (.finish true) = 0 := by simp [drops, hack, he]
    have hgains : l.gains (.finish true) = 0 := rfl
    exact ⟨fun hz => absurd hz he, fun _ => by omega⟩
  | @finishFull e hack he =>
    have hone := h.marked (h.alone_ack (by simp [hack])).1
    have hdrops : l.drops (.finish false) = 0 := by simp [drops, hack, he]
    have hgains : l.gains (.finish false) = 0 := rfl
    exact ⟨fun hz => absurd hz he, fun _ => by omega⟩
  | _ =>
    simp only [drops, gains, Nat.add_zero] at htokens
    rw [htokens]
    exact ⟨h.free, h.marked⟩

/-- The head of the entry stands for finished elements. -/
theorem Complete.step_cache (h : Complete l) (hf : Fires l a l') : l'.Done l'.cache.head := by
  refine hf.done ?_
  cases hf with
  | @check out seen hsq => exact h.bells out (by simp [Lane.bells, hsq])
  | @finishEmpty room e hack he => exact (h.advanced e (by simp [hack])).1
  | @finishBatch e hack he => exact (h.advanced e (by simp [hack])).1
  | @finishFull e hack he => exact (h.advanced e (by simp [hack])).1
  | _ => exact h.cache

/-- The head that a doorbell carries, its own or that of the entry, stands for finished elements. -/
theorem Complete.step_bells (h : Complete l) (hg : Heard l a) (hf : Fires l a l') :
    ∀ e ∈ l'.bells, l'.Done e.head := by
  intro e he
  refine hf.done ?_
  cases hf with
  | ring e' kept =>
    obtain ⟨rfl, -, hhead⟩ := hg.ring e' kept rfl
    have hmem : e ∈ l.bells ∨ e = e' := by
      simpa [Lane.bells, or_assoc] using he
    rcases hmem with hmem | rfl
    · exact h.bells e hmem
    · exact hhead
  | take hsq hrung => exact h.bells e (by simpa [Lane.bells, hsq, hrung] using he)
  | lookup hsq => exact h.bells e (by simpa [Lane.bells, hsq] using he)
  | @adopt out seen hsq =>
    have hmem : e = (if seen.prod = 0#32 then out else { out with head := seen.head }) ∨
        e ∈ l.rung := by
      simpa [Lane.bells] using he
    rcases hmem with rfl | hmem
    · split_ifs with hs
      · exact h.bells out (by simp [Lane.bells, hsq])
      · rw [h.seen seen (by simp [hsq])]
        exact h.cache
    · exact h.bells e (List.mem_append_right _ hmem)
  | @check out seen hsq =>
    refine h.bells e (List.mem_append_right _ ?_)
    by_cases hs : seen.prod = 0#32 <;> simpa [Lane.bells, hs] using he
  | takeBatch hsq _ | skip hsq | start hsq _ | fetch hsq | issue hsq =>
    exact h.bells e (List.mem_append_right _ (by simpa [Lane.bells] using he))
  | _ => exact h.bells e he

/-- The element that is next has the head of the entry. -/
theorem Complete.step_current (h : Complete l) (hf : Fires l a l') :
    ∀ e ∈ l'.sq.current ++ l'.batch, e.head = l'.cache.head := by
  intro e he
  cases hf with
  | take hsq hrung | lookup hsq | adopt hsq | skip hsq | issue hsq =>
    exact h.current e (List.mem_append_right _ (by simpa  using he))
  | @takeBatch e' es hsq hb =>
    refine h.current e (List.mem_append_right _ ?_)
    have hlive := h.batch e' (by simp [hb])
    simpa [hb, hlive] using he
  | @check out seen hsq =>
    have hseen := h.seen seen (by simp [hsq])
    by_cases hs : seen.prod = 0#32
    · -- an idle queue pair is started by this doorbell alone
      have hzero := h.free (hseen ▸ hs)
      have hb : l.batch = [] := List.length_eq_zero_iff.mp (by rw [tokens] at hzero; omega)
      by_cases ho : out.prod = 0#32
      · simp [hs, ho, hb] at he
      · have heq : e = out := by simpa [hs, ho, hb] using he
        rw [heq]
    · -- the doorbell has the head that the elements in progress have
      have hmem : e ∈ l.batch := by simpa [hs] using he
      rw [h.current e (List.mem_append_right _ hmem), ← hseen]
      exact (h.adopted out seen hsq hs).symm
  | @start out hsq hlt =>
    have hne : out.prod ≠ 0#32 := fun hz => by simp [hz] at hlt
    exact h.current e (by simpa [hsq, hne] using he)
  | fetch hsq => exact h.current e (by simpa [hsq] using he)
  | finishEmpty room hack _ =>
    obtain ⟨-, hcur, hb, -⟩ := h.alone_ack (by simp [hack])
    rw [hcur, hb] at he
    cases he
  | @finishBatch e' hack _ =>
    obtain ⟨-, hcur, hb, -⟩ := h.alone_ack (by simp [hack])
    rw [hcur, hb] at he
    rw [List.mem_singleton.mp he]
  | finishFull hack _ =>
    obtain ⟨-, hcur, hb, -⟩ := h.alone_ack (by simp [hack])
    rw [hcur, hb] at he
    cases he
  | _ => exact h.current e he

/-- The element in the hands of the first machine has been fetched. -/
theorem Complete.step_fetched (h : Complete l) (hf : Fires l a l') :
    ∀ out, l'.sq = .busy out → out.head ∈ l'.fetched := by
  intro out hout
  cases hf with
  | @fetch out' hsq =>
    obtain rfl : out' = out := by injection hout
    exact List.mem_append_right _ List.mem_cons_self
  | @check out' seen hsq => by_cases hs : seen.prod = 0#32 <;> simp [hs] at hout
  | take | takeBatch | lookup | adopt | skip | start | issue => cases hout
  | _ => exact h.fetched out hout

/-- An element that waits for its acknowledgement is the one at the head of the entry, and has been
fetched and issued. -/
theorem Complete.step_past (h : Complete l) (hg : Heard l a) (hf : Fires l a l') :
    0 < l'.unacked ∨ l'.ack.early → l'.cache.head ∈ l'.fetched ∧ l'.cache.head ∈ l'.issued := by
  intro hp
  cases hf with
  | fetch hsq =>
    obtain ⟨hfetched, hissued⟩ := h.past hp
    exact ⟨List.mem_append_left _ hfetched, hissued⟩
  | @issue out hsq =>
    have hhead : out.head = l.cache.head := h.current out (by simp [hsq])
    refine ⟨?_, ?_⟩
    · rw [← hhead]
      exact h.fetched out hsq
    · rw [← hhead]
      exact List.mem_append_right _ List.mem_cons_self
  | @check out seen hsq =>
    have hseen := h.seen seen (by simp [hsq])
    -- an element is in progress, so the queue pair was busy
    have hpos : 0 < l.tokens := by
      rcases hp with hp | hp
      · change 0 < l.unacked at hp
        rw [tokens]
        omega
      · refine tokens_pos_of_ack fun hk => ?_
        change l.ack.early at hp
        rw [hk] at hp
        exact hp
    have hs : seen.prod ≠ 0#32 := fun hz => by
      have := h.free (hseen ▸ hz)
      omega
    have hhead : out.head = l.cache.head := by rw [h.adopted out seen hsq hs, hseen]
    simp only [hhead]
    exact h.past hp
  | accept hack => exact h.past (Or.inl (hg.acked rfl))
  | ackLookup hack => exact h.past (Or.inr (by simp [hack]))
  | advance hack | report hack | settle hack =>
    exact h.past (Or.inl (by simpa  using hp))
  | finishEmpty room hack _ | finishBatch hack _ | finishFull hack _ =>
    obtain ⟨-, -, -, hun⟩ := h.alone_ack (by simp [hack])
    simp [hun, hack] at hp
  | _ => exact h.past hp

/-! ### What has been looked up -/

/-- A check while the second machine has the entry leaves it as it is.  By the guard it is a check
for a doorbell that asks for nothing new, and so writes the entry that it has read. -/
theorem Complete.check_cases {out seen : Entry} (h : Complete l) (hg : Heard l .check)
    (hsq : l.sq = .check out seen) : (l.ack = .away ∨ l.ack = .get) ∨ out = l.cache := by
  rcases hg.check rfl with haway | hget | hsame
  · exact Or.inl (Or.inl haway)
  · exact Or.inl (Or.inr hget)
  · have hprod := hsame out seen hsq
    have hseen := h.seen seen (by simp [hsq])
    by_cases hs : seen.prod = 0#32
    · left
      left
      by_contra hack
      have := tokens_pos_of_ack hack
      have := h.free (hseen ▸ hs)
      omega
    · right
      have hhead := h.adopted out seen hsq hs
      rw [← hseen]
      cases out
      cases seen
      simp_all

/-- What the second machine has looked up is the entry. -/
theorem Complete.step_looked (h : Complete l) (hg : Heard l a) (hf : Fires l a l') :
    ∀ e, l'.ack = .read e → e = l'.cache := by
  intro e he
  cases hf with
  | check hsq =>
    change l.ack = _ at he
    rcases h.check_cases hg hsq with hk | heq
    · rcases hk with hk | hk <;> rw [hk] at he <;> cases he
    · exact (h.looked e he).trans heq.symm
  | ackLookup hack => injection he with he; exact he.symm
  | accept | advance | report | settle | finishEmpty | finishBatch => cases he
  | finishFull hack _ =>
    change l.ack = _ at he
    rw [hack] at he
    cases he
  | _ => exact h.looked e he

/-- Its producer index stays that of the entry until it is cleared. -/
theorem Complete.step_reported (h : Complete l) (hg : Heard l a) (hf : Fires l a l') :
    ∀ e, l'.ack = .report e → e.prod = l'.cache.prod := by
  intro e he
  cases hf with
  | check hsq =>
    change l.ack = _ at he
    rcases h.check_cases hg hsq with hk | heq
    · rcases hk with hk | hk <;> rw [hk] at he <;> cases he
    · exact (h.reported e he).trans (by rw [heq])
  | @advance seen hack =>
    obtain rfl : { seen with head := seen.head + 1 } = e := by simpa using he
    show seen.prod = l.cache.prod
    rw [h.looked seen hack]
  | accept | ackLookup | report | settle | finishEmpty | finishBatch => cases he
  | finishFull hack _ =>
    change l.ack = _ at he
    rw [hack] at he
    cases he
  | _ => exact h.reported e he

/-- Once the head has been advanced, it stands for one finished element more.  The producer index
is cleared only if it stands for finished elements, too. -/
theorem Complete.step_advanced (h : Complete l) (hg : Heard l a) (hf : Fires l a l') :
    ∀ e, l'.ack.advanced = some e →
      l'.Done e.head ∧ (e.prod = l'.cache.prod ∨ (e.prod = 0#32 ∧ l'.Done l'.cache.prod)) := by
  intro e he
  -- what is finished before the action is finished afterwards
  suffices hold : l.Done e.head ∧
      (e.prod = l'.cache.prod ∨ (e.prod = 0#32 ∧ l.Done l'.cache.prod)) from
    ⟨hf.done hold.1, hold.2.imp_right fun hz => ⟨hz.1, hf.done hz.2⟩⟩
  cases hf with
  | check hsq =>
    change l.ack.advanced = _ at he
    rcases h.check_cases hg hsq with hk | heq
    · rcases hk with hk | hk <;> rw [hk] at he <;> cases he
    · show l.Done e.head ∧ (e.prod = Entry.prod _ ∨ (e.prod = 0#32 ∧ l.Done (Entry.prod _)))
      rw [heq]
      exact h.advanced e he
  | @advance seen hack =>
    have hseen := h.looked seen hack
    obtain rfl : { seen with head := seen.head + 1 } = e := by
      simpa  using he
    obtain ⟨hfetched, hissued⟩ := h.past (Or.inr (by simp [hack]))
    rw [← hseen] at hfetched hissued
    refine ⟨Done.succ ?_ hfetched hissued, Or.inl (by rw [hseen])⟩
    rw [hseen]
    exact h.cache
  | @report e' hack =>
    obtain rfl : e' = e := by simpa  using he
    exact h.advanced e' (by simp [hack])
  | @settle e' hack =>
    obtain ⟨hdone, hprod⟩ := h.advanced e' (by simp [hack])
    obtain rfl : (if e'.prod ≤ e'.head then { e' with prod := 0 } else e') = e := by
      simpa  using he
    split_ifs with hle
    · -- the head has reached the producer index, so it is finished, too
      refine ⟨hdone, Or.inr ⟨rfl, ?_⟩⟩
      rcases hprod with hprod | ⟨-, hprod⟩
      · rw [← hprod]
        exact hdone.mono hle
      · exact hprod
    · exact ⟨hdone, hprod⟩
  | @finishFull e' hack hne =>
    change l.ack.advanced = _ at he
    obtain rfl : e' = e := by simpa [hack] using he
    exact ⟨(h.advanced e' (by simp [hack])).1, Or.inl rfl⟩
  | accept | ackLookup | finishEmpty | finishBatch => cases he
  | _ => exact h.advanced e he

/-- What the first machine has looked up is the entry, until it is written back. -/
theorem Complete.step_seen (h : Complete l) (hg : Heard l a) (hf : Fires l a l') :
    ∀ e, l'.sq.seen = some e → e = l'.cache := by
  intro e he
  cases hf with
  | lookup hsq => simpa [eq_comm] using he
  | @adopt out seen hsq => exact h.seen e (by simpa [hsq] using he)
  | @check out seen hsq => by_cases hs : seen.prod = 0#32 <;> simp [hs] at he
  | take | takeBatch | skip | start | fetch | issue => cases he
  | @finishEmpty room e' hack _ =>
    change l.sq.seen = _ at he
    rw [hg.finish room rfl e' hack] at he
    cases he
  | @finishBatch e' hack _ =>
    change l.sq.seen = _ at he
    rw [hg.finish true rfl e' hack] at he
    cases he
  | @finishFull e' hack _ =>
    change l.sq.seen = _ at he
    rw [hg.finish false rfl e' hack] at he
    cases he
  | _ => exact h.seen e he

/-- A doorbell that finds the queue pair busy takes over its head. -/
theorem Complete.step_adopted (h : Complete l) (hf : Fires l a l') :
    ∀ out seen, l'.sq = .check out seen → seen.prod ≠ 0#32 → out.head = seen.head := by
  intro out seen heq hne
  cases hf with
  | @adopt out' seen' hsq =>
    injection heq with h1 h2
    subst h1 h2
    simp [hne]
  | @check out' seen' hsq => by_cases hs : seen'.prod = 0#32 <;> simp [hs] at heq
  | take | takeBatch | lookup | skip | start | fetch | issue => cases heq
  | _ => exact h.adopted out seen heq hne

/-! ### The chain of doorbells -/

/-- Only the doorbell and the check change the producer indices that wait. -/
theorem Fires.bells_prod (hf : Fires l a l') (hring : ∀ e kept, a ≠ .ring e kept)
    (hcheck : a ≠ .check) : l'.bells.map Entry.prod = l.bells.map Entry.prod := by
  cases hf with
  | ring e kept => exact absurd rfl (hring e kept)
  | check hsq => exact absurd rfl hcheck
  | take hsq hrung => simp [Lane.bells, hsq, hrung]
  | @adopt out seen hsq =>
    by_cases hs : seen.prod = 0#32 <;> simp [Lane.bells, hsq, hs]
  | takeBatch hsq | lookup hsq | skip hsq | start hsq | fetch hsq | issue hsq =>
    simp [Lane.bells, hsq]
  | _ => rfl

/-- The producer index of the entry stays, or is cleared when it has been reached. -/
theorem Complete.cache_prod (h : Complete l) (hf : Fires l a l') (hcheck : a ≠ .check) :
    l'.cache.prod = l.cache.prod ∨ (l'.cache.prod = 0#32 ∧ l.Done l.cache.prod) := by
  cases hf with
  | check hsq => exact absurd rfl hcheck
  | @finishEmpty room e hack _ => exact (h.advanced e (by simp [hack])).2
  | @finishBatch e hack _ => exact (h.advanced e (by simp [hack])).2
  | @finishFull e hack _ => exact (h.advanced e (by simp [hack])).2
  | _ => exact Or.inl rfl

/-- A doorbell is put at the end of the chain. -/
theorem Chain.ring {prod pi lastPi : BitVec 32} {bells : List (BitVec 32)}
    (h : Chain l prod bells lastPi) (hle : lastPi ≤ pi) : Chain l prod (bells ++ [pi]) pi where
  sorted := by
    rw [← List.cons_append, List.pairwise_append]
    refine ⟨h.sorted, List.pairwise_singleton _ _, fun x hx y hy => ?_⟩
    rw [List.mem_singleton.mp hy]
    exact BitVec.le_trans (h.below x hx) hle
  below p hp := by
    rw [← List.cons_append] at hp
    rcases List.mem_append.mp hp with hp | hp
    · exact BitVec.le_trans (h.below p hp) hle
    · rw [List.mem_singleton.mp hp]
      exact BitVec.le_refl _
  newest := Or.inl (by simp)

/-- The check moves the first doorbell of the chain into the entry.  The producer index that it
replaces is not larger, so nothing is lost with it. -/
theorem Chain.check {prod out lastPi : BitVec 32} {bells : List (BitVec 32)}
    (h : Chain l prod (out :: bells) lastPi) : Chain l out bells lastPi where
  sorted := h.sorted.of_cons
  below p hp := h.below p (List.mem_cons_of_mem _ hp)
  newest := by
    rcases h.newest with hnew | ⟨hnil, -⟩
    · exact Or.inl (by rw [← hnew, List.getLastD_cons])
    · cases hnil

/-- The entry is cleared when its producer index has been reached; if no doorbell waits, it was the
last one. -/
theorem Chain.clear {prod lastPi : BitVec 32} {bells : List (BitVec 32)}
    (h : Chain l prod bells lastPi) (hdone : l.Done prod) : Chain l 0#32 bells lastPi where
  sorted := List.pairwise_cons.mpr ⟨fun _ _ => by bv_omega, h.sorted.of_cons⟩
  below p hp := by
    rcases List.mem_cons.mp hp with rfl | hp
    · exact by bv_omega
    · exact h.below p (List.mem_cons_of_mem _ hp)
  newest := by
    cases bells with
    | nil =>
      rcases h.newest with hnew | ⟨-, hlast⟩
      · exact Or.inr ⟨rfl, hnew ▸ hdone⟩
      · exact Or.inr ⟨rfl, hlast⟩
    | cons b bs => simpa only [List.getLastD_cons, reduceCtorEq, false_and, or_false] using h.newest

/-- What is finished stays finished. -/
theorem Chain.mono {prod lastPi : BitVec 32} {bells : List (BitVec 32)}
    (h : Chain l prod bells lastPi) (hf : Fires l a l') : Chain l' prod bells lastPi :=
  ⟨h.sorted, h.below, h.newest.imp_right fun hn => ⟨hn.1, hf.done hn.2⟩⟩

/-- The doorbells stay a chain. -/
theorem Complete.step_chain (h : Complete l) (hg : Heard l a) (hf : Fires l a l') :
    l'.Chain l'.cache.prod (l'.bells.map Entry.prod) l'.lastPi := by
  refine Chain.mono ?_ hf
  -- only the doorbell, the check and the write-back do something to the chain
  by_cases hring : ∃ e kept, a = .ring e kept
  · obtain ⟨e, kept, rfl⟩ := hring
    obtain ⟨rfl, hle, -⟩ := hg.ring e kept rfl
    cases hf
    have := h.chain.ring hle
    simpa [Lane.bells] using this
  · by_cases hcheck : a = .check
    · subst hcheck
      cases hf with
      | @check out seen hsq =>
        have hbells : l.bells = out :: l.rung := by simp [Lane.bells, hsq]
        have hchain := h.chain
        rw [hbells, List.map_cons] at hchain
        by_cases hs : seen.prod = 0#32 <;> simpa [Lane.bells, hs] using hchain.check
    · have hring' : ∀ e kept, a ≠ .ring e kept := fun e kept heq => hring ⟨e, kept, heq⟩
      have hlast : l'.lastPi = l.lastPi := by
        cases hf with
        | ring e kept => exact absurd rfl (hring' e kept)
        | _ => rfl
      rw [hf.bells_prod hring' hcheck, hlast]
      rcases h.cache_prod hf hcheck with hprod | ⟨hprod, hdone⟩
      · rw [hprod]
        exact h.chain
      · rw [hprod]
        exact h.chain.clear hdone

/-! ### All parts -/

/-- **One action.**  A queue pair that has heard all its doorbells is complete after each action. -/
theorem Complete.step (h : Complete l) (hg : Heard l a) (hf : Fires l a l') : Complete l' where
  batch := hf.batchLive h.batch
  free := (h.step_marker hg hf).1
  marked := (h.step_marker hg hf).2
  cache := h.step_cache hf
  bells := h.step_bells hg hf
  current := h.step_current hf
  fetched := h.step_fetched hf
  past := h.step_past hg hf
  looked := h.step_looked hg hf
  reported := h.step_reported hg hf
  advanced := h.step_advanced hg hf
  seen := h.step_seen hg hf
  adopted := h.step_adopted hf
  chain := h.step_chain hg hf

/-- Nothing waits and nothing is in progress for the queue pair. -/
structure Quiet (l : Lane) : Prop where
  bells : l.bells = []
  tokens : l.tokens = 0

/-- When nothing waits, the chain has been worked off. -/
theorem Complete.done (h : Complete l) (hq : Quiet l) : l.Done l.lastPi := by
  have hfree : l.cache.prod = 0#32 := by
    by_contra hne
    have := h.marked hne
    have := hq.tokens
    omega
  -- the last producer index is that of the cleared entry, or was done when it was cleared
  rcases h.chain.newest with hnew | ⟨-, hdone⟩
  · rw [hq.bells, hfree] at hnew
    rw [← hnew]
    exact done_zero
  · exact hdone

end Step

/-- After reset there is no doorbell to lose. -/
theorem complete_reset : Complete reset where
  batch := nofun
  free _ := rfl
  marked hne := absurd rfl hne
  cache := done_zero
  bells := nofun
  current := nofun
  fetched := nofun
  past := by simp [reset]
  looked := nofun
  reported := nofun
  advanced := nofun
  seen := nofun
  adopted := nofun
  chain := ⟨List.pairwise_singleton _ _, by simp [reset, bells], Or.inl rfl⟩

end Lane

namespace WqManager

open Lane

/-! ## The work-queue manager -/

/-- All machines are idle, both FIFOs are empty, and every element of `q` that was issued has
been acknowledged. -/
structure AtRest (q : BitVec 8) (s : State × Ledger) : Prop where
  conn : s.1.conn.st = .idle
  qp : s.1.qp.st = .idle
  sqFifoIf : s.1.sqFifoIf.st = .idle
  sq : s.1.sq.st = .idle
  ack : s.1.ack.st = .idle
  aw : s.1.aw.st = .idle
  ar : s.1.ar.st = .idle
  sqFifo : s.1.sqFifo.contents = []
  sqFifoBatch : s.1.sqFifoBatch.contents = []
  unacked : s.2.unacked q = 0

/-- At rest, every element below the last producer index has been fetched and issued. -/
def NoneLost (s : State × Ledger) : Prop :=
  ∀ q, AtRest q s → ∀ k, k < s.2.lastPi q → k ∈ s.2.fetched q ∧ k ∈ s.2.issued q

/-- What the surroundings promise: acknowledgements are for issued elements, the producer
indices of a queue pair do not go back, and `CQHEADi` is zero or a head that was written back
for it. -/
structure Surroundings (s : State × Ledger) (i : Input) : Prop where
  acks : AcksIssued s i
  sqPi : i.sqUpdated = true → s.2.lastPi i.qpIdx ≤ i.sqPi
  cqHead : i.sqUpdated = true → i.cqHead = 0#32 ∨ i.cqHead ∈ s.2.heads i.qpIdx

/-- A doorbell finds the capture register and the FIFO free, `SQ_IF_READY` gives up no
doorbell, and only one of the machines has the entry of a queue pair looked up, unless the
doorbell asks for nothing new. -/
structure BellsHeard (s : State × Ledger) (i : Input) : Prop where
  ring : i.sqUpdated = true → s.1.sqFifoIf.st = .idle ∧ s.1.sqFifo.readyWr = true
  ready : s.1.sq.st = .ifReady → s.1.sq.output.sqProdIdx ≤ s.1.sq.output.cqHeadIdx →
    s.1.sq.output.sqProdIdx = 0#32
  check : s.1.sq.st = .checkQueueBusy → s.1.ack.st ≠ .idle →
    s.1.ackQp = s.1.sq.output.sqIdx → s.1.sq.output.sqProdIdx = s.1.sq.cDouta.sqProdIdx
  race : ¬ s.1.overtakes i

instance (s : State × Ledger) (i : Input) : Decidable (Surroundings s i) :=
  decidable_of_iff
    (AcksIssued s i ∧ (i.sqUpdated = true → s.2.lastPi i.qpIdx ≤ i.sqPi) ∧
      (i.sqUpdated = true → i.cqHead = 0#32 ∨ i.cqHead ∈ s.2.heads i.qpIdx))
    ⟨fun h => ⟨h.1, h.2.1, h.2.2⟩, fun h => ⟨h.1, h.2, h.3⟩⟩

instance (s : State × Ledger) (i : Input) : Decidable (BellsHeard s i) :=
  decidable_of_iff
    ((i.sqUpdated = true → s.1.sqFifoIf.st = .idle ∧ s.1.sqFifo.readyWr = true) ∧
      (s.1.sq.st = .ifReady → s.1.sq.output.sqProdIdx ≤ s.1.sq.output.cqHeadIdx →
        s.1.sq.output.sqProdIdx = 0#32) ∧
      (s.1.sq.st = .checkQueueBusy → s.1.ack.st ≠ .idle →
        s.1.ackQp = s.1.sq.output.sqIdx →
          s.1.sq.output.sqProdIdx = s.1.sq.cDouta.sqProdIdx) ∧
      ¬ s.1.overtakes i)
    ⟨fun h => ⟨h.1, h.2.1, h.2.2.1, h.2.2.2⟩, fun h => ⟨h.1, h.2, h.3, h.4⟩⟩

section Run

variable {q : BitVec 8} {s : State × Ledger} {i : Input}

/-- The heads that were written back stand for finished elements. -/
def HeadsDone (s : State × Ledger) : Prop := ∀ q, ∀ x ∈ s.2.heads q, (lane q s).Done x

/-- An action of the first machine is heard.  The condition on the check is about the second
machine where the check is taken, which is before or after its own action. -/
theorem BellsHeard.heard_sq (h : BellsHeard s i) {a : Action} {m : Lane}
    (ha : s.1.sqAction q i = some a) (hsq : m.sq = s.1.sqPhase q)
    (hack : m.ack = if s.1.sqFirst i then s.1.ackPhase q else (s.1.step i).ackPhase q) :
    Heard m a := by
  refine ⟨fun heq => absurd (heq ▸ ha) (sqAction_ne_ack .accept (by rintro ⟨⟩)),
    fun e kept heq => absurd (heq ▸ ha) (sqAction_ne_ack (.ring e kept) (by rintro ⟨⟩)), ?_, ?_,
    fun room heq => absurd (heq ▸ ha) (sqAction_ne_ack (.finish room) (by rintro ⟨⟩))⟩
  · rintro rfl out hout
    obtain ⟨hst, hle, hidx⟩ := (sqAction_eq_skip_iff q s.1 i).mp ha
    rw [hsq] at hout
    obtain rfl : entryOf s.1.sq.output = out := by
      simpa [State.sqPhase, hst, hidx] using hout
    exact h.ready hst hle
  · rintro rfl
    obtain ⟨hst, hidx⟩ := (sqAction_eq_check_iff q s.1 i).mp ha
    by_cases hbusy : s.1.ack.st ≠ .idle ∧ s.1.ackQp = q
    · right
      right
      intro out seen hout
      rw [hsq] at hout
      obtain ⟨rfl, rfl⟩ : entryOf s.1.sq.output = out ∧ entryOf s.1.sq.cDouta = seen := by
        simpa [State.sqPhase, hst, hidx] using hout
      exact h.check hst hbusy.1 (hbusy.2.trans hidx.symm)
    · have haway : s.1.ackPhase q = .away := by
        by_cases hidle : s.1.ack.st = .idle
        · simp [State.ackPhase, hidle]
        · exact if_neg fun hqp => hbusy ⟨hidle, hqp⟩
      rw [hack]
      split_ifs
      · exact Or.inl haway
      · rcases ackPhase_step_of_away (i := i) haway with hk | hk
        · exact Or.inl hk
        · exact Or.inr (Or.inl hk)

/-- An action of the second machine is heard: its acknowledgement is for an issued element, and it
writes back no entry that the first machine has looked up. -/
theorem BellsHeard.heard_ack (h : BellsHeard s i) (hs : Sound s) (henv : Surroundings s i)
    {a : Action} {m : Lane} (ha : s.1.ackAction q i = some a)
    (hsq : m.sq = if s.1.sqFirst i then (s.1.step i).sqPhase q else s.1.sqPhase q)
    (hun : s.2.unacked q ≤ m.unacked) : Heard m a := by
  refine ⟨?_, fun e kept heq => absurd (heq ▸ ha) (ackAction_ne_sq (.ring e kept) (by rintro ⟨⟩)),
    fun heq => absurd (heq ▸ ha) (ackAction_ne_sq .skip (by rintro ⟨⟩)),
    fun heq => absurd (heq ▸ ha) (ackAction_ne_sq .check (by rintro ⟨⟩)), ?_⟩
  · rintro rfl
    exact (henv.acks q ((ackAction_eq_accept_iff q s.1 i).mp ha)).trans_le hun
  · rintro room rfl e -
    obtain ⟨hfin, hqp, -⟩ := (ackAction_eq_finish_iff q s.1 i room).mp ha
    by_contra hseen
    obtain ⟨x, hx⟩ := Option.ne_none_iff_exists'.mp hseen
    exact h.race (hs.overtakes_of_seen hfin hqp hsq hx).1

/-- A doorbell is heard: it is captured, and the head that it brings stands for finished elements
since it is zero or one that was written back. -/
theorem BellsHeard.heard_bell (h : BellsHeard s i) (henv : Surroundings s i)
    (hheads : HeadsDone s) {a : Action} {m : Lane} (ha : s.1.bellAction q i = some a)
    (hlast : m.lastPi = s.2.lastPi q) (hdone : ∀ x, (lane q s).Done x → m.Done x) :
    Heard m a := by
  refine ⟨fun heq => absurd (heq ▸ ha) (bellAction_ne .accept (by rintro ⟨⟩)), ?_,
    fun heq => absurd (heq ▸ ha) (bellAction_ne .skip (by rintro ⟨⟩)),
    fun heq => absurd (heq ▸ ha) (bellAction_ne .check (by rintro ⟨⟩)),
    fun room heq => absurd (heq ▸ ha) (bellAction_ne (.finish room) (by rintro ⟨⟩))⟩
  rintro e kept rfl
  rw [State.bellAction] at ha
  split_ifs at ha with hring
  obtain ⟨hup, rfl⟩ := hring
  obtain ⟨rfl, rfl⟩ : (⟨i.sqPi, i.cqHead⟩ : Entry) = e ∧
      (s.1.sqFifoIf.st == .idle && s.1.sqFifo.readyWr) = kept := by
    simpa using ha
  refine ⟨by simp [h.ring hup], hlast ▸ henv.sqPi hup, hdone _ ?_⟩
  rcases henv.cqHead hup with hzero | hmem
  · simp only [hzero]
    exact done_zero
  · exact hheads _ _ hmem

/-- So every action of the cycle is. -/
theorem BellsHeard.heard (h : BellsHeard s i) (hs : Sound s) (henv : Surroundings s i)
    (hheads : HeadsDone s) : queuePair.Guarded Heard (lane q s) (s.1.actions q i) :=
  hs.guarded_actions (fun _ _ ha hsq hack => h.heard_sq ha hsq hack)
    (fun _ _ ha _ hsq hun => h.heard_ack hs henv ha hsq hun)
    (fun _ _ ha hlast hdone => h.heard_bell henv hheads ha hlast hdone)

/-- A head that is new in the ledger is written back in this cycle. -/
theorem mem_heads_step {q : BitVec 8} {x : BitVec 32} (hx : x ∈ (ledgered.step s i).2.heads q) :
    x ∈ s.2.heads q ∨ s.1.wbCqhead = some (q, x) := by
  cases hwb : s.1.wbCqhead with
  | none =>
    have hsame : (ledgered.step s i).2.heads q = s.2.heads q := by
      simp [ledgered, Machine.watch, note, hwb]
    exact .inl (hsame ▸ hx)
  | some w =>
    have hnext : (ledgered.step s i).2.heads q =
        if w.1 = q then s.2.heads q ++ [w.2] else s.2.heads q := by
      simp [ledgered, Machine.watch, note, hwb]
    rw [hnext] at hx
    split_ifs at hx with hq
    · rcases List.mem_append.mp hx with hx | hx
      · exact .inl hx
      · rw [← hq, List.mem_singleton.mp hx]
        exact .inr rfl
    · exact .inl hx

/-- The head that is written back is the one of the queue pair of the acknowledgement, and
stands for finished elements. -/
theorem HeadsDone.step (h : HeadsDone s) (hs : Sound s) (hc : ∀ q, Complete (lane q s)) :
    HeadsDone (ledgered.step s i) := by
  intro q x hx
  refine hs.keeps (I := fun l => l.Done x) (G := fun _ _ => True)
    (fun _ _ _ hd _ hf => hf.done hd) (Machine.guarded_true _ _) ?_
  rcases mem_heads_step hx with hx | hwb
  · exact h q x hx
  · have hst : s.1.ack.st = .updateCqhead := by
      by_contra hne
      simp [State.wbCqhead, hne] at hwb
    simp only [State.wbCqhead, hst, if_true, Option.some.injEq, Prod.mk.injEq] at hwb
    obtain ⟨hq, hhead⟩ := hwb
    have hphase : (lane s.1.ackQp s).ack = .report (entryOf s.1.ack.sqCDoutb) := by
      simp [lane, State.ackPhase, hst]
    -- the entry that is reported is busy, and so its number is the one of the queue pair
    have hbusy : s.1.ack.sqCDoutb.sqProdIdx ≠ 0#32 := by
      have hprod := (hc s.1.ackQp).reported _ hphase
      rw [show s.1.ack.sqCDoutb.sqProdIdx = _ from hprod]
      exact ((hc s.1.ackQp).alone_ack (by simp [hphase])).1
    have hidx := hs.numbered.latched (by simp [hst, AckState.latched]) hbusy
    have hdone := ((hc s.1.ackQp).advanced (entryOf s.1.ack.sqCDoutb) (by simp [hphase])).1
    rw [← hhead, ← hq, hidx]
    exact hdone

/-- At rest nothing waits and nothing is in progress. -/
theorem AtRest.quiet (h : AtRest q s) : Quiet (lane q s) where
  bells := by
    simp [bells, lane, State.sqPhase, State.waiting, h.sq, h.sqFifo, h.sqFifoIf]
  tokens := by
    simp [tokens, lane, State.sqPhase, State.ackPhase, h.sq, h.ack, h.sqFifoBatch, h.unacked]

/-- **No doorbell is lost** in a run in which every doorbell is captured, none is given up,
and the write-backs of the two machines do not meet. -/
theorem noneLost_of_bellsHeard (is : List Input)
    (henv : ledgered.Guarded Surroundings ledgered.reset is)
    (hheard : ledgered.Guarded BellsHeard ledgered.reset is) :
    ledgered.Always NoneLost ledgered.reset is := by
  have hall : ledgered.Always
      (fun s => Sound s ∧ HeadsDone s ∧ ∀ q, Complete (lane q s)) ledgered.reset is := by
    refine Machine.always_of_guarded (fun s i h hk => ?_) ⟨sound_reset, nofun, fun q => ?_⟩
      (henv.and hheard)
    · obtain ⟨hs, hheads, hc⟩ := h
      exact ⟨hs.step i, hheads.step hs hc, fun q =>
        hs.keeps (fun _ _ _ hm hg hf => hm.step hg hf) (hk.2.heard hs hk.1 hheads) (hc q)⟩
    · rw [lane_reset]
      exact complete_reset
  exact hall.mono fun s h q hrest => (h.2.2 q).done hrest.quiet

end Run

theorem noneLost_of_bellsHeard_writeDone : ledgered.Always NoneLost ledgered.reset writeDone :=
  noneLost_of_bellsHeard writeDone (by decide +kernel) (by decide +kernel)

/-- A doorbell for the second write of queue pair 1 while the first is acknowledged. -/
def crossingDoorbell : List Input :=
  oneWrite 1 1 0 ++ ring 1 2 0 :: Input.quiet :: acknowledge 1 :: List.replicate 8 Input.quiet

/-- The write-back of the acknowledgement undoes the one of the doorbell. -/
theorem crossingDoorbell_lost :
    ledgered.Guarded Surroundings ledgered.reset crossingDoorbell ∧
      (∀ q, AtRest q (ledgered.run crossingDoorbell)) ∧
      ¬ NoneLost (ledgered.run crossingDoorbell) := by
  have hrest : ∀ q, AtRest q (ledgered.run crossingDoorbell) := fun q =>
    ⟨by decide +kernel, by decide +kernel, by decide +kernel, by decide +kernel,
      by decide +kernel, by decide +kernel, by decide +kernel, by decide +kernel,
      by decide +kernel, by revert q; decide +kernel⟩
  refine ⟨by decide +kernel, hrest, fun h => ?_⟩
  exact absurd (h 1 (hrest 1) 1 (by decide +kernel)).1 (by decide +kernel)

end WqManager
end RecoNIC
