import RecoNIC.RoceStack.BusyMarker

/-!
# Elements in order, one at a time

The index of the element that is fetched next is the head of an entry.  It comes from the
doorbell, from the send-queue cache, or from the batch FIFO, and it is right if every one
of them that can be used next agrees with the number of elements fetched so far.

A doorbell brings the value that `CQHEADi` had when it was rung.  `SQ_READ_CACHE` replaces
it by the head of the cache entry --- but only while the queue pair is busy, so a doorbell
that waits in the FIFO until the acknowledgement is in starts again from an element that
has been fetched before.

The argument is about one queue pair (`Ordered`), and about one action at a time
(`Ordered.step`).  Its core is that there is never more than one element in progress, which
leaves only one place from which the next head can come.  `InTurn` is what it asks of the
actions, and `HeadsCurrent` what it asks of the states of the work-queue manager in which they
are taken.
-/

namespace RecoNIC

open Synchronous

namespace Lane

/-- The entries whose element is fetched next. -/
@[simp] def SqPhase.next : SqPhase → List Entry
  | .ready out => if out.head < out.prod then [out] else []
  | .fetch out => [out]
  | _ => []

/-- The first machine has fetched its element. -/
@[simp] def SqPhase.fetched : SqPhase → Prop
  | .busy _ => True
  | _ => False

/-- One element at a time, and every head that can be used next is the number of elements
fetched. -/
structure Ordered (l : Lane) : Prop where
  batch : l.BatchLive
  one : l.tokens ≤ 1
  /-- A queue pair that is not marked busy has no element in progress. -/
  idle : l.cache.prod = 0#32 → l.tokens = 0
  /-- The indices fetched are 0, 1, 2 and so on. -/
  range : l.fetched.map BitVec.toNat = List.range l.fetched.length
  /-- The head has not wrapped around: it stays below a producer index. -/
  bound : l.fetched.length < 2 ^ 32
  rest : l.cache.prod = 0#32 → l.cache.head.toNat = l.fetched.length
  next : ∀ e ∈ l.sq.next ++ l.batch, e.head = l.cache.head ∧ e.head.toNat = l.fetched.length
  /-- Between the fetch and its acknowledgement the entry is one behind. -/
  past : l.sq.fetched ∨ 0 < l.unacked ∨ l.ack.early → l.cache.head.toNat + 1 = l.fetched.length
  looked : ∀ e, l.ack = .read e → e.head = l.cache.head
  advanced : ∀ e, l.ack.advanced = some e → e.head.toNat = l.fetched.length
  limit : ∀ out, l.sq = .fetch out → out.head < out.prod
  /-- What the first machine has looked up is not out of date where it matters. -/
  seen : ∀ x, l.sq.seen = some x →
    (x.prod = 0#32 → l.cache.prod = 0#32 ∧ x.head = l.cache.head) ∧
      (x.prod ≠ 0#32 → l.tokens = 1 → x.head = l.cache.head)
  adopted : ∀ out seen, l.sq = .check out seen → seen.prod ≠ 0#32 → out.head = seen.head

/-- A doorbell that starts the queue pair brings the head of the entry, one that does not
leaves the marker set, and the second machine does not advance a head that the first one
has looked up. -/
structure InTurn (l : Lane) (a : Action) : Prop where
  /-- An acknowledgement is for an element that was issued. -/
  acked : Acked l a
  check : a = .check → ∀ out seen, l.sq = .check out seen →
    if seen.prod = 0#32 then out.head = seen.head ∨ (out.prod ≠ 0#32 ∧ out.prod ≤ out.head)
    else out.prod ≠ 0#32
  finish : ∀ room, a = .finish room → ∀ e, l.ack = .finish e → e.prod ≠ 0#32 → l.sq.seen = none

section Step

variable {l l' : Lane} {a : Action}

/-! ### Moves that leave the entry alone -/

/-- The first machine moves, and neither the entry nor what was fetched changes.  This covers all
its actions but the check and the fetch. -/
theorem Ordered.sqMove (h : Ordered l) (htokens : l'.tokens ≤ l.tokens)
    (hcache : l'.cache = l.cache) (hfetched : l'.fetched = l.fetched) (hack : l'.ack = l.ack)
    (hbatch : l'.BatchLive)
    (hnext : ∀ e ∈ l'.sq.next ++ l'.batch, e ∈ l.sq.next ++ l.batch)
    (hpast : l'.sq.fetched ∨ 0 < l'.unacked → l.sq.fetched ∨ 0 < l.unacked)
    (hlimit : ∀ out, l'.sq = .fetch out → out.head < out.prod)
    (hseen : ∀ e, l'.sq.seen = some e → l.sq.seen = some e ∨ e = l.cache)
    (hadopted : ∀ out seen, l'.sq = .check out seen → seen.prod ≠ 0#32 → out.head = seen.head) :
    Ordered l' where
  batch := hbatch
  one := htokens.trans h.one
  idle hc := by
    have := h.idle (by rw [← hcache]; exact hc)
    omega
  range := by rw [hfetched]; exact h.range
  bound := by rw [hfetched]; exact h.bound
  rest := by rw [hcache, hfetched]; exact h.rest
  next e he := by
    rw [hcache, hfetched]
    exact h.next e (hnext e he)
  past hp := by
    rw [hcache, hfetched]
    rw [hack] at hp
    refine h.past ?_
    tauto
  looked := by rw [hack, hcache]; exact h.looked
  advanced := by rw [hack, hfetched]; exact h.advanced
  limit := hlimit
  seen e he := by
    rw [hcache]
    rcases hseen e he with he | rfl
    · obtain ⟨hfree, hbusy⟩ := h.seen e he
      refine ⟨hfree, fun hne hone => hbusy hne ?_⟩
      have := h.one
      omega
    · exact ⟨fun hz => ⟨hz, rfl⟩, fun _ _ => rfl⟩
  adopted := hadopted

/-- The second machine moves, and the entry does not change.  This covers all its actions but the
write-back. -/
theorem Ordered.ackMove (h : Ordered l) (htokens : l'.tokens = l.tokens) (hsq : l'.sq = l.sq)
    (hcache : l'.cache = l.cache) (hfetched : l'.fetched = l.fetched)
    (hbatch : l'.batch = l.batch)
    (hpast : 0 < l'.unacked ∨ l'.ack.early → 0 < l.unacked ∨ l.ack.early)
    (hlooked : ∀ e, l'.ack = .read e → e.head = l.cache.head)
    (hadvanced : ∀ e, l'.ack.advanced = some e → e.head.toNat = l.fetched.length) :
    Ordered l' where
  batch := by rw [BatchLive, hbatch]; exact h.batch
  one := by rw [htokens]; exact h.one
  idle := by rw [htokens, hcache]; exact h.idle
  range := by rw [hfetched]; exact h.range
  bound := by rw [hfetched]; exact h.bound
  rest := by rw [hcache, hfetched]; exact h.rest
  next := by rw [hsq, hbatch, hcache, hfetched]; exact h.next
  past hp := by
    rw [hcache, hfetched]
    rw [hsq] at hp
    refine h.past ?_
    tauto
  looked := by rw [hcache]; exact hlooked
  advanced := by rw [hfetched]; exact hadvanced
  limit := by rw [hsq]; exact h.limit
  seen := by rw [hsq, hcache, htokens]; exact h.seen
  adopted := by rw [hsq]; exact h.adopted

/-! ### Who holds the element -/

/-- The first machine alone holds an element it is about to fetch or has fetched. -/
theorem Ordered.alone (h : Ordered l) (hsq : l.sq.holds = 1) :
    l.batch = [] ∧ l.ack = .away ∧ l.unacked = 0 := by
  have hone := h.one
  have hack : l.ack.holds = 0 := by
    rw [tokens, hsq] at hone
    omega
  refine ⟨?_, ?_, ?_⟩
  · rw [← List.length_eq_zero_iff]
    rw [tokens, hsq] at hone
    omega
  · cases hk : l.ack with
    | away => rfl
    | _ => simp [hk] at hack
  · rw [tokens, hsq] at hone
    omega

/-- So does the second machine, when it is not away. -/
theorem Ordered.alone_ack (h : Ordered l) (hack : l.ack ≠ .away) :
    l.tokens = 1 ∧ l.sq.holds = 0 ∧ l.batch = [] ∧ l.unacked = 0 := by
  have hone := h.one
  have hholds : l.ack.holds = 1 := by
    cases hk : l.ack with
    | away => exact absurd hk hack
    | _ => rfl
  simp only [tokens, hholds] at hone ⊢
  refine ⟨by omega, by omega, ?_, by omega⟩
  rw [← List.length_eq_zero_iff]
  omega

/-- Without an element the first machine neither fetches one next nor has fetched one. -/
theorem SqPhase.next_of_holds {p : SqPhase} (h : p.holds = 0) : p.next = [] ∧ ¬ p.fetched := by
  cases p with
  | ready out =>
    by_cases ho : out.prod = 0#32
    · simp [ho]
    · simp [ho] at h
  | fetch out => cases h
  | busy out => cases h
  | _ => simp

/-! ### The write-back -/

/-- The second machine writes the entry back.  It has held the only element, so the head it writes
is the number of elements fetched, and nothing else in the lane depends on the old one --- unless
the first machine has looked it up. -/
theorem Ordered.finish {e : Entry} (h : Ordered l) (hack : l.ack = .finish e)
    (hcache : l'.cache = e) (hfetched : l'.fetched = l.fetched) (hsq : l'.sq = l.sq)
    (hunacked : l'.unacked = l.unacked) (hlive : l'.BatchLive)
    (hack' : l'.ack = .away ∨ l'.ack = .finish e) (hbatch : ∀ e' ∈ l'.batch, e' = e)
    (htokens : l'.tokens ≤ 1) (hempty : e.prod = 0#32 → l'.tokens = 0)
    (hseen : l'.tokens = 0 ∨ l.sq.seen = none) : Ordered l' := by
  obtain ⟨hone, hholds, -, hun⟩ := h.alone_ack (by simp [hack])
  obtain ⟨hnext, hpast⟩ := SqPhase.next_of_holds hholds
  have hhead := h.advanced e (by simp [hack])
  refine ⟨hlive, htokens, ?_, ?_, ?_, ?_, ?_, ?_, ?_, ?_, ?_, ?_, ?_⟩
  · rw [hcache]
    exact hempty
  · rw [hfetched]
    exact h.range
  · rw [hfetched]
    exact h.bound
  · rw [hcache, hfetched]
    exact fun _ => hhead
  · rw [hcache, hfetched, hsq, hnext, List.nil_append]
    intro e' he'
    rw [hbatch e' he']
    exact ⟨rfl, hhead⟩
  · rw [hsq, hunacked, hun]
    rintro (hp | hp | hp)
    · exact absurd hp hpast
    · exact absurd hp (lt_irrefl 0)
    · rcases hack' with hk | hk <;> rw [hk] at hp <;> exact hp.elim
  · intro e' he'
    rcases hack' with hk | hk <;> rw [hk] at he' <;> cases he'
  · intro e' he'
    rcases hack' with hk | hk <;> rw [hk] at he'
    · cases he'
    · rw [hfetched]
      exact h.advanced e' (by rw [hack]; exact he')
  · rw [hsq]
    exact h.limit
  · rw [hsq]
    intro e' he'
    rcases hseen with hzero | hnone
    · refine ⟨fun hz => ?_, fun _ hone' => by omega⟩
      have := h.idle ((h.seen e' he').1 hz).1
      omega
    · rw [hnone] at he'
      cases he'
  · rw [hsq]
    exact h.adopted

/-- The second machine is done with its element, whatever becomes of the entry. -/
theorem Ordered.step_finish {room : Bool} (h : Ordered l) (hg : InTurn l (.finish room))
    (hf : Fires l (.finish room) l') : Ordered l' := by
  have htokens := hf.tokens_add h.batch hg.acked
  have hlive := hf.batchLive h.batch
  cases hf with
  | finishEmpty _ hack he =>
    -- nothing is left, and the queue pair is idle
    obtain ⟨hone, -, hb, -⟩ := h.alone_ack (by simp [hack])
    have hdrops : l.drops (.finish room) = 1 := by simp [drops, hack, he]
    rw [hdrops, hone] at htokens
    simp only [gains] at htokens
    refine h.finish hack rfl rfl rfl rfl hlive (Or.inl rfl) (by simp [hb]) ?_ ?_ ?_
    · omega
    · intro _
      omega
    · left
      omega
  | @finishBatch e hack he =>
    -- the queue pair waits on the batch list for its next element
    obtain ⟨hone, -, hb, -⟩ := h.alone_ack (by simp [hack])
    simp only [gains] at htokens
    refine h.finish hack rfl rfl rfl rfl hlive (Or.inl rfl) (by simp [hb]) ?_ ?_ ?_
    · omega
    · exact fun hz => absurd hz he
    · exact Or.inr (hg.finish true rfl e hack he)
  | @finishFull e hack he =>
    -- there is no room, and the same write-back comes again
    obtain ⟨hone, -, hb, -⟩ := h.alone_ack (by simp [hack])
    simp only [gains] at htokens
    refine h.finish hack rfl rfl rfl rfl hlive (Or.inr hack) (by simp [hb]) ?_ ?_ ?_
    · omega
    · exact fun hz => absurd hz he
    · exact Or.inr (hg.finish false rfl e hack he)

/-! ### The check of a doorbell -/

/-- A doorbell finds the queue pair idle: nothing is in progress, and what it brings agrees
with the entry, or asks for an index that has been reached. -/
theorem Ordered.check_idle {out seen : Entry} (h : Ordered l) (hsq : l.sq = .check out seen)
    (hs : seen.prod = 0#32)
    (hguard : out.head = seen.head ∨ (out.prod ≠ 0#32 ∧ out.prod ≤ out.head))
    (htokens : l'.tokens + l.drops .check = l.tokens + l.gains .check)
    (hsq' : l'.sq = .ready out) (hcache : l'.cache = out) (hfetched : l'.fetched = l.fetched)
    (hbatch : l'.batch = l.batch) (hack : l'.ack = l.ack) (hunacked : l'.unacked = l.unacked) :
    Ordered l' := by
  obtain ⟨hzero, hhead⟩ := (h.seen seen (by simp [hsq])).1 hs
  have hnone := h.idle hzero
  have hrest := h.rest hzero
  have hb : l.batch = [] := List.length_eq_zero_iff.mp (by rw [tokens] at hnone; omega)
  have hun : l.unacked = 0 := by rw [tokens] at hnone; omega
  have haway : l.ack = .away := by
    by_contra hk
    have := tokens_pos_of_ack hk
    omega
  -- the doorbell starts the queue pair, if it asks for something
  have htok : l'.tokens = if out.prod = 0#32 then 0 else 1 := by
    simp only [drops, gains, hsq, hs, hnone] at htokens
    split_ifs at htokens ⊢ <;> simp_all
  rw [← hfetched] at hrest
  have hn : out.head = seen.head → out.head.toNat = l'.fetched.length := fun heq => by
    rw [heq, hhead, hrest]
  constructor
  case batch =>
    rw [BatchLive, hbatch]
    exact h.batch
  case one =>
    rw [htok]
    split_ifs <;> omega
  case idle =>
    rw [hcache]
    intro hz
    rw [htok, if_pos hz]
  case range =>
    rw [hfetched]
    exact h.range
  case bound =>
    rw [hfetched]
    exact h.bound
  case rest =>
    rw [hcache]
    intro hz
    rcases hguard with heq | ⟨hne, -⟩
    · exact hn heq
    · exact absurd hz hne
  case next =>
    rw [hsq', hbatch, hb, hcache, List.append_nil]
    intro e he
    -- the element of the doorbell is next, and the batch list is empty
    by_cases hlt : out.head < out.prod
    · obtain rfl : e = out := by simpa [hlt] using he
      rcases hguard with heq | ⟨-, hle⟩
      · exact ⟨rfl, hn heq⟩
      · exact absurd hlt (BitVec.not_lt.mpr hle)
    · rw [SqPhase.next, if_neg hlt] at he
      cases he
  case past =>
    rw [hsq', hunacked, hun, hack, haway]
    simp
  case looked =>
    rw [hack, haway]
    rintro _ ⟨⟩
  case advanced =>
    rw [hack, haway]
    rintro _ ⟨⟩
  case limit =>
    rw [hsq']
    rintro _ ⟨⟩
  case seen =>
    rw [hsq']
    rintro _ ⟨⟩
  case adopted =>
    rw [hsq']
    rintro _ _ ⟨⟩

/-- A doorbell finds the queue pair busy: the head of the entry stays, because `SQ_READ_CACHE` has
put it into the doorbell. -/
theorem Ordered.check_busy {out seen : Entry} (h : Ordered l) (hsq : l.sq = .check out seen)
    (hs : seen.prod ≠ 0#32) (hguard : out.prod ≠ 0#32)
    (htokens : l'.tokens + l.drops .check = l.tokens + l.gains .check)
    (hsq' : l'.sq = .away) (hcache : l'.cache = out) (hfetched : l'.fetched = l.fetched)
    (hbatch : l'.batch = l.batch) (hack : l'.ack = l.ack) (hunacked : l'.unacked = l.unacked) :
    Ordered l' := by
  have hsame : l'.tokens = l.tokens := by
    simpa [drops, gains, hsq, hs] using htokens
  -- while an element is in progress, the entry that was looked up is still the entry
  have hhead : 0 < l.tokens → out.head = l.cache.head := by
    intro hpos
    rw [h.adopted out seen hsq hs]
    exact (h.seen seen (by simp [hsq])).2 hs (by have := h.one; omega)
  constructor
  case batch =>
    rw [BatchLive, hbatch]
    exact h.batch
  case one =>
    rw [hsame]
    exact h.one
  case idle =>
    rw [hcache]
    exact fun hz => absurd hz hguard
  case range =>
    rw [hfetched]
    exact h.range
  case bound =>
    rw [hfetched]
    exact h.bound
  case rest =>
    rw [hcache]
    exact fun hz => absurd hz hguard
  case next =>
    rw [hsq', hbatch, hcache, hfetched]
    intro e he
    have he : e ∈ l.batch := he
    have hpos : 0 < l.tokens := by
      have := List.length_pos_of_mem he
      rw [tokens]
      omega
    -- an element on the batch list keeps its head
    have hnext := h.next e (List.mem_append_right _ he)
    exact ⟨hnext.1.trans (hhead hpos).symm, hnext.2⟩
  case past =>
    rw [hsq', hunacked, hack, hcache, hfetched]
    intro hp
    have hp : 0 < l.unacked ∨ l.ack.early := hp.resolve_left id
    have hpos : 0 < l.tokens := by
      rcases hp with hp | hp
      · rw [tokens]
        omega
      · exact tokens_pos_of_ack fun hk => by simp [hk] at hp
    rw [hhead hpos]
    exact h.past (Or.inr hp)
  case looked =>
    rw [hack, hcache]
    intro e he
    rw [h.looked e he]
    exact (hhead (tokens_pos_of_ack (by simp [he]))).symm
  case advanced =>
    rw [hack, hfetched]
    exact h.advanced
  case limit =>
    rw [hsq']
    rintro _ ⟨⟩
  case seen =>
    rw [hsq']
    rintro _ ⟨⟩
  case adopted =>
    rw [hsq']
    rintro _ _ ⟨⟩

/-! ### The fetch and the acknowledgement -/

/-- The first machine fetches an element: it is the next one, and it is alone. -/
theorem Ordered.fetch {out : Entry} (h : Ordered l) (hsq : l.sq = .fetch out)
    (hsq' : l'.sq = .busy out) (hfetched : l'.fetched = l.fetched ++ [out.head])
    (hcache' : l'.cache = l.cache) (hbatch : l'.batch = l.batch) (hack' : l'.ack = l.ack)
    (hlive : l'.BatchLive) (htokens : l'.tokens ≤ l.tokens) : Ordered l' := by
  obtain ⟨hb, hack, -⟩ := h.alone (by simp [hsq])
  obtain ⟨hcache, hhead⟩ := h.next out (by simp [hsq])
  have hbusy : l.cache.prod ≠ 0#32 := fun hz => by
    have := h.idle hz
    simp [tokens, hsq] at this
  -- the head is below a producer index, so the count stays below 2^32
  have hlt := BitVec.lt_def.mp (h.limit out hsq)
  have hprod := out.prod.isLt
  have hlength : l'.fetched.length = l.fetched.length + 1 := by
    rw [hfetched, List.length_append, List.length_singleton]
  refine ⟨hlive, htokens.trans h.one, fun hz => absurd (hcache' ▸ hz) hbusy, ?_, by omega,
    fun hz => absurd (hcache' ▸ hz) hbusy, ?_, ?_, ?_, ?_, ?_, ?_, ?_⟩
  · rw [hlength, hfetched, List.map_append, h.range, List.map_singleton, hhead,
      List.range_succ]
  · rw [hsq', hbatch, hb]
    rintro _ ⟨⟩
  · intro _
    rw [hlength, hcache', ← hcache, hhead]
  · rw [hack', hack]
    rintro _ ⟨⟩
  · rw [hack', hack]
    rintro _ ⟨⟩
  · rw [hsq']
    rintro _ ⟨⟩
  · rw [hsq']
    rintro _ ⟨⟩
  · rw [hsq']
    rintro _ _ ⟨⟩

/-- The head that the second machine has advanced is the number of elements fetched. -/
theorem Ordered.head_advance {seen : Entry} (h : Ordered l) (hack : l.ack = .read seen) :
    (seen.head + 1).toNat = l.fetched.length := by
  have hpast := h.past (Or.inr (Or.inr (by simp [hack])))
  have hbound := h.bound
  have hone : (1 : BitVec 32).toNat = 1 := rfl
  rw [h.looked seen hack, BitVec.toNat_add, hone, ← hpast]
  omega

/-! ### All actions -/

/-- **One action** keeps the queue pair in order.  The check, the fetch and the write-back change
something that counts; the others only move the machines. -/
theorem Ordered.step (h : Ordered l) (hg : InTurn l a) (hf : Fires l a l') : Ordered l' := by
  have htokens := hf.tokens_add h.batch hg.acked
  have hlive := hf.batchLive h.batch
  cases hf with
  | ring e kept =>
    exact ⟨h.batch, h.one, h.idle, h.range, h.bound, h.rest, h.next, h.past, h.looked,
      h.advanced, h.limit, h.seen, h.adopted⟩
  | take hsq hrung =>
    refine h.sqMove htokens.le rfl rfl rfl hlive ?_ ?_
      (by rintro _ ⟨⟩) (by rintro _ ⟨⟩) (by rintro _ _ ⟨⟩)
    · simp [hsq]
    · simp [hsq]
  | @takeBatch e es hsq hb =>
    refine h.sqMove htokens.le rfl rfl rfl hlive ?_ ?_
      (by rintro _ ⟨⟩) (by rintro _ ⟨⟩) (by rintro _ _ ⟨⟩)
    · intro e' he'
      have hmem : (e.head < e.prod ∧ e' = e) ∨ e' ∈ es := by simpa using he'
      rw [hb, hsq]
      rcases hmem with ⟨-, rfl⟩ | hmem
      · exact List.mem_cons_self
      · exact List.mem_cons_of_mem _ hmem
    · simp [hsq]
  | lookup hsq =>
    refine h.sqMove htokens.le rfl rfl rfl hlive ?_ ?_ (by rintro _ ⟨⟩) ?_ (by rintro _ _ ⟨⟩)
    · simp [hsq]
    · simp [hsq]
    · simp [eq_comm]
  | @adopt out seen hsq =>
    refine h.sqMove htokens.le rfl rfl rfl hlive ?_ ?_ (by rintro _ ⟨⟩) ?_ ?_
    · simp [hsq]
    · simp [hsq]
    · intro e he
      left
      simpa [hsq] using he
    · intro out' seen' heq hne
      injection heq with h1 h2
      subst h1 h2
      simp [hne]
  | skip hsq =>
    refine h.sqMove ?_ rfl rfl rfl hlive ?_ ?_ (by rintro _ ⟨⟩) (by rintro _ ⟨⟩) (by rintro _ _ ⟨⟩)
    · simp only [gains] at htokens
      omega
    · intro e he
      exact List.mem_append_right _ he
    · simp [hsq]
  | @start out hsq hlt =>
    refine h.sqMove htokens.le rfl rfl rfl hlive ?_ ?_ ?_ (by rintro _ ⟨⟩) (by rintro _ _ ⟨⟩)
    · simp [hsq, hlt]
    · simp [hsq]
    · rintro out' heq
      injection heq with heq
      rwa [← heq]
  | accept hack =>
    refine h.ackMove (by simpa [gains, drops] using htokens) rfl rfl rfl rfl ?_
      (by rintro _ ⟨⟩) (by rintro _ ⟨⟩)
    exact fun _ => Or.inl (hg.acked rfl)
  | ackLookup hack =>
    refine h.ackMove (by simpa [gains, drops] using htokens) rfl rfl rfl rfl ?_ ?_ (by rintro _ ⟨⟩)
    · simp [hack]
    · rintro e heq
      injection heq with heq
      rw [heq]
  | @advance seen hack =>
    -- from here on the second machine has the number of elements fetched
    refine h.ackMove (by simpa [gains, drops] using htokens) rfl rfl rfl rfl ?_ (by rintro _ ⟨⟩) ?_
    · simp
      exact Or.inl
    · intro e he
      have heq : e = { seen with head := seen.head + 1 } := by
        simpa [eq_comm] using he
      rw [heq]
      exact h.head_advance hack
  | @report e hack =>
    refine h.ackMove (by simpa [gains, drops] using htokens) rfl rfl rfl rfl ?_ (by rintro _ ⟨⟩) ?_
    · simp
      exact Or.inl
    · exact fun e' he => h.advanced e' (by rw [hack]; exact he)
  | @settle e hack =>
    refine h.ackMove (by simpa [gains, drops] using htokens) rfl rfl rfl rfl ?_ (by rintro _ ⟨⟩) ?_
    · simp
      exact Or.inl
    · intro e' he
      have := h.advanced e (by simp [hack])
      have heq : (if e.prod ≤ e.head then { e with prod := 0 } else e) = e' := by
        simpa using he
      rw [← heq]
      split_ifs <;> exact this
  | @issue out hsq =>
    refine h.sqMove htokens.le rfl rfl rfl hlive ?_ ?_
      (by rintro _ ⟨⟩) (by rintro _ ⟨⟩) (by rintro _ _ ⟨⟩)
    · simp [hsq]
    · simp [hsq]
  | @fetch out hsq => exact h.fetch hsq rfl rfl rfl rfl rfl hlive htokens.le
  | @check out seen hsq =>
    have hguard := hg.check rfl out seen hsq
    by_cases hs : seen.prod = 0#32
    · rw [if_pos hs] at hguard
      exact h.check_idle hsq hs hguard htokens (by simp [hs]) rfl rfl rfl rfl rfl
    · rw [if_neg hs] at hguard
      exact h.check_busy hsq hs hguard htokens (by simp [hs]) rfl rfl rfl rfl rfl
  | finishEmpty room hack he => exact h.step_finish hg (.finishEmpty room hack he)
  | finishBatch hack he => exact h.step_finish hg (.finishBatch hack he)
  | finishFull hack he => exact h.step_finish hg (.finishFull hack he)

end Step

/-- After reset nothing has been fetched. -/
theorem ordered_reset : Ordered reset where
  batch := nofun
  one := Nat.zero_le 1
  idle _ := rfl
  range := rfl
  bound := Nat.two_pow_pos 32
  rest _ := rfl
  next := nofun
  past := by simp [reset]
  looked := nofun
  advanced := nofun
  limit := nofun
  seen := nofun
  adopted := nofun

end Lane

namespace WqManager

open Lane

/-! ## The work-queue manager -/

/-- The indices fetched for each queue pair are 0, 1, 2 and so on, and no more than one of
its elements waits for an acknowledgement. -/
def InOrder (s : State × Ledger) : Prop :=
  ∀ q, (s.2.fetched q).map BitVec.toNat = List.range (s.2.fetched q).length ∧ s.2.unacked q ≤ 1

/-- A doorbell that starts an idle queue pair brings the head of the cache entry, one that
finds it busy asks for something, and no element goes to the batch FIFO while the `SQ_*`
machine holds the entry it has looked up. -/
structure HeadsCurrent (s : State × Ledger) (i : Input) : Prop where
  check : s.1.sq.st = .checkQueueBusy →
    if s.1.sq.cDouta.sqProdIdx = 0#32 then
      s.1.sq.output.cqHeadIdx = s.1.sq.cDouta.cqHeadIdx ∨
        (s.1.sq.output.sqProdIdx ≠ 0#32 ∧ s.1.sq.output.sqProdIdx ≤ s.1.sq.output.cqHeadIdx)
    else s.1.sq.output.sqProdIdx ≠ 0#32
  race : s.1.overtakes i → s.1.ack.sqCDoutb.sqProdIdx = 0#32

instance (s : State × Ledger) (i : Input) : Decidable (HeadsCurrent s i) :=
  decidable_of_iff
    ((s.1.sq.st = .checkQueueBusy →
      if s.1.sq.cDouta.sqProdIdx = 0#32 then
        s.1.sq.output.cqHeadIdx = s.1.sq.cDouta.cqHeadIdx ∨
          (s.1.sq.output.sqProdIdx ≠ 0#32 ∧ s.1.sq.output.sqProdIdx ≤ s.1.sq.output.cqHeadIdx)
      else s.1.sq.output.sqProdIdx ≠ 0#32) ∧
      (s.1.overtakes i → s.1.ack.sqCDoutb.sqProdIdx = 0#32))
    ⟨fun h => ⟨h.1, h.2⟩, fun h => ⟨h.1, h.2⟩⟩

section Run

variable {q : BitVec 8} {s : State × Ledger} {i : Input}

/-- The conditions, where the actions are taken: the guard on the state is the guard on the lane,
because the check and the write-back find there what the state has. -/
theorem HeadsCurrent.inTurn (h : HeadsCurrent s i) (hs : Sound s) (henv : AcksIssued s i) :
    queuePair.Guarded InTurn (lane q s) (s.1.actions q i) := by
  refine hs.guarded_actions ?_ ?_ ?_
  · rintro a m ha hsq -
    refine ⟨fun heq => absurd (heq ▸ ha) (sqAction_ne_ack .accept (by rintro ⟨⟩)), ?_,
      fun room heq => absurd (heq ▸ ha) (sqAction_ne_ack (.finish room) (by rintro ⟨⟩))⟩
    rintro rfl out seen hout
    obtain ⟨hst, hidx⟩ := (sqAction_eq_check_iff q s.1 i).mp ha
    rw [hsq] at hout
    obtain ⟨rfl, rfl⟩ : entryOf s.1.sq.output = out ∧ entryOf s.1.sq.cDouta = seen := by
      simpa [State.sqPhase, hst, hidx] using hout
    exact h.check hst
  · rintro a m ha hack hsq hun
    refine ⟨?_, fun heq => absurd (heq ▸ ha) (ackAction_ne_sq .check (by rintro ⟨⟩)), ?_⟩
    · rintro rfl
      exact (henv q ((ackAction_eq_accept_iff q s.1 i).mp ha)).trans_le hun
    · rintro room rfl e he hne
      obtain ⟨hfin, hqp, -⟩ := (ackAction_eq_finish_iff q s.1 i room).mp ha
      rw [hack] at he
      obtain rfl : entryOf s.1.ack.sqCDoutb = e := by
        simpa [State.ackPhase, hfin, hqp] using he
      by_contra hseen
      obtain ⟨x, hx⟩ := Option.ne_none_iff_exists'.mp hseen
      exact hne (h.race (hs.overtakes_of_seen hfin hqp hsq hx).1)
  · rintro a m ha - -
    exact ⟨fun heq => absurd (heq ▸ ha) (bellAction_ne .accept (by rintro ⟨⟩)),
      fun heq => absurd (heq ▸ ha) (bellAction_ne .check (by rintro ⟨⟩)),
      fun room heq => absurd (heq ▸ ha) (bellAction_ne (.finish room) (by rintro ⟨⟩))⟩

/-- **Elements are fetched in order, one at a time**, in every run whose doorbells bring the
current head when they start a queue pair. -/
theorem inOrder_of_headsCurrent (is : List Input)
    (henv : ledgered.Guarded AcksIssued ledgered.reset is)
    (hheads : ledgered.Guarded HeadsCurrent ledgered.reset is) :
    ledgered.Always InOrder ledgered.reset is := by
  have hall : ledgered.Always (fun s => Sound s ∧ ∀ q, Ordered (lane q s)) ledgered.reset is := by
    refine Machine.always_of_guarded (fun s i h hk => ?_) ⟨sound_reset, fun q => ?_⟩
      (henv.and hheads)
    · exact ⟨h.1.step i, fun q => h.1.keeps (fun _ _ _ hm hg hf => hm.step hg hf)
        (hk.2.inTurn h.1 hk.1) (h.2 q)⟩
    · rw [lane_reset]
      exact ordered_reset
  refine hall.mono fun s h q => ⟨(h.2 q).range, ?_⟩
  have hone := (h.2 q).one
  simp only [tokens, lane] at hone
  omega

end Run

/-- Two writes of queue pair 1, the doorbell of the second after the first is done. -/
def twoWrites : List Input := writeDone ++ oneWrite 1 2 1

/-- The second doorbell brings the head that the first write has left. -/
theorem inOrder_of_headsCurrent_twoWrites : ledgered.Always InOrder ledgered.reset twoWrites :=
  inOrder_of_headsCurrent twoWrites (by decide +kernel) (by decide +kernel)

/-- The doorbell of the second write comes before the first is acknowledged, and waits in the
FIFO while an element of queue pair 2 is fetched. -/
def earlyDoorbell : List Input :=
  oneWrite 1 1 0 ++ ring 2 1 0 :: List.replicate 10 Input.quiet ++
    ring 1 2 0 :: acknowledge 1 :: List.replicate 6 Input.quiet ++
    List.replicate 9 (serve 2 (wqeOf 0)) ++ List.replicate 14 (serve 1 (wqeOf 0))

/-- The first element of queue pair 1 is fetched twice. -/
theorem earlyDoorbell_not_inOrder :
    ledgered.Guarded AcksIssued ledgered.reset earlyDoorbell ∧
      (ledgered.run earlyDoorbell).2.fetched 1 = [0, 0] ∧
      ¬ InOrder (ledgered.run earlyDoorbell) := by
  have htwice : (ledgered.run earlyDoorbell).2.fetched 1 = [0, 0] := by decide +kernel
  refine ⟨by decide +kernel, htwice, fun h => ?_⟩
  have hrange := (h 1).1
  rw [htwice] at hrange
  exact absurd hrange (by decide)

end WqManager
end RecoNIC
