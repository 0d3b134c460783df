import RecoNIC.Synchronous.Machine

/-!
# The life of one queue pair

What the work-queue manager does for one queue pair, as a transition system of its
own.  A doorbell is *rung* and waits; one machine takes it, looks up the entry of the
queue pair, and checks whether it is busy; if it is not, the machine fetches the
element at the head and issues it.  Another machine takes the acknowledgement, looks
up the same entry, and writes it back with the head advanced; while elements are
left it puts the queue pair on the *batch* list, from which the first machine takes
it again.

The two machines share the entry, and each writes back what it read some steps
before.  The actions are single steps of either machine, in any order, so every
interleaving of the two is a list of actions.
-/

namespace RecoNIC

open Synchronous

/-- What of a send-queue entry matters here: its producer index, zero if the queue pair
is not busy, and its head. -/
structure Entry where
  prod : BitVec 32
  head : BitVec 32
  deriving DecidableEq

namespace Lane

/-- Where the first machine is, as far as this queue pair is concerned.  It carries the
entry `out` it works on, and the entry `seen` it has looked up. -/
inductive SqPhase where
  | away
  | get (out : Entry)
  | read (out seen : Entry)
  | check (out seen : Entry)
  | ready (out : Entry)
  | fetch (out : Entry)
  | busy (out : Entry)
  deriving DecidableEq

/-- What the first machine has looked up and not yet written back. -/
@[simp] def SqPhase.seen : SqPhase → Option Entry
  | .read _ seen | .check _ seen => some seen
  | _ => none

/-- The element the first machine has in its hands. -/
@[simp] def SqPhase.holds : SqPhase → Nat
  | .ready out => if out.prod = 0#32 then 0 else 1
  | .fetch _ | .busy _ => 1
  | _ => 0

/-- Where the second machine is. -/
inductive AckPhase where
  | away
  | get
  | read (seen : Entry)
  | report (e : Entry)
  | settle (e : Entry)
  | finish (e : Entry)
  deriving DecidableEq

/-- The element whose acknowledgement the second machine is working on. -/
@[simp] def AckPhase.holds : AckPhase → Nat
  | .away => 0
  | _ => 1

/-- The second machine has not advanced the head yet. -/
@[simp] def AckPhase.early : AckPhase → Prop
  | .get | .read _ => True
  | _ => False

/-- The entry with the head advanced. -/
@[simp] def AckPhase.advanced : AckPhase → Option Entry
  | .report e | .settle e | .finish e => some e
  | _ => none

end Lane

open Lane

/-- One queue pair, with what has happened to it. -/
@[ext] structure Lane where
  /-- The doorbells that wait. -/
  rung : List Entry
  sq : SqPhase
  /-- Where the queue pair waits for its next element. -/
  batch : List Entry
  ack : AckPhase
  cache : Entry
  /-- The elements issued and not yet acknowledged. -/
  unacked : Nat
  /-- The producer index of the last doorbell. -/
  lastPi : BitVec 32
  /-- The indices fetched. -/
  fetched : List (BitVec 32)
  /-- The indices issued. -/
  issued : List (BitVec 32)

namespace Lane

/-- The steps of the two machines, and the doorbell. -/
inductive Action where
  /-- A doorbell, which is kept or lost. -/
  | ring (e : Entry) (kept : Bool)
  | take
  | takeBatch
  | lookup
  | adopt
  | check
  | skip
  | start
  | fetch
  | issue
  | accept
  | ackLookup
  | advance
  | report
  | settle
  /-- The write-back of the second machine, with room on the batch list or not. -/
  | finish (room : Bool)
  deriving DecidableEq

/-! ## What an action does to each part -/

section Parts

variable (l : Lane)

/-- A doorbell that is kept waits; the first machine takes the one that has waited longest. -/
@[simp] def rungAfter : Action → List Entry
  | .ring e kept => if kept then l.rung ++ [e] else l.rung
  | .take => if l.sq = .away then l.rung.tail else l.rung
  | _ => l.rung

/-- The first machine goes from the doorbell to the entry, from there to the element, and away.
With an element of the batch list it has the entry already. -/
@[simp] def sqAfter : Action → SqPhase
  | .take =>
    match l.sq, l.rung with
    | .away, e :: _ => .get e
    | p, _ => p
  | .takeBatch =>
    match l.sq, l.batch with
    | .away, e :: _ => .ready e
    | p, _ => p
  | .lookup =>
    match l.sq with
    | .get out => .read out l.cache
    | p => p
  | .adopt =>
    match l.sq with
    | .read out seen =>
      .check (if seen.prod = 0#32 then out else { out with head := seen.head }) seen
    | p => p
  | .check =>
    match l.sq with
    | .check out seen => if seen.prod = 0#32 then .ready out else .away
    | p => p
  | .skip =>
    match l.sq with
    | .ready _ => .away
    | p => p
  | .start =>
    match l.sq with
    | .ready out => if out.head < out.prod then .fetch out else .ready out
    | p => p
  | .fetch =>
    match l.sq with
    | .fetch out => .busy out
    | p => p
  | .issue =>
    match l.sq with
    | .busy _ => .away
    | p => p
  | _ => l.sq

/-- The second machine puts a queue pair on the list that has elements left, if there is room. -/
@[simp] def batchAfter : Action → List Entry
  | .takeBatch => if l.sq = .away then l.batch.tail else l.batch
  | .finish room =>
    match l.ack with
    | .finish e => if e.prod ≠ 0#32 ∧ room then l.batch ++ [e] else l.batch
    | _ => l.batch
  | _ => l.batch

/-- The second machine goes from the acknowledgement to the entry, and writes it back.  Without room
on the batch list it stays, and tries again. -/
@[simp] def ackAfter : Action → AckPhase
  | .accept =>
    match l.ack with
    | .away => .get
    | p => p
  | .ackLookup =>
    match l.ack with
    | .get => .read l.cache
    | p => p
  | .advance =>
    match l.ack with
    | .read seen => .report { seen with head := seen.head + 1 }
    | p => p
  | .report =>
    match l.ack with
    | .report e => .settle e
    | p => p
  | .settle =>
    match l.ack with
    | .settle e => .finish (if e.prod ≤ e.head then { e with prod := 0 } else e)
    | p => p
  | .finish room =>
    match l.ack with
    | .finish e => if e.prod ≠ 0#32 ∧ ¬ room then .finish e else .away
    | p => p
  | _ => l.ack

/-- Each machine writes the entry at one place: the first one with the check, the second one when it
is done. -/
@[simp] def cacheAfter : Action → Entry
  | .check =>
    match l.sq with
    | .check out _ => out
    | _ => l.cache
  | .finish _ =>
    match l.ack with
    | .finish e => e
    | _ => l.cache
  | _ => l.cache

/-- Issued elements wait for an acknowledgement. -/
@[simp] def unackedAfter : Action → Nat
  | .issue =>
    match l.sq with
    | .busy _ => l.unacked + 1
    | _ => l.unacked
  | .accept =>
    match l.ack with
    | .away => l.unacked - 1
    | _ => l.unacked
  | _ => l.unacked

/-- A doorbell counts, whether it is kept or not. -/
@[simp] def lastPiAfter : Action → BitVec 32
  | .ring e _ => e.prod
  | _ => l.lastPi

/-- The index of an element is the head with which it is fetched. -/
@[simp] def fetchedAfter : Action → List (BitVec 32)
  | .fetch =>
    match l.sq with
    | .fetch out => l.fetched ++ [out.head]
    | _ => l.fetched
  | _ => l.fetched

/-- The same for its last packet. -/
@[simp] def issuedAfter : Action → List (BitVec 32)
  | .issue =>
    match l.sq with
    | .busy out => l.issued ++ [out.head]
    | _ => l.issued
  | _ => l.issued

/-- One action.  An action whose machine is elsewhere does nothing. -/
def step (a : Action) : Lane where
  rung := l.rungAfter a
  sq := l.sqAfter a
  batch := l.batchAfter a
  ack := l.ackAfter a
  cache := l.cacheAfter a
  unacked := l.unackedAfter a
  lastPi := l.lastPiAfter a
  fetched := l.fetchedAfter a
  issued := l.issuedAfter a

@[simp] theorem rung_step (a : Action) : (l.step a).rung = l.rungAfter a := rfl
@[simp] theorem sq_step (a : Action) : (l.step a).sq = l.sqAfter a := rfl
@[simp] theorem batch_step (a : Action) : (l.step a).batch = l.batchAfter a := rfl
@[simp] theorem ack_step (a : Action) : (l.step a).ack = l.ackAfter a := rfl
@[simp] theorem cache_step (a : Action) : (l.step a).cache = l.cacheAfter a := rfl
@[simp] theorem unacked_step (a : Action) : (l.step a).unacked = l.unackedAfter a := rfl
@[simp] theorem lastPi_step (a : Action) : (l.step a).lastPi = l.lastPiAfter a := rfl
@[simp] theorem fetched_step (a : Action) : (l.step a).fetched = l.fetchedAfter a := rfl
@[simp] theorem issued_step (a : Action) : (l.step a).issued = l.issuedAfter a := rfl

end Parts

/-- Before anything has happened. -/
def reset : Lane := ⟨[], .away, [], .away, ⟨0, 0⟩, 0, 0, [], []⟩

/-- The queue pair as a machine. -/
def queuePair : Machine Lane Action := ⟨reset, step⟩

/-! ## Who does what -/

/-- The three who act on a queue pair. -/
inductive Actor where
  | bell | sq | ack
  deriving DecidableEq

/-- Whose action it is. -/
def Action.actor : Action → Actor
  | .ring _ _ => .bell
  | .take | .takeBatch | .lookup | .adopt | .check | .skip | .start | .fetch | .issue => .sq
  | .accept | .ackLookup | .advance | .report | .settle | .finish _ => .ack

/-- Do an action, if there is one. -/
def act (l : Lane) (o : Option Action) : Lane := o.elim l l.step

@[simp] theorem act_none (l : Lane) : l.act none = l := rfl
@[simp] theorem act_some (l : Lane) (a : Action) : l.act (some a) = l.step a := rfl

section Frame

variable (l : Lane) {o : Option Action}

/-- Only the first machine moves itself. -/
theorem sq_act (h : ∀ a ∈ o, a.actor ≠ .sq) : (l.act o).sq = l.sq := by
  cases o with
  | none => rfl
  | some a =>
    have ha := h a rfl
    cases a <;> first | rfl | exact absurd rfl ha

/-- Only the second machine moves itself. -/
theorem ack_act (h : ∀ a ∈ o, a.actor ≠ .ack) : (l.act o).ack = l.ack := by
  cases o with
  | none => rfl
  | some a =>
    have ha := h a rfl
    cases a <;> first | rfl | exact absurd rfl ha

/-- The doorbells that wait are changed by the doorbell and the first machine. -/
theorem rung_act (htake : o ≠ some .take) (hring : ∀ e kept, o ≠ some (.ring e kept)) :
    (l.act o).rung = l.rung := by
  rcases o with _ | a
  · rfl
  · cases a <;> first | rfl | exact absurd rfl htake | exact absurd rfl (hring _ _)

/-- The batch list is changed by its two ends. -/
theorem batch_act (htake : o ≠ some .takeBatch) (hfinish : ∀ room, o ≠ some (.finish room)) :
    (l.act o).batch = l.batch := by
  rcases o with _ | a
  · rfl
  · cases a <;> first | rfl | exact absurd rfl htake | exact absurd rfl (hfinish _)

/-- The entry is changed by the two write-backs. -/
theorem cache_act (hcheck : o ≠ some .check) (hfinish : ∀ room, o ≠ some (.finish room)) :
    (l.act o).cache = l.cache := by
  rcases o with _ | a
  · rfl
  · cases a <;> first | rfl | exact absurd rfl hcheck | exact absurd rfl (hfinish _)

/-- The count is changed when an element is issued or an acknowledgement is taken. -/
theorem unacked_act (hissue : o ≠ some .issue) (haccept : o ≠ some .accept) :
    (l.act o).unacked = l.unacked := by
  rcases o with _ | a
  · rfl
  · cases a <;> first | rfl | exact absurd rfl hissue | exact absurd rfl haccept

/-- Only a doorbell brings a producer index. -/
theorem lastPi_act (hring : ∀ e kept, o ≠ some (.ring e kept)) :
    (l.act o).lastPi = l.lastPi := by
  rcases o with _ | a
  · rfl
  · cases a <;> first | rfl | exact absurd rfl (hring _ _)

/-- Only the fetch adds to the elements fetched. -/
theorem fetched_act (hfetch : o ≠ some .fetch) : (l.act o).fetched = l.fetched := by
  rcases o with _ | a
  · rfl
  · cases a <;> first | rfl | exact absurd rfl hfetch

/-- Only the last packet of an element adds to those issued. -/
theorem issued_act (hissue : o ≠ some .issue) : (l.act o).issued = l.issued := by
  rcases o with _ | a
  · rfl
  · cases a <;> first | rfl | exact absurd rfl hissue

/-- Only the acceptance of an acknowledgement makes the elements fewer. -/
theorem unacked_le_act (haccept : o ≠ some .accept) : l.unacked ≤ (l.act o).unacked := by
  rcases o with _ | a
  · exact le_rfl
  · cases a with
    | issue => cases hsq : l.sq <;> simp [hsq]
    | accept => exact absurd rfl haccept
    | _ => exact le_rfl

/-- What the first machine has looked up it had looked up before, or it looks it up now; and
with the check it gives it up. -/
theorem seen_act {x : Entry} (hx : (l.act o).sq.seen = some x) :
    (o = some .lookup ∧ x = l.cache) ∨
      (l.sq.seen = some x ∧ (o = some .check → ∀ out, l.sq ≠ .check out x)) := by
  rcases o with _ | a
  · exact Or.inr ⟨hx, nofun⟩
  · cases a with
    | lookup =>
      cases hsq : l.sq with
      | get out => exact Or.inl ⟨rfl, by simpa [hsq, eq_comm] using hx⟩
      | read | check => exact Or.inr ⟨by simpa [hsq] using hx, nofun⟩
      | _ => simp [hsq] at hx
    | check =>
      cases hsq : l.sq with
      | check out seen => by_cases hs : seen.prod = 0#32 <;> simp [hsq, hs] at hx
      | read => exact Or.inr ⟨by simpa [hsq] using hx, fun _ _ => nofun⟩
      | _ => simp [hsq] at hx
    | take =>
      refine Or.inr ⟨?_, nofun⟩
      cases hsq : l.sq <;> cases hr : l.rung <;> simp_all
    | takeBatch =>
      refine Or.inr ⟨?_, nofun⟩
      cases hsq : l.sq <;> cases hb : l.batch <;> simp_all
    | start =>
      refine Or.inr ⟨?_, nofun⟩
      cases hsq : l.sq with
      | ready out => by_cases hlt : out.head < out.prod <;> simp [hsq, hlt] at hx
      | _ => simp_all
    | adopt | skip | fetch | issue =>
      refine Or.inr ⟨?_, nofun⟩
      cases hsq : l.sq <;> simp_all
    | _ => exact Or.inr ⟨hx, nofun⟩

variable {l} {m : Lane}

/-- The second machine sees itself and the entry. -/
theorem ack_act_congr (hack : l.ack = m.ack) (hcache : o = some .ackLookup → l.cache = m.cache) :
    (l.act o).ack = (m.act o).ack := by
  rcases o with _ | a
  · exact hack
  · cases a with
    | ackLookup => simp [hack, hcache rfl]
    | _ => simp [hack]

/-- A doorbell sees the doorbells that wait. -/
theorem rung_act_congr (h : ∀ a ∈ o, a.actor = .bell) (hrung : l.rung = m.rung) :
    (l.act o).rung = (m.act o).rung := by
  rcases o with _ | a
  · exact hrung
  · have ha := h a rfl
    cases a <;> first | cases ha; done | simp [hrung]

/-- It does not see the last producer index. -/
theorem lastPi_act_congr (hlast : l.lastPi = m.lastPi) : (l.act o).lastPi = (m.act o).lastPi := by
  rcases o with _ | a
  · exact hlast
  · cases a <;> simp [hlast]

/-- The second machine sees the batch list and itself. -/
theorem batch_act_congr (h : ∀ a ∈ o, a.actor = .ack) (hbatch : l.batch = m.batch)
    (hack : l.ack = m.ack) : (l.act o).batch = (m.act o).batch := by
  rcases o with _ | a
  · exact hbatch
  · have ha := h a rfl
    cases a <;> first | cases ha; done | simp [hbatch, hack]

/-- The same for the count. -/
theorem unacked_act_congr (h : ∀ a ∈ o, a.actor = .ack) (hunacked : l.unacked = m.unacked)
    (hack : l.ack = m.ack) : (l.act o).unacked = (m.act o).unacked := by
  rcases o with _ | a
  · exact hunacked
  · have ha := h a rfl
    cases a <;> first | cases ha; done | simp [hunacked, hack]

end Frame

/-! ## What an action does, when its machine is there -/

/-- The actions that do something, and what they do. -/
inductive Fires (l : Lane) : Action → Lane → Prop
  | ring (e : Entry) (kept : Bool) :
    Fires l (.ring e kept)
      { l with rung := if kept then l.rung ++ [e] else l.rung, lastPi := e.prod }
  | take {e : Entry} {es : List Entry} (hsq : l.sq = .away) (hrung : l.rung = e :: es) :
    Fires l .take { l with rung := es, sq := .get e }
  | takeBatch {e : Entry} {es : List Entry} (hsq : l.sq = .away) (hbatch : l.batch = e :: es) :
    Fires l .takeBatch { l with batch := es, sq := .ready e }
  | lookup {out : Entry} (hsq : l.sq = .get out) :
    Fires l .lookup { l with sq := .read out l.cache }
  | adopt {out seen : Entry} (hsq : l.sq = .read out seen) :
    Fires l .adopt
      { l with
        sq := .check (if seen.prod = 0#32 then out else { out with head := seen.head }) seen }
  | check {out seen : Entry} (hsq : l.sq = .check out seen) :
    Fires l .check { l with sq := if seen.prod = 0#32 then .ready out else .away, cache := out }
  | skip {out : Entry} (hsq : l.sq = .ready out) : Fires l .skip { l with sq := .away }
  | start {out : Entry} (hsq : l.sq = .ready out) (hlt : out.head < out.prod) :
    Fires l .start { l with sq := .fetch out }
  | fetch {out : Entry} (hsq : l.sq = .fetch out) :
    Fires l .fetch { l with sq := .busy out, fetched := l.fetched ++ [out.head] }
  | issue {out : Entry} (hsq : l.sq = .busy out) :
    Fires l .issue
      { l with sq := .away, unacked := l.unacked + 1, issued := l.issued ++ [out.head] }
  | accept (hack : l.ack = .away) :
    Fires l .accept { l with ack := .get, unacked := l.unacked - 1 }
  | ackLookup (hack : l.ack = .get) : Fires l .ackLookup { l with ack := .read l.cache }
  | advance {seen : Entry} (hack : l.ack = .read seen) :
    Fires l .advance { l with ack := .report { seen with head := seen.head + 1 } }
  | report {e : Entry} (hack : l.ack = .report e) :
    Fires l .report { l with ack := .settle e }
  | settle {e : Entry} (hack : l.ack = .settle e) :
    Fires l .settle
      { l with ack := .finish (if e.prod ≤ e.head then { e with prod := 0 } else e) }
  | finishEmpty (room : Bool) {e : Entry} (hack : l.ack = .finish e) (he : e.prod = 0#32) :
    Fires l (.finish room) { l with ack := .away, cache := e }
  | finishBatch {e : Entry} (hack : l.ack = .finish e) (he : e.prod ≠ 0#32) :
    Fires l (.finish true) { l with ack := .away, cache := e, batch := l.batch ++ [e] }
  | finishFull {e : Entry} (hack : l.ack = .finish e) (he : e.prod ≠ 0#32) :
    Fires l (.finish false) { l with cache := e }

/-- An action does what `Fires` says, or nothing. -/
theorem step_eq_or_fires (l : Lane) (a : Action) : l.step a = l ∨ Fires l a (l.step a) := by
  obtain ⟨rung, sq, batch, ack, cache, unacked, lastPi, fetched, issued⟩ := l
  cases a with
  | ring e kept => exact Or.inr (.ring e kept)
  | take =>
    cases sq with
    | away =>
      cases rung with
      | nil => exact Or.inl rfl
      | cons e es => exact Or.inr (.take rfl rfl)
    | _ => exact Or.inl rfl
  | takeBatch =>
    cases sq with
    | away =>
      cases batch with
      | nil => exact Or.inl rfl
      | cons e es => exact Or.inr (.takeBatch rfl rfl)
    | _ => exact Or.inl rfl
  | lookup =>
    cases sq with
    | get out => exact Or.inr (.lookup rfl)
    | _ => exact Or.inl rfl
  | adopt =>
    cases sq with
    | read out seen => exact Or.inr (.adopt rfl)
    | _ => exact Or.inl rfl
  | check =>
    cases sq with
    | check out seen => exact Or.inr (.check rfl)
    | _ => exact Or.inl rfl
  | skip =>
    cases sq with
    | ready out => exact Or.inr (.skip rfl)
    | _ => exact Or.inl rfl
  | start =>
    cases sq with
    | ready out =>
      by_cases hlt : out.head < out.prod
      · refine Or.inr ?_
        simpa [step, hlt] using Fires.start rfl hlt
      · exact Or.inl (by simp [step, hlt])
    | _ => exact Or.inl rfl
  | fetch =>
    cases sq with
    | fetch out => exact Or.inr (.fetch rfl)
    | _ => exact Or.inl rfl
  | issue =>
    cases sq with
    | busy out => exact Or.inr (.issue rfl)
    | _ => exact Or.inl rfl
  | accept =>
    cases ack with
    | away => exact Or.inr (.accept rfl)
    | _ => exact Or.inl rfl
  | ackLookup =>
    cases ack with
    | get => exact Or.inr (.ackLookup rfl)
    | _ => exact Or.inl rfl
  | advance =>
    cases ack with
    | read seen => exact Or.inr (.advance rfl)
    | _ => exact Or.inl rfl
  | report =>
    cases ack with
    | report e => exact Or.inr (.report rfl)
    | _ => exact Or.inl rfl
  | settle =>
    cases ack with
    | settle e => exact Or.inr (.settle rfl)
    | _ => exact Or.inl rfl
  | finish room =>
    cases ack with
    | finish e =>
      refine Or.inr ?_
      by_cases he : e.prod = 0#32
      · simpa [step, he] using Fires.finishEmpty room rfl he
      · cases room with
        | true => simpa [step, he] using Fires.finishBatch rfl he
        | false => simpa [step, he] using Fires.finishFull rfl he
    | _ => exact Or.inl rfl

/-! ## Elements in progress -/

/-- The elements in progress: in the hands of a machine, on the batch list, or issued and
not yet acknowledged. -/
def tokens (l : Lane) : Nat := l.sq.holds + l.batch.length + l.ack.holds + l.unacked

/-- The batch list holds entries with elements left. -/
def BatchLive (l : Lane) : Prop := ∀ e ∈ l.batch, e.prod ≠ 0#32

/-- The check of a doorbell that puts an element in progress. -/
def gains (l : Lane) : Action → Nat
  | .check =>
    match l.sq with
    | .check out seen => if seen.prod = 0#32 ∧ out.prod ≠ 0#32 then 1 else 0
    | _ => 0
  | _ => 0

/-- What takes an element out of progress: the first machine drops it, or the second one
writes back an entry without elements left. -/
def drops (l : Lane) : Action → Nat
  | .skip =>
    match l.sq with
    | .ready out => if out.prod = 0#32 then 0 else 1
    | _ => 0
  | .finish _ =>
    match l.ack with
    | .finish e => if e.prod = 0#32 then 1 else 0
    | _ => 0
  | _ => 0

/-- Acknowledgements are for elements that were issued. -/
def Acked (l : Lane) (a : Action) : Prop := a = .accept → 0 < l.unacked

section Tokens

variable {l l' : Lane} {a : Action}

/-- Who is on the batch list has elements left. -/
theorem Fires.batchLive (hf : Fires l a l') (h : l.BatchLive) : l'.BatchLive := by
  cases hf with
  | takeBatch hsq hb => exact fun e he => h e (by rw [hb]; exact List.mem_cons_of_mem _ he)
  | finishBatch hack he =>
    intro e' he'
    rcases List.mem_append.mp he' with he' | he'
    · exact h e' he'
    · rw [List.mem_singleton.mp he']
      exact he
  | _ => exact h

/-- **Elements are neither made nor lost** by any other action. -/
theorem Fires.tokens_add (hf : Fires l a l') (hbatch : l.BatchLive) (hacked : Acked l a) :
    l'.tokens + l.drops a = l.tokens + l.gains a := by
  cases hf with
  | ring e kept => rfl
  | take hsq hrung => simp [tokens, drops, gains, hsq]
  | @takeBatch e es hsq hb =>
    have hlive : e.prod ≠ 0#32 := hbatch e (by simp [hb])
    simp [tokens, drops, gains, hsq, hb, hlive]
    omega
  | @check out seen hsq =>
    simp only [tokens, drops, gains, hsq]
    by_cases hs : seen.prod = 0#32 <;> by_cases ho : out.prod = 0#32 <;> simp [hs, ho]
    omega
  | @skip out hsq =>
    simp only [tokens, drops, gains, hsq]
    by_cases ho : out.prod = 0#32 <;> simp [ho]
    omega
  | @start out hsq hlt =>
    have hne : out.prod ≠ 0#32 := fun h => by simp [h] at hlt
    simp [tokens, drops, gains, hsq, hne]
  | issue hsq =>
    simp [tokens, drops, gains, hsq]
    omega
  | accept hack =>
    have hpos := hacked rfl
    simp [tokens, drops, gains, hack]
    omega
  | finishEmpty room hack he =>
    simp [tokens, drops, gains, hack, he]
    omega
  | finishBatch hack he =>
    simp [tokens, drops, gains, hack, he]
    omega
  | finishFull hack he => simp [tokens, drops, gains, hack, he]
  | lookup hsq | adopt hsq | fetch hsq => simp [tokens, drops, gains, hsq]
  | ackLookup hack | advance hack | report hack | settle hack =>
    simp [tokens, drops, gains, hack]

/-- No more are lost than are dropped, even if acknowledgements come that nobody waits for. -/
theorem Fires.tokens_le (hf : Fires l a l') (hbatch : l.BatchLive) :
    l.tokens ≤ l'.tokens + l.drops a := by
  by_cases hacked : Acked l a
  · have := hf.tokens_add hbatch hacked
    omega
  · cases hf with
    | accept hack =>
      simp [tokens, drops, hack]
      omega
    | _ => exact absurd nofun hacked

/-- What the first machine has looked up. -/
theorem Fires.seen (hf : Fires l a l') {x : Entry} (hx : l'.sq.seen = some x) :
    l.sq.seen = some x ∨ x = l.cache := by
  cases hf with
  | lookup hsq => exact Or.inr (by simpa [eq_comm] using hx)
  | adopt hsq => exact Or.inl (by simpa [hsq] using hx)
  | @check out seen hsq => by_cases hs : seen.prod = 0#32 <;> simp [hs] at hx
  | take | takeBatch | skip | start | fetch | issue => cases hx
  | _ => exact Or.inl hx

/-- The second machine holds an element. -/
theorem tokens_pos_of_ack (h : l.ack ≠ .away) : 0 < l.tokens := by
  cases hack : l.ack with
  | away => exact absurd hack h
  | _ =>
    simp only [tokens, hack, AckPhase.holds]
    omega

end Tokens

/-! ## Finished elements -/

/-- Every index below `h` has been fetched and issued. -/
def Done (l : Lane) (h : BitVec 32) : Prop := ∀ k, k < h → k ∈ l.fetched ∧ k ∈ l.issued

section Done

variable {l l' : Lane} {a : Action} {h h' : BitVec 32}

/-- What is fetched and issued is so for good. -/
theorem Done.of_subset (hd : l.Done h) (hfetched : l.fetched ⊆ l'.fetched)
    (hissued : l.issued ⊆ l'.issued) : l'.Done h :=
  fun k hk => ⟨hfetched (hd k hk).1, hissued (hd k hk).2⟩

/-- What has been fetched and issued stays so. -/
theorem Fires.done (hf : Fires l a l') (hd : l.Done h) : l'.Done h := by
  cases hf with
  | fetch hsq => exact hd.of_subset (List.subset_append_left _ _) (List.Subset.refl _)
  | issue hsq => exact hd.of_subset (List.Subset.refl _) (List.subset_append_left _ _)
  | _ => exact hd

/-- So what is done stays done. -/
theorem Done.act (hd : l.Done h) (o : Option Action) : (l.act o).Done h := by
  rcases o with _ | a
  · exact hd
  · rcases step_eq_or_fires l a with hsame | hf
    · rw [act_some, hsame]
      exact hd
    · exact hf.done hd

/-- One element more. -/
theorem Done.succ (hd : l.Done h) (hf : h ∈ l.fetched) (hi : h ∈ l.issued) : l.Done (h + 1) := by
  intro k hk
  by_cases heq : k = h
  · exact heq ▸ ⟨hf, hi⟩
  · refine hd k ?_
    bv_omega

/-- What is done up to an index is done up to every smaller one. -/
theorem Done.mono (hd : l.Done h) (hle : h' ≤ h) : l.Done h' := fun k hk => hd k (by bv_omega)

/-- Nothing is below zero. -/
theorem done_zero : l.Done 0#32 := fun k hk => absurd hk (by simp)

end Done

end Lane
end RecoNIC
