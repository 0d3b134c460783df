import RecoNIC.Driver.RdmaApi
import RecoNIC.Synchronous.Machine

/-!
# Waiting for completions

`rdma_post_send` and `rdma_post_batch_send` ring the doorbell and then poll `CQHEADi`.  The
poll stops at the first answer that differs from `sq_cidb`, which the driver keeps from call
to call.  So a call learns that the head has moved away from `sq_cidb`, and not where it
ought to be:

* `rdma_post_send` advances `sq_cidb` whether or not the poll has timed out.  After a timeout
  the head lags behind, and the next call takes the old head for a completion of its own;
* `rdma_post_batch_send` goes on polling after a timeout, from the `-1` the poll has
  returned.

Either failure has an exact condition, which speaks of the answers of the device alone
(`sends_sound_iff_onTime`, `reports_iff`).
-/

namespace RecoNIC
namespace SendCompletion

open Synchronous RdmaApi

/-! ## One poll -/

section Poll

variable {sq v : BitVec 32} {reads rest : List (BitVec 32)} {c : Nat}

theorem pollLoop_moved (hv : v ≠ sq) : pollCqCidbLoop sq v c reads = .returned v reads := by
  cases reads <;> rw [pollCqCidbLoop, if_neg hv]

theorem pollLoop_again (hc : c < timeoutThreshold) :
    pollCqCidbLoop sq sq c (v :: reads) = pollCqCidbLoop sq v (c + 1) reads := by
  rw [pollCqCidbLoop, if_pos rfl, if_neg (by omega)]

theorem pollLoop_stalled (v : BitVec 32) :
    pollCqCidbLoop sq sq timeoutThreshold (v :: reads) = .returned (-1) reads := by
  rw [pollCqCidbLoop, if_pos rfl, if_pos (by omega)]

theorem pollLoop_replicate {k : Nat} (hk : c + k ≤ timeoutThreshold) :
    pollCqCidbLoop sq sq c (List.replicate k sq ++ reads) =
      pollCqCidbLoop sq sq (c + k) reads := by
  induction k generalizing c with
  | zero => rfl
  | succ k ih =>
    rw [List.replicate_succ, List.cons_append, pollLoop_again (by omega), ih (by omega)]
    congr 1
    omega

/-- A device that stays where it is keeps a poll until the timeout. -/
theorem poll_stalled (a : BitVec 32) :
    pollCqCidb sq (List.replicate (timeoutThreshold + 1) sq ++ a :: rest) =
      .returned (-1) rest := by
  rw [List.replicate_succ, List.cons_append, pollCqCidb, pollLoop_replicate (by omega),
    Nat.zero_add, pollLoop_stalled]

/-- A poll that has seen `c` answers equal to `sq_cidb` returns the first other answer, or
`-1` when there are `1001` of them; before it gives up it asks once more. -/
theorem pollLoop_returned {cq : BitVec 32} (hc : c ≤ timeoutThreshold)
    (h : pollCqCidbLoop sq cq c reads = .returned v rest) :
    (∃ k, c + k ≤ timeoutThreshold ∧ cq :: reads = List.replicate k sq ++ v :: rest ∧ v ≠ sq) ∨
      v = -1 ∧ ∃ a, cq :: reads =
        List.replicate (timeoutThreshold + 1 - c) sq ++ a :: rest := by
  induction reads generalizing c cq with
  | nil =>
    by_cases hcq : cq = sq
    · rw [hcq, pollCqCidbLoop, if_pos rfl] at h
      cases h
    · rw [pollLoop_moved hcq] at h
      cases h
      exact Or.inl ⟨0, hc, rfl, hcq⟩
  | cons a reads ih =>
    by_cases hcq : cq = sq
    · subst hcq
      rcases hc.lt_or_eq with hlt | rfl
      · rw [pollLoop_again hlt] at h
        rcases ih hlt h with ⟨k, hk, heq, hv⟩ | ⟨hv, b, heq⟩
        · exact Or.inl ⟨k + 1, by omega, by rw [heq]; rfl, hv⟩
        · refine Or.inr ⟨hv, b, ?_⟩
          rw [heq, show timeoutThreshold + 1 - c = timeoutThreshold + 1 - (c + 1) + 1 by omega]
          rfl
      · rw [pollLoop_stalled] at h
        cases h
        refine Or.inr ⟨rfl, a, ?_⟩
        rw [show timeoutThreshold + 1 - timeoutThreshold = 1 by omega]
        rfl
    · rw [pollLoop_moved hcq] at h
      cases h
      exact Or.inl ⟨0, hc, rfl, hcq⟩

theorem poll_returned (h : pollCqCidb sq reads = .returned v rest) :
    (∃ k ≤ timeoutThreshold, reads = List.replicate k sq ++ v :: rest ∧ v ≠ sq) ∨
      v = -1 ∧ ∃ a, reads = List.replicate (timeoutThreshold + 1) sq ++ a :: rest := by
  cases reads with
  | nil => cases h
  | cons a reads =>
    rcases pollLoop_returned (Nat.zero_le _) h with ⟨k, hk, heq, hv⟩ | hout
    · exact Or.inl ⟨k, by omega, heq, hv⟩
    · exact Or.inr hout

end Poll

/-! ## A run of `rdma_post_send` -/

/-- A call of `rdma_post_send` that has returned: the `SQPIi` it has written, the head it has
read last, and its value. -/
structure Sent where
  sqPi : BitVec 32
  cqHead : BitVec 32
  value : BitVec 32
  deriving DecidableEq

/-- A call that returns 0 has seen the head at the index it wrote. -/
def Sent.Sound (c : Sent) : Prop := c.value = 0 → c.sqPi ≤ c.cqHead

instance (c : Sent) : Decidable c.Sound := inferInstanceAs (Decidable (_ → _))

/-- The driver, the head as the device showed it last, and the calls so far. -/
structure Sender where
  qp : RdmaQp
  cqHead : BitVec 32
  calls : List Sent

/-- One call, with what the device answers to it. -/
def Sender.step (s : Sender) (answers : List (BitVec 32)) : Sender :=
  match rdmaPostSend s.qp answers with
  | .returned (qp, value) _ =>
    ⟨qp, answers.getLastD s.cqHead,
      s.calls ++ [⟨qp.sqPidb, answers.getLastD s.cqHead, value⟩]⟩
  | _ => s

/-- Calls of `rdma_post_send`, one after the other. -/
def sender (qp : RdmaQp) (cqHead : BitVec 32) : Machine Sender (List (BitVec 32)) :=
  ⟨⟨qp, cqHead, []⟩, Sender.step⟩

theorem sender_reset (qp : RdmaQp) (cqHead : BitVec 32) :
    (sender qp cqHead).reset = ⟨qp, cqHead, []⟩ := rfl

theorem sender_step (qp : RdmaQp) (cqHead : BitVec 32) (s : Sender) (l : List (BitVec 32)) :
    (sender qp cqHead).step s l = s.step l := rfl

/-- The device answers until the call returns; its head only grows, and never beyond the
index that the call has written. -/
structure Answers (s : Sender) (answers : List (BitVec 32)) : Prop where
  returns : ∃ r, rdmaPostSend s.qp answers = .returned r []
  monotone : (s.cqHead :: answers).Pairwise (· ≤ ·)
  bounded : ∀ v ∈ answers, v ≤ s.qp.sqPidb + 1

/-- When the call reads the head for the first time, everything that was posted before is
complete, or the head is beyond the numbers that an `int` can hold. -/
def OnTime (s : Sender) (answers : List (BitVec 32)) : Prop :=
  ∀ v ∈ answers.head?, v = s.qp.sqPidb ∨ v = s.qp.sqPidb + 1 ∨ v.slt 0

instance (s : Sender) : ∀ answers, Decidable (OnTime s answers)
  | [] => isTrue nofun
  | v :: _ => decidable_of_iff (v = s.qp.sqPidb ∨ v = s.qp.sqPidb + 1 ∨ v.slt 0) (by simp [OnTime])

/-- What a call that returns leaves behind. -/
theorem postSend_returned {qp : RdmaQp} {answers rest : List (BitVec 32)} {r : Posted}
    (h : rdmaPostSend qp answers = .returned r rest) :
    ∃ cqCidb, pollCqCidb qp.sqCidb answers = .returned cqCidb rest ∧
      r = ({ qp with
        sqPidb := qp.sqPidb + 1
        cqCidb := cqCidb
        sqCidb := qp.sqCidb + 1 }, returnValue cqCidb) := by
  rw [rdmaPostSend] at h
  cases hpoll : pollCqCidb qp.sqCidb answers with
  | returned cqCidb rest' =>
    rw [hpoll] at h
    cases h
    exact ⟨cqCidb, rfl, rfl⟩
  | exited =>
    rw [hpoll] at h
    cases h
  | waiting =>
    rw [hpoll] at h
    cases h

theorem returnValue_eq_zero_iff (cqCidb : BitVec 32) :
    returnValue cqCidb = 0 ↔ cqCidb.slt 0 = false := by
  rw [returnValue]
  cases cqCidb.slt 0 <;> simp

/-- **One call.**  With a head that only grows, the call is sound iff it begins on time. -/
theorem sound_iff_onTime {s : Sender} {answers : List (BitVec 32)} {r : Posted}
    (hsq : s.qp.sqCidb = s.qp.sqPidb) (henv : Answers s answers)
    (h : rdmaPostSend s.qp answers = .returned r []) :
    Sent.Sound ⟨r.1.sqPidb, answers.getLastD s.cqHead, r.2⟩ ↔ OnTime s answers := by
  obtain ⟨cqCidb, hpoll, rfl⟩ := postSend_returned h
  rw [hsq] at hpoll
  have hmono := henv.monotone
  have hbound := henv.bounded
  rcases poll_returned hpoll with ⟨k, -, rfl, hne⟩ | ⟨rfl, a, rfl⟩
  · have hsound : Sent.Sound ⟨s.qp.sqPidb + 1,
        (List.replicate k s.qp.sqPidb ++ [cqCidb]).getLastD s.cqHead, returnValue cqCidb⟩ ↔
          (cqCidb.slt 0 = false → s.qp.sqPidb + 1 ≤ cqCidb) := by
      rw [Sent.Sound, returnValue_eq_zero_iff, List.getLastD_concat]
    rw [hsound]
    cases k with
    | zero =>
      have hle := hbound cqCidb (by simp)
      constructor
      · intro h v hv
        cases hv
        cases hneg : cqCidb.slt 0 with
        | true => exact Or.inr (Or.inr rfl)
        | false => exact Or.inr (Or.inl (BitVec.le_antisymm hle (h hneg)))
      · intro h hneg
        rcases h cqCidb rfl with heq | heq | hslt
        · exact absurd heq hne
        · exact BitVec.le_of_eq heq.symm
        · rw [hneg] at hslt
          cases hslt
    | succ k =>
      have hle : s.qp.sqPidb ≤ cqCidb :=
        (List.pairwise_append.mp (List.pairwise_cons.mp hmono).2).2.2 _
          (List.mem_replicate.mpr ⟨by omega, rfl⟩) _ (List.mem_singleton_self _)
      refine ⟨fun _ v hv => ?_, fun _ _ => ?_⟩
      · cases hv
        exact Or.inl rfl
      · bv_omega
  · refine ⟨fun _ v hv => ?_, fun _ hzero => ?_⟩
    · cases hv
      exact Or.inl rfl
    · exact absurd hzero (show returnValue (-1) ≠ 0 by decide)

/-- The invariant of a run: all calls were sound, and the two counters agree. -/
structure Sender.Good (s : Sender) : Prop where
  counters : s.qp.sqCidb = s.qp.sqPidb
  sound : ∀ c ∈ s.calls, c.Sound

theorem step_of_returned {s : Sender} {answers : List (BitVec 32)} {r : Posted}
    (h : rdmaPostSend s.qp answers = .returned r []) :
    s.step answers =
      ⟨r.1, answers.getLastD s.cqHead,
        s.calls ++ [⟨r.1.sqPidb, answers.getLastD s.cqHead, r.2⟩]⟩ := by
  rw [Sender.step, h]

theorem Sender.Good.step {s : Sender} {answers : List (BitVec 32)} (hs : s.Good)
    (henv : Answers s answers) (hok : OnTime s answers) : (s.step answers).Good := by
  obtain ⟨r, h⟩ := henv.returns
  rw [step_of_returned h]
  constructor
  · obtain ⟨cqCidb, -, rfl⟩ := postSend_returned h
    exact congrArg (· + 1) hs.counters
  · intro c hc
    rcases List.mem_append.mp hc with hold | hnew
    · exact hs.sound c hold
    · rw [List.mem_singleton.mp hnew]
      exact (sound_iff_onTime hs.counters henv h).mpr hok

/-- **`rdma_post_send` over runs.**  From a queue pair whose counters agree, all calls of a
run are sound iff each of them begins on time. -/
theorem sends_sound_iff_onTime (qp : RdmaQp) (cqHead : BitVec 32)
    (calls : List (List (BitVec 32))) (hsq : qp.sqCidb = qp.sqPidb)
    (henv : (sender qp cqHead).Guarded Answers (sender qp cqHead).reset calls) :
    (sender qp cqHead).Always (fun s => ∀ c ∈ s.calls, c.Sound) (sender qp cqHead).reset calls ↔
      (sender qp cqHead).Guarded OnTime (sender qp cqHead).reset calls := by
  refine Machine.always_iff_guarded (fun s (hs : s.Good) => hs.sound)
    (fun s answers hs henv hok => hs.step henv hok)
    (fun s answers hs henv hok hsound => hok ?_) ⟨hsq, nofun⟩ henv
  obtain ⟨r, h⟩ := henv.returns
  rw [sender_step, step_of_returned h] at hsound
  exact (sound_iff_onTime hs.counters henv h).mp
    (hsound _ (List.mem_append_right _ (List.mem_singleton_self _)))

/-! ## A batch -/

/-- A poll on `sq_cidb` runs into the timeout: the answers it compares are all equal to it,
and it asks once more. -/
def pollTimesOut (sqCidb : BitVec 32) (reads : List (BitVec 32)) : Bool :=
  decide (timeoutThreshold + 1 < reads.length) &&
    (reads.take (timeoutThreshold + 1)).all (· == sqCidb)

/-- Some poll of the loop of `rdma_post_batch_send` runs into the timeout. -/
def batchTimesOut : Nat → RdmaQp → List (BitVec 32) → Bool
  | 0, _, _ => false
  | fuel + 1, qp, reads =>
    if qp.cqCidb.slt qp.sqPidb then
      pollTimesOut qp.sqCidb reads ||
        match pollCqCidb qp.sqCidb reads with
        | .returned cqCidb rest =>
          batchTimesOut fuel { qp with cqCidb := cqCidb, sqCidb := cqCidb } rest
        | _ => false
    else false

/-- The queue pair with the producer index that the batch posts. -/
def posted (qp : RdmaQp) (batchSize : BitVec 32) : RdmaQp :=
  { qp with sqPidb := qp.sqPidb + batchSize }

/-- The first `n` answers of a device. -/
def answers (device : Nat → BitVec 32) (n : Nat) : List (BitVec 32) := (List.range n).map device

/-- What is asked of a batch on a device: the call ends; it returns `-1` when one of its polls
has timed out, and 0 only when the head, as it was read last, has reached the `SQPIi` that the
call wrote. -/
def Reports (qp : RdmaQp) (batchSize : BitVec 32) (device : Nat → BitVec 32) : Prop :=
  rdmaPostBatchSend qp batchSize [] = .exited ∨
    ∃ n r, rdmaPostBatchSend qp batchSize (answers device n) = .returned r [] ∧
      (batchTimesOut (n + 1) (posted qp batchSize) (answers device n) = true → r.2 = -1) ∧
      (r.2 = 0 → qp.sqPidb + batchSize ≤ (answers device n).getLastD qp.cqCidb)

/-! ### The condition -/

section Condition

variable (sqPi sq : BitVec 32) (device : Nat → BitVec 32)

/-- The head as the driver knows it when it reads for the `n`-th time. -/
def known : Nat → BitVec 32
  | 0 => sq
  | n + 1 => device n

/-- How many answers in a row, the last one being number `n - 1`, were what the driver knew
already; `c` of them came before. -/
def repeated (c : Nat) : Nat → Nat
  | 0 => c
  | n + 1 => if device n = known sq device n then repeated c n + 1 else 0

/-- Answer `n` is a new one, and not below the index that the batch waits for. -/
def Arrives (n : Nat) : Prop := device n ≠ known sq device n ∧ (device n).slt sqPi = false

/-- Answer `n` is the `1001`-st in a row that is not new. -/
def Stalls (c n : Nat) : Prop := repeated sq device c (n + 1) = timeoutThreshold + 1

/-- The batch need not wait at all, or the head moves at least once in `1001` answers until
it arrives.  As the indices are compared as signed numbers, an index from `2 ^ 31` on is
different: the head has to arrive at a negative number too, and may as well stall. -/
def Arriving (cq : BitVec 32) : Prop :=
  if cq.slt sqPi then
    ∃ n, (∀ i < n, ¬ Arrives sqPi sq device i ∧ ¬ Stalls sq device 0 i) ∧
      (Arrives sqPi sq device n ∧ (device n).slt 0 = sqPi.slt 0 ∨
        Stalls sq device 0 n ∧ sqPi.slt 0 = true)
  else cq.slt 0 = sqPi.slt 0

end Condition

/-! ### One answer at a time -/

/-- How a batch that waits for `sqPi` ends, when a poll on `sq` goes on that has had `c`
answers: it reads `l` and leaves the loop with `v`, and the flag says whether a poll has timed
out. -/
inductive Ends (sqPi : BitVec 32) : BitVec 32 → Nat → List (BitVec 32) → Bool → BitVec 32 → Prop
  | arrives {sq c a} (hne : a ≠ sq) (hlt : a.slt sqPi = false) : Ends sqPi sq c [a] false a
  | moves {sq c a l t v} (hne : a ≠ sq) (hlt : a.slt sqPi = true) (h : Ends sqPi a 0 l t v) :
    Ends sqPi sq c (a :: l) t v
  | again {sq c l t v} (hc : c < timeoutThreshold) (h : Ends sqPi sq (c + 1) l t v) :
    Ends sqPi sq c (sq :: l) t v
  | stalls {sq a} (hlt : (-1#32).slt sqPi = false) :
    Ends sqPi sq timeoutThreshold [sq, a] true (-1)
  | goesOn {sq a l t v} (hlt : (-1#32).slt sqPi = true) (h : Ends sqPi (-1) 0 l t v) :
    Ends sqPi sq timeoutThreshold (sq :: a :: l) true v

namespace Ends

variable {sqPi sq v : BitVec 32} {c : Nat} {l : List (BitVec 32)} {t : Bool}

theorem replicate {k : Nat} (hk : c + k ≤ timeoutThreshold) (h : Ends sqPi sq (c + k) l t v) :
    Ends sqPi sq c (List.replicate k sq ++ l) t v := by
  induction k generalizing c with
  | zero => exact h
  | succ k ih =>
    refine again (by omega) (ih (by omega) ?_)
    rwa [Nat.add_right_comm c 1 k]

/-- The loop ends with an index that is not below the one it waits for. -/
theorem not_slt (h : Ends sqPi sq c l t v) : v.slt sqPi = false := by
  induction h with
  | arrives _ hlt => exact hlt
  | moves _ _ _ ih => exact ih
  | again _ _ ih => exact ih
  | stalls hlt => exact hlt
  | goesOn _ _ ih => exact ih

/-- Without a timeout it is the last answer. -/
theorem getLastD (h : Ends sqPi sq c l t v) (ht : t = false) (d : BitVec 32) :
    l.getLastD d = v := by
  induction h generalizing d with
  | arrives => rfl
  | moves _ _ _ ih =>
    rw [List.getLastD_cons]
    exact ih ht _
  | again _ _ ih =>
    rw [List.getLastD_cons]
    exact ih ht _
  | stalls => cases ht
  | goesOn => cases ht

theorem unique {v' : BitVec 32} {t' : Bool} (h : Ends sqPi sq c l t v)
    (h' : Ends sqPi sq c l t' v') : t = t' := by
  induction h generalizing t' v' with
  | arrives hne hlt =>
    cases h' with
    | arrives => rfl
    | moves _ _ h => cases h
    | again => exact absurd rfl hne
  | moves hne hlt h ih =>
    cases h' with
    | arrives => cases h
    | moves _ _ h' => exact ih h'
    | again => exact absurd rfl hne
    | stalls => exact absurd rfl hne
    | goesOn => exact absurd rfl hne
  | again hc h ih =>
    cases h' with
    | arrives hne => exact absurd rfl hne
    | moves hne => exact absurd rfl hne
    | again _ h' => exact ih h'
    | stalls => exact absurd hc (Nat.lt_irrefl _)
    | goesOn => exact absurd hc (Nat.lt_irrefl _)
  | stalls hlt =>
    cases h' with
    | moves hne => exact absurd rfl hne
    | again hc => exact absurd hc (Nat.lt_irrefl _)
    | stalls => rfl
    | goesOn => rfl
  | goesOn hlt h ih =>
    cases h' with
    | moves hne => exact absurd rfl hne
    | again hc => exact absurd hc (Nat.lt_irrefl _)
    | stalls => rfl
    | goesOn => rfl

end Ends

/-! ### The loop and its answers -/

section Loop

variable {sqPi sq v : BitVec 32} {c : Nat} {l : List (BitVec 32)} {t : Bool} {qp : RdmaQp}

theorem not_pollTimesOut {k : Nat} {rest : List (BitVec 32)} (hk : k ≤ timeoutThreshold)
    (hv : v ≠ sq) : pollTimesOut sq (List.replicate k sq ++ v :: rest) = false := by
  have hmem : v ∈ (List.replicate k sq ++ v :: rest).take (timeoutThreshold + 1) := by
    rw [List.mem_take_iff_getElem]
    exact ⟨k, by simp; omega, by simp⟩
  rw [pollTimesOut, Bool.and_eq_false_iff]
  refine Or.inr (List.all_eq_false.mpr ⟨v, hmem, ?_⟩)
  simpa using hv

theorem pollTimesOut_replicate (a : BitVec 32) (rest : List (BitVec 32)) :
    pollTimesOut sq (List.replicate (timeoutThreshold + 1) sq ++ a :: rest) = true := by
  rw [pollTimesOut, List.take_left' (List.length_replicate ..)]
  simp

/-- The rest of a batch, after a poll. -/
def afterPoll (fuel : Nat) (qp : RdmaQp) : Outcome (BitVec 32) → Outcome Posted
  | .returned cqCidb rest => batchLoop fuel { qp with cqCidb := cqCidb, sqCidb := cqCidb } rest
  | .exited => .exited
  | .waiting => .waiting

theorem batchLoop_succ (fuel : Nat) (hlt : qp.cqCidb.slt qp.sqPidb = true) :
    batchLoop (fuel + 1) qp l = afterPoll fuel qp (pollCqCidb qp.sqCidb l) := by
  rw [batchLoop, if_pos hlt]
  rfl

theorem batchLoop_of_not_slt (fuel : Nat) (hlt : qp.cqCidb.slt qp.sqPidb = false) :
    batchLoop (fuel + 1) qp l = .returned (qp, returnValue qp.cqCidb) l := by
  rw [batchLoop, if_neg (by simp [hlt])]

theorem of_batchLoop_of_not_slt {fuel : Nat} {r : Posted} (hlt : qp.cqCidb.slt qp.sqPidb = false)
    (h : batchLoop fuel qp l = .returned r []) :
    l = [] ∧ r = (qp, returnValue qp.cqCidb) ∧ batchTimesOut fuel qp l = false := by
  cases fuel with
  | zero => cases h
  | succ fuel =>
    rw [batchLoop_of_not_slt fuel hlt] at h
    cases h
    exact ⟨rfl, rfl, by rw [batchTimesOut, if_neg (by simp [hlt])]⟩

/-- A batch that ends with its answers has ended as `Ends` says. -/
theorem ends_of_batchLoop {fuel : Nat} {r : Posted} (hlt : qp.cqCidb.slt qp.sqPidb = true)
    (h : batchLoop fuel qp l = .returned r []) :
    ∃ v, Ends qp.sqPidb qp.sqCidb 0 l (batchTimesOut fuel qp l) v ∧
      r = ({ qp with cqCidb := v, sqCidb := v }, returnValue v) := by
  induction fuel generalizing qp l with
  | zero => cases h
  | succ fuel ih =>
    rw [batchLoop_succ fuel hlt] at h
    cases hpoll : pollCqCidb qp.sqCidb l with
    | exited =>
      rw [hpoll] at h
      cases h
    | waiting =>
      rw [hpoll] at h
      cases h
    | returned v rest =>
      rw [hpoll] at h
      have hstep : batchTimesOut (fuel + 1) qp l = (pollTimesOut qp.sqCidb l ||
          batchTimesOut fuel { qp with cqCidb := v, sqCidb := v } rest) := by
        rw [batchTimesOut, if_pos hlt, hpoll]
      cases hv : v.slt qp.sqPidb with
      | true =>
        obtain ⟨w, hends, hr⟩ := ih (by exact hv) h
        refine ⟨w, ?_, hr⟩
        rw [hstep]
        rcases poll_returned hpoll with ⟨k, hk, rfl, hne⟩ | ⟨rfl, a, rfl⟩
        · rw [not_pollTimesOut hk hne]
          exact Ends.replicate (by omega) (.moves hne hv hends)
        · rw [pollTimesOut_replicate, List.replicate_succ', List.append_assoc]
          exact Ends.replicate (by omega) (by rw [Nat.zero_add]; exact .goesOn hv hends)
      | false =>
        obtain ⟨rfl, hr, hflag⟩ :=
          of_batchLoop_of_not_slt (by exact hv) h
        refine ⟨v, ?_, hr⟩
        rw [hstep, hflag]
        rcases poll_returned hpoll with ⟨k, hk, rfl, hne⟩ | ⟨rfl, a, rfl⟩
        · rw [not_pollTimesOut hk hne]
          exact Ends.replicate (by omega) (.arrives hne hv)
        · rw [pollTimesOut_replicate, List.replicate_succ', List.append_assoc]
          exact Ends.replicate (by omega) (by rw [Nat.zero_add]; exact .stalls hv)

/-- A poll in progress that goes on as `Ends` says. -/
theorem afterPoll_of_ends (h : Ends sqPi sq c l t v) (hpi : qp.sqPidb = sqPi) :
    ∃ a l', l = a :: l' ∧ ∀ fuel, l.length ≤ fuel →
      afterPoll fuel qp (pollCqCidbLoop sq a c l') =
        .returned ({ qp with cqCidb := v, sqCidb := v }, returnValue v) [] := by
  induction h generalizing qp with
  | arrives hne hlt =>
    subst hpi
    refine ⟨_, [], rfl, fun fuel hfuel => ?_⟩
    obtain ⟨fuel, rfl⟩ : ∃ f, fuel = f + 1 := ⟨fuel - 1, by simp at hfuel; omega⟩
    rw [pollLoop_moved hne]
    exact batchLoop_of_not_slt fuel hlt
  | @moves sq c a l t v hne hlt h ih =>
    obtain ⟨b, l', rfl, hrest⟩ := @ih { qp with cqCidb := a, sqCidb := a } hpi
    subst hpi
    refine ⟨a, b :: l', rfl, fun fuel hfuel => ?_⟩
    obtain ⟨fuel, rfl⟩ : ∃ f, fuel = f + 1 := ⟨fuel - 1, by simp at hfuel; omega⟩
    rw [pollLoop_moved hne]
    refine (batchLoop_succ fuel hlt).trans (hrest fuel ?_)
    simpa using hfuel
  | @again sq c l t v hc h ih =>
    obtain ⟨b, l', rfl, hrest⟩ := ih hpi
    refine ⟨sq, b :: l', rfl, fun fuel hfuel => ?_⟩
    rw [pollLoop_again hc]
    exact hrest fuel (by simp at hfuel ⊢; omega)
  | @stalls sq a hlt =>
    subst hpi
    refine ⟨sq, [a], rfl, fun fuel hfuel => ?_⟩
    obtain ⟨fuel, rfl⟩ : ∃ f, fuel = f + 1 := ⟨fuel - 1, by simp at hfuel; omega⟩
    rw [pollLoop_stalled]
    exact batchLoop_of_not_slt fuel hlt
  | @goesOn sq a l t v hlt h ih =>
    obtain ⟨b, l', rfl, hrest⟩ := @ih { qp with cqCidb := -1, sqCidb := -1 } hpi
    subst hpi
    refine ⟨sq, a :: b :: l', rfl, fun fuel hfuel => ?_⟩
    obtain ⟨fuel, rfl⟩ : ∃ f, fuel = f + 1 := ⟨fuel - 1, by simp at hfuel; omega⟩
    rw [pollLoop_stalled]
    refine (batchLoop_succ fuel hlt).trans (hrest fuel ?_)
    simp at hfuel ⊢
    omega

theorem batchLoop_of_ends (h : Ends qp.sqPidb qp.sqCidb 0 l t v)
    (hlt : qp.cqCidb.slt qp.sqPidb = true) :
    batchLoop (l.length + 1) qp l =
      .returned ({ qp with cqCidb := v, sqCidb := v }, returnValue v) [] := by
  obtain ⟨a, l', rfl, hrest⟩ := afterPoll_of_ends h rfl
  exact (batchLoop_succ _ hlt).trans (hrest _ le_rfl)

end Loop

/-! ### The stream of answers -/

section Stream

variable {sqPi sq v : BitVec 32} {c : Nat} {t : Bool} {device : Nat → BitVec 32}

/-- The device after its first answer. -/
def later (device : Nat → BitVec 32) : Nat → BitVec 32 := fun n => device (n + 1)

theorem answers_succ (device : Nat → BitVec 32) (n : Nat) :
    answers device (n + 1) = device 0 :: answers (later device) n := by
  rw [answers, List.range_succ_eq_map, List.map_cons, List.map_map]
  rfl

theorem known_succ (n : Nat) : known sq device (n + 1) = known (device 0) (later device) n := by
  cases n <;> rfl

theorem repeated_succ (n : Nat) : repeated sq device c (n + 1) =
    repeated (device 0) (later device) (if device 0 = sq then c + 1 else 0) n := by
  induction n with
  | zero => rfl
  | succ n ih =>
    rw [repeated, ih, known_succ]
    rfl

theorem arrives_succ (n : Nat) :
    Arrives sqPi sq device (n + 1) ↔ Arrives sqPi (device 0) (later device) n := by
  rw [Arrives, known_succ]
  rfl

theorem stalls_succ (n : Nat) : Stalls sq device c (n + 1) ↔
    Stalls (device 0) (later device) (if device 0 = sq then c + 1 else 0) n := by
  rw [Stalls, repeated_succ]
  rfl

/-- The first answer that ends the loop: it arrives and is the last word, or the poll stalls
and the `-1` ends the loop as well. -/
def Decides (sqPi sq : BitVec 32) (device : Nat → BitVec 32) (c n : Nat) (t : Bool)
    (v : BitVec 32) : Prop :=
  (∀ i < n, ¬ Arrives sqPi sq device i ∧ ¬ Stalls sq device c i) ∧
    (Arrives sqPi sq device n ∧ v = device n ∧ t = false ∨
      Stalls sq device c n ∧ sqPi.slt 0 = true ∧ v = -1 ∧ t = true)

theorem Decides.succ {n : Nat} (hno : ¬ Arrives sqPi sq device 0 ∧ ¬ Stalls sq device c 0)
    (h : Decides sqPi (device 0) (later device) (if device 0 = sq then c + 1 else 0) n t v) :
    Decides sqPi sq device c (n + 1) t v := by
  refine ⟨fun i hi => ?_, ?_⟩
  · cases i with
    | zero => exact hno
    | succ i =>
      rw [arrives_succ, stalls_succ]
      exact h.1 i (by omega)
  · rw [arrives_succ, stalls_succ]
    exact h.2

/-- A negative index is not above `-1`. -/
theorem not_minusOne_slt (h : sqPi.slt 0 = true) : (-1#32).slt sqPi = false := by
  rw [BitVec.slt_eq_decide, decide_eq_true_eq] at h
  rw [BitVec.slt_eq_decide, decide_eq_false_iff_not]
  have hone : (-1#32).toInt = -1 := by decide
  have hzero : (0 : BitVec 32).toInt = 0 := rfl
  omega

/-- The answers that a batch has read decide it, unless it went on after a timeout. -/
theorem decides_of_ends {n : Nat} (h : Ends sqPi sq c (answers device n) t v)
    (hc : c ≤ timeoutThreshold) (ht : t = true → sqPi.slt 0 = true) :
    ∃ m, Decides sqPi sq device c m t v := by
  generalize hl : answers device n = l at h
  induction h generalizing n device with
  | @arrives sq c a hne hlt =>
    cases n with
    | zero => cases hl
    | succ n =>
      rw [answers_succ] at hl
      obtain ⟨rfl, -⟩ := List.cons.inj hl
      exact ⟨0, nofun, Or.inl ⟨⟨hne, hlt⟩, rfl, rfl⟩⟩
  | @moves sq c a l t v hne hlt h ih =>
    cases n with
    | zero => cases hl
    | succ n =>
      rw [answers_succ] at hl
      obtain ⟨rfl, hrest⟩ := List.cons.inj hl
      obtain ⟨m, hm⟩ := ih (Nat.zero_le _) ht hrest
      refine ⟨m + 1, .succ ⟨fun h => ?_, fun h => ?_⟩ (by rwa [if_neg hne])⟩
      · rw [h.2] at hlt
        cases hlt
      · rw [Stalls, repeated_succ, if_neg hne] at h
        cases h
  | @again sq c l t v hc' h ih =>
    cases n with
    | zero => cases hl
    | succ n =>
      rw [answers_succ] at hl
      obtain ⟨heq, hl⟩ := List.cons.inj hl
      obtain ⟨m, hm⟩ := ih hc' ht hl
      refine ⟨m + 1, .succ ⟨fun h => h.1 heq, fun h => ?_⟩ (by rwa [if_pos heq, heq])⟩
      rw [Stalls, repeated_succ, if_pos heq] at h
      have hcount : c + 1 = timeoutThreshold + 1 := h
      omega
  | @stalls sq a hlt =>
    cases n with
    | zero => cases hl
    | succ n =>
      rw [answers_succ] at hl
      obtain ⟨heq, -⟩ := List.cons.inj hl
      refine ⟨0, nofun, Or.inr ⟨?_, ht rfl, rfl, rfl⟩⟩
      rw [Stalls, repeated_succ, if_pos heq]
      rfl
  | goesOn hlt =>
    rw [not_minusOne_slt (ht rfl)] at hlt
    cases hlt

/-- Conversely, what decides a batch ends it. -/
theorem ends_of_decides {m : Nat} (h : Decides sqPi sq device c m t v)
    (hc : c ≤ timeoutThreshold) : ∃ n, Ends sqPi sq c (answers device n) t v := by
  induction m generalizing sq c device with
  | zero =>
    rcases h.2 with ⟨⟨hne, hlt⟩, rfl, rfl⟩ | ⟨hstall, hneg, rfl, rfl⟩
    · refine ⟨1, ?_⟩
      rw [answers_succ]
      exact .arrives hne hlt
    · rw [Stalls, repeated_succ] at hstall
      split_ifs at hstall with heq
      · have hcount : c + 1 = timeoutThreshold + 1 := hstall
        obtain rfl : c = timeoutThreshold := by omega
        refine ⟨2, ?_⟩
        rw [answers_succ, answers_succ, heq]
        exact .stalls (not_minusOne_slt hneg)
      · cases hstall
  | succ m ih =>
    obtain ⟨hbefore, hlast⟩ := h
    obtain ⟨hno, hgoes⟩ := hbefore 0 (by omega)
    have hrest : Decides sqPi (device 0) (later device) (if device 0 = sq then c + 1 else 0) m
        t v := by
      refine ⟨fun i hi => ?_, ?_⟩
      · rw [← arrives_succ, ← stalls_succ]
        exact hbefore (i + 1) (by omega)
      · rw [arrives_succ, stalls_succ] at hlast
        exact hlast
    rw [Stalls, repeated_succ] at hgoes
    by_cases heq : device 0 = sq
    · rw [if_pos heq] at hgoes hrest
      have hcount : c + 1 ≠ timeoutThreshold + 1 := hgoes
      obtain ⟨n, hn⟩ := ih hrest (by omega)
      refine ⟨n + 1, ?_⟩
      rw [answers_succ]
      rw [heq] at hn ⊢
      exact .again (by omega) hn
    · rw [if_neg heq] at hrest
      obtain ⟨n, hn⟩ := ih hrest (Nat.zero_le _)
      refine ⟨n + 1, ?_⟩
      rw [answers_succ]
      refine .moves heq ?_ hn
      cases hlt : (device 0).slt sqPi with
      | true => rfl
      | false => exact absurd ⟨heq, hlt⟩ hno

end Stream

/-! ### The result for a batch -/

/-- A number that is not below another one has reached it iff both have the same sign. -/
theorem le_iff_of_not_slt {p v : BitVec 32} (h : v.slt p = false) :
    (v.slt 0 = false → p ≤ v) ↔ v.slt 0 = p.slt 0 := by
  rw [BitVec.slt_eq_decide, decide_eq_false_iff_not] at h
  rw [BitVec.slt_eq_decide, BitVec.slt_eq_decide, BitVec.le_def]
  have hzero : (0 : BitVec 32).toInt = 0 := rfl
  have hp := BitVec.toInt_eq_toNat_cond p
  have hv := BitVec.toInt_eq_toNat_cond v
  have hpb := p.isLt
  have hvb := v.isLt
  rw [hzero, decide_eq_false_iff_not, decide_eq_decide]
  split_ifs at hp hv <;> constructor <;> intros <;> omega

/-- The call ends the program: the batch does not fit into the queue. -/
def Overflows (qp : RdmaQp) (batchSize : BitVec 32) : Prop :=
  qp.qdepth < batchSize ∨ qp.qdepth < qp.sqPidb + batchSize

theorem postBatchSend_of_fits {qp : RdmaQp} {batchSize : BitVec 32}
    (hfits : ¬ Overflows qp batchSize) (l : List (BitVec 32)) :
    rdmaPostBatchSend qp batchSize l = batchLoop (l.length + 1) (posted qp batchSize) l := by
  exact if_neg hfits

theorem length_answers (device : Nat → BitVec 32) (n : Nat) : (answers device n).length = n := by
  rw [answers, List.length_map, List.length_range]

theorem returnValue_eq_minusOne_iff (cqCidb : BitVec 32) :
    returnValue cqCidb = -1 ↔ cqCidb.slt 0 = true := by
  rw [returnValue]
  cases cqCidb.slt 0 <;> simp

/-- A batch that polls: it reports iff the first decisive answer is one it reports. -/
theorem reports_polling {qp : RdmaQp} {batchSize : BitVec 32} {device : Nat → BitVec 32}
    (hfits : ¬ Overflows qp batchSize)
    (hlt : (posted qp batchSize).cqCidb.slt (posted qp batchSize).sqPidb = true) :
    Reports qp batchSize device ↔ ∃ n t v,
      Decides (qp.sqPidb + batchSize) qp.sqCidb device 0 n t v ∧
        (t = false → v.slt 0 = (qp.sqPidb + batchSize).slt 0) := by
  constructor
  · rintro (hexit | ⟨n, r, hret, htimeout, hzero⟩)
    · rw [postBatchSend_of_fits hfits, batchLoop_succ _ hlt] at hexit
      cases hexit
    · rw [postBatchSend_of_fits hfits, length_answers] at hret
      obtain ⟨v, hends, rfl⟩ := ends_of_batchLoop hlt hret
      have hgt := hends.not_slt
      have hneg : batchTimesOut (n + 1) (posted qp batchSize) (answers device n) = true →
          (posted qp batchSize).sqPidb.slt 0 = true := by
        intro ht
        rw [BitVec.slt_eq_decide, decide_eq_false_iff_not] at hgt
        have hv := (returnValue_eq_minusOne_iff v).mp (htimeout ht)
        rw [BitVec.slt_eq_decide, decide_eq_true_eq] at hv ⊢
        omega
      obtain ⟨m, hm⟩ := decides_of_ends hends (Nat.zero_le _) hneg
      refine ⟨m, _, v, hm, fun ht => (le_iff_of_not_slt hgt).mp fun hpos => ?_⟩
      have hle := hzero ((returnValue_eq_zero_iff v).mpr hpos)
      rwa [hends.getLastD ht] at hle
  · rintro ⟨m, t, v, hm, hsign⟩
    obtain ⟨n, hends⟩ := ends_of_decides hm (Nat.zero_le _)
    have hret := @batchLoop_of_ends _ _ _ (posted qp batchSize) hends hlt
    obtain ⟨w, hends', -⟩ := ends_of_batchLoop hlt hret
    rw [length_answers] at hends'
    refine Or.inr ⟨n, _, (postBatchSend_of_fits hfits _).trans hret, ?_, ?_⟩
    · intro ht
      rw [hends'.unique hends] at ht
      rcases hm.2 with ⟨-, -, rfl⟩ | ⟨-, -, rfl, -⟩
      · cases ht
      · rfl
    · intro hzero
      have hpos := (returnValue_eq_zero_iff v).mp hzero
      rcases hm.2 with ⟨-, -, rfl⟩ | ⟨-, -, rfl, -⟩
      · rw [hends.getLastD rfl]
        exact (le_iff_of_not_slt hends.not_slt).mpr (hsign rfl) hpos
      · exact absurd hpos (by decide)

/-- **`rdma_post_batch_send` on a device.**  The call reports what it ought to iff the batch
does not fit, or the head arrives at the index of the batch without a stall. -/
theorem reports_iff (qp : RdmaQp) (batchSize : BitVec 32) (device : Nat → BitVec 32) :
    Reports qp batchSize device ↔
      Overflows qp batchSize ∨
        Arriving (qp.sqPidb + batchSize) qp.sqCidb device qp.cqCidb := by
  by_cases hfits : Overflows qp batchSize
  · refine ⟨fun _ => Or.inl hfits, fun _ => Or.inl ?_⟩
    exact if_pos hfits
  · rw [or_iff_right hfits]
    cases hlt : qp.cqCidb.slt (qp.sqPidb + batchSize) with
    | true =>
      rw [reports_polling hfits hlt, Arriving, if_pos hlt]
      refine exists_congr fun n => ?_
      constructor
      · rintro ⟨t, v, ⟨hbefore, ⟨harr, rfl, rfl⟩ | ⟨hstall, hneg, -, -⟩⟩, hsign⟩
        · exact ⟨hbefore, Or.inl ⟨harr, hsign rfl⟩⟩
        · exact ⟨hbefore, Or.inr ⟨hstall, hneg⟩⟩
      · rintro ⟨hbefore, ⟨harr, hsign⟩ | ⟨hstall, hneg⟩⟩
        · exact ⟨false, _, ⟨hbefore, Or.inl ⟨harr, rfl, rfl⟩⟩, fun _ => hsign⟩
        · exact ⟨true, _, ⟨hbefore, Or.inr ⟨hstall, hneg, rfl, rfl⟩⟩, fun ht => by cases ht⟩
    | false =>
      have hret (l : List (BitVec 32)) :
          rdmaPostBatchSend qp batchSize l =
            .returned (posted qp batchSize, returnValue qp.cqCidb) l :=
        (postBatchSend_of_fits hfits l).trans
          (@batchLoop_of_not_slt _ (posted qp batchSize) l.length hlt)
      rw [Arriving, if_neg (by simp [hlt]), ← le_iff_of_not_slt hlt, ← returnValue_eq_zero_iff]
      constructor
      · rintro (hexit | ⟨n, r, hr, -, hzero⟩)
        · rw [hret] at hexit
          cases hexit
        · rw [hret] at hr
          obtain ⟨rfl, hnil⟩ := Outcome.returned.inj hr
          rwa [hnil] at hzero
      · intro hle
        refine Or.inr ⟨0, _, hret [], fun ht => ?_, hle⟩
        rw [batchTimesOut, if_neg (by rw [posted]; simp [hlt])] at ht
        cases ht

/-! ### Completions that do not come -/

/-- A queue pair that has posted nothing. -/
def idleQp : RdmaQp where
  sq := ⟨0, 0, 256⟩
  sqPidb := 0
  sqCidb := 0
  cq := ⟨0, 0, 16⟩
  cqCidb := 0
  rq := ⟨0, 0, 2048⟩
  rqCidb := 0
  rqPidb := 0
  qdepth := 4

theorem sends_sound_iff_onTime_idleQp :
    (sender idleQp 0).Always (fun s => ∀ c ∈ s.calls, c.Sound) (sender idleQp 0).reset
      [[0, 1], [2]] :=
  (sends_sound_iff_onTime idleQp 0 [[0, 1], [2]] rfl
    ⟨⟨⟨_, rfl⟩, by decide, List.forall_mem_cons.mpr ⟨by decide, by simp; decide⟩⟩,
      ⟨⟨_, rfl⟩, by decide, by simp; decide⟩, trivial⟩).mpr
    (by decide)

/-- The answers that a call gets from a head that stays at zero until the timeout. -/
def stuck : List (BitVec 32) := List.replicate (timeoutThreshold + 1) 0 ++ [0]

theorem stuck_eq : stuck = List.replicate (timeoutThreshold + 2) 0 :=
  List.replicate_succ'.symm

theorem postSend_stuck :
    rdmaPostSend idleQp stuck =
      .returned ({ idleQp with sqPidb := 1, cqCidb := -1, sqCidb := 1 }, -1) [] := by
  have hpoll : pollCqCidb idleQp.sqCidb stuck = .returned (-1) [] := poll_stalled 0
  rw [rdmaPostSend, hpoll]
  rfl

/-- The first completion takes too long, and the second call returns 0 with the head still at
zero. -/
theorem second_send_unsound :
    (sender idleQp 0).Guarded Answers (sender idleQp 0).reset [stuck, [0]] ∧
    ¬ (sender idleQp 0).Always (fun s => ∀ c ∈ s.calls, c.Sound) (sender idleQp 0).reset
      [stuck, [0]] := by
  have hlast : stuck.getLastD 0 = 0 := List.getLastD_concat ..
  have hstep : (sender idleQp 0).step (sender idleQp 0).reset stuck =
      ⟨{ idleQp with sqPidb := 1, cqCidb := -1, sqCidb := 1 }, 0, [⟨1, 0, -1⟩]⟩ := by
    rw [sender_step, sender_reset, step_of_returned (s := ⟨idleQp, 0, []⟩) postSend_stuck, hlast]
    rfl
  constructor
  · refine ⟨⟨⟨_, postSend_stuck⟩, ?_, fun v hv => ?_⟩, ?_, trivial⟩
    · rw [stuck_eq]
      exact List.pairwise_replicate (n := timeoutThreshold + 3) (a := (0 : BitVec 32)) |>.mpr
        (Or.inr (BitVec.le_refl _))
    · rw [stuck_eq] at hv
      rw [(List.mem_replicate.mp hv).2]
      decide
    · rw [hstep]
      exact ⟨⟨_, rfl⟩, by decide, by simp⟩
  · rintro ⟨-, -, hlast⟩
    rw [hstep] at hlast
    revert hlast
    decide

instance (qp : RdmaQp) (batchSize : BitVec 32) : Decidable (Overflows qp batchSize) :=
  inferInstanceAs (Decidable (_ ∨ _))

/-- A head that never moves keeps the batch waiting for ever. -/
theorem batch_waits_for_ever : ¬ Reports idleQp 1 (fun _ => 0) := by
  rw [reports_polling (by decide) (by decide)]
  rintro ⟨n, t, v, ⟨-, ⟨⟨hne, -⟩, -⟩ | ⟨-, hneg, -⟩⟩, -⟩
  · cases n with
    | zero => exact hne rfl
    | succ n => exact hne rfl
  · exact absurd hneg (by decide)

end SendCompletion
end RecoNIC
