import RecoNIC.Icrc.Output

/-!
# Packets do not disturb each other

What is sent for a stream of packets is meant to be what is sent for each packet alone.
`Follows` is the invariant: what was sent and what the pipeline holds are together the
`frames` of what was accepted.  In idle cycles all of it is sent (`sent_settled`), and
`frames` of a stream are those of its packets, so what remains is that a packet alone is
steady (`alone`): none of its words is behind a last word.

The words that come too early behind a last word do disturb.
-/

namespace RecoNIC
namespace Icrc

open Synchronous

variable {f : List Stage} {left : Nat}

/-! ## What was sent and what is held -/

/-- The words behind the join stage and in it, the first to be sent first. -/
def State.behind (s : State) : List Word :=
  offered s ++ s.bf.contents ++ s.port ++ s.extra ++ s.joins

/-- What was sent and what the pipeline holds is what was accepted. -/
structure Follows (s : State × Ledger) (f : List Stage) (left : Nat) : Prop where
  holds : Holds s.1 f left
  account : frames .start s.2.accepted =
    s.2.sent ++ s.1.behind ++ (f ++ s.1.upcoming).flatMap Stage.words
  context : Context.start.after s.2.accepted =
    if s.1.masking.valid then s.1.context.next s.1.maskingWord else s.1.context

/-- A word is accepted if it comes and the pipeline is ready. -/
theorem accepted_step (s : State × Ledger) (i : Input) :
    (icrc.step s i).2.accepted =
      s.2.accepted ++ if i.tvalid && s.1.rxReady then [i.beat] else [] := rfl

/-- What is behind the join moves on. -/
theorem behind_step {s : State} (h : Holds s f left) {i : Input} (hready : i.txReady = true) :
    (if s.txValid && i.txReady then [s.bf.output] else []) ++ (s.step i).behind =
      s.behind ++ (s.step i).joins := by
  have hout := offered_step s i fun hnot => absurd (hready.symm.trans hnot).symm Bool.false_ne_true
  rw [if_pos hready, h.tail_contents, List.append_nil] at hout
  unfold State.behind
  rw [h.step_contents hready, ← hout]
  have hport := port_extra_step h.ordered i
  simp only [List.append_assoc]
  rw [← List.append_assoc (s.step i).port, hport]
  simp only [List.append_assoc]

/-- **One cycle.** -/
theorem Follows.step {s : State × Ledger} (h : Follows s f left) {i : Input}
    (hi : Steady s.1 i) :
    ∃ f' left', Follows (icrc.step s i) f' left' ∧
      f ++ s.1.upcoming = (if s.1.nextJoin.valid then [s.1.nextJoin] else []) ++ f' ∧
      (s.1.masking.valid = false → left' ≤ left - 1) := by
  obtain ⟨f', left', hholds, heq, hless⟩ := h.holds.step hi
  have hcontext : Context.start.after s.2.accepted = (s.1.step i).context := by
    rw [h.context, State.step_context h.holds.mask i]
  have hvalid : (s.1.step i).masking.valid = (i.tvalid && s.1.rxReady) :=
    h.holds.nextMasking_valid i
  have hjoins : (s.1.step i).joins =
      (if s.1.nextJoin.valid then [s.1.nextJoin] else []).flatMap Stage.words := by
    change (if s.1.nextJoin.valid then s.1.nextJoin.words else []) = _
    cases s.1.nextJoin.valid <;> simp
  have hbefore : frames .start s.2.accepted =
      (s.2.sent ++ if s.1.txValid && i.txReady then [s.1.bf.output] else []) ++
        (s.1.step i).behind ++ f'.flatMap Stage.words := by
    have hmove := behind_step h.holds hi.ready
    rw [h.account, heq, List.flatMap_append, ← hjoins,
      List.append_assoc s.2.sent _ (State.behind _), hmove]
    simp only [List.append_assoc]
  refine ⟨f', left', ⟨hholds, ?_, ?_⟩, heq, hless⟩
  · change _ = (s.2.sent ++ if s.1.txValid && i.txReady then [s.1.bf.output] else []) ++
      (s.1.step i).behind ++ (f' ++ (s.1.step i).upcoming).flatMap Stage.words
    rw [accepted_step, frames_append, hcontext, hbefore, List.flatMap_append,
      State.words_upcoming, hvalid]
    cases hv : i.tvalid && s.1.rxReady with
    | false => simp [frames]
    | true =>
      obtain ⟨-, -, hword⟩ := h.holds.nextMasking_eq (hvalid.trans hv)
      simp [frames, hword]
  · change _ = if (s.1.step i).masking.valid then
        (s.1.step i).context.next (s.1.step i).maskingWord
      else (s.1.step i).context
    rw [accepted_step, Context.after_append, hcontext, hvalid]
    cases hv : i.tvalid && s.1.rxReady with
    | false => rfl
    | true =>
      obtain ⟨-, -, hword⟩ := h.holds.nextMasking_eq (hvalid.trans hv)
      rw [hword]
      rfl

/-! ## Idle cycles -/

/-- After `t` idle cycles nothing is left. -/
structure Due (s : State) (left t : Nat) : Prop where
  masking : s.masking.valid = true → 22 ≤ t
  paths : 0 < left → left + 5 ≤ t
  join : s.join.valid = true → 5 ≤ t
  stall : s.stallPipeline = true → 4 ≤ t
  port : s.toFifo.valid = true → 3 ≤ t
  buffer : s.bf.contents ≠ [] → 2 ≤ t
  offered : s.txValid = true → 1 ≤ t

/-- An idle cycle brings no word, and the receiver is ready. -/
theorem steady_idle (s : State) : Steady s (idle true) :=
  ⟨fun h => absurd h Bool.false_ne_true, rfl, fun h => absurd h Bool.false_ne_true⟩

/-- An idle cycle is a cycle less. -/
theorem Due.step {s : State} {t : Nat} (h : Due s left t) (hs : Holds s f left) {left' : Nat}
    {f' : List Stage} (hs' : Holds (s.step (idle true)) f' left')
    (heq : f ++ s.upcoming = (if s.nextJoin.valid then [s.nextJoin] else []) ++ f')
    (hless : s.masking.valid = false → left' ≤ left - 1) :
    Due (s.step (idle true)) left' (t - 1) where
  masking := by
    intro hv
    obtain ⟨hnot, -, -⟩ := hs.nextMasking_eq hv
    exact absurd hnot Bool.false_ne_true
  paths := by
    intro hpos
    cases hm : s.masking.valid with
    | true =>
      have hlong := h.masking hm
      have hsoon := hs'.soon
      omega
    | false =>
      have hle := hless hm
      have hpaths := h.paths (by omega)
      omega
  join := by
    intro hv
    change s.nextJoin.valid = true at hv
    have hne : f ++ s.upcoming ≠ [] := by
      rw [heq, hv, if_pos rfl]
      exact List.cons_ne_nil _ _
    cases hm : s.masking.valid with
    | true =>
      have hlong := h.masking hm
      omega
    | false =>
      rw [State.upcoming_of_not_valid hm, List.append_nil] at hne
      have hpos := hs.phase.left_pos hne
      have hpaths := h.paths hpos
      omega
  stall := by
    intro hstall
    have hjoin := h.join (hs.ordered.join_of_nextStall hstall).1
    omega
  port := by
    intro hport
    change (if s.stallPipeline then s.nextAddWord else s.nextReinsertion).valid = true at hport
    cases hstall : s.stallPipeline with
    | true =>
      have hfour := h.stall hstall
      omega
    | false =>
      rw [hstall, if_neg Bool.false_ne_true] at hport
      have hjoin := h.join (hs.ordered.join_of_nextReinsertion hport)
      omega
  buffer := by
    intro hne
    rw [hs.step_contents rfl] at hne
    have hport : s.toFifo.valid = true := by
      by_contra hnot
      exact hne (if_neg hnot)
    have hthree := h.port hport
    omega
  offered := by
    intro hv
    change (!s.bf.empty) = true at hv
    have hne : s.bf.contents ≠ [] := by
      rw [Ne, ← BufferFifo.empty_iff]
      simpa using hv
    have htwo := h.buffer hne
    omega

/-- Nothing is due, nothing is behind the join. -/
theorem Due.behind_eq_nil {s : State} (h : Due s left 0) : s.behind = [] := by
  have hjoin : s.joins = [] := if_neg fun hv => absurd (h.join hv) (by decide)
  have hextra : s.extra = [] := if_neg fun hv => absurd (h.stall hv) (by decide)
  have hport : s.port = [] := if_neg fun hv => absurd (h.port hv) (by decide)
  have hoffered : Icrc.offered s = [] := if_neg fun hv => absurd (h.offered hv) (by decide)
  have hbuffer : s.bf.contents = [] := by
    by_contra hne
    exact absurd (h.buffer hne) (by decide)
  rw [State.behind, hjoin, hextra, hport, hoffered, hbuffer]
  rfl

/-- Idle cycles. -/
theorem Follows.runFrom_idle {s : State × Ledger} (h : Follows s f left) {t : Nat}
    (hdue : Due s.1 left t) (n : Nat) :
    ∃ f' left', Follows (icrc.runFrom s (List.replicate n (idle true))) f' left' ∧
      Due (icrc.runFrom s (List.replicate n (idle true))).1 left' (t - n) ∧
      (icrc.runFrom s (List.replicate n (idle true))).2.accepted = s.2.accepted := by
  induction n generalizing s f left t with
  | zero => exact ⟨f, left, h, hdue, rfl⟩
  | succ n ih =>
    obtain ⟨f', left', hstep, heq, hless⟩ := h.step (steady_idle s.1)
    have hdue' := hdue.step h.holds hstep.holds heq hless
    obtain ⟨f'', left'', hrun, hdue'', haccepted⟩ := ih hstep hdue'
    refine ⟨f'', left'', hrun, ?_, haccepted.trans ?_⟩
    · rwa [Nat.sub_sub, Nat.add_comm 1 n] at hdue''
    · exact List.append_nil _

/-- Enough idle cycles. -/
def settle : List Input := List.replicate 24 (idle true)

/-- **Everything is sent in the end.** -/
theorem Follows.sent_settled {s : State × Ledger} (h : Follows s f left) :
    (icrc.runFrom s settle).2.sent = frames .start s.2.accepted := by
  have hdue : Due s.1 left 22 := by
    have hsoon := h.holds.soon
    exact ⟨fun _ => Nat.le_refl _, fun _ => by omega, fun _ => by omega, fun _ => by omega,
      fun _ => by omega, fun _ => by omega, fun _ => by omega⟩
  obtain ⟨f', left', hrun, hdue', haccepted⟩ := h.runFrom_idle hdue 24
  change Follows (icrc.runFrom s settle) f' left' at hrun
  change Due (icrc.runFrom s settle).1 left' 0 at hdue'
  change (icrc.runFrom s settle).2.accepted = s.2.accepted at haccepted
  rw [← haccepted, hrun.account, hdue'.behind_eq_nil, List.append_nil]
  have hup : (icrc.runFrom s settle).1.upcoming = [] := by
    refine State.upcoming_of_not_valid (Bool.eq_false_iff.mpr fun hv => ?_)
    exact absurd (hdue'.masking hv) (by decide)
  have hf : f' = [] := by
    by_contra hne
    have hpos := hrun.holds.phase.left_pos hne
    have hle := hdue'.paths hpos
    omega
  rw [hup, hf]
  exact (List.append_nil _).symm

/-! ## A packet alone -/

/-- Nothing is in the pipeline: no flag says that something is there. -/
structure Idle (s : State) : Prop where
  quiet : s.Quiet32
  alone : s.Alone
  join : s.join.valid = false
  last : s.join.last = false
  stall : s.stallPipeline = false
  port : s.toFifo.valid = false
  buffer : s.bf.empty = true
  offered : s.txValid = false

/-- After reset the pipeline is idle. -/
theorem idle_reset : Idle State.reset where
  quiet := ⟨fun _ => rfl, rfl, rfl⟩
  alone := ⟨rfl, rfl, rfl, rfl⟩
  join := rfl
  last := rfl
  stall := rfl
  port := rfl
  buffer := rfl
  offered := rfl

/-- The invariant holds when nothing is in the pipeline. -/
theorem Idle.follows {s : State} (h : Idle s) : Follows (s, .empty) [] 0 := by
  have hcontents := s.bf.empty_iff.mp h.buffer
  refine ⟨⟨?_, ?_, ?_, ?_, ?_, ?_, ?_⟩, ?_, ?_⟩
  · exact .idle h.quiet h.alone.crc512 h.alone.crc320
  · exact Nat.zero_le _
  · exact fun r hr => absurd hr List.not_mem_nil
  · have hnone := h.alone.masking
    exact ⟨fun hv => by simp [hnone] at hv, fun hv => by simp [hnone] at hv⟩
  · have h512 := h.alone.crc512
    have h320 := h.alone.crc320
    exact ⟨fun hv => by simp [h320] at hv, fun hv => by simp [h512] at hv⟩
  · have hjoin := h.join
    exact ⟨fun hv => by simp [hjoin] at hv, fun _ => h.last, fun _ => hjoin,
      fun hv => by simp [hjoin] at hv⟩
  · rw [← BufferFifo.length_contents, hcontents]
    exact Nat.zero_le _
  · have hup := State.upcoming_of_not_valid h.alone.masking
    simp [hup, State.behind, Icrc.offered, State.port, State.extra, State.joins, h.offered,
      hcontents, h.port, h.stall, h.join, frames, Ledger.empty]
  · simp [h.alone.masking, State.context, h.alone.followUp, Context.after, Ledger.empty]

/-- Only the last word has `last`. -/
def OnePacket (p : List Word) : Prop := ∀ b ∈ p.dropLast, b.last = false

/-- The words that come. -/
def coming (is : List Input) : List Word := (is.filter Input.tvalid).map Input.beat

/-- A word that is not the only one of its packet is not the last one. -/
theorem OnePacket.head {b : Word} {p : List Word} (h : OnePacket (b :: p)) (hp : p ≠ []) :
    b.last = false := by
  refine h b ?_
  rw [List.dropLast_cons_of_ne_nil hp]
  exact List.mem_cons_self

/-- What is behind the first word of a packet is the rest of it. -/
theorem OnePacket.tail {b : Word} {p : List Word} (h : OnePacket (b :: p)) : OnePacket p := by
  intro a ha
  refine h a ?_
  cases p with
  | nil => exact absurd ha List.not_mem_nil
  | cons c p => exact List.mem_cons_of_mem _ ha

/-- No last word has come. -/
structure Open (s : State) : Prop where
  quiet : s.Quiet32
  masking : s.masking.valid = true → s.masking.last = false

namespace Open

variable {s : State}

/-- Then no CRC word waits to be put in. -/
theorem to32 (h : Open s) (hm : MaskOk s) : s.to32 = false := by
  by_contra hne
  have h32 : s.to32 = true := by simpa using hne
  have hnot := h.masking (State.valid_of_to32 h32)
  exact absurd (hnot.symm.trans (hm.last_of_to32 h32)) Bool.false_ne_true

/-- Then the pipeline is ready for a word. -/
theorem rxReady (h : Open s) (hs : Holds s f left) : s.rxReady = true := by
  simp [State.rxReady, hs.halffull, h.quiet.inFlight]

/-- The next word is clear. -/
theorem clear (h : Open s) (i : Input) : Clear s i := by
  intro _ _ hv hl
  exact absurd ((h.masking hv).symm.trans hl) Bool.false_ne_true

/-- As long as no last word comes. -/
theorem step (h : Open s) (hs : Holds s f left) {i : Input}
    (hl : i.tvalid = true → i.beat.last = false) : Open (s.step i) where
  quiet := h.quiet.step i (h.to32 hs.mask)
  masking := by
    intro hv
    obtain ⟨htvalid, -, hword⟩ := hs.nextMasking_eq hv
    have hlast := congrArg Word.last hword
    exact hlast.trans (hl htvalid)

end Open

/-- **A packet alone.**  All its words are accepted. -/
theorem Follows.alone {s : State × Ledger} (h : Follows s f left) {is : List Input}
    (hopen : coming is ≠ [] → Open s.1) (hone : OnePacket (coming is))
    (hformed : ∀ b ∈ coming is, Formed b) (hready : ∀ i ∈ is, i.txReady = true) :
    ∃ f' left', Follows (icrc.runFrom s is) f' left' ∧
      (icrc.runFrom s is).2.accepted = s.2.accepted ++ coming is := by
  induction is generalizing s f left with
  | nil => exact ⟨f, left, h, (List.append_nil _).symm⟩
  | cons i is ih =>
    have hready' : ∀ j ∈ is, j.txReady = true := fun j hj => hready j (List.mem_cons_of_mem _ hj)
    cases hv : i.tvalid with
    | false =>
      have hcoming : coming (i :: is) = coming is := by simp [coming, hv]
      rw [hcoming] at hopen hone hformed ⊢
      have hsteady : Steady s.1 i :=
        ⟨fun hyes => by simp [hv] at hyes, hready i List.mem_cons_self,
          fun hyes => by simp [hv] at hyes⟩
      obtain ⟨f', left', hstep, -⟩ := h.step hsteady
      obtain ⟨f'', left'', hrun, haccepted⟩ := ih hstep
        (fun hne => (hopen hne).step h.holds fun hyes => by simp [hv] at hyes) hone hformed hready'
      refine ⟨f'', left'', hrun, haccepted.trans ?_⟩
      simp [accepted_step, hv]
    | true =>
      have hcoming : coming (i :: is) = i.beat :: coming is := by simp [coming, hv]
      rw [hcoming] at hopen hone hformed ⊢
      have hopen' := hopen (List.cons_ne_nil _ _)
      have hsteady : Steady s.1 i :=
        ⟨fun _ => hformed _ List.mem_cons_self, hready i List.mem_cons_self, hopen'.clear i⟩
      obtain ⟨f', left', hstep, -⟩ := h.step hsteady
      obtain ⟨f'', left'', hrun, haccepted⟩ := ih hstep
        (fun hne => hopen'.step h.holds fun _ => hone.head hne) hone.tail
        (fun b hb => hformed b (List.mem_cons_of_mem _ hb)) hready'
      refine ⟨f'', left'', hrun, haccepted.trans ?_⟩
      simp [accepted_step, hv, hopen'.rxReady h.holds]

/-- **What is sent for a packet alone**, whatever gaps are between its words. -/
theorem Idle.sent_alone {s : State} (h : Idle s) (is : List Input) (hone : OnePacket (coming is))
    (hformed : ∀ b ∈ coming is, Formed b) (hready : ∀ i ∈ is, i.txReady = true) :
    (icrc.runFrom (s, .empty) (is ++ settle)).2.sent = frames .start (coming is) := by
  have hopen : Open s := ⟨h.quiet, fun hv => by simp [h.alone.masking] at hv⟩
  obtain ⟨f, left, hrun, haccepted⟩ := h.follows.alone (fun _ => hopen) hone hformed hready
  rw [Machine.runFrom_append, hrun.sent_settled, haccepted]
  rfl

/-! ## The packets of a stream -/

/-- The words up to each last word, and those behind the last one. -/
def packets : List Word → List (List Word)
  | [] => []
  | b :: bs =>
    if b.last then [b] :: packets bs
    else (b :: (packets bs).headD []) :: (packets bs).tail

/-- What a packet comes as, a word in each cycle. -/
def offer (b : Word) : Input := ⟨true, b, true⟩

/-- What is sent for a packet that is sent alone. -/
def sentAlone (p : List Word) : List Word := (icrc.run (p.map offer ++ settle)).2.sent

/-- What was sent so far, and what is sent in the end, is what is sent for each packet
alone. -/
structure Undisturbed (s : State × Ledger) : Prop where
  inOrder : s.2.sent <+: (packets s.2.accepted).flatMap sentAlone
  complete : (icrc.runFrom s settle).2.sent = (packets s.2.accepted).flatMap sentAlone

/-- A packet may be continued at the front by a word that is not a last one. -/
theorem OnePacket.cons {b : Word} {p : List Word} (hb : b.last = false) (hp : OnePacket p) :
    OnePacket (b :: p) := by
  intro a ha
  cases p with
  | nil => exact absurd ha List.not_mem_nil
  | cons c p =>
    rw [List.dropLast_cons_cons] at ha
    rcases List.mem_cons.mp ha with rfl | ha
    · exact hb
    · exact hp a ha

/-- The packets of a stream are packets, and made of its words. -/
theorem packets_spec (bs : List Word) :
    ∀ p ∈ packets bs, OnePacket p ∧ ∀ b ∈ p, b ∈ bs := by
  induction bs with
  | nil => exact fun p hp => absurd hp List.not_mem_nil
  | cons b bs ih =>
    intro p hp
    have hrest : ∀ p ∈ packets bs, OnePacket p ∧ ∀ a ∈ p, a ∈ b :: bs := fun p hp =>
      ⟨(ih p hp).1, fun a ha => List.mem_cons_of_mem _ ((ih p hp).2 a ha)⟩
    rw [packets] at hp
    cases hl : b.last with
    | true =>
      rw [hl, if_pos rfl] at hp
      rcases List.mem_cons.mp hp with rfl | hp
      · refine ⟨fun a ha => absurd ha List.not_mem_nil, fun a ha => ?_⟩
        rw [List.mem_singleton.mp ha]
        exact List.mem_cons_self
      · exact hrest p hp
    | false =>
      rw [hl, if_neg Bool.false_ne_true] at hp
      cases hps : packets bs with
      | nil =>
        rw [hps] at hp
        rw [List.mem_singleton.mp hp]
        refine ⟨OnePacket.cons hl fun a ha => absurd ha List.not_mem_nil, fun a ha => ?_⟩
        rw [List.mem_singleton.mp ha]
        exact List.mem_cons_self
      | cons q qs =>
        rw [hps] at hp hrest
        rcases List.mem_cons.mp hp with rfl | hp
        · obtain ⟨hone, hmem⟩ := hrest q List.mem_cons_self
          refine ⟨OnePacket.cons hl hone, fun a ha => ?_⟩
          rcases List.mem_cons.mp ha with rfl | ha
          · exact List.mem_cons_self
          · exact hmem a ha
        · exact hrest p (List.mem_cons_of_mem _ hp)

/-- What a stream becomes is what its packets become. -/
theorem frames_eq_head_tail (x : Context) (bs : List Word) :
    frames x bs = frames x ((packets bs).headD []) ++
      (packets bs).tail.flatMap (frames .start) := by
  induction bs generalizing x with
  | nil => rfl
  | cons b bs ih =>
    rw [packets]
    cases hl : b.last with
    | true =>
      have hnext : x.next b = .start := by rw [Context.next, if_pos hl]
      have hstart := ih .start
      rw [if_pos rfl, List.headD_cons, List.tail_cons, frames, frames, hnext, hstart]
      cases packets bs with
      | nil => simp [frames]
      | cons p ps => simp [frames]
    | false =>
      rw [if_neg Bool.false_ne_true, List.headD_cons, List.tail_cons, frames, frames, ih,
        List.append_assoc]

/-- So a stream becomes what its packets become, each from the start. -/
theorem frames_packets (bs : List Word) :
    frames .start bs = (packets bs).flatMap (frames .start) := by
  rw [frames_eq_head_tail]
  cases packets bs with
  | nil => rfl
  | cons p ps => rfl

/-- Offered one by one without gaps, the words of a packet come as they are. -/
theorem coming_offer (p : List Word) : coming (p.map offer) = p := by
  rw [coming, List.filter_map, List.map_map]
  simp [Function.comp_def, offer]

/-- A packet alone is sent as its `frames`. -/
theorem sentAlone_eq {p : List Word} (hone : OnePacket p) (hformed : ∀ b ∈ p, Formed b) :
    sentAlone p = frames .start p := by
  have hsent := idle_reset.sent_alone (p.map offer)
  rw [coming_offer] at hsent
  refine hsent hone hformed fun i hi => ?_
  obtain ⟨b, -, rfl⟩ := List.mem_map.mp hi
  rfl

/-- The invariant of a stream. -/
structure Streams (s : State × Ledger) : Prop where
  follows : ∃ f left, Follows s f left
  formed : ∀ b ∈ s.2.accepted, Formed b

/-- A steady cycle keeps the invariant. -/
theorem streams_step (s : State × Ledger) (i : Input) (hs : Streams s) (hi : Steady s.1 i) :
    Streams (icrc.step s i) := by
  obtain ⟨f, left, h⟩ := hs.follows
  obtain ⟨f', left', hstep, -⟩ := h.step hi
  refine ⟨⟨f', left', hstep⟩, fun b hb => ?_⟩
  rw [accepted_step] at hb
  rcases List.mem_append.mp hb with hb | hb
  · exact hs.formed b hb
  · cases hv : i.tvalid && s.1.rxReady with
    | false => simp [hv] at hb
    | true =>
      rw [hv, if_pos rfl, List.mem_singleton] at hb
      rw [hb]
      exact hi.formed (Bool.and_eq_true_iff.mp hv).1

/-- The invariant says what is sent: the frames of the stream are those of its packets, and each
packet alone is sent as its frames. -/
theorem Streams.undisturbed {s : State × Ledger} (hs : Streams s) : Undisturbed s := by
  obtain ⟨f, left, h⟩ := hs.follows
  have hframes : frames .start s.2.accepted = (packets s.2.accepted).flatMap sentAlone := by
    rw [frames_packets]
    refine List.flatMap_congr fun p hp => ?_
    obtain ⟨hone, hmem⟩ := packets_spec _ p hp
    exact (sentAlone_eq hone fun b hb => hs.formed b (hmem b hb)).symm
  refine ⟨?_, ?_⟩
  · rw [← hframes, h.account, List.append_assoc]
    exact List.prefix_append _ _
  · rw [h.sent_settled, hframes]

/-- **Packets do not disturb each other.**  In steady cycles what is sent is what is sent for
each packet alone. -/
theorem undisturbed_of_steady (is : List Input)
    (h : icrc.Guarded (fun s i => Steady s.1 i) icrc.reset is) :
    icrc.Always Undisturbed icrc.reset is := by
  have hstart : Streams icrc.reset :=
    ⟨⟨[], 0, idle_reset.follows⟩, fun b hb => absurd hb List.not_mem_nil⟩
  exact (Machine.always_of_guarded streams_step hstart h).mono fun _ hs => hs.undisturbed

/-- A packet of one word that is full. -/
def fullWord : Word := ⟨0, ones 16, true⟩

/-- A packet of 64 bytes, and one of 40 bytes in the very next cycle. -/
def backToBack : List Input := [offer fullWord, offer oneWord]

/-- The second packet meets the extra word of the first one and is lost. -/
theorem backToBack_disturbed :
    (∀ i ∈ backToBack, Formed i.beat ∧ i.txReady = true) ∧
      ¬ icrc.Always Undisturbed icrc.reset backToBack := by
  refine ⟨by decide +kernel, fun h => ?_⟩
  have hlen := congrArg List.length h.last.complete
  revert hlen
  decide +kernel

/-- Two packets of 40 bytes, and one of 64 bytes, without a gap. -/
theorem undisturbed_backToBack :
    icrc.Always Undisturbed icrc.reset [offer oneWord, offer oneWord, offer fullWord] :=
  undisturbed_of_steady _ (by decide +kernel)

end Icrc
end RecoNIC
