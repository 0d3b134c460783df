import RecoNIC.Arithmetic.SplitAdd
import RecoNIC.Driver.Bridge
import RecoNIC.RoceStack.Segmentation

/-!
# The format of a work-queue element

The driver writes an element as a C struct of sixteen words, and the work-queue manager
reads it back as slices of 512 bits.  `decoded` says that the two agree on every member.

What a slice is used for is another matter.  The length of a request is a field of 28
bits: a write or a send is cut into requests that fit, but a read is one request, and a
read of `2 ^ 28` bytes or more asks for its length modulo `2 ^ 28`.  `carried_iff` is the
result over whole runs.
-/

namespace RecoNIC
namespace WqeFormat

open Synchronous WqManager RdmaApi

/-! ## The slices -/

/-- The slices of `w` are the arguments it was made from. -/
structure Decoded (winSize : WinSize) (a : WqeArgs) (w : BitVec 512) : Prop where
  wrid : w.setWidth 16 = a.wrid
  laddr : SqIf.wqeLocal w = maskedAddr winSize a.laddr
  length : SqIf.wqeLen w = a.length
  opcode : wqeOpcode w = a.opcode.setWidth 8
  remoteOffset : SqIf.wqeRemote w = a.remoteOffset
  rKey : w.extractLsb' 224 32 = a.rKey

variable {winSize : WinSize} {a : WqeArgs}

/-- A slice that begins with word `k` of an element. -/
theorem toNat_slice (e : RdmaWqe) (k len : Nat) :
    (e.bits.extractLsb' (32 * k) len).toNat = Words.toNat (e.words.drop k) % 2 ^ len :=
  Words.toNat_extractLsb'_ofWords e.words (le_refl 512) k len

/-- A slice of one word. -/
theorem slice_word (e : RdmaWqe) (k : Nat) {v : BitVec 32} {vs : List (BitVec 32)}
    (h : e.words.drop k = v :: vs) : e.bits.extractLsb' (32 * k) 32 = v := by
  refine BitVec.eq_of_toNat_eq ?_
  rw [toNat_slice, h, Words.toNat_cons, Nat.add_mul_mod_self_left, Nat.mod_eq_of_lt v.isLt]

/-- A slice of two words. -/
theorem slice_pair (e : RdmaWqe) (k : Nat) {u v : BitVec 32} {vs : List (BitVec 32)}
    (h : e.words.drop k = u :: v :: vs) : e.bits.extractLsb' (32 * k) 64 = v ++ u := by
  refine BitVec.eq_of_toNat_eq ?_
  have hu := u.isLt
  have hv := v.isLt
  rw [toNat_slice, h, Words.toNat_cons, Words.toNat_cons, SplitAdd.toNat_append]
  omega

/-- A slice of a part of a word. -/
theorem slice_part (e : RdmaWqe) (k : Nat) {v : BitVec 32} {vs : List (BitVec 32)}
    (h : e.words.drop k = v :: vs) {len : Nat} (hlen : len ≤ 32) :
    e.bits.extractLsb' (32 * k) len = v.setWidth len := by
  refine BitVec.eq_of_toNat_eq ?_
  have hdvd : 2 ^ len ∣ 2 ^ 32 := Nat.pow_dvd_pow 2 hlen
  rw [toNat_slice, h, Words.toNat_cons, BitVec.toNat_setWidth,
    ← Nat.mod_mod_of_dvd _ hdvd, Nat.add_mul_mod_self_left, Nat.mod_mod_of_dvd _ hdvd]

/-- **The two formats agree.** -/
theorem decoded : Decoded winSize a (createAWqe winSize a).bits where
  wrid := by
    have hpart := slice_part (createAWqe winSize a) 0 rfl (show 16 ≤ 32 by decide)
    have hlow : (createAWqe winSize a).bits.setWidth 16 =
        (createAWqe winSize a).bits.extractLsb' 0 16 := by
      ext i hi
      simp
    exact hlow.trans (hpart.trans BitVec.setWidth_append_eq_right)
  laddr := by
    refine (slice_pair (createAWqe winSize a) 1 rfl).trans ?_
    rw [maskedAddr]
    split_ifs with h <;> simp [createAWqe, h]
  length := slice_word (createAWqe winSize a) 3 rfl
  opcode := by
    refine (slice_part (createAWqe winSize a) 4 rfl (by decide)).trans ?_
    ext i hi
    have hmask : ∀ j < 8, (255#32).getLsbD j = true := by decide
    simp only [BitVec.getElem_setWidth, createAWqe, BitVec.getLsbD_and]
    rw [show (0x000000ff : BitVec 32).getLsbD i = true from hmask i hi, Bool.and_true]
  remoteOffset := (slice_pair (createAWqe winSize a) 5 rfl).trans (SplitAdd.append_halves _)
  rKey := slice_word (createAWqe winSize a) 7 rfl

/-! ## The context of the queue pair -/

/-- The context on the interface is that of the element in the register. -/
structure Contextual (s : State) : Prop where
  coupled : Coupled s
  ctx : s.qp.st = .sqValid →
    s.qp.ctx.vaddr = SqIf.wqeRemote s.ar.wqe ∧ s.qp.ctx.rKey = s.ar.wqe.extractLsb' 224 32

/-- The register keeps its element while the `QP_*` machine serves it. -/
theorem wqe_step_of_serving {s : State} {i : Input} (h : Coupled s)
    (hserve : s.qp.st.serving = true) : (s.step i).ar.wqe = s.ar.wqe :=
  h.wqe_step (Or.inl hserve) (by simp [h.serving hserve])

theorem Contextual.step {s : State} {i : Input} (h : Contextual s) : Contextual (s.step i) where
  coupled := h.coupled.step
  ctx hst := by
    show (s.qpStep i).ctx.vaddr = _ ∧ (s.qpStep i).ctx.rKey = _
    rcases s.of_qpStep_sqValid i hst with ⟨hqp, -, hctx⟩ | ⟨hqp, -, hctx⟩
    · rw [wqe_step_of_serving h.coupled (by rw [hqp]; rfl), hctx]
      exact ⟨rfl, rfl⟩
    · rw [wqe_step_of_serving h.coupled (by rw [hqp]; rfl), hctx]
      exact h.ctx hqp

/-- The invariant holds in every state of every run. -/
theorem contextual_run (is : List Input) : Contextual (wqManager.run is) :=
  (Machine.always_of_step (fun _ _ h => h.step) ⟨coupled_reset, nofun⟩ is).last

/-! ## The result -/

/-- The requests and the completion entry carry the arguments: all of the length, the two
addresses, the opcode and the work-request id.  A send has no remote address. -/
structure Carried (winSize : WinSize) (a : WqeArgs) (x : State × Transfer) : Prop where
  entry : x.1.sq.cqReg = 0#8 ++ a.opcode.setWidth 8 ++ a.wrid
  length : (x.2.sent.map (·.req1.len.toNat)).sum = a.length.toNat
  plength : (x.2.sent.map (·.req2.len.toNat)).sum = a.length.toNat
  begins : ∃ r rs, x.2.sent = r :: rs ∧ r.req2.vaddr = maskedAddr winSize a.laddr ∧
    (a.opcode ≠ 2#32 → r.req1.vaddr = a.remoteOffset)

/-- Requests that tile a transfer carry its arguments. -/
theorem carried_of_tiles {x : State × Transfer} {w : BitVec 512} (h : Decoded winSize a w)
    (htiles : Tiles w x.2.sent) (hentry : x.1.sq.cqReg = 0#8 ++ wqeOpcode w ++ w.setWidth 16)
    (hop : a.opcode ≠ 2#32 → wqeOpcode w = 0x00#8) : Carried winSize a x where
  entry := by rw [hentry, h.opcode, h.wrid]
  length := by rw [htiles.sum, wqeBytes, h.length]
  plength := by
    rw [List.map_congr_left fun r hr => congrArg BitVec.toNat (htiles.len r hr), htiles.sum,
      wqeBytes, h.length]
  begins := by
    have hpos : 0 < x.2.sent.length := by
      rw [htiles.length]
      omega
    obtain ⟨r, rs, hsent⟩ := List.exists_cons_of_length_pos hpos
    have hfirst : x.2.sent[0]? = some r := by rw [hsent]; rfl
    refine ⟨r, rs, hsent, ?_, fun hne => ?_⟩
    · rw [htiles.paddr 0 r hfirst, h.laddr]
      simp
    · rw [htiles.vaddr (hop hne) 0 r hfirst, h.remoteOffset]
      simp

/-- The request of a read carries the arguments iff the length fits its field. -/
theorem carried_read_iff {x : State × Transfer} {w : BitVec 512} (h : Decoded winSize a w)
    (hread : x.2.sent.map segmentOf = [readSegment w])
    (hentry : x.1.sq.cqReg = 0#8 ++ wqeOpcode w ++ w.setWidth 16) :
    Carried winSize a x ↔ a.length.toNat < 2 ^ 28 := by
  obtain ⟨r, hsent, hr⟩ : ∃ r, x.2.sent = [r] ∧ segmentOf r = readSegment w := by
    obtain ⟨r, rs, hcons, hr, hnil⟩ := List.map_eq_cons_iff.mp hread
    exact ⟨r, by rw [hcons, List.map_eq_nil_iff.mp hnil], hr⟩
  have hlen : r.req1.len.toNat = a.length.toNat % 2 ^ 28 := by
    rw [show r.req1.len = _ from congrArg Segment.len hr, readSegment, h.length,
      BitVec.toNat_setWidth]
  have hplen : r.req2.len.toNat = a.length.toNat % 2 ^ 28 := by
    rw [show r.req2.len = _ from congrArg Segment.plen hr, readSegment, h.length,
      BitVec.toNat_setWidth]
  constructor
  · intro hcarried
    have hsum := hcarried.length
    rw [hsent, List.map_cons, List.map_nil, List.sum_cons, List.sum_nil, hlen] at hsum
    have hmod := Nat.mod_lt a.length.toNat (show 0 < 2 ^ 28 by decide)
    omega
  · intro hlt
    refine ⟨by rw [hentry, h.opcode, h.wrid], ?_, ?_, r, [], hsent, ?_, fun _ => ?_⟩
    · simpa [hsent, hlen] using hlt
    · simpa [hsent, hplen] using hlt
    · exact (congrArg Segment.paddr hr).trans h.laddr
    · exact (congrArg Segment.vaddr hr).trans h.remoteOffset

/-- **What an element carries.**  In every run, the context that is sent for the element
of `a` has its remote offset and its key; and when its last request has been taken, the
requests and the entry carry the other arguments, unless it is a read of `2 ^ 28` bytes or
more. -/
theorem carried_iff (is : List Input) (winSize : WinSize) (a : WqeArgs)
    (hop : a.opcode = 0#32 ∨ a.opcode = 2#32 ∨ a.opcode = 4#32) :
    ((issuing.run is).1.qp.st = .sqValid →
      (issuing.run is).1.ar.wqe = (createAWqe winSize a).bits →
        (issuing.run is).1.qp.ctx.vaddr = a.remoteOffset ∧
          (issuing.run is).1.qp.ctx.rKey = a.rKey) ∧
    ((issuing.run is).1.sq.st = .writeCqCache →
      (issuing.run is).2.wqe = (createAWqe winSize a).bits →
        (Carried winSize a (issuing.run is) ↔
          ¬ (a.opcode = 4#32 ∧ 2 ^ 28 ≤ a.length.toNat))) := by
  have hdec : Decoded winSize a (createAWqe winSize a).bits := decoded
  generalize (createAWqe winSize a).bits = w at hdec ⊢
  constructor
  · intro hst hwqe
    have hctx := (contextual_run is).ctx
    rw [← fst_run_issuing] at hctx
    rw [← hdec.remoteOffset, ← hdec.rKey, ← hwqe]
    exact hctx hst
  · intro hst hwqe
    have hp := (segmented_run is).progress
    simp only [Progress, hst, hwqe] at hp
    obtain ⟨-, hentry, hp⟩ := hp
    by_cases hread : a.opcode = 4#32
    · have hcode : wqeOpcode w = 0x04#8 := by
        rw [hdec.opcode, hread]
        rfl
      have hnot : ¬ Transfers w := by
        rw [Transfers, hcode]
        decide
      rw [if_neg hnot] at hp
      rw [carried_read_iff hdec hp hentry, and_iff_right hread, Nat.not_le]
    · have htransfers : Transfers w := by
        rw [Transfers, hdec.opcode]
        rcases hop with hwrite | hsend | hread'
        · exact Or.inl (by rw [hwrite]; rfl)
        · exact Or.inr (by rw [hsend]; rfl)
        · exact absurd hread' hread
      rw [if_pos htransfers] at hp
      have hsent := hp.1
      rw [Transfer.Sent, hwqe] at hsent
      have htiles : Tiles w (issuing.run is).2.sent := tiles_of_segments hsent hp.2
      have hcode : a.opcode ≠ 2#32 → wqeOpcode w = 0x00#8 := by
        intro hne
        rw [hdec.opcode, hop.resolve_right fun h => h.elim hne hread]
        rfl
      exact iff_of_true (carried_of_tiles hdec htiles hentry hcode) fun h => hread h.1

/-- A read of `length` bytes. -/
def readArgs (length : BitVec 32) : WqeArgs :=
  ⟨7, 0x1000, length, 4, 0x2000, 9, 0, 0, 0, 0, 0⟩

/-- The read is rung, fetched and issued. -/
def oneRead (length : BitVec 32) : List Input :=
  ring 1 1 0 :: List.replicate 16 (serve 1 (createAWqe configWinSize (readArgs length)).bits)

/-- A read of 16 bytes carries its arguments. -/
theorem carried_short_read :
    Carried configWinSize (readArgs 16) (issuing.run (oneRead 16)) :=
  ((carried_iff (oneRead 16) configWinSize (readArgs 16) (Or.inr (Or.inr rfl))).2
    (by decide +kernel) (by decide +kernel)).mpr (by decide +kernel)

/-- A read of `2 ^ 28` bytes asks for none. -/
theorem long_read_truncated :
    (issuing.run (oneRead 0x10000000)).1.sq.st = .writeCqCache ∧
      (issuing.run (oneRead 0x10000000)).2.wqe =
        (createAWqe configWinSize (readArgs 0x10000000)).bits ∧
      (issuing.run (oneRead 0x10000000)).2.sent.map (·.req1.len) = [0] ∧
      ¬ Carried configWinSize (readArgs 0x10000000) (issuing.run (oneRead 0x10000000)) := by
  refine ⟨by decide +kernel, by decide +kernel, by decide +kernel, fun hcarried => ?_⟩
  have hlen := hcarried.length
  revert hlen
  decide +kernel

end WqeFormat
end RecoNIC
