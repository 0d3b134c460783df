import RecoNIC.RoceStack.RdmaFlow
import RecoNIC.RoceStack.Segmentation

/-!
# The word of a request

`roce_stack.sv` packs a request that leaves `rdma_flow` into the 248 bits of
`rdma_sq_data`.  The word has 32 bits for the length, but the member it is filled from has
28 (`LEN_BITS`): a write or a send is cut into requests that fit long before, and a read is
one request of any length.  `packed_iff` says for which elements the words of all requests
together carry the length.
-/

namespace RecoNIC
namespace RequestWord

open Synchronous WqManager

/-- `rdma_sq_data`. -/
def rdmaSqData (d : Dreq) : BitVec 248 :=
  d.req2.offs.setWidth 4 ++ d.req2.len ++ d.req1.len.setWidth 32 ++ d.req2.vaddr ++
    d.req1.vaddr ++ d.req1.offs ++ BitVec.ofBool d.req1.last ++ BitVec.ofBool d.req1.host ++
    d.req1.qpn ++ 0#27 ++ d.req1.opcode

/-- The length in the word. -/
def packedLen (w : BitVec 248) : BitVec 32 := w.extractLsb' 184 32

/-- The field is that of the request, filled up with zeros. -/
theorem packedLen_rdmaSqData (d : Dreq) : packedLen (rdmaSqData d) = d.req1.len.setWidth 32 := by
  rw [packedLen, rdmaSqData]
  ext i hi
  have hpos : 184 + i - 5 - 27 - 16 - 1 - 1 - 6 - 64 - 64 = i := by omega
  simp only [BitVec.getElem_extractLsb', BitVec.getLsbD_append, BitVec.getElem_setWidth,
    BitVec.getLsbD_setWidth, hpos, hi, decide_true, Bool.true_and, if_true]
  simp (disch := omega) only [if_neg]

/-- The request that leaves the flow control has the length it came with. -/
theorem packedLen_reqOut (s : RdmaFlow.Flow) (d : Dreq) :
    (packedLen (rdmaSqData (s.reqOut d))).toNat = d.req1.len.toNat := by
  rw [packedLen_rdmaSqData, BitVec.toNat_setWidth]
  exact Nat.mod_eq_of_lt (Nat.lt_trans d.req1.len.isLt (by decide))

/-- The lengths in the words of the requests `rs`; `table r` is the flow control when `r`
leaves it. -/
def packedSum (table : Dreq → RdmaFlow.Flow) (rs : List Dreq) : Nat :=
  (rs.map fun r => (packedLen (rdmaSqData ((table r).reqOut r))).toNat).sum

theorem packedSum_eq (table : Dreq → RdmaFlow.Flow) (rs : List Dreq) :
    packedSum table rs = (rs.map (·.req1.len.toNat)).sum := by
  rw [packedSum, List.map_congr_left fun r _ => packedLen_reqOut (table r) r]

/-- A length of 32 bits that is cut to 28 stays what it is iff it is below `2 ^ 28`. -/
theorem toNat_cut_eq_iff (len : BitVec 32) :
    (len.setWidth 28).toNat = len.toNat ↔ len.toNat < 2 ^ 28 := by
  rw [BitVec.toNat_setWidth]
  constructor
  · intro heq
    have hmod := Nat.mod_lt len.toNat (show 0 < 2 ^ 28 by decide)
    omega
  · exact Nat.mod_eq_of_lt

/-- **No length is lost, except that of a long read.**  When the last request of an element
has been taken, the words of its requests carry its length, unless it is a read of `2 ^ 28`
bytes or more. -/
theorem packed_iff (is : List Input) (table : Dreq → RdmaFlow.Flow)
    (hst : (issuing.run is).1.sq.st = .writeCqCache)
    (hop : wqeOpcode (issuing.run is).2.wqe = 0x00#8 ∨ wqeOpcode (issuing.run is).2.wqe = 0x02#8 ∨
      wqeOpcode (issuing.run is).2.wqe = 0x04#8) :
    packedSum table (issuing.run is).2.sent = wqeBytes (issuing.run is).2.wqe ↔
      ¬ (wqeOpcode (issuing.run is).2.wqe = 0x04#8 ∧
        2 ^ 28 ≤ wqeBytes (issuing.run is).2.wqe) := by
  rw [packedSum_eq]
  have hp := (segmented_run is).progress
  simp only [Progress, hst] at hp
  obtain ⟨-, -, hp⟩ := hp
  generalize (issuing.run is).2 = t at hop hp ⊢
  by_cases hread : wqeOpcode t.wqe = 0x04#8
  · have hnot : ¬ Transfers t.wqe := by
      rw [Transfers, hread]
      decide
    rw [if_neg hnot] at hp
    have hlen : t.sent.map (·.req1.len.toNat) = [((SqIf.wqeLen t.wqe).setWidth 28).toNat] := by
      have hmap := congrArg (List.map fun s : Segment => s.len.toNat) hp
      rwa [List.map_map] at hmap
    rw [hlen, List.sum_singleton, wqeBytes, toNat_cut_eq_iff, and_iff_right hread, Nat.not_le]
  · have htransfers : Transfers t.wqe := by
      rcases hop with hw | hs | hr
      · exact Or.inl hw
      · exact Or.inr hs
      · exact absurd hr hread
    rw [if_pos htransfers] at hp
    exact iff_of_true (tiles_of_segments hp.1 hp.2).sum fun h => hread h.1

/-! ### A short read and a long one -/

/-- A read of `len` bytes is rung, fetched and issued. -/
def readRun (len : BitVec 32) : List Input :=
  ring 1 1 0 ::
    List.replicate 16 (serve 1 ((4#512 <<< 128) ||| (len.setWidth 512 <<< 96)))

theorem packed_iff_short_read :
    packedSum (fun _ => .reset) (issuing.run (readRun 16)).2.sent =
      wqeBytes (issuing.run (readRun 16)).2.wqe :=
  (packed_iff (readRun 16) (fun _ => .reset) (by decide +kernel) (by decide +kernel)).mpr
    (by decide +kernel)

/-- The word of a read of `2 ^ 28` bytes asks for none. -/
theorem long_read_packs_zero :
    (issuing.run (readRun 0x10000000)).1.sq.st = .writeCqCache ∧
      wqeOpcode (issuing.run (readRun 0x10000000)).2.wqe = 0x04#8 ∧
      wqeBytes (issuing.run (readRun 0x10000000)).2.wqe = 2 ^ 28 ∧
      packedSum (fun _ => .reset) (issuing.run (readRun 0x10000000)).2.sent = 0 := by
  decide +kernel

end RequestWord
end RecoNIC
