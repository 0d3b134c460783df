import RecoNIC.Compute.Mmult

/-!
# What a job does to memory

The multiplication of `Mmult` is a list of effects, in the order of the kernel.  Here it is a
function from memory to memory: a job replaces the 256 words at `c` by the product of the
matrices at `a` and `b`, with zeros around it, and leaves all other words alone
(`after_mmult`).

The programs in `examples/` check the accelerator against a multiplication of their own, with
the loops in another order and the sums built up in memory.  The two agree on each word
(`after_mmult_eq_softwareMmult`).
-/

namespace RecoNIC
namespace Mmult

open Sweep

/-! ## Jobs -/

/-- Where the three matrices are, by words, and what is multiplied. -/
structure Job where
  a : Nat
  b : Nat
  c : Nat
  sizes : Sizes

/-- Memory after the job. -/
def Job.multiply (job : Job) (mem : Mem) : Mem := fun x =>
  if job.c ≤ x ∧ x < job.c + maxSize * maxSize then
    let i := (x - job.c) / maxSize
    let j := (x - job.c) % maxSize
    if (i : Int) < job.sizes.aRow.toInt ∧ (j : Int) < job.sizes.bCol.toInt then
      BitVec.ofInt 32 (productCell mem job.a job.b job.sizes i j) else 0
  else mem x

/-- The cell in row `i` and column `j` of the result. -/
theorem Job.multiply_cell (job : Job) (mem : Mem) {i j : Nat} (hi : i < maxSize)
    (hj : j < maxSize) :
    job.multiply mem (job.c + (i * maxSize + j)) =
      if (i : Int) < job.sizes.aRow.toInt ∧ (j : Int) < job.sizes.bCol.toInt then
        BitVec.ofInt 32 (productCell mem job.a job.b job.sizes i j) else 0 := by
  rw [maxSize] at hi hj ⊢
  have hin : job.c ≤ job.c + (i * 16 + j) ∧ job.c + (i * 16 + j) < job.c + 16 * 16 := by omega
  have hrow : (job.c + (i * 16 + j) - job.c) / 16 = i := by omega
  have hcol : (job.c + (i * 16 + j) - job.c) % 16 = j := by omega
  simp only [Job.multiply, maxSize, if_pos hin, hrow, hcol]

/-- Memory when the first `n` words of the result have been stored. -/
def Job.storing (job : Job) (n : Nat) (mem : Mem) : Mem := fun x =>
  if job.c ≤ x ∧ x < job.c + n then job.multiply mem x else mem x

/-- The whole result. -/
theorem Job.storing_all (job : Job) (mem : Mem) :
    job.storing (maxSize * maxSize) mem = job.multiply mem := by
  funext x
  rw [Job.storing]
  split_ifs with hin
  · rfl
  · rw [Job.multiply, if_neg hin]

/-- What the kernel does: the stores, and then the work ID. -/
structure Emits (workId : BitVec 32) (effects : List Effect) : Prop where
  stores : ∀ e ∈ effects.take (maxSize * maxSize), e.id? = none
  split : effects = effects.take (maxSize * maxSize) ++ [.workId workId]

section Effects

variable (beyond localC : LocalArray) (mem : Mem) (job : Job) (workId : BitVec 32)

theorem take_mmult {n : Nat} (hn : n ≤ maxSize * maxSize) :
    (mmult beyond localC mem job.a job.b job.c job.sizes workId).take n =
      (List.range n).map fun k => .store (job.c + k)
        (systolic1 job.sizes (readLocal beyond mem job.a) (readLocal beyond mem job.b)
          job.sizes.aCol.toInt.toNat localC (k / maxSize, k % maxSize)) := by
  rw [mmult, List.take_append_of_le_length (by simpa using hn), ← List.map_take, List.take_range,
    Nat.min_eq_left hn]

theorem emits_mmult :
    Emits workId (mmult beyond localC mem job.a job.b job.c job.sizes workId) := by
  refine ⟨fun e he => ?_, ?_⟩
  · rw [take_mmult _ _ _ _ _ (Nat.le_refl _)] at he
    obtain ⟨k, -, rfl⟩ := List.mem_map.mp he
    rfl
  · rw [take_mmult _ _ _ _ _ (Nat.le_refl _), mmult]

/-- **The kernel does the job word by word.** -/
theorem after_take_mmult (hlow : 1 ≤ job.sizes.aCol.toInt) (hhigh : job.sizes.aCol.toInt ≤ 16)
    {n : Nat} (hn : n ≤ maxSize * maxSize) :
    after mem ((mmult beyond localC mem job.a job.b job.c job.sizes workId).take n) =
      job.storing n mem := by
  funext x
  rw [take_mmult _ _ _ _ _ hn, Job.storing]
  by_cases hin : job.c ≤ x ∧ x < job.c + n
  · obtain ⟨k, rfl⟩ := Nat.exists_eq_add_of_le hin.1
    have hk : k < n := by omega
    have hrow : k / maxSize < maxSize := Nat.div_lt_of_lt_mul (by omega)
    have hcol : k % maxSize < maxSize := Nat.mod_lt _ (by decide)
    have hsplit : k / maxSize * maxSize + k % maxSize = k := Nat.div_add_mod' k maxSize
    have hcell := job.multiply_cell mem hrow hcol
    rw [hsplit] at hcell
    rw [after_stores_apply mem job.c hk, rounds_eq_product job.a job.b hlow hhigh hrow hcol,
      if_pos hin, hcell]
  · rw [after_stores_outside mem job.c (by omega), if_neg hin]

/-- **The kernel does the job.** -/
theorem after_mmult (hlow : 1 ≤ job.sizes.aCol.toInt) (hhigh : job.sizes.aCol.toInt ≤ 16) :
    after mem (mmult beyond localC mem job.a job.b job.c job.sizes workId) = job.multiply mem := by
  rw [(emits_mmult beyond localC mem job workId).split, after_workId,
    after_take_mmult _ _ _ _ _ hlow hhigh (Nat.le_refl _), job.storing_all]

end Effects

section Halfway

variable {workId id : BitVec 32} {past left : List Effect}

/-- The work ID is the last effect. -/
theorem Emits.eq_nil (h : Emits workId (past ++ .workId id :: left)) : left = [] ∧ id = workId := by
  rcases List.append_eq_append_iff.mp h.split with ⟨as, htake, hrest⟩ | ⟨bs, -, hrest⟩
  · cases as with
    | nil =>
      injection hrest with hid hleft
      injection hid with hid
      exact ⟨hleft, hid⟩
    | cons e as =>
      -- no store is a work ID
      injection hrest with he
      have hmem : Effect.workId id ∈ (past ++ .workId id :: left).take (maxSize * maxSize) := by
        rw [htake, he]
        exact List.mem_append_right _ List.mem_cons_self
      cases h.stores _ hmem
  · cases bs with
    | nil =>
      injection hrest with hid hleft
      injection hid with hid
      exact ⟨hleft.symm, hid.symm⟩
    | cons e bs => simp at hrest

/-- Until the work ID has been emitted, words have been stored. -/
theorem Emits.eq_take (h : Emits workId (past ++ left)) (hleft : left ≠ []) :
    past.length ≤ maxSize * maxSize ∧ past = (past ++ left).take past.length := by
  refine ⟨?_, List.take_left.symm⟩
  have hlen := congrArg List.length h.split
  have hpos := List.length_pos_iff.mpr hleft
  simp only [List.length_append, List.length_take, List.length_singleton] at hlen
  omega

/-- What is left ends with the work ID. -/
theorem Emits.eq_concat (h : Emits workId (past ++ left)) (hleft : left ≠ []) :
    ∃ front, left = front ++ [.workId workId] := by
  obtain ⟨front, e, rfl⟩ := (List.eq_nil_or_concat left).resolve_left hleft
  have hsplit := h.split
  rw [List.concat_eq_append, ← List.append_assoc] at hsplit
  exact ⟨front, by rw [List.concat_eq_append, (List.append_inj' hsplit rfl).2]⟩

end Halfway

/-! ## The check of the programs -/

/-- `DATA_SIZE`. -/
def dataSize : Nat := 16

/-- `software_mmult`. -/
def softwareMmult (in1 in2 out : Nat → BitVec 32) : Nat → BitVec 32 :=
  (List.range dataSize).foldl (fun out i =>
    (List.range dataSize).foldl (fun out j =>
      (List.range dataSize).foldl (fun out k =>
        Function.update out (i * dataSize + j)
          (out (i * dataSize + j) + in1 (i * dataSize + k) * in2 (k * dataSize + j))) out) out) out

section Software

variable (in1 in2 out : Nat → BitVec 32)

/-- A sum that is built up in a variable. -/
theorem foldl_range_add (n : Nat) (s : BitVec 32) (f : Nat → BitVec 32) :
    (List.range n).foldl (fun s k => s + f k) s = s + ∑ k ∈ Finset.range n, f k := by
  induction n with
  | zero => exact (BitVec.add_zero s).symm
  | succ n ih =>
    rw [List.range_succ, List.foldl_append, ih, Finset.sum_range_succ]
    exact BitVec.add_assoc ..

/-- The words of a matrix, row by row. -/
theorem flatMap_rows :
    ((List.range dataSize).flatMap fun i => (List.range dataSize).map fun j => i * dataSize + j) =
      List.range (dataSize * dataSize) := by
  decide +kernel

/-- Each word gets one sum on top of what it held. -/
theorem softwareMmult_apply {i j : Nat} (hi : i < dataSize) (hj : j < dataSize) :
    softwareMmult in1 in2 out (i * dataSize + j) = out (i * dataSize + j) +
      ∑ k ∈ Finset.range dataSize, in1 (i * dataSize + k) * in2 (k * dataSize + j) := by
  -- the sum that belongs to the word `x`
  let total (x : Nat) (old : BitVec 32) : BitVec 32 :=
    old + ∑ k ∈ Finset.range dataSize,
      in1 (x / dataSize * dataSize + k) * in2 (k * dataSize + x % dataSize)
  have hword {i j : Nat} (hj : j < dataSize) :
      (i * dataSize + j) / dataSize = i ∧ (i * dataSize + j) % dataSize = j := by
    rw [dataSize] at hj ⊢
    omega
  have hloops : softwareMmult in1 in2 out =
      sweep total (List.range (dataSize * dataSize)) out := by
    rw [← flatMap_rows, ← foldl_foldl_eq_sweep_flatMap, softwareMmult]
    refine List.foldl_ext _ _ _ fun out i _ => List.foldl_ext _ _ _ fun out j hj => ?_
    obtain ⟨hrow, hcol⟩ := hword (i := i) (List.mem_range.mp hj)
    rw [foldl_update_eq (fun s k => s + in1 (i * dataSize + k) * in2 (k * dataSize + j)),
      foldl_range_add]
    simp only [total, hrow, hcol]
  obtain ⟨hrow, hcol⟩ := hword (i := i) hj
  have hmem : i * dataSize + j ∈ List.range (dataSize * dataSize) := by
    rw [List.mem_range]
    rw [dataSize] at hi hj ⊢
    omega
  rw [hloops, sweep_of_mem total List.nodup_range hmem]
  simp only [total, hrow, hcol]

/-- The job of the programs: three matrices of full size. -/
def fullJob (a b c : Nat) : Job := ⟨a, b, c, ⟨16, 16, 16⟩⟩

/-- The check computes the words that the job leaves at `c`. -/
theorem softwareMmult_eq_multiply (mem : Mem) (a b c : Nat) {n : Nat}
    (hn : n < dataSize * dataSize) :
    softwareMmult (fun k => mem (a + k)) (fun k => mem (b + k)) (fun _ => 0) n =
      (fullJob a b c).multiply mem (c + n) := by
  have hrow : n / dataSize < dataSize := Nat.div_lt_of_lt_mul hn
  have hcol : n % dataSize < dataSize := Nat.mod_lt _ (by decide)
  have hsoft := softwareMmult_apply (fun k => mem (a + k)) (fun k => mem (b + k)) (fun _ => 0)
    hrow hcol
  have hcell := (fullJob a b c).multiply_cell mem hrow hcol
  have hsel : ((n / dataSize : Nat) : Int) < (16 : BitVec 32).toInt ∧
      ((n % dataSize : Nat) : Int) < (16 : BitVec 32).toInt := by
    rw [dataSize] at hrow hcol ⊢
    have h16 : (16 : BitVec 32).toInt = 16 := by decide
    omega
  rw [Nat.div_add_mod' n dataSize] at hsoft
  rw [show maxSize = dataSize from rfl, Nat.div_add_mod' n dataSize] at hcell
  refine hsoft.trans (Eq.trans ?_ hcell.symm)
  refine (BitVec.zero_add _).trans (Eq.trans ?_ (if_pos hsel).symm)
  rw [productCell, ofInt_sum_mul]
  refine Finset.sum_congr rfl fun k _ => ?_
  rw [BitVec.ofInt_toInt, BitVec.ofInt_toInt]
  rfl

/-- **The check passes.**  For each content of memory, of the local arrays and of what lies
beyond them, and wherever the three matrices are: the kernel leaves at `c` the words that
`software_mmult` computes from the two matrices. -/
theorem after_mmult_eq_softwareMmult (beyond localC : LocalArray) (mem : Mem) (a b c : Nat)
    (workId : BitVec 32) {n : Nat} (hn : n < dataSize * dataSize) :
    after mem (mmult beyond localC mem a b c ⟨16, 16, 16⟩ workId) (c + n) =
      softwareMmult (fun k => mem (a + k)) (fun k => mem (b + k)) (fun _ => 0) n := by
  have hjob := after_mmult beyond localC mem (fullJob a b c) workId
    (show 1 ≤ (16 : BitVec 32).toInt by decide) (show (16 : BitVec 32).toInt ≤ 16 by decide)
  rw [softwareMmult_eq_multiply mem a b c hn]
  exact congrFun hjob (c + n)

/-- Two matrices of words that count up, which overlap in memory with each other and with the
result. -/
theorem after_mmult_eq_softwareMmult_overlap :
    after (BitVec.ofNat 32) (mmult (fun _ => 0) (fun _ => 7) (BitVec.ofNat 32) 0 100 200
        ⟨16, 16, 16⟩ 0xdd) (200 + 255) =
      softwareMmult (fun k => BitVec.ofNat 32 (0 + k)) (fun k => BitVec.ofNat 32 (100 + k))
        (fun _ => 0) 255 :=
  after_mmult_eq_softwareMmult (fun _ => 0) (fun _ => 7) (BitVec.ofNat 32) 0 100 200 0xdd
    (by decide)

end Software

end Mmult
end RecoNIC
