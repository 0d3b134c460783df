import Mathlib.Data.Nat.Find
import RecoNIC.Arithmetic.Pieces
import RecoNIC.Arithmetic.Tiling

/-!
# Reading and writing device memory

`read_to_buffer` and `write_from_buffer` of `memory_api.c` move a buffer in chunks, with an
`lseek` before each chunk.  What the operating system answers is an argument: two results for
each round, one of `lseek` and one of `read` or `write`.  A call that has not returned after
the answers it is given says `none`.

The two functions differ in what they print when a chunk comes out short (`Direction`).
-/

namespace RecoNIC
namespace MemoryApi

/-- `DEVICE_MEMORY_ADDRESS_MASK`. -/
def deviceMemoryAddressMask : BitVec 64 := 0x0000001FFFFFFFFF

/-- `RW_MAX_SIZE`. -/
def rwMaxSize : BitVec 64 := 0x7ffff000

/-- `EIO`. -/
def eio : BitVec 64 := 5

/-- The function: `read_to_buffer` or `write_from_buffer`. -/
inductive Direction where
  | read | write
  deriving DecidableEq

/-- What is printed when a call gives up, with the numbers in it. -/
inductive Complaint where
  | seekFailed (offset rc : BitVec 64)
  | seekElsewhere (rc offset : BitVec 64)
  | failed (offset bytes rc : BitVec 64)
  | short (position rc bytes : BitVec 64)
  | total (count size : BitVec 64)
  deriving DecidableEq

/-- What the operating system answers in one round: the results of `lseek` and of `read` or
`write`. -/
structure Answers where
  seek : BitVec 64
  io : BitVec 64

/-- Bytes that have been moved between the device and the buffer. -/
structure Transfer where
  devOffset : BitVec 64
  buf : BitVec 64
  bytes : BitVec 64
  deriving DecidableEq

/-- The variables of the loop, and what has been moved so far. -/
structure Progress where
  count : BitVec 64
  buf : BitVec 64
  offset : BitVec 64
  moved : List Transfer

/-- What a call returns and prints, and what it has moved. -/
structure Result where
  rc : BitVec 64
  printed : Option Complaint
  moved : List Transfer
  deriving DecidableEq

/-- The bytes of the next chunk. -/
def nextBytes (size : BitVec 64) (p : Progress) : BitVec 64 :=
  if rwMaxSize < size - p.count then rwMaxSize else size - p.count

/-- The number that is printed of a short chunk: `count` in the one function, `offset` in the
other. -/
def Direction.shortAt (io : Direction) (p : Progress) : BitVec 64 :=
  match io with
  | .read => p.count
  | .write => p.offset

/-- One round of the loop. -/
def round (io : Direction) (size : BitVec 64) (p : Progress) (a : Answers) :
    Except Result Progress :=
  if a.seek.slt 0 then .error ⟨-eio, some (.seekFailed p.offset a.seek), p.moved⟩
  else if a.seek ≠ p.offset then
    .error ⟨-eio, some (.seekElsewhere a.seek p.offset), p.moved⟩
  else if a.io.slt 0 then .error ⟨-eio, some (.failed p.offset (nextBytes size p) a.io), p.moved⟩
  else if a.io ≠ nextBytes size p then
    .error ⟨-eio, some (.short (io.shortAt p) a.io (nextBytes size p)),
      p.moved ++ [⟨p.offset, p.buf, a.io⟩]⟩
  else
    .ok ⟨p.count + nextBytes size p, p.buf + nextBytes size p, p.offset + nextBytes size p,
      p.moved ++ [⟨p.offset, p.buf, nextBytes size p⟩]⟩

/-- The loop and the check behind it. -/
def loop (io : Direction) (size : BitVec 64) : Progress → List Answers → Option Result
  | _, [] => none
  | p, a :: answers =>
    match round io size p a with
    | .error r => some r
    | .ok p' =>
      if p'.count < size then loop io size p' answers
      else if p'.count ≠ size then some ⟨-eio, some (.total p'.count size), p'.moved⟩
      else some ⟨p'.count, none, p'.moved⟩

/-- Both functions. -/
def transfer (io : Direction) (buffer size devOffset : BitVec 64) (answers : List Answers) :
    Option Result :=
  loop io size ⟨0, buffer, devOffset &&& deviceMemoryAddressMask, []⟩ answers

/-- `read_to_buffer`. -/
def readToBuffer := transfer .read

/-- `write_from_buffer`. -/
def writeFromBuffer := transfer .write

/-! ## The chunks of a call -/

/-- How many chunks there are.  A transfer of no bytes has one. -/
def chunks (size : BitVec 64) : ℕ := Pieces.count rwMaxSize.toNat size.toNat

/-- The bytes in front of chunk `k`. -/
def before (size : BitVec 64) (k : ℕ) : ℕ := Pieces.before rwMaxSize.toNat size.toNat k

/-- The bytes of chunk `k`. -/
def bytesOf (size : BitVec 64) (k : ℕ) : ℕ := Pieces.size rwMaxSize.toNat size.toNat k

section Chunk

variable (buffer size devOffset : BitVec 64)

/-- Chunk `k`. -/
def chunk (k : ℕ) : Transfer where
  devOffset := (devOffset &&& deviceMemoryAddressMask) + BitVec.ofNat 64 (before size k)
  buf := buffer + BitVec.ofNat 64 (before size k)
  bytes := BitVec.ofNat 64 (bytesOf size k)

/-- The operating system moves all of a chunk. -/
def Succeeds (t : Transfer) (a : Answers) : Prop := a.seek = t.devOffset ∧ a.io = t.bytes

instance (t : Transfer) (a : Answers) : Decidable (Succeeds t a) :=
  inferInstanceAs (Decidable (_ ∧ _))

/-- The variables in front of round `k`. -/
def progress (k : ℕ) : Progress where
  count := BitVec.ofNat 64 (before size k)
  buf := buffer + BitVec.ofNat 64 (before size k)
  offset := (devOffset &&& deviceMemoryAddressMask) + BitVec.ofNat 64 (before size k)
  moved := (List.range k).map (chunk buffer size devOffset)

variable {size}

theorem before_zero : before size 0 = 0 := Pieces.before_zero

theorem before_add_one (k : ℕ) : before size (k + 1) = before size k + bytesOf size k :=
  Pieces.before_succ

/-- There is another chunk as long as bytes are left. -/
theorem add_one_lt_chunks_iff {k : ℕ} : k + 1 < chunks size ↔ before size (k + 1) < size.toNat :=
  Pieces.succ_lt_count_iff_before (by decide)

theorem before_chunks {k : ℕ} (hk : chunks size ≤ k) : before size k = size.toNat :=
  Pieces.before_of_count_le (by decide) hk

theorem before_le (k : ℕ) : before size k ≤ size.toNat := Pieces.before_le

theorem toNat_ofNat_before (k : ℕ) : (BitVec.ofNat 64 (before size k)).toNat = before size k := by
  have hle : before size k ≤ size.toNat := before_le k
  have hlt := size.isLt
  rw [BitVec.toNat_ofNat, Nat.mod_eq_of_lt (by omega)]

/-- No chunk is longer than one call can move. -/
theorem bytesOf_le (k : ℕ) : bytesOf size k ≤ 0x7ffff000 := Pieces.size_le

theorem toNat_chunk_bytes (k : ℕ) :
    (chunk buffer size devOffset k).bytes.toNat = bytesOf size k := by
  have hle : bytesOf size k ≤ 0x7ffff000 := bytesOf_le k
  show (BitVec.ofNat 64 _).toNat = _
  rw [BitVec.toNat_ofNat, Nat.mod_eq_of_lt (by omega)]

/-- A round asks for the bytes of its chunk. -/
theorem nextBytes_progress (k : ℕ) :
    nextBytes size (progress buffer size devOffset k) = (chunk buffer size devOffset k).bytes := by
  have hle : before size k ≤ size.toNat := before_le k
  have hmin : bytesOf size k = min rwMaxSize.toNat (size.toNat - before size k) :=
    Pieces.size_eq_min_sub
  have hleft : (size - BitVec.ofNat 64 (before size k)).toNat = size.toNat - before size k := by
    have hcount : (BitVec.ofNat 64 (before size k)).toNat = before size k := toNat_ofNat_before k
    rw [BitVec.toNat_sub_of_le (BitVec.le_def.mpr (by omega)), hcount]
  refine BitVec.eq_of_toNat_eq ?_
  rw [toNat_chunk_bytes, hmin]
  show (if rwMaxSize < size - BitVec.ofNat 64 (before size k) then rwMaxSize
    else size - BitVec.ofNat 64 (before size k)).toNat = _
  split_ifs with hbig
  · rw [BitVec.lt_def, hleft] at hbig
    omega
  · rw [BitVec.lt_def, hleft] at hbig
    omega

/-- Words of less than 2^63 are not negative. -/
theorem not_slt_zero {x : BitVec 64} (h : x.toNat < 2 ^ 63) : ¬ x.slt 0 = true := by
  rw [BitVec.ofNat_eq_ofNat, BitVec.slt_zero_eq_msb, Bool.not_eq_true,
    BitVec.msb_eq_false_iff_two_mul_lt]
  omega

section Round

variable (io : Direction) {buffer devOffset : BitVec 64} {a : Answers} {k : ℕ}

/-- A round whose chunk is moved goes on to the next one. -/
theorem round_of_succeeds
    (hfit : (devOffset &&& deviceMemoryAddressMask).toNat + size.toNat < 2 ^ 63)
    (h : Succeeds (chunk buffer size devOffset k) a) :
    round io size (progress buffer size devOffset k) a =
      .ok (progress buffer size devOffset (k + 1)) := by
  obtain ⟨hseek, hio⟩ := h
  have hle : before size k ≤ size.toNat := before_le k
  have hcount : (BitVec.ofNat 64 (before size k)).toNat = before size k := toNat_ofNat_before k
  have hoffset : ¬ a.seek.slt 0 = true := by
    refine not_slt_zero ?_
    rw [hseek]
    show ((devOffset &&& deviceMemoryAddressMask) + BitVec.ofNat 64 (before size k)).toNat < _
    rw [BitVec.toNat_add, hcount]
    omega
  have hbytes : ¬ a.io.slt 0 = true := by
    refine not_slt_zero ?_
    have hmax : bytesOf size k ≤ 0x7ffff000 := bytesOf_le k
    rw [hio, toNat_chunk_bytes]
    omega
  have hsum : BitVec.ofNat 64 (before size k) + (chunk buffer size devOffset k).bytes =
      BitVec.ofNat 64 (before size (k + 1)) := by
    show BitVec.ofNat 64 _ + BitVec.ofNat 64 _ = _
    rw [← BitVec.ofNat_add, before_add_one]
  have hmoved : (progress buffer size devOffset k).moved ++
      [⟨(progress buffer size devOffset k).offset, (progress buffer size devOffset k).buf,
        (chunk buffer size devOffset k).bytes⟩] =
      (progress buffer size devOffset (k + 1)).moved := by
    show (List.range k).map _ ++ [chunk buffer size devOffset k] = _
    rw [progress, List.range_succ, List.map_append]
    rfl
  have hthere : a.seek = (progress buffer size devOffset k).offset := hseek
  rw [round, if_neg hoffset, if_neg (not_not.mpr hthere), if_neg hbytes, nextBytes_progress,
    if_neg (not_not.mpr hio), hmoved]
  simp only [progress, BitVec.add_assoc, hsum]

/-- A round whose chunk is not moved ends the call with an error. -/
theorem round_of_not_succeeds (h : ¬ Succeeds (chunk buffer size devOffset k) a) :
    ∃ r, round io size (progress buffer size devOffset k) a = .error r ∧ r.rc = -eio := by
  rw [round, nextBytes_progress]
  split_ifs with hneg hseek hneg' hio
  · exact ⟨_, rfl, rfl⟩
  · exact ⟨_, rfl, rfl⟩
  · exact ⟨_, rfl, rfl⟩
  · exact ⟨_, rfl, rfl⟩
  · exact absurd ⟨not_not.mp hseek, not_not.mp hio⟩ h

end Round

/-! ## A call -/

section Call

variable {buffer devOffset : BitVec 64} (io : Direction) (answers : ℕ → Answers)

/-- As long as chunks are moved and another one is left, the loop goes on. -/
theorem loop_of_succeeds
    (hfit : (devOffset &&& deviceMemoryAddressMask).toNat + size.toNat < 2 ^ 63) {j : ℕ}
    (hj : j < chunks size)
    (hok : ∀ k < j, Succeeds (chunk buffer size devOffset k) (answers k)) (rest : List Answers) :
    loop io size (progress buffer size devOffset 0) ((List.range j).map answers ++ rest) =
      loop io size (progress buffer size devOffset j) rest := by
  induction j generalizing rest with
  | zero => rfl
  | succ j ih =>
    have hmore : (progress buffer size devOffset (j + 1)).count < size := by
      rw [BitVec.lt_def]
      show (BitVec.ofNat 64 (before size (j + 1))).toNat < _
      rw [toNat_ofNat_before]
      exact add_one_lt_chunks_iff.mp hj
    rw [List.range_succ, List.map_append, List.append_assoc,
      ih (by omega) (fun k hk => hok k (by omega)), List.map_singleton, List.singleton_append, loop,
      round_of_succeeds io hfit (hok j (Nat.lt_succ_self j))]
    simp only [if_pos hmore]

/-- The last chunk ends the call. -/
theorem loop_last
    (hfit : (devOffset &&& deviceMemoryAddressMask).toNat + size.toNat < 2 ^ 63) {j : ℕ}
    (hj : j + 1 = chunks size) {a : Answers}
    (hok : Succeeds (chunk buffer size devOffset j) a) (rest : List Answers) :
    loop io size (progress buffer size devOffset j) (a :: rest) =
      some ⟨size, none, (List.range (chunks size)).map (chunk buffer size devOffset)⟩ := by
  have hcount : (progress buffer size devOffset (j + 1)).count = size := by
    refine BitVec.eq_of_toNat_eq ?_
    show (BitVec.ofNat 64 (before size (j + 1))).toNat = _
    rw [toNat_ofNat_before, before_chunks hj.ge]
  have hless : ¬ size < size := by
    rw [BitVec.lt_def]
    exact Nat.lt_irrefl _
  rw [loop, round_of_succeeds io hfit hok]
  simp only [hcount, if_neg hless, ne_eq, not_true_eq_false, if_false, ← hj]
  rfl

/-- A chunk that is not moved ends the call with an error. -/
theorem loop_of_not_succeeds {j : ℕ} {a : Answers}
    (hno : ¬ Succeeds (chunk buffer size devOffset j) a) :
    ∃ r : Result, r.rc = -eio ∧ ∀ rest,
      loop io size (progress buffer size devOffset j) (a :: rest) = some r := by
  obtain ⟨r, hround, hrc⟩ := round_of_not_succeeds io hno
  refine ⟨r, hrc, fun rest => ?_⟩
  rw [loop, hround]

end Call

end Chunk

/-! ## All or an error -/

/-- The first chunks tile the bytes in front of the next one. -/
theorem tiles_chunks (buffer size devOffset : BitVec 64) (k : ℕ) :
    Tiling.Tiles (devOffset &&& deviceMemoryAddressMask)
        (((List.range k).map (chunk buffer size devOffset)).map fun t =>
          (t.devOffset, t.bytes.toNat)) (before size k) ∧
      Tiling.Tiles buffer
        (((List.range k).map (chunk buffer size devOffset)).map fun t => (t.buf, t.bytes.toNat))
        (before size k) := by
  induction k with
  | zero => exact ⟨before_zero, before_zero⟩
  | succ k ih =>
    obtain ⟨hdev, hbuf⟩ := ih
    have hnext : before size (k + 1) =
        before size k + (chunk buffer size devOffset k).bytes.toNat := by
      rw [toNat_chunk_bytes, before_add_one]
    rw [List.range_succ, List.map_append, List.map_append, List.map_append, hnext]
    exact ⟨hdev.concat _, hbuf.concat _⟩

/-- What a call that moves everything has done: the device bytes from the masked offset and the
bytes of the buffer, tiled in the same order by chunks that one call can move. -/
structure MovedAll (buffer size devOffset : BitVec 64) (moved : List Transfer) : Prop where
  device : Tiling.Tiles (devOffset &&& deviceMemoryAddressMask)
    (moved.map fun t => (t.devOffset, t.bytes.toNat)) size.toNat
  buffer : Tiling.Tiles buffer (moved.map fun t => (t.buf, t.bytes.toNat)) size.toNat
  bytes_le : ∀ t ∈ moved, t.bytes.toNat ≤ 0x7ffff000

theorem movedAll_chunks (buffer size devOffset : BitVec 64) :
    MovedAll buffer size devOffset
      ((List.range (chunks size)).map (chunk buffer size devOffset)) := by
  have htiles := tiles_chunks buffer size devOffset (chunks size)
  rw [before_chunks (Nat.le_refl _)] at htiles
  refine ⟨htiles.1, htiles.2, fun t ht => ?_⟩
  obtain ⟨k, -, rfl⟩ := List.mem_map.mp ht
  rw [toNat_chunk_bytes]
  exact bytesOf_le k

/-- Whatever the operating system answers, the call returns.  It returns `size` iff each chunk
succeeds, and then it has moved all of them; else it returns a negative number. -/
def AllOrError (call : List Answers → Option Result) (buffer size devOffset : BitVec 64) : Prop :=
  ∀ answers : ℕ → Answers, ∃ r,
    (∃ n, ∀ m, n ≤ m → call ((List.range m).map answers) = some r) ∧
    (r.rc = size ↔ ∀ k < chunks size, Succeeds (chunk buffer size devOffset k) (answers k)) ∧
    (r.rc = size → MovedAll buffer size devOffset r.moved) ∧
    (r.rc ≠ size → r.rc.slt 0 = true)

/-- The answers up to the one of round `j`, and the others. -/
theorem range_map_eq (answers : ℕ → Answers) {j m : ℕ} (hjm : j + 1 ≤ m) :
    ∃ rest, (List.range m).map answers = (List.range j).map answers ++ answers j :: rest := by
  obtain ⟨n, rfl⟩ := Nat.exists_eq_add_of_le hjm
  refine ⟨(List.range n).map fun k => answers (j + (k + 1)), ?_⟩
  rw [Nat.add_assoc, Nat.add_comm 1 n, List.range_add, List.map_append, List.range_succ_eq_map,
    List.map_cons, List.map_cons, List.map_map, List.map_map]
  rfl

/-- The call up to round `j`. -/
theorem transfer_eq (io : Direction) {buffer size devOffset : BitVec 64}
    (hfit : (devOffset &&& deviceMemoryAddressMask).toNat + size.toNat < 2 ^ 63)
    {answers : ℕ → Answers} {j : ℕ} (hj : j < chunks size)
    (hok : ∀ k < j, Succeeds (chunk buffer size devOffset k) (answers k)) (rest : List Answers) :
    transfer io buffer size devOffset ((List.range j).map answers ++ rest) =
      loop io size (progress buffer size devOffset j) rest := by
  have hstart : (⟨0, buffer, devOffset &&& deviceMemoryAddressMask, []⟩ : Progress) =
      progress buffer size devOffset 0 := by
    simp [progress, before_zero]
  rw [transfer, hstart, loop_of_succeeds io answers hfit hj hok]

/-- Both functions are all or an error. -/
theorem transfer_allOrError (io : Direction) {buffer size devOffset : BitVec 64}
    (hfit : (devOffset &&& deviceMemoryAddressMask).toNat + size.toNat < 2 ^ 63) :
    AllOrError (transfer io buffer size devOffset) buffer size devOffset := by
  intro answers
  have hsize : ¬ size.slt 0 = true := not_slt_zero (by omega)
  have hpos : 0 < chunks size := Pieces.count_pos
  by_cases hall : ∀ k < chunks size, Succeeds (chunk buffer size devOffset k) (answers k)
  · -- the call ends with the last chunk
    refine ⟨⟨size, none, _⟩, ⟨chunks size, fun m hm => ?_⟩, ⟨fun _ => hall, fun _ => rfl⟩,
      fun _ => movedAll_chunks buffer size devOffset, fun h => absurd rfl h⟩
    obtain ⟨rest, hrest⟩ := range_map_eq answers (j := chunks size - 1) (m := m) (by omega)
    rw [hrest, transfer_eq io hfit (by omega) (fun k hk => hall k (by omega))]
    exact loop_last io hfit (by omega) (hall _ (by omega)) rest
  · -- the call ends with the first chunk that is not moved
    have hex : ∃ k, k < chunks size ∧ ¬ Succeeds (chunk buffer size devOffset k) (answers k) := by
      simpa using hall
    obtain ⟨hj, hno⟩ := Nat.find_spec hex
    have hok : ∀ k < Nat.find hex, Succeeds (chunk buffer size devOffset k) (answers k) := by
      intro k hk
      by_contra hfail
      exact Nat.find_min hex hk ⟨hk.trans hj, hfail⟩
    obtain ⟨r, hrc, hloop⟩ := loop_of_not_succeeds io hno
    have hneg : r.rc.slt 0 = true := by
      rw [hrc]
      decide
    have hne : r.rc ≠ size := fun heq => hsize (heq ▸ hneg)
    refine ⟨r, ⟨Nat.find hex + 1, fun m hm => ?_⟩, ⟨fun heq => absurd heq hne, fun h => ?_⟩,
      fun heq => absurd heq hne, fun _ => hneg⟩
    · obtain ⟨rest, hrest⟩ := range_map_eq answers hm
      rw [hrest, transfer_eq io hfit hj hok, hloop]
    · exact absurd h hall

/-- **Chunked device I/O is all or an error.** -/
theorem memoryApi_allOrError {buffer size devOffset : BitVec 64}
    (hfit : (devOffset &&& deviceMemoryAddressMask).toNat + size.toNat < 2 ^ 63) :
    AllOrError (readToBuffer buffer size devOffset) buffer size devOffset ∧
      AllOrError (writeFromBuffer buffer size devOffset) buffer size devOffset :=
  ⟨transfer_allOrError .read hfit, transfer_allOrError .write hfit⟩

/-- Five gigabytes in three chunks, from an offset that the mask cuts. -/
theorem memoryApi_allOrError_five :
    (0xa350000000001000 &&& deviceMemoryAddressMask).toNat + (5368709120 : BitVec 64).toNat <
        2 ^ 63 ∧
      AllOrError (readToBuffer 0x7f0000000000 5368709120 0xa350000000001000) 0x7f0000000000
        5368709120 0xa350000000001000 :=
  ⟨by decide, (memoryApi_allOrError (by decide)).1⟩

end MemoryApi
end RecoNIC
