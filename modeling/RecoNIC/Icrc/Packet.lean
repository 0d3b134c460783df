import RecoNIC.Icrc.Undisturbed
import RecoNIC.Arithmetic.ByteLanes

/-!
# The ICRC of a packet

`frames` says what a packet becomes word by word.  Here it is said in bytes: a packet leaves
as its bytes and four more, the complement of the CRC over its bytes with the fields of the
first word masked.  Bits are taken the lowest first, as the reflected CRC wants them.

Where the four bytes are depends on the last word.  `bytes_lastWords` is the one place that
looks at it.
-/

namespace RecoNIC
namespace Icrc

open Synchronous

/-! ## Bytes and bits -/

/-- The bytes of a word that are kept. -/
def Word.bytes (b : Word) : List (BitVec 8) :=
  ((List.range 64).filter fun k => b.keep.getLsbD k).map fun k => b.data.extractLsb' (8 * k) 8

/-- The bytes of a list of words. -/
def bytes (bs : List Word) : List (BitVec 8) := bs.flatMap Word.bytes

/-- The bits of a list of bytes, of each byte the lowest first. -/
def bits (l : List (BitVec 8)) : List Bool := l.flatMap dataBits

/-- The first word with the mask over it. -/
def maskFirst : List Word → List Word
  | [] => []
  | b :: bs => { b with data := b.data ||| bitmask } :: bs

/-- The ICRC of a packet, bit after bit. -/
def icrcOf (p : List Word) : BitVec 32 :=
  ~~~Crc.run polynomial crcSeed (bits (bytes (maskFirst p)))

example : polynomial = (0x04C11DB7#32).reverse := by decide +kernel

/-- A packet: every word but the last is full, and the last has one to sixteen times four
bytes. -/
structure Packet where
  body : List Word
  final : Word
  body_full : ∀ b ∈ body, b.keep = ones 16 ∧ b.last = false
  final_keep : ∃ n, 1 ≤ n ∧ n ≤ 16 ∧ final.keep = ones n
  final_last : final.last = true

/-- The words of a packet. -/
def Packet.words (p : Packet) : List Word := p.body ++ [p.final]

/-- What is to leave for a packet: its bytes and then its ICRC, in words whose bytes are
contiguous, and the last one is marked. -/
structure Framed (p : Packet) (sent : List Word) : Prop where
  bytes : bytes sent = Icrc.bytes p.words ++ ByteLanes.wordBytes (icrcOf p.words)
  formed : ∀ b ∈ sent, Formed b
  last : ∃ bs b, sent = bs ++ [b] ∧ b.last = true ∧ ∀ a ∈ bs, a.last = false

theorem filter_ones : ∀ n ≤ 16,
    ((List.range 64).filter fun k => (ones n).getLsbD k) = List.range (4 * n) := by
  decide +kernel

theorem Word.bytes_eq {b : Word} {n : Nat} (h16 : n ≤ 16) (hkeep : b.keep = ones n) :
    b.bytes = (List.range (4 * n)).map fun k => b.data.extractLsb' (8 * k) 8 := by
  rw [Word.bytes, hkeep, filter_ones n h16]

theorem bytes_append (bs bs' : List Word) : bytes (bs ++ bs') = bytes bs ++ bytes bs' :=
  List.flatMap_append

theorem bits_append (l l' : List (BitVec 8)) : bits (l ++ l') = bits l ++ bits l' :=
  List.flatMap_append

/-- Bytes that follow each other. -/
theorem bits_bytes (d : BitVec 512) (m : Nat) :
    bits ((List.range m).map fun k => d.extractLsb' (8 * k) 8) =
      (List.range (8 * m)).map fun k => d.getLsbD k := by
  induction m with
  | zero => rfl
  | succ m ih =>
    have hbyte : bits [d.extractLsb' (8 * m) 8] =
        (List.range 8).map fun k => d.getLsbD (8 * m + k) := by
      rw [bits, List.flatMap_cons, List.flatMap_nil, List.append_nil]
      refine List.map_congr_left fun k hk => ?_
      rw [BitVec.getLsbD_extractLsb', decide_eq_true (List.mem_range.mp hk), Bool.true_and]
    rw [List.range_succ, List.map_append, bits_append, ih, List.map_singleton, hbyte,
      Nat.mul_succ, List.range_add, List.map_append, List.map_map]
    rfl

/-- The bits of a word. -/
theorem bits_word {b : Word} {n : Nat} (h16 : n ≤ 16) (hkeep : b.keep = ones n) :
    bits b.bytes = (dataBits b.data).take (32 * n) := by
  rw [b.bytes_eq h16 hkeep, bits_bytes, take_dataBits _ (by omega), ← Nat.mul_assoc]

/-! ## The CRC of a packet -/

namespace Context

variable (x : Context)

/-- The words for the CRC. -/
def maskedWords (bs : List Word) : List Word := if x.first then maskFirst bs else bs

theorem maskedWords_cons (b : Word) (bs : List Word) :
    x.maskedWords (b :: bs) = { b with data := x.masked b } :: bs := by
  unfold maskedWords masked maskFirst
  cases x.first <;> rfl

/-- The CRC behind one word. -/
theorem crcAfter_eq_run {b : Word} (hkeep : ∃ n, 1 ≤ n ∧ n ≤ 16 ∧ b.keep = ones n) :
    x.crcAfter b =
      Crc.run polynomial x.crc (bits ({ b with data := x.masked b } : Word).bytes) := by
  obtain ⟨n, h1, h16, hn⟩ := hkeep
  have hbits := bits_word (b := { b with data := x.masked b }) h16 hn
  rw [hbits, crcAfter, hn, width_ones h1 h16]

/-- The CRC behind a packet. -/
theorem crcAfter_body {body : List Word} {b : Word}
    (hbody : ∀ a ∈ body, a.keep = ones 16 ∧ a.last = false)
    (hkeep : ∃ n, 1 ≤ n ∧ n ≤ 16 ∧ b.keep = ones n) :
    (x.after body).crcAfter b =
      Crc.run polynomial x.crc (bits (bytes (x.maskedWords (body ++ [b])))) := by
  induction body generalizing x with
  | nil =>
    rw [List.nil_append, maskedWords_cons, bytes, List.flatMap_cons, List.flatMap_nil,
      List.append_nil, ← x.crcAfter_eq_run hkeep]
    rfl
  | cons a body ih =>
    obtain ⟨hfull, hlast⟩ := hbody a List.mem_cons_self
    have hnext : x.next a = ⟨x.crcAfter a, false⟩ := by
      rw [next, hlast, if_neg Bool.false_ne_true]
    have hrest : (x.next a).maskedWords (body ++ [b]) = body ++ [b] := by
      rw [hnext]
      rfl
    have hcrc := ih (x.next a) fun a ha => hbody a (List.mem_cons_of_mem _ ha)
    rw [hrest, hnext] at hcrc
    have hstep := x.crcAfter_eq_run (b := a) ⟨16, by decide, by decide, hfull⟩
    change ((x.next a).after body).crcAfter b = _
    rw [hnext, hcrc, hstep, List.cons_append, maskedWords_cons, bytes, bytes, List.flatMap_cons,
      bits_append, Crc.run_append]

end Context

/-! ## The last word -/

theorem getLsbD_insertCrc (n : Nat) (d : BitVec 512) (c : BitVec 32) {k : Nat} (hk : k < 512) :
    (State.insertCrc n d c).getLsbD k =
      if k < 32 * n then d.getLsbD k else c.getLsbD (k - 32 * n) := by
  rw [State.insertCrc, BitVec.getLsbD_or, BitVec.getLsbD_and, BitVec.getLsbD_ofNat,
    BitVec.getLsbD_shiftLeft, BitVec.getLsbD_setWidth, Nat.testBit_two_pow_sub_one,
    decide_eq_true hk]
  by_cases hlow : k < 32 * n
  · simp [hlow]
  · have hlt : k - 32 * n < 512 := by omega
    simp [hlow, hlt]

/-- The bytes in front of the CRC. -/
theorem extract_insertCrc_low {n k : Nat} (h16 : n ≤ 16) (d : BitVec 512) (c : BitVec 32)
    (hk : k < 4 * n) :
    (State.insertCrc n d c).extractLsb' (8 * k) 8 = d.extractLsb' (8 * k) 8 := by
  refine BitVec.eq_of_getLsbD_eq fun i hi => ?_
  rw [BitVec.getLsbD_extractLsb', BitVec.getLsbD_extractLsb', getLsbD_insertCrc _ _ _ (by omega),
    if_pos (by omega)]

/-- The bytes of the CRC. -/
theorem extract_insertCrc_high {n k : Nat} (h15 : n ≤ 15) (d : BitVec 512) (c : BitVec 32)
    (hk : k < 4) :
    (State.insertCrc n d c).extractLsb' (8 * (4 * n + k)) 8 = c.extractLsb' (8 * k) 8 := by
  refine BitVec.eq_of_getLsbD_eq fun i hi => ?_
  have hsub : 8 * (4 * n + k) + i - 32 * n = 8 * k + i := by omega
  rw [BitVec.getLsbD_extractLsb', BitVec.getLsbD_extractLsb', getLsbD_insertCrc _ _ _ (by omega),
    if_neg (by omega), hsub]

/-- The four bytes of a CRC. -/
theorem wordBytes_eq_map (c : BitVec 32) :
    ByteLanes.wordBytes c = (List.range 4).map fun k => c.extractLsb' (8 * k) 8 := rfl

/-- **The CRC behind the last word**, in the word itself or in one of its own. -/
theorem bytes_lastWords {b : Word} (c : BitVec 32)
    (hkeep : ∃ n, 1 ≤ n ∧ n ≤ 16 ∧ b.keep = ones n) :
    bytes (lastWords b c) = b.bytes ++ ByteLanes.wordBytes c := by
  obtain ⟨n, h1, h16, hn⟩ := hkeep
  rcases Nat.lt_or_eq_of_le h16 with hlt | rfl
  · have hwords : lastWords b c = [⟨State.insertCrc n b.data c, ones (n + 1), true⟩] := by
      rw [lastWords, hn, lanesOf_ones n (by simp; omega)]
    rw [hwords, bytes, List.flatMap_cons, List.flatMap_nil, List.append_nil,
      Word.bytes_eq (n := n + 1) hlt rfl, b.bytes_eq h16 hn, wordBytes_eq_map, Nat.mul_succ,
      List.range_add, List.map_append, List.map_map]
    refine congrArg₂ (· ++ ·) (List.map_congr_left fun k hk => ?_)
      (List.map_congr_left fun k hk => ?_)
    · exact extract_insertCrc_low h16 _ _ (List.mem_range.mp hk)
    · exact extract_insertCrc_high (by omega) _ _ (List.mem_range.mp hk)
  · have hwords : lastWords b c = [⟨b.data, b.keep, false⟩, ⟨c.setWidth 512, 0xf#64, true⟩] := by
      rw [lastWords, hn, lanesOf_ones_full]
    have hextra : (⟨c.setWidth 512, 0xf#64, true⟩ : Word).bytes = ByteLanes.wordBytes c := by
      rw [Word.bytes_eq (n := 1) (by decide) rfl, wordBytes_eq_map]
      refine List.map_congr_left fun k hk => ?_
      have hlt : k < 4 := List.mem_range.mp hk
      change (c.setWidth 512).extractLsb' (8 * k) 8 = _
      rw [BitVec.extractLsb'_setWidth_of_le (by omega)]
    rw [hwords, bytes, List.flatMap_cons, List.flatMap_cons, List.flatMap_nil, List.append_nil,
      hextra]
    rfl

theorem lastWords_formed {b : Word} (c : BitVec 32)
    (hkeep : ∃ n, 1 ≤ n ∧ n ≤ 16 ∧ b.keep = ones n) :
    (∀ a ∈ lastWords b c, Formed a) ∧
      ∃ bs a, lastWords b c = bs ++ [a] ∧ a.last = true ∧ ∀ a ∈ bs, a.last = false := by
  obtain ⟨n, h1, h16, hn⟩ := hkeep
  rcases Nat.lt_or_eq_of_le h16 with hlt | rfl
  · rw [lastWords, hn, lanesOf_ones n (by simp; omega)]
    refine ⟨fun a ha => ?_, [], _, rfl, rfl, fun a ha => absurd ha List.not_mem_nil⟩
    rw [List.mem_singleton.mp ha]
    exact ⟨⟨n + 1, Nat.le_add_left 1 n, hlt, rfl⟩, fun h => absurd h.symm Bool.false_ne_true⟩
  · rw [lastWords, hn, lanesOf_ones_full]
    refine ⟨fun a ha => ?_, [⟨b.data, ones 16, false⟩], _, rfl, rfl, fun a ha => ?_⟩
    · rcases List.mem_cons.mp ha with rfl | ha
      · exact ⟨⟨16, by decide, by decide, rfl⟩, fun _ => rfl⟩
      · rw [List.mem_singleton.mp ha]
        exact ⟨⟨1, by decide, by decide, rfl⟩, fun h => absurd h.symm Bool.false_ne_true⟩
    · rw [List.mem_singleton.mp ha]

/-! ## The packet -/

theorem frames_body {body : List Word} (x : Context) (h : ∀ b ∈ body, b.last = false) :
    frames x body = body := by
  induction body generalizing x with
  | nil => rfl
  | cons b body ih =>
    have hb := h b List.mem_cons_self
    rw [frames, Context.words, hb, if_neg Bool.false_ne_true,
      ih (x.next b) fun a ha => h a (List.mem_cons_of_mem _ ha)]
    rfl

/-- What a packet becomes has its bytes and its ICRC. -/
theorem framed_frames (p : Packet) : Framed p (frames .start p.words) := by
  have hnot : ∀ b ∈ p.body, b.last = false := fun b hb => (p.body_full b hb).2
  have hcrc := Context.start.crcAfter_body p.body_full p.final_keep
  have hframes : frames .start p.words = p.body ++ lastWords p.final (icrcOf p.words) := by
    rw [Packet.words, frames_append, frames_body _ hnot, frames, frames, List.append_nil,
      Context.words, p.final_last, if_pos rfl, hcrc]
    rfl
  obtain ⟨hformed, bs, b, hsplit, hlast, hrest⟩ :=
    lastWords_formed (icrcOf p.words) p.final_keep
  rw [hframes]
  refine ⟨?_, fun a ha => ?_, p.body ++ bs, b, ?_, hlast, fun a ha => ?_⟩
  · rw [bytes_append, bytes_lastWords _ p.final_keep, Packet.words, bytes_append,
      List.append_assoc]
    simp [bytes]
  · rcases List.mem_append.mp ha with ha | ha
    · obtain ⟨hfull, -⟩ := p.body_full a ha
      exact ⟨⟨16, by decide, by decide, hfull⟩, fun _ => hfull⟩
    · exact hformed a ha
  · rw [hsplit, List.append_assoc]
  · rcases List.mem_append.mp ha with ha | ha
    · exact hnot a ha
    · exact hrest a ha

theorem Packet.onePacket (p : Packet) : OnePacket p.words := by
  intro b hb
  rw [Packet.words, List.dropLast_concat] at hb
  exact (p.body_full b hb).2

theorem Packet.formed (p : Packet) : ∀ b ∈ p.words, Formed b := by
  intro b hb
  rcases List.mem_append.mp hb with hb | hb
  · obtain ⟨hfull, -⟩ := p.body_full b hb
    exact ⟨⟨16, by decide, by decide, hfull⟩, fun _ => hfull⟩
  · rw [List.mem_singleton.mp hb]
    exact ⟨p.final_keep, fun h => absurd (h.symm.trans p.final_last) Bool.false_ne_true⟩

/-- **The ICRC of one packet is right.**  A packet that enters an idle pipeline, with any
gaps between its words, leaves as its bytes and its ICRC. -/
theorem framed_of_idle (s : State) (p : Packet) (is : List Input) (hs : Idle s)
    (hcoming : coming is = p.words) (hready : ∀ i ∈ is, i.txReady = true) :
    Framed p (icrc.runFrom (s, .empty) (is ++ settle)).2.sent := by
  have hsent := hs.sent_alone is
  rw [hcoming] at hsent
  rw [hsent p.onePacket p.formed hready]
  exact framed_frames p

/-- A packet of 64 and 40 bytes. -/
def twoWords : Packet where
  body := [⟨0, ones 16, false⟩]
  final := oneWord
  body_full := by decide
  final_keep := ⟨10, by decide, by decide, rfl⟩
  final_last := rfl

/-- It comes with a gap between its two words. -/
theorem framed_twoWords :
    Framed twoWords
      (icrc.runFrom (State.reset, .empty)
        ([offer ⟨0, ones 16, false⟩, idle true, offer oneWord] ++ settle)).2.sent :=
  framed_of_idle _ twoWords _ idle_reset rfl (by decide)

end Icrc
end RecoNIC
