import Mathlib.Data.BitVec
import Mathlib.Data.List.Basic
import Mathlib.Tactic.IntervalCases

/-!
# Compute control commands

The host describes a job in six words and writes them, one after the other, to the register
behind the command FIFO.  On the other side of the FIFO `parse_ctl_cmd` takes the first word
for the number of words and stores the others into an array of five.

* For the size of the driver the two agree, command after command (`parseCalls_issue`).
* The first word is believed.  The loop bound is that word minus two, without sign, so that
  `0` and `1` announce the longest commands of all.  The exact range of sizes that are safe
  is `safe_iff`.

A store outside the array leaves the modelled array as it is and is written down; what it
does to other variables is left open.
-/

namespace RecoNIC
namespace ControlCommand

/-! ## The host side: `control_api.c` -/

/-- `ctl_cmd_t`. -/
structure CtlCmd where
  ctlCmdSize : BitVec 32
  aBaseaddr : BitVec 32
  bBaseaddr : BitVec 32
  cBaseaddr : BitVec 32
  aRow : BitVec 16
  aCol : BitVec 16
  bCol : BitVec 16
  workId : BitVec 16
  deriving DecidableEq

/-- A write of one word to the device. -/
structure AxilWrite where
  addr : BitVec 64
  value : BitVec 32
  deriving DecidableEq

/-- `write32_data`. -/
def write32Data (pcieAxilBase offset : BitVec 64) (value : BitVec 32) : AxilWrite :=
  ⟨pcieAxilBase + offset, value⟩

/-- `gen_ctl_cmd`. -/
def genCtlCmd (aBaseaddr bBaseaddr cBaseaddr ctlCmdSize : BitVec 32)
    (aRow aCol bCol workId : BitVec 16) : CtlCmd :=
  ⟨ctlCmdSize, aBaseaddr, bBaseaddr, cBaseaddr, aRow, aCol, bCol, workId⟩

/-- The `ctl_cmd_size` of the programs that drive the accelerator. -/
def driverCmdSize : BitVec 32 := 6

/-- Two fields of 16 bits in one word. -/
def packed (high low : BitVec 16) : BitVec 32 :=
  ((high.setWidth 32 <<< 16) &&& 0xffff0000) ||| (low.setWidth 32 &&& 0x0000ffff)

/-- `issue_ctl_cmd`: the writes, the first one first. -/
def issueCtlCmd (axilBase : BitVec 64) (offset : BitVec 32) (c : CtlCmd) : List AxilWrite :=
  [c.ctlCmdSize, c.aBaseaddr, c.bBaseaddr, c.cBaseaddr, packed c.aRow c.aCol,
    packed c.bCol c.workId].map (write32Data axilBase (offset.setWidth 64))

/-! ## The device side: `cl_box.cpp` -/

/-- What `parse_ctl_cmd` hands to the kernel: seven variables of type `int`. -/
structure CtlArgs where
  aBaseaddr : BitVec 32
  bBaseaddr : BitVec 32
  cBaseaddr : BitVec 32
  aRow : BitVec 32
  aCol : BitVec 32
  bCol : BitVec 32
  workId : BitVec 32
  deriving DecidableEq

/-- `cmd_array`. -/
abbrev CmdArray := Fin 5 → BitVec 32

/-- `cmd_array[i] = w`. -/
def CmdArray.store (a : CmdArray) (i w : BitVec 32) : CmdArray :=
  if h : i.toNat < 5 then Function.update a ⟨i.toNat, h⟩ w else a

/-- Where a call stands when its stream has run dry, or when it has returned; `stored` are
the indices it has stored to. -/
inductive Outcome (α : Type) where
  | waiting (stored : List (BitVec 32))
  | returned (value : α) (stored : List (BitVec 32)) (rest : List (BitVec 32))
  deriving DecidableEq

/-- The indices that have been stored to. -/
def Outcome.stored {α : Type} : Outcome α → List (BitVec 32)
  | .waiting stored => stored
  | .returned _ stored _ => stored

/-- The loop of `parse_ctl_cmd`.  A read from an empty stream waits. -/
def parseLoop (cmdSize : BitVec 32) (cmdArray : CmdArray) (stored : List (BitVec 32))
    (cmdRecved : BitVec 32) : List (BitVec 32) → Outcome CmdArray
  | [] =>
    if cmdRecved ≤ cmdSize - 2 then .waiting stored else .returned cmdArray stored []
  | w :: ws =>
    if cmdRecved ≤ cmdSize - 2 then
      parseLoop cmdSize (cmdArray.store cmdRecved w) (stored ++ [cmdRecved]) (cmdRecved + 1) ws
    else .returned cmdArray stored (w :: ws)

/-- The variables `parse_ctl_cmd` sets from the array. -/
def ctlArgs (a : CmdArray) : CtlArgs where
  aBaseaddr := a 0
  bBaseaddr := a 1
  cBaseaddr := a 2
  aRow := a 3 >>> 16
  aCol := a 3 &&& 0x0000ffff
  bCol := a 4 >>> 16
  workId := a 4 &&& 0x0000ffff

/-- `parse_ctl_cmd`. -/
def parseCtlCmd : List (BitVec 32) → Outcome CtlArgs
  | [] => .waiting []
  | cmdSize :: ws =>
    match parseLoop cmdSize (fun _ => 0) [] 0 ws with
    | .waiting stored => .waiting stored
    | .returned a stored rest => .returned (ctlArgs a) stored rest

/-- Calls of `parse_ctl_cmd`, one after the other: what they hand over and what they leave
in the stream; `none` when one of them waits. -/
def parseCalls : Nat → List (BitVec 32) → Option (List CtlArgs × List (BitVec 32))
  | 0, ws => some ([], ws)
  | n + 1, ws =>
    match parseCtlCmd ws with
    | .waiting _ => none
    | .returned args _ rest => (parseCalls n rest).map fun r => (args :: r.1, r.2)

/-! ## The round trip -/

section RoundTrip

variable (high low : BitVec 16)

theorem packed_eq_append : packed high low = high ++ low := by
  refine BitVec.eq_of_getLsbD_eq fun i hi => ?_
  simp only [packed, BitVec.getLsbD_or, BitVec.getLsbD_and, BitVec.getLsbD_append,
    BitVec.getLsbD_shiftLeft, BitVec.getLsbD_setWidth]
  interval_cases i <;> simp

theorem packed_high : packed high low >>> 16 = high.setWidth 32 := by
  rw [packed_eq_append]
  refine BitVec.eq_of_getLsbD_eq fun i hi => ?_
  simp only [BitVec.getLsbD_ushiftRight, BitVec.getLsbD_append, BitVec.getLsbD_setWidth]
  simp
  omega

theorem packed_low : packed high low &&& 0x0000ffff = low.setWidth 32 := by
  rw [packed_eq_append]
  refine BitVec.eq_of_getLsbD_eq fun i hi => ?_
  simp only [BitVec.getLsbD_and, BitVec.getLsbD_append, BitVec.getLsbD_setWidth]
  interval_cases i <;> simp

end RoundTrip

/-- The fields of a command as the kernel gets them. -/
def CtlCmd.args (c : CtlCmd) : CtlArgs where
  aBaseaddr := c.aBaseaddr
  bBaseaddr := c.bBaseaddr
  cBaseaddr := c.cBaseaddr
  aRow := c.aRow.setWidth 32
  aCol := c.aCol.setWidth 32
  bCol := c.bCol.setWidth 32
  workId := c.workId.setWidth 32

/-- The words of a command in the stream of the device. -/
def CtlCmd.words (c : CtlCmd) : List (BitVec 32) :=
  [c.ctlCmdSize, c.aBaseaddr, c.bBaseaddr, c.cBaseaddr, packed c.aRow c.aCol,
    packed c.bCol c.workId]

theorem issue_words (axilBase : BitVec 64) (offset : BitVec 32) (c : CtlCmd) :
    (issueCtlCmd axilBase offset c).map AxilWrite.value = c.words := rfl

/-- What the kernel gets from five stores. -/
theorem parse_five (w₀ w₁ w₂ w₃ w₄ : BitVec 32) (rest : List (BitVec 32)) :
    parseCtlCmd (6 :: w₀ :: w₁ :: w₂ :: w₃ :: w₄ :: rest) =
      .returned ⟨w₀, w₁, w₂, w₃ >>> 16, w₃ &&& 0x0000ffff, w₄ >>> 16, w₄ &&& 0x0000ffff⟩
        [0, 1, 2, 3, 4] rest := by
  cases rest <;> rfl

/-- One call undoes one command. -/
theorem parse_words {c : CtlCmd} (hsize : c.ctlCmdSize = driverCmdSize)
    (rest : List (BitVec 32)) :
    parseCtlCmd (c.words ++ rest) = .returned c.args [0, 1, 2, 3, 4] rest := by
  have hfive := parse_five c.aBaseaddr c.bBaseaddr c.cBaseaddr (packed c.aRow c.aCol)
    (packed c.bCol c.workId) rest
  rw [packed_high, packed_low, packed_high, packed_low] at hfive
  rw [CtlCmd.words, hsize]
  exact hfive

theorem parseCalls_words {cmds : List CtlCmd} (rest : List (BitVec 32))
    (hsize : ∀ c ∈ cmds, c.ctlCmdSize = driverCmdSize) :
    parseCalls cmds.length (cmds.flatMap CtlCmd.words ++ rest) =
      some (cmds.map CtlCmd.args, rest) := by
  induction cmds with
  | nil => rfl
  | cons c cmds ih =>
    obtain ⟨hc, hcmds⟩ := List.forall_mem_cons.mp hsize
    rw [List.flatMap_cons, List.append_assoc, List.length_cons, parseCalls, parse_words hc]
    show (parseCalls cmds.length _).map _ = _
    rw [ih hcmds]
    rfl

/-- **Command round trip.**  As many calls of `parse_ctl_cmd` as commands have been issued
recover each field of each command in order, and leave nothing in the stream. -/
theorem parseCalls_issue (axilBase : BitVec 64) (offset : BitVec 32) (cmds : List CtlCmd)
    (hsize : ∀ c ∈ cmds, c.ctlCmdSize = driverCmdSize) :
    parseCalls cmds.length
        ((cmds.flatMap (issueCtlCmd axilBase offset)).map AxilWrite.value) =
      some (cmds.map CtlCmd.args, []) := by
  rw [List.map_flatMap]
  simp only [issue_words]
  have hcalls := parseCalls_words [] hsize
  rwa [List.append_nil] at hcalls

/-- Two commands, one with the largest fields there are. -/
theorem parseCalls_issue_two :
    parseCalls 2 (([genCtlCmd 0x1000 0x2000 0x3000 driverCmdSize 16 8 4 0xdd,
        genCtlCmd 0 0xffffffff 1 driverCmdSize 0xffff 0 0x8000 0xffff].flatMap
          (issueCtlCmd 0 0x3000)).map AxilWrite.value) =
      some ([⟨0x1000, 0x2000, 0x3000, 16, 8, 4, 0xdd⟩,
        ⟨0, 0xffffffff, 1, 0xffff, 0, 0x8000, 0xffff⟩], []) :=
  parseCalls_issue 0 0x3000
    [genCtlCmd 0x1000 0x2000 0x3000 driverCmdSize 16 8 4 0xdd,
      genCtlCmd 0 0xffffffff 1 driverCmdSize 0xffff 0 0x8000 0xffff]
    (by decide)

/-! ## Sizes that are safe -/

/-- No stream makes the call store outside the array, the loop ends when the stream is long
enough, and a call that returns has consumed as many words as the first one says. -/
structure Safe (cmdSize : BitVec 32) : Prop where
  inside : ∀ ws, ∀ i ∈ (parseCtlCmd (cmdSize :: ws)).stored, i.toNat < 5
  ends : ∃ n, ∀ ws : List (BitVec 32), n ≤ ws.length →
    ∃ args stored rest, parseCtlCmd (cmdSize :: ws) = .returned args stored rest
  consumes : ∀ ws args stored rest, parseCtlCmd (cmdSize :: ws) = .returned args stored rest →
    ∃ taken, cmdSize :: ws = taken ++ rest ∧ taken.length = cmdSize.toNat

section Loop

variable {cmdSize recved : BitVec 32} {a : CmdArray} {stored ws : List (BitVec 32)}

theorem parseLoop_of_le (h : recved ≤ cmdSize - 2) (w : BitVec 32) :
    parseLoop cmdSize a stored recved (w :: ws) =
      parseLoop cmdSize (a.store recved w) (stored ++ [recved]) (recved + 1) ws := by
  rw [parseLoop, if_pos h]

theorem parseLoop_of_lt (h : ¬ recved ≤ cmdSize - 2) :
    parseLoop cmdSize a stored recved ws = .returned a stored ws := by
  cases ws <;> rw [parseLoop, if_neg h]

/-- Every store is made under the condition of the loop. -/
theorem stored_parseLoop {i : BitVec 32}
    (h : i ∈ (parseLoop cmdSize a stored recved ws).stored) :
    i ∈ stored ∨ i ≤ cmdSize - 2 := by
  induction ws generalizing a stored recved with
  | nil =>
    rw [parseLoop] at h
    split at h <;> exact Or.inl h
  | cons w ws ih =>
    by_cases hle : recved ≤ cmdSize - 2
    · rw [parseLoop_of_le hle] at h
      rcases ih h with hmem | hi
      · rcases List.mem_append.mp hmem with hold | hnew
        · exact Or.inl hold
        · rw [List.mem_singleton] at hnew
          exact Or.inr (hnew ▸ hle)
      · exact Or.inr hi
    · rw [parseLoop_of_lt hle] at h
      exact Or.inl h

/-- The loop takes the words it waits for. -/
theorem parseLoop_append (a : CmdArray) (stored : List (BitVec 32)) (recved : BitVec 32)
    (ws rest : List (BitVec 32))
    (hlen : recved.toNat + ws.length ≤ (cmdSize - 2).toNat + 1) (hone : cmdSize ≠ 1) :
    ∃ a' stored', parseLoop cmdSize a stored recved (ws ++ rest) =
      parseLoop cmdSize a' stored' (recved + BitVec.ofNat 32 ws.length) rest := by
  induction ws generalizing a stored recved with
  | nil => exact ⟨a, stored, by simp⟩
  | cons w ws ih =>
    rw [List.length_cons] at hlen
    have hnext : (recved + 1).toNat = recved.toNat + 1 := by bv_omega
    obtain ⟨a', stored', heq⟩ :=
      ih (a.store recved w) (stored ++ [recved]) (recved + 1) (by omega)
    refine ⟨a', stored', ?_⟩
    rw [List.cons_append, parseLoop_of_le (by bv_omega), heq, List.length_cons,
      Nat.add_comm ws.length 1, BitVec.ofNat_add, BitVec.add_assoc]
    rfl

end Loop

section Sizes

variable {cmdSize : BitVec 32} {ws rest : List (BitVec 32)}

theorem stored_parseCtlCmd (cmdSize : BitVec 32) (ws : List (BitVec 32)) :
    (parseCtlCmd (cmdSize :: ws)).stored =
      (parseLoop cmdSize (fun _ => 0) [] 0 ws).stored := by
  rw [parseCtlCmd]
  cases parseLoop cmdSize (fun _ => 0) [] 0 ws <;> rfl

/-- The number of words the loop reads is the first word minus one, modulo `2 ^ 32`. -/
theorem parse_returned (hone : cmdSize ≠ 1) (hlen : ws.length = (cmdSize - 2).toNat + 1) :
    ∃ args stored, parseCtlCmd (cmdSize :: (ws ++ rest)) = .returned args stored rest := by
  obtain ⟨a, stored, heq⟩ := parseLoop_append (fun _ => 0) [] 0 ws rest (by simp [hlen]) hone
  have hend : ¬ (0 : BitVec 32) + BitVec.ofNat 32 ws.length ≤ cmdSize - 2 := by
    rw [hlen]
    bv_omega
  refine ⟨ctlArgs a, stored, ?_⟩
  rw [parseCtlCmd, heq, parseLoop_of_lt hend]

/-- With so many words, or more, it returns. -/
theorem parse_returned_of_lt (hone : cmdSize ≠ 1) (hlen : (cmdSize - 2).toNat < ws.length) :
    ∃ args stored, parseCtlCmd (cmdSize :: ws) =
      .returned args stored (ws.drop ((cmdSize - 2).toNat + 1)) := by
  have htake : (ws.take ((cmdSize - 2).toNat + 1)).length = (cmdSize - 2).toNat + 1 := by
    rw [List.length_take]
    omega
  obtain ⟨args, stored, heq⟩ := parse_returned hone htake
  rw [List.take_append_drop] at heq
  exact ⟨args, stored, heq⟩

/-- With fewer words than that it waits. -/
theorem parse_waiting (hone : cmdSize ≠ 1) (hlen : ws.length ≤ (cmdSize - 2).toNat) :
    ∃ stored, parseCtlCmd (cmdSize :: ws) = .waiting stored := by
  obtain ⟨a, stored, heq⟩ := parseLoop_append (fun _ => 0) [] 0 ws []
    (by show 0 + ws.length ≤ _; omega) hone
  have hmore : (0 : BitVec 32) + BitVec.ofNat 32 ws.length ≤ cmdSize - 2 := by
    have hlt := (cmdSize - 2).isLt
    have hcount : ((0 : BitVec 32) + BitVec.ofNat 32 ws.length).toNat = ws.length := by
      simp only [BitVec.ofNat_eq_ofNat, BitVec.toNat_add, BitVec.toNat_ofNat]
      omega
    rw [BitVec.le_def, hcount]
    exact hlen
  rw [List.append_nil] at heq
  exact ⟨stored, by rw [parseCtlCmd, heq, parseLoop, if_pos hmore]⟩

/-- Above six, and at zero and one, the sixth store is outside the array. -/
theorem five_mem_stored (h : 5 ≤ cmdSize - 2) :
    5 ∈ (parseCtlCmd [cmdSize, 0, 0, 0, 0, 0, 0]).stored := by
  have hle (i : BitVec 32) (hi : i ≤ 5) : i ≤ cmdSize - 2 := BitVec.le_trans hi h
  rw [stored_parseCtlCmd, parseLoop_of_le (hle 0 (by decide)),
    parseLoop_of_le (hle (0 + 1) (by decide)), parseLoop_of_le (hle (0 + 1 + 1) (by decide)),
    parseLoop_of_le (hle (0 + 1 + 1 + 1) (by decide)),
    parseLoop_of_le (hle (0 + 1 + 1 + 1 + 1) (by decide)),
    parseLoop_of_le (hle (0 + 1 + 1 + 1 + 1 + 1) (by decide)), parseLoop]
  split <;> simp [Outcome.stored]

theorem safe_of_range (hlow : 2 ≤ cmdSize) (hhigh : cmdSize ≤ 6) : Safe cmdSize := by
  have hone : cmdSize ≠ 1 := by bv_omega
  have hwords : (cmdSize - 2).toNat + 1 + 1 = cmdSize.toNat := by bv_omega
  refine ⟨?_, ⟨(cmdSize - 2).toNat + 1, ?_⟩, ?_⟩
  · intro ws i hi
    rw [stored_parseCtlCmd] at hi
    rcases stored_parseLoop hi with hmem | hle
    · cases hmem
    · bv_omega
  · intro ws hlen
    obtain ⟨args, stored, heq⟩ := parse_returned_of_lt hone hlen
    exact ⟨args, stored, _, heq⟩
  · intro ws args stored rest hret
    rcases Nat.lt_or_ge (cmdSize - 2).toNat ws.length with hlen | hlen
    · obtain ⟨args', stored', heq⟩ := parse_returned_of_lt hone hlen
      rw [hret] at heq
      cases heq
      refine ⟨cmdSize :: ws.take ((cmdSize - 2).toNat + 1), ?_, ?_⟩
      · rw [List.cons_append, List.take_append_drop]
      · rw [List.length_cons, List.length_take]
        omega
    · obtain ⟨stored', heq⟩ := parse_waiting hone hlen
      rw [hret] at heq
      cases heq

/-- **The sizes that are safe.**  `parse_ctl_cmd` keeps inside its array, ends, and consumes
what the first word announces iff that word is between two and six. -/
theorem safe_iff (cmdSize : BitVec 32) : Safe cmdSize ↔ 2 ≤ cmdSize ∧ cmdSize ≤ 6 := by
  constructor
  · intro hsafe
    by_contra hrange
    have hbound : 5 ≤ cmdSize - 2 := by
      by_cases hlow : 2 ≤ cmdSize
      · have hhigh : ¬ cmdSize ≤ 6 := fun h => hrange ⟨hlow, h⟩
        bv_omega
      · bv_omega
    have hfive := hsafe.inside _ _ (five_mem_stored hbound)
    exact absurd hfive (by decide)
  · rintro ⟨hlow, hhigh⟩
    exact safe_of_range hlow hhigh

/-- A first word of zero announces nothing, and six words behind it are enough for a store
outside the array. -/
theorem zero_not_safe : ¬ Safe 0 := by
  intro hsafe
  have hstore := hsafe.inside [0, 0, 0, 0, 0, 0] 5 (by decide)
  exact absurd hstore (by decide)

/-- The loop ends for each size but one. -/
theorem ends_iff (cmdSize : BitVec 32) :
    (∃ n, ∀ ws : List (BitVec 32), n ≤ ws.length →
      ∃ args stored rest, parseCtlCmd (cmdSize :: ws) = .returned args stored rest) ↔
      cmdSize ≠ 1 := by
  constructor
  · rintro ⟨n, hends⟩ rfl
    have hwait (k : Nat) (a : CmdArray) (stored : List (BitVec 32)) (recved : BitVec 32) :
        ∃ stored', parseLoop 1 a stored recved (List.replicate k 0) = .waiting stored' := by
      induction k generalizing a stored recved with
      | zero => exact ⟨stored, by rw [List.replicate_zero, parseLoop, if_pos (by bv_omega)]⟩
      | succ k ih =>
        rw [List.replicate_succ, parseLoop_of_le (by bv_omega)]
        exact ih _ _ _
    obtain ⟨args, stored, rest, hret⟩ := hends (List.replicate n 0) (by simp)
    obtain ⟨stored', hstuck⟩ := hwait n (fun _ => 0) [] 0
    rw [parseCtlCmd, hstuck] at hret
    cases hret
  · intro hone
    refine ⟨(cmdSize - 2).toNat + 1, fun ws hlen => ?_⟩
    obtain ⟨args, stored, heq⟩ := parse_returned_of_lt hone hlen
    exact ⟨args, stored, _, heq⟩

end Sizes

end ControlCommand
end RecoNIC
