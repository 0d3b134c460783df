import RecoNIC.Icrc.BufferFifo
import RecoNIC.Icrc.Tables
import RecoNIC.Synchronous.Machine

/-!
# The ICRC pipeline

`icrc.sv`.  A word that is accepted is masked and then goes into one of three paths: 512
bits in one cycle, 320 bits in one cycle, or 32 bits in each of up to sixteen stages, with a
way out once the word has no more bits.  The paths join, the CRC is put behind the data of
the last word, and the words go into the output buffer.  A last word that is full needs an
extra word for its CRC, and `switch_output` sends that one to the buffer in place of what
stands in the pipeline.

Of several assignments to a register in one cycle the last one counts, here as in the
source.
-/

namespace RecoNIC
namespace Icrc

open Synchronous

/-! ## Registers -/

/-- What a stage holds: the data, the CRC, and what came with the data. -/
structure Stage where
  valid : Bool
  data : BitVec 512
  crc : BitVec 32
  keep : BitVec 64
  last : Bool

/-- Nothing. -/
def Stage.zero : Stage := ⟨false, 0, 0, 0, false⟩

/-- A stage of the 32-bit path also holds the masked data. -/
structure Crc32Stage extends Stage where
  maskedData : BitVec 512

/-- Nothing. -/
def Crc32Stage.zero : Crc32Stage := ⟨.zero, 0⟩

/-- The masking stage. -/
structure Masking where
  valid : Bool
  data : BitVec 512
  maskedData : BitVec 512
  keep : BitVec 64
  last : Bool

/-- The registers of `icrc` and of its buffer. -/
structure State where
  masking : Masking
  crcFollowUpWord : Bool
  crc32 : Fin 16 → Crc32Stage
  crc32EarlyDone : Bool
  crc32CounterWord : Fin 16
  crc512 : Stage
  crc320 : Stage
  join : Stage
  reinsertion : Stage
  addWord : Stage
  stallPipeline : Bool
  crc32InFlight : Bool
  switchOutput : Bool
  bf : BufferFifo
  /-- `m_axis_tx.tvalid`. -/
  txValid : Bool

/-- The inputs of one cycle: `m_axis_rx`, and `m_axis_tx.tready`. -/
structure Input where
  tvalid : Bool
  beat : Word
  txReady : Bool

/-- The fields that do not count for the CRC. -/
def bitmask : BitVec 512 :=
  0x0000000000000000000000ff00000000ffff0000000000000000000000000000ffff00ff000000000000ff00

/-- The CRC of the header that is imagined before the packet. -/
def crcSeed : BitVec 32 := 0xdebb20e3

/-- The `keep` of `n` times 32 bits. -/
def ones (n : Nat) : BitVec 64 := BitVec.ofNat 64 (2 ^ (4 * n) - 1)

/-- The 32 bits of a word that stage `n` sees. -/
def lane (n : Nat) (data : BitVec 512) : BitVec 32 := (data >>> (32 * n)).setWidth 32

/-- The four bits of `keep` that stage `n` sees. -/
def keepStage (n : Nat) (keep : BitVec 64) : BitVec 4 := (keep >>> (4 * n)).setWidth 4

namespace State

/-- After reset. -/
def reset : State where
  masking := ⟨false, 0, 0, 0, false⟩
  crcFollowUpWord := false
  crc32 := fun _ => .zero
  crc32EarlyDone := false
  crc32CounterWord := 0
  crc512 := .zero
  crc320 := .zero
  join := .zero
  reinsertion := .zero
  addWord := .zero
  stallPipeline := false
  crc32InFlight := false
  switchOutput := false
  bf := .reset
  txValid := false

variable (s : State) (i : Input)

/-- `m_axis_rx.tready`. -/
def rxReady : Bool := !s.bf.halffull && !s.crc32InFlight

/-! ## Stage 1: masking -/

/-- `stage_masking`. -/
def nextMasking : Masking :=
  if s.rxReady then
    { valid := i.tvalid
      data := i.beat.data
      maskedData :=
        if i.tvalid then if s.crcFollowUpWord then i.beat.data else i.beat.data ||| bitmask
        else s.masking.maskedData
      keep := i.beat.keep
      last := i.beat.last }
  else s.masking

/-! ## Stage 2: the first step of the CRC -/

/-- `d`. -/
def d : BitVec 512 := if s.crcFollowUpWord then s.masking.data else s.masking.maskedData

/-- `c`. -/
def c : BitVec 32 := if s.crcFollowUpWord then s.crc512.crc else crcSeed

/-- The masking stage holds a word for the 512-bit path. -/
def to512 : Bool := s.masking.valid && s.masking.keep == ones 16

/-- The masking stage holds a word for the 320-bit path. -/
def to320 : Bool := s.masking.valid && s.masking.keep == ones 10

/-- The masking stage holds a word for the 32-bit path. -/
def to32 : Bool := s.masking.valid && s.masking.keep != ones 16 && s.masking.keep != ones 10

/-- What the masking stage hands on, with this CRC. -/
def handOn (crc : BitVec 32) : Stage :=
  ⟨s.masking.valid, s.masking.data, crc, s.masking.keep, s.masking.last⟩

/-- `stage_crc512`.  In a gap inside a packet the CRC is kept. -/
def nextCrc512 : Stage :=
  if s.to512 then s.handOn (nextCrc crc512Rows s.d s.c)
  else if s.masking.valid then .zero
  else { Stage.zero with crc := if s.crcFollowUpWord then s.crc512.crc else 0 }

/-- `stage_crc320`. -/
def nextCrc320 : Stage :=
  if s.to320 then s.handOn (nextCrc crc320Rows (s.d.setWidth 320) s.c) else .zero

/-- `stage_crc32[0]`. -/
def nextCrc32First : Crc32Stage :=
  if s.to32 then ⟨s.handOn (nextCrc crc32Rows (lane 0 s.d) s.c), s.d⟩
  else ⟨.zero, if s.masking.valid then (s.crc32 0).maskedData else 0⟩

/-! ## Stage 2.5: the further steps -/

/-- The stage before stage `n` holds a word that has no bits for stage `n`. -/
def doneAt (prev n : Fin 16) : Bool :=
  (s.crc32 prev).valid && keepStage n (s.crc32 prev).keep != 0xf#4

/-- `stage_crc32[n]`, with the stage before it. -/
def nextCrc32Later (prev n : Fin 16) : Crc32Stage :=
  let p := s.crc32 prev
  let crc :=
    if p.valid then
      if keepStage n p.keep == 0xf#4 then nextCrc crc32Rows (lane n p.maskedData) p.crc else p.crc
    else 0
  if s.crc32EarlyDone then ⟨{ Stage.zero with crc := crc }, 0⟩
  else ⟨{ p.toStage with crc := crc }, p.maskedData⟩

/-- `stage_crc32`. -/
def nextCrc32 (n : Fin 16) : Crc32Stage :=
  if n = 0 then s.nextCrc32First else s.nextCrc32Later (n - 1) n

/-- The last stage that finds its word done. -/
def doneStage : Option (Fin 16) :=
  (List.finRange 16).reverse.find? fun n => n != 0 && s.doneAt (n - 1) n

/-! ## Stage 3: the join -/

/-- A word leaves the 32-bit path early. -/
def leavesEarly : Bool :=
  !s.crc512.valid && !s.crc320.valid && !(s.crc32 15).valid && s.crc32EarlyDone

/-- A word leaves the 32-bit path at its end. -/
def leavesLate : Bool := !s.crc512.valid && !s.crc320.valid && (s.crc32 15).valid

/-- What comes out of the three paths. -/
def joined : Stage :=
  if s.crc512.valid then s.crc512
  else if s.crc320.valid then s.crc320
  else if (s.crc32 15).valid then (s.crc32 15).toStage
  else if s.crc32EarlyDone then (s.crc32 s.crc32CounterWord).toStage
  else .zero

/-- `stage_join`. -/
def nextJoin : Stage :=
  if s.crc512.valid || s.crc320.valid || (s.crc32 15).valid || s.crc32EarlyDone then
    { s.joined with crc := s.joined.crc ^^^ 0xffffffff#32 }
  else .zero

/-- `stage_crc32_early_done`. -/
def nextEarlyDone : Bool :=
  if s.leavesEarly then false
  else if !s.crc32EarlyDone && s.doneStage.isSome then true
  else s.crc32EarlyDone

/-- `stage_crc32_counter_word`. -/
def nextCounterWord : Fin 16 :=
  if s.leavesEarly then 0
  else if s.crc32EarlyDone then s.crc32CounterWord
  else s.doneStage.getD s.crc32CounterWord

/-- `crc32_in_flight`. -/
def nextInFlight : Bool :=
  if s.leavesEarly || s.leavesLate then false else s.to32 || s.crc32InFlight

/-! ## Stage 4: insertion -/

/-- The data with the CRC behind the first `n` times 32 bits, and nothing behind the CRC. -/
def insertCrc (n : Nat) (data : BitVec 512) (crc : BitVec 32) : BitVec 512 :=
  (data &&& BitVec.ofNat 512 (2 ^ (32 * n) - 1)) ||| (crc.setWidth 512 <<< (32 * n))

/-- How many times 32 bits a word has that is not full. -/
def lanesOf (keep : BitVec 64) : Option Nat := (List.range' 1 15).find? fun n => keep == ones n

/-- `stage_reinsertion`. -/
def nextReinsertion : Stage :=
  if !s.join.last then s.join
  else if s.join.keep.getLsbD 63 then { s.join with last := false }
  else
    match lanesOf s.join.keep with
    | some n =>
      { valid := s.join.valid
        data := insertCrc n s.join.data s.join.crc
        crc := s.reinsertion.crc
        keep := ones (n + 1)
        last := s.join.last }
    | none => { s.reinsertion with valid := s.join.valid, last := s.join.last }

/-! ## Stage 5: the extra word -/

/-- `stage_add_word`. -/
def nextAddWord : Stage :=
  if s.stallPipeline then
    ⟨true, s.reinsertion.crc.setWidth 512, s.reinsertion.crc, 0xf#64, true⟩
  else { Stage.zero with last := true }

/-- `stall_pipeline`. -/
def nextStall : Bool :=
  if s.stallPipeline then false
  else if s.join.last then s.join.keep.getLsbD 63 else s.stallPipeline

/-! ## The output -/

/-- What stands at the write port of the buffer. -/
def toFifo : Stage := if s.switchOutput then s.addWord else s.reinsertion

/-- The word at the write port. -/
def toFifoWord : Word := ⟨s.toFifo.data, s.toFifo.keep, s.toFifo.last⟩

/-- One clock edge. -/
def step : State where
  masking := s.nextMasking i
  crcFollowUpWord := if s.masking.valid then !s.masking.last else s.crcFollowUpWord
  crc32 := s.nextCrc32
  crc32EarlyDone := s.nextEarlyDone
  crc32CounterWord := s.nextCounterWord
  crc512 := s.nextCrc512
  crc320 := s.nextCrc320
  join := s.nextJoin
  reinsertion := s.nextReinsertion
  addWord := s.nextAddWord
  stallPipeline := s.nextStall
  crc32InFlight := s.nextInFlight
  switchOutput := s.stallPipeline
  bf := s.bf.step s.toFifo.valid i.txReady s.toFifoWord
  txValid := !s.bf.empty

end State

/-! ## The ledger -/

/-- What came in, what went into the buffer and what went out. -/
structure Ledger where
  /-- The words accepted at `m_axis_rx`. -/
  accepted : List Word
  /-- The words handed to the buffer. -/
  handed : List Word
  /-- The words transferred at `m_axis_tx`. -/
  sent : List Word

/-- Nothing has happened. -/
def Ledger.empty : Ledger := ⟨[], [], []⟩

/-- One cycle. -/
def note (l : Ledger) (s : State) (i : Input) : Ledger where
  accepted := l.accepted ++ if i.tvalid && s.rxReady then [i.beat] else []
  handed := l.handed ++ if s.toFifo.valid then [s.toFifoWord] else []
  sent := l.sent ++ if s.txValid && i.txReady then [s.bf.output] else []

/-- The ICRC pipeline, watched. -/
def icrc : Machine (State × Ledger) Input :=
  Machine.watch ⟨State.reset, State.step⟩ Ledger.empty note

end Icrc
end RecoNIC
