import RecoNIC.Arithmetic.SplitAdd
import RecoNIC.Arithmetic.Tiling
import RecoNIC.RoceStack.Side

/-!
# The commands of a message

A request handler turns each packet of a message into one command for the data mover.  The
running address goes on by the length of the packet, which has 28 bits; the command has 23
bits for the number of bytes, and takes the low ones.

The tally keeps, for the message the handler is at, the lengths of the packets it has checked
and the commands it has handed over.  `Tiled` says that the commands move the bytes of the
message, each one once, and `tiled_iff` that this is so iff no packet has `2 ^ 23` bytes or
more.
-/

namespace RecoNIC
namespace Commands

open Synchronous Tiling
open Side (Cycle)
open RequestHandler hiding Input step

/-! ## Command words -/

/-- The address of a command. -/
def commandAddr (c : BitVec 104) : BitVec 64 := c.extractLsb' 32 64

/-- The bytes to transfer. -/
def commandBytes (c : BitVec 104) : ℕ := (c.setWidth 23).toNat

/-- What a command moves. -/
def block (c : BitVec 104) : Block 64 := (commandAddr c, commandBytes c)

@[simp] theorem commandBytes_cmdWord (paddr : BitVec 64) (len : BitVec 28) :
    commandBytes (cmdWord paddr len) = len.toNat % 2 ^ 23 := by
  rw [commandBytes, cmdWord, BitVec.setWidth_append_eq_right, BitVec.toNat_setWidth]

@[simp] theorem commandAddr_cmdWord (paddr : BitVec 64) (len : BitVec 28) :
    commandAddr (cmdWord paddr len) = paddr := by
  refine BitVec.eq_of_toNat_eq ?_
  have hlow := (len.setWidth 23).isLt
  have hpaddr := paddr.isLt
  rw [commandAddr, BitVec.extractLsb'_toNat, Nat.shiftRight_eq_div_pow, cmdWord]
  simp only [SplitAdd.toNat_append, BitVec.toNat_ofNat]
  omega

theorem block_cmdWord (paddr : BitVec 64) (len : BitVec 28) :
    block (cmdWord paddr len) = (paddr, len.toNat % 2 ^ 23) := by
  rw [block, commandAddr_cmdWord, commandBytes_cmdWord]

/-! ## The tally -/

/-- The message the handler is at: whether it goes on, where it begins, the lengths of the
packets that were checked, the commands that were handed over, and whether all the packets
have passed. -/
structure Tally where
  opened : Bool
  base : BitVec 64
  lens : List (BitVec 28)
  commands : List (BitVec 104)
  accepted : Bool

/-- The message of the packet in `RQ_MIDDLE`: a first packet begins one where the handler has
its address. -/
def Tally.begun (t : Tally) (h : Handler) : Tally :=
  if t.opened then t else ⟨true, h.paddr, [], [], true⟩

/-- A packet is checked. -/
def Tally.check (READ : Bool) (t : Tally) (h : Handler) : Tally :=
  { t.begun h with
    lens := (t.begun h).lens ++ [h.len]
    accepted := (t.begun h).accepted && checkPasses READ h }

/-- A command is handed over; the last one ends the message. -/
def Tally.hand (t : Tally) (h : Handler) : Tally :=
  { t with commands := t.commands ++ [h.cmdData], opened := !h.first }

/-- One cycle in the tally. -/
def note (READ : Bool) (t : Tally) (s : Side) (c : Cycle) : Tally :=
  match s.handler.reqState with
  | .middle => t.check READ s.handler
  | .sendCmd => if c.1.cmdReady then t.hand s.handler else t
  | _ => t

/-- A side with the tally. -/
def tallied (READ : Bool) : Machine (Side × Tally) Cycle :=
  (Side.machine READ).watch ⟨false, 0, [], [], true⟩ (note READ)

@[simp] theorem tallied_step (READ : Bool) (x : Side × Tally) (c : Cycle) :
    (tallied READ).step x c = (x.1.step READ c.1 c.2, note READ x.2 x.1 c) := rfl

/-! ## The promise -/

/-- The bytes of packets. -/
def bytes (lens : List (BitVec 28)) : ℕ := (lens.map BitVec.toNat).sum

/-- The packets whose commands were handed over. -/
def Tally.served (t : Tally) : List (BitVec 28) := t.lens.take t.commands.length

/-- The commands move the bytes of their packets: each has the length of its packet, and
together they tile the bytes from the beginning of the message, so that every byte is moved
once. -/
structure Tiled (t : Tally) : Prop where
  lengths : t.commands.map commandBytes = t.served.map BitVec.toNat
  tiles : Tiles t.base (t.commands.map block) (bytes t.served)
  once : bytes t.served ≤ 2 ^ 64 → ∀ x : BitVec 64, (t.commands.map block).countP (holds x) =
    if (x - t.base).toNat < bytes t.served then 1 else 0

/-- The commands of accepted packets are what they ought to be. -/
def Exact (x : Side × Tally) : Prop := x.2.accepted = true → Tiled x.2

/-- A command that is handed over for an accepted packet is for less than `2 ^ 23` bytes. -/
def Short (x : Side × Tally) (c : Cycle) : Prop :=
  handsOver x.1.handler (x.1.handlerIn c.1) = true → x.2.accepted = true →
    x.1.handler.len.toNat < 2 ^ 23

theorem bytes_append (l l' : List (BitVec 28)) : bytes (l ++ l') = bytes l + bytes l' := by
  simp [bytes]

/-- Nothing was handed over. -/
theorem tiled_nil (opened accepted : Bool) (base : BitVec 64) (lens : List (BitVec 28)) :
    Tiled ⟨opened, base, lens, [], accepted⟩ where
  lengths := rfl
  tiles := rfl
  once _ _ := by simp [Tally.served, bytes]

/-- A tiling is all that is needed. -/
theorem tiled_of_tiles {t : Tally} (hlen : t.commands.map commandBytes = t.served.map BitVec.toNat)
    (h : Tiles t.base (t.commands.map block) (bytes t.served)) : Tiled t :=
  ⟨hlen, h, fun hle x => h.countP_eq hle x⟩

/-! ## The invariant -/

/-- Where the handler is in the message. -/
inductive Phase (h : Handler) (t : Tally) : Prop where
  | between
      (hs : h.reqState = .idle ∨ h.reqState = .wbDbAdd ∨ h.reqState = .getPaddr ∨
        h.reqState = .middle)
      (hfirst : h.reqState = .idle ∨ h.reqState = .wbDbAdd → h.first = true)
      (hopened : t.opened = false)
  | within
      (hs : h.reqState = .idle ∨ h.reqState = .middle)
      (hfirst : h.reqState = .idle → h.first = false)
      (hopened : t.opened = true)
      (hlens : t.lens.length = t.commands.length)
      (hpaddr : h.paddr = t.base + BitVec.ofNat 64 (bytes t.lens))
  | send
      (hs : h.reqState = .sendCmd)
      (hopened : t.opened = true)
      (before : List (BitVec 28))
      (hlens : t.lens = before ++ [h.len])
      (hbefore : before.length = t.commands.length)
      (hpaddr : h.paddr = t.base + BitVec.ofNat 64 (bytes t.lens))
      (hcmd : t.accepted = true →
        h.cmdData = cmdWord (t.base + BitVec.ofNat 64 (bytes before)) h.len)

/-- **The invariant.**  The running address is the end of the packets checked so far. -/
structure Inv (x : Side × Tally) : Prop where
  lookup : x.1.handler.reqState ≠ .getPaddr → x.1.vtp.st = .idle
  phase : Phase x.1.handler x.2
  exact_ : Exact x

section Step

variable {READ : Bool} {x : Side × Tally} {c : Cycle}

/-- A packet that is taken in `RQ_IDLE`. -/
theorem idle_step (READ : Bool) {s : Side} (hs : s.handler.reqState = .idle)
    (hvalid : c.1.reqValid = true) (hready : s.vtp.reqReady s.lookup = true) :
    ((s.step READ c.1 c.2).handler.reqState = .getPaddr ∨
      (s.step READ c.1 c.2).handler.reqState = .middle) ∧
    (s.handler.first = false → (s.step READ c.1 c.2).handler.reqState = .middle ∧
      (s.step READ c.1 c.2).handler.paddr = s.handler.paddr) := by
  simp only [Side.step, Side.handlerIn, RequestHandler.step, hs, hvalid, hready]
  constructor
  · split_ifs <;> simp
  · intro hfirst
    simp [hfirst]

/-- The check takes one cycle. -/
theorem middle_step (READ : Bool) {s : Side} (hs : s.handler.reqState = .middle) :
    (s.step READ c.1 c.2).handler.reqState = .sendCmd ∧
    (s.step READ c.1 c.2).handler.len = s.handler.len ∧
    (s.step READ c.1 c.2).handler.paddr = s.handler.paddr + s.handler.len.setWidth 64 ∧
    (checkPasses READ s.handler = true →
      (s.step READ c.1 c.2).handler.cmdData = cmdWord s.handler.paddr s.handler.len) := by
  simp only [Side.step, RequestHandler.step, hs]
  cases checkPasses READ s.handler <;> simp

/-- Behind the command of the last packet the handler waits for a new message, and behind
another one for the next packet. -/
theorem sendCmd_step (READ : Bool) {s : Side} (hs : s.handler.reqState = .sendCmd)
    (hready : c.1.cmdReady = true) :
    (s.step READ c.1 c.2).handler.first = s.handler.first ∧
    (s.step READ c.1 c.2).handler.paddr = s.handler.paddr ∧
    ((s.step READ c.1 c.2).handler.reqState = .idle ∨
      (s.step READ c.1 c.2).handler.reqState = .wbDbAdd) ∧
    (s.handler.first = false → (s.step READ c.1 c.2).handler.reqState = .idle) := by
  simp only [Side.step, Side.handlerIn, RequestHandler.step, hs, hready]
  cases s.handler.first <;> cases (s.handler.offsVaddr == 0 && !READ) <;> simp

/-- The address behind one more packet. -/
theorem add_bytes (base : BitVec 64) (lens : List (BitVec 28)) (len : BitVec 28) :
    base + BitVec.ofNat 64 (bytes lens) + len.setWidth 64 =
      base + BitVec.ofNat 64 (bytes (lens ++ [len])) := by
  have hlen : len.setWidth 64 = BitVec.ofNat 64 (bytes [len]) := by
    rw [show bytes [len] = len.toNat by simp [bytes], BitVec.ofNat_toNat]
  rw [hlen, bytes_append, BitVec.ofNat_add, BitVec.add_assoc]

/-- What is known of the message of the packet in `RQ_MIDDLE`. -/
structure AtCheck (h : Handler) (t : Tally) : Prop where
  opened : t.opened = true
  lens : t.lens.length = t.commands.length
  paddr : h.paddr = t.base + BitVec.ofNat 64 (bytes t.lens)
  tiled : t.accepted = true → Tiled t

theorem Inv.atCheck (h : Inv x) (hs : x.1.handler.reqState = .middle) :
    AtCheck x.1.handler (x.2.begun x.1.handler) := by
  cases h.phase with
  | between _ _ hopened =>
    rw [Tally.begun, hopened]
    exact ⟨rfl, rfl, by simp [bytes], fun _ => tiled_nil _ _ _ _⟩
  | within _ _ hopened hlens hpaddr =>
    rw [Tally.begun, hopened]
    exact ⟨hopened, hlens, hpaddr, h.exact_⟩
  | send hno => simp [hs] at hno

/-- More packets do not change what was handed over. -/
theorem Tiled.check {t : Tally} (h : Tiled t) (hlens : t.lens.length = t.commands.length)
    (len : BitVec 28) (accepted : Bool) :
    Tiled { t with lens := t.lens ++ [len], accepted := accepted } := by
  have hserved : Tally.served { t with lens := t.lens ++ [len], accepted := accepted } =
      t.served := List.take_append_of_le_length hlens.ge
  exact tiled_of_tiles (by rw [hserved]; exact h.lengths) (by rw [hserved]; exact h.tiles)

/-- The check of a packet. -/
theorem Inv.step_middle (h : Inv x) (hs : x.1.handler.reqState = .middle) :
    Inv ((tallied READ).step x c) := by
  obtain ⟨hnext, hlen, hpaddr, hcmd⟩ := middle_step READ (c := c) hs
  have hat := h.atCheck hs
  have hnote : note READ x.2 x.1 c = x.2.check READ x.1.handler := by rw [note, hs]
  rw [tallied_step, hnote]
  refine ⟨Side.vtp_idle_step h.lookup, ?_, fun hacc => ?_⟩
  · refine .send hnext hat.opened (x.2.begun x.1.handler).lens ?_ hat.lens ?_ fun hacc => ?_
    · rw [hlen]
      rfl
    · rw [hpaddr, hat.paddr, add_bytes]
      rfl
    · have hpass : checkPasses READ x.1.handler = true := (Bool.and_eq_true_iff.mp hacc).2
      rw [hcmd hpass, hlen, hat.paddr]
      rfl
  · have hbefore : (x.2.begun x.1.handler).accepted = true := (Bool.and_eq_true_iff.mp hacc).1
    exact (hat.tiled hbefore).check hat.lens _ _

/-- A command serves the packet that was checked last. -/
theorem served_hand {t : Tally} {h : Handler} {before : List (BitVec 28)}
    (hlens : t.lens = before ++ [h.len]) (hbefore : before.length = t.commands.length) :
    (t.hand h).served = before ++ [h.len] := by
  have hcount : (t.hand h).commands.length = t.lens.length := by
    simp [Tally.hand, hlens, hbefore]
  rw [Tally.served, hcount, ← hlens]
  exact List.take_length

/-- A command is handed over. -/
theorem Inv.step_hand (h : Inv x) (hs : x.1.handler.reqState = .sendCmd)
    (hready : c.1.cmdReady = true) (hshort : Short x c) : Inv ((tallied READ).step x c) := by
  obtain ⟨hfirst, hpaddr', hst, hlater⟩ := sendCmd_step READ hs hready
  have hnote : note READ x.2 x.1 c = x.2.hand x.1.handler := by rw [note, hs]; exact if_pos hready
  rw [tallied_step, hnote]
  cases h.phase with
  | between hno => simp [hs] at hno
  | within hno => simp [hs] at hno
  | send _ hopened before hlens hbefore hpaddr hcmd =>
    refine ⟨Side.vtp_idle_step h.lookup, ?_, fun hacc => ?_⟩
    · cases hlast : x.1.handler.first with
      | true =>
        refine .between ?_ (fun _ => by rw [hfirst, hlast]) (by rw [Tally.hand, hlast]; rfl)
        rcases hst with hst | hst
        · exact Or.inl hst
        · exact Or.inr (Or.inl hst)
      | false =>
        refine .within (Or.inl (hlater hlast)) (fun _ => by rw [hfirst, hlast])
          (by rw [Tally.hand, hlast]; rfl) (by simp [Tally.hand, hlens, hbefore]) ?_
        rw [hpaddr', hpaddr]
        rfl
    · have hacc' : x.2.accepted = true := hacc
      have hlt : x.1.handler.len.toNat < 2 ^ 23 := by
        refine hshort ?_ hacc'
        simp [handsOver, Handler.cmdValid, hs, Side.handlerIn, hready]
      have hold := h.exact_ hacc'
      have hserved : x.2.served = before := by
        rw [Tally.served, hlens, ← hbefore, List.take_left]
      have hserved' := served_hand hlens hbefore
      have hword := hcmd hacc'
      refine tiled_of_tiles ?_ ?_
      · rw [hserved']
        simp only [Tally.hand, List.map_append, hold.lengths, hserved, List.map_cons, List.map_nil,
          hword, commandBytes_cmdWord, Nat.mod_eq_of_lt hlt]
      · have htiles := hold.tiles.concat x.1.handler.len.toNat
        rw [hserved] at htiles
        rw [hserved', bytes_append,
          show bytes [x.1.handler.len] = x.1.handler.len.toNat by simp [bytes]]
        simpa only [Tally.hand, List.map_append, List.map_cons, List.map_nil, hword, block_cmdWord,
          Nat.mod_eq_of_lt hlt] using htiles

/-- A cycle in which no packet is checked and no command is handed over. -/
theorem Inv.step_of_note (h : Inv x) (hnote : note READ x.2 x.1 c = x.2)
    (hphase : Phase (x.1.step READ c.1 c.2).handler x.2) : Inv ((tallied READ).step x c) := by
  rw [tallied_step, hnote]
  exact ⟨Side.vtp_idle_step h.lookup, hphase, h.exact_⟩

/-- Between two packets. -/
theorem Inv.step_idle (h : Inv x) (hs : x.1.handler.reqState = .idle) :
    Inv ((tallied READ).step x c) := by
  refine h.step_of_note (by rw [note, hs]) ?_
  by_cases hvalid : c.1.reqValid = true
  · have hready := Side.reqReady_lookup (h.lookup (by simp [hs])) hs
    obtain ⟨hst, hlater⟩ := idle_step READ hs hvalid hready
    cases h.phase with
    | between _ _ hopened =>
      refine .between ?_ (fun hno => ?_) hopened
      · rcases hst with hst | hst <;> simp [hst]
      · rcases hst with hst | hst <;> simp [hst] at hno
    | within _ hfirst hopened hlens hpaddr =>
      obtain ⟨hst', hpaddr'⟩ := hlater (hfirst hs)
      exact .within (Or.inr hst') (fun hno => nomatch hst'.symm.trans hno) hopened hlens
        (hpaddr'.trans hpaddr)
    | send hno => simp [hs] at hno
  · have hstep : (x.1.step READ c.1 c.2).handler = x.1.handler :=
      step_idle_of_quiet hs (Bool.eq_false_iff.mpr hvalid)
    rw [hstep]
    exact h.phase

/-- While the address is looked up. -/
theorem Inv.step_getPaddr (h : Inv x) (hs : x.1.handler.reqState = .getPaddr) :
    Inv ((tallied READ).step x c) := by
  refine h.step_of_note (by rw [note, hs]) ?_
  cases h.phase with
  | between _ _ hopened =>
    have hst : (x.1.step READ c.1 c.2).handler.reqState = .getPaddr ∨
        (x.1.step READ c.1 c.2).handler.reqState = .middle := by
      simp only [Side.step, RequestHandler.step, hs]
      split_ifs <;> simp [hs]
    refine .between ?_ (fun hno => ?_) hopened
    · rcases hst with hst | hst <;> simp [hst]
    · rcases hst with hst | hst <;> simp [hst] at hno
  | within hno => simp [hs] at hno
  | send hno => simp [hs] at hno

/-- After a SEND. -/
theorem Inv.step_wbDbAdd (h : Inv x) (hs : x.1.handler.reqState = .wbDbAdd) :
    Inv ((tallied READ).step x c) := by
  refine h.step_of_note (by rw [note, hs]) ?_
  have hstep : (x.1.step READ c.1 c.2).handler = { x.1.handler with reqState := .idle } :=
    RequestHandler.step_wbDbAdd hs _
  cases h.phase with
  | between _ hfirst hopened =>
    rw [hstep]
    exact .between (Or.inl rfl) (fun _ => hfirst (Or.inr hs)) hopened
  | within hno => simp [hs] at hno
  | send hno => simp [hs] at hno

theorem Inv.step (h : Inv x) (hshort : Short x c) : Inv ((tallied READ).step x c) := by
  cases hs : x.1.handler.reqState with
  | idle => exact h.step_idle hs
  | getPaddr => exact h.step_getPaddr hs
  | middle => exact h.step_middle hs
  | sendCmd =>
    cases hready : c.1.cmdReady with
    | true => exact h.step_hand hs hready hshort
    | false =>
      have hstep : (x.1.step READ c.1 c.2).handler = x.1.handler :=
        step_sendCmd_of_not_ready hs hready
      refine h.step_of_note (by rw [note, hs]; exact if_neg (by simp [hready])) ?_
      rw [hstep]
      exact h.phase
  | wbDbAdd => exact h.step_wbDbAdd hs

/-- A packet of `2 ^ 23` bytes or more gets a command with fewer bytes. -/
theorem Inv.lost (h : Inv x) (hlong : ¬ Short x c) : ¬ Exact ((tallied READ).step x c) := by
  obtain ⟨hhand, hacc, hge⟩ : handsOver x.1.handler (x.1.handlerIn c.1) = true ∧
      x.2.accepted = true ∧ 2 ^ 23 ≤ x.1.handler.len.toNat := by
    simpa [Short] using hlong
  obtain ⟨hvalid, hready⟩ := Bool.and_eq_true_iff.mp hhand
  have hs : x.1.handler.reqState = .sendCmd := by simpa [Handler.cmdValid] using hvalid
  have hnote : note READ x.2 x.1 c = x.2.hand x.1.handler := by rw [note, hs]; exact if_pos hready
  cases h.phase with
  | between hno => simp [hs] at hno
  | within hno => simp [hs] at hno
  | send _ hopened before hlens hbefore hpaddr hcmd =>
    intro hexact
    have hlengths := (hexact (by rw [tallied_step, hnote]; exact hacc)).lengths
    have hserved := served_hand hlens hbefore
    have hword : commandBytes x.1.handler.cmdData = x.1.handler.len.toNat % 2 ^ 23 := by
      rw [hcmd hacc, commandBytes_cmdWord]
    simp only [tallied_step, hnote] at hlengths
    rw [hserved] at hlengths
    have hlast := congrArg List.getLast? hlengths
    simp only [Tally.hand, List.map_append, List.map_cons, List.map_nil, List.getLast?_append,
      List.getLast?_singleton, Option.some_or, Option.some.injEq, hword] at hlast
    omega

end Step

/-! ## The result -/

/-- **The commands tile the message, exactly.**  On either side, for every stream of packets,
every pattern of the data mover and every delay of the register port: in every state of a run
the commands of the packets that have passed move each byte of these packets once, iff none
of the commands that were handed over is for a packet of `2 ^ 23` bytes or more. -/
theorem tiled_iff (READ : Bool) (cs : List Cycle) :
    (tallied READ).Always Exact (tallied READ).reset cs ↔
      (tallied READ).Guarded Short (tallied READ).reset cs :=
  Machine.always_iff_guarded (fun _ (h : Inv _) => h.exact_) (fun _ _ h _ hc => h.step hc)
    (fun _ _ h _ hc => h.lost hc)
    ⟨fun _ => rfl, .between (Or.inl rfl) (fun _ => rfl) rfl, fun _ => tiled_nil _ _ _ _⟩
    (Machine.guarded_true _ _)

/-! ### A read of eight mebibytes -/

/-- A register port that answers at once, with one region of 16 MiB at 0x1000. -/
def largeRegion : Vtp.PortView where
  findPdReady := true
  qpRdReg := fun _ => 0
  qpRdRegQ := fun _ => 0
  pdRdRegQ := fun reg =>
    if reg = virtaddrlsbIdx then 0x1000
    else if reg = bufbaseaddrlsbIdx then 0x8000000
    else if reg = wrrdbuflenIdx then 0x1000000
    else if reg = accessdescIdx then 2
    else 0

/-- A read request for the first half of the region, and the cycles up to its command. -/
def largeRead : List Cycle :=
  (⟨true, { (default : Req) with
      opcode := rcRdmaReadRequest, vaddr := 0x1000, len := 0x800000, last := true }, true⟩,
    largeRegion) :: List.replicate 7 (⟨false, default, true⟩, largeRegion)

/-- **A read of `2 ^ 23` bytes moves none.**  It is accepted, and its command is for 0 bytes. -/
theorem largeRead_not_exact :
    ((tallied true).run largeRead).2.accepted = true ∧
    ((tallied true).run largeRead).2.lens = [0x800000] ∧
    ((tallied true).run largeRead).2.commands.map block = [(0x8000000, 0)] ∧
    ¬ (tallied true).Always Exact (tallied true).reset largeRead := by
  refine ⟨by decide +kernel, by decide +kernel, by decide +kernel, fun h => ?_⟩
  have hlengths := (h.last (by decide +kernel)).lengths
  revert hlengths
  decide +kernel

end Commands
end RecoNIC
