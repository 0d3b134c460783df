import RecoNIC.Arithmetic.Pieces
import RecoNIC.RoceStack.Handover

/-!
# Cutting a work-queue element into requests

`SQ_WRITE` and `SQ_SEND` issue an element as requests of at most one MTU each.  What
is left of the transfer and the two running addresses are registers; the loop goes
through `SQ_VALID`, where the stack may keep the machine waiting as long as it likes.

`segment w i` is what request `i` of the element `w` has to be, read off the element
alone.  `Cut s w i` says that the registers are ready for it, `Loaded s w i` that it
is the request on the interface.  `segmentation_tiles` is the result: between
`SQ_WAIT_QP` and `SQ_WRITE_CQ_CACHE` a write or a send issues exactly the segments of
its element, in order, and it gets there once the stack has been ready often enough.
-/

namespace RecoNIC
namespace WqManager

open Synchronous

/-! ## The segments of an element -/

/-- The opcodes of one kind of transfer, by the place of the request in it. -/
structure Opcodes where
  only : BitVec 5
  first : BitVec 5
  middle : BitVec 5
  last : BitVec 5

def writeOpcodes : Opcodes :=
  ⟨rcRdmaWriteOnly, rcRdmaWriteFirst, rcRdmaWriteMiddle, rcRdmaWriteLast⟩

def sendOpcodes : Opcodes := ⟨rcSendOnly, rcSendFirst, rcSendMiddle, rcSendLast⟩

/-- The opcode of request `i` of `n`. -/
def Opcodes.get (o : Opcodes) (n i : Nat) : BitVec 5 :=
  if n = 1 then o.only else if i = 0 then o.first else if i + 1 = n then o.last else o.middle

/-- The element is a write or a send. -/
def Transfers (w : BitVec 512) : Prop := wqeOpcode w = 0x00#8 ∨ wqeOpcode w = 0x02#8

instance (w : BitVec 512) : Decidable (Transfers w) := inferInstanceAs (Decidable (_ ∨ _))

/-- The opcodes of a write or a send. -/
def opcodesOf (w : BitVec 512) : Opcodes :=
  if wqeOpcode w = 0x00#8 then writeOpcodes else sendOpcodes

/-- The members of a request that the element decides. -/
structure Segment where
  opcode : BitVec 5
  last : Bool
  vaddr : BitVec 64
  len : BitVec 28
  paddr : BitVec 64
  plen : BitVec 28

/-- The segment of a request. -/
def segmentOf (r : Dreq) : Segment :=
  ⟨r.req1.opcode, r.req1.last, r.req1.vaddr, r.req1.len, r.req2.vaddr, r.req2.len⟩

/-- The MTU that the design is built for. -/
def mtuBytes : Nat := 4096

/-- The length of the transfer, as a number. -/
def wqeBytes (w : BitVec 512) : Nat := (SqIf.wqeLen w).toNat

/-- The number of requests of an element. -/
def requests (w : BitVec 512) : Nat := Pieces.count mtuBytes (wqeBytes w)

/-- How far into the buffers request `i` is. -/
def offset (i : Nat) : BitVec 64 := BitVec.ofNat 64 (mtuBytes * i)

/-- Request `i` of the element `w`.  A send carries no remote address. -/
def segment (w : BitVec 512) (i : Nat) : Segment where
  opcode := (opcodesOf w).get (requests w) i
  last := i + 1 == requests w
  vaddr := if wqeOpcode w = 0x00#8 then SqIf.wqeRemote w + offset i else 0
  len := BitVec.ofNat 28 (Pieces.size mtuBytes (wqeBytes w) i)
  paddr := SqIf.wqeLocal w + offset i
  plen := BitVec.ofNat 28 (Pieces.size mtuBytes (wqeBytes w) i)

/-- The request of a read. -/
def readSegment (w : BitVec 512) : Segment where
  opcode := rcRdmaReadRequest
  last := true
  vaddr := SqIf.wqeRemote w
  len := (SqIf.wqeLen w).setWidth 28
  paddr := SqIf.wqeLocal w
  plen := (SqIf.wqeLen w).setWidth 28

@[simp] theorem offset_zero : offset 0 = 0#64 := rfl

theorem offset_succ (i : Nat) : offset (i + 1) = offset i + 4096#64 := by
  rw [offset, offset, mtuBytes, Nat.mul_add, Nat.mul_one, ← BitVec.ofNat_add_ofNat]

/-! ## The registers of the loop -/

namespace SqIf

/-- The registers are ready for request `i` of `w`. -/
structure Cut (s : SqIf) (w : BitVec 512) (i : Nat) : Prop where
  mtu : s.mtu = 4096#32
  lt : i < requests w
  first : s.first = decide (i = 0)
  rest : i ≠ 0 → s.transferLength.toNat = wqeBytes w - mtuBytes * i
  paddr : i ≠ 0 → s.currLocalPaddr = wqeLocal w + offset i
  vaddr : i ≠ 0 → wqeOpcode w = 0x00#8 → s.currRemoteVaddr = wqeRemote w + offset i

/-- Request `i` of `w` is on the interface, and the registers are ready for the next one
if there is one. -/
structure Loaded (s : SqIf) (w : BitVec 512) (i : Nat) : Prop where
  lt : i < requests w
  req : segmentOf s.req = segment w i
  last : s.last = decide (i + 1 = requests w)
  next : i + 1 ≠ requests w → s.Cut w (i + 1)

variable {s : SqIf} {w : BitVec 512} {i : Nat}

theorem toNat_mtu (h : s.mtu = 4096#32) : s.mtu.toNat = mtuBytes := by
  rw [h]
  rfl

theorem setWidth_mtu (h : s.mtu = 4096#32) : s.mtu.setWidth 64 = 4096#64 := by
  rw [h]
  rfl

/-- What a request has to be loaded with. -/
structure Fits (s : SqIf) (w : BitVec 512) (i : Nat) (opcode : BitVec 5) (vaddr : BitVec 64)
    (len : BitVec 32) (paddr : BitVec 64) : Prop where
  opcode : opcode = (opcodesOf w).get (requests w) i
  vaddr : vaddr = if wqeOpcode w = 0x00#8 then wqeRemote w + offset i else 0
  len : len.toNat = Pieces.size mtuBytes (wqeBytes w) i
  paddr : paddr = wqeLocal w + offset i

variable {opcode : BitVec 5} {vaddr paddr : BitVec 64} {len : BitVec 32}

theorem Fits.segmentOf_packet (h : s.Fits w i opcode vaddr len paddr) (last : Bool) :
    segmentOf (s.packet opcode last vaddr len paddr).req =
      { segment w i with last := last } := by
  have hlen : len.setWidth 28 = BitVec.ofNat 28 (Pieces.size mtuBytes (wqeBytes w) i) := by
    rw [← h.len]
    rfl
  simp only [segmentOf, packet, segment, h.opcode, h.vaddr, h.paddr, hlen]

/-- The last request. -/
theorem Fits.loaded_last (h : s.Fits w i opcode vaddr len paddr) (hlast : i + 1 = requests w) :
    (s.packet opcode true vaddr len paddr).Loaded w i where
  lt := by omega
  req := by
    rw [h.segmentOf_packet]
    simp [segment, hlast]
  last := by simp [packet, hlast]
  next hne := absurd hlast hne

/-- Any other request, with the registers moved on. -/
theorem Fits.loaded_next (h : s.Fits w i opcode vaddr len paddr) (hlt : i + 1 < requests w)
    {t : SqIf} (hreq : t.req = (s.packet opcode false vaddr len paddr).req)
    (hlast : t.last = false) (hcut : t.Cut w (i + 1)) : t.Loaded w i where
  lt := by omega
  req := by
    rw [hreq, h.segmentOf_packet]
    simp [segment, hlt.ne]
  last := by simp [hlast, hlt.ne]
  next _ := hcut

/-! ### The loop body -/

/-- What is left of the transfer, and the two addresses it goes on at: members of the
element for the first request, registers for the others. -/
def left (s : SqIf) (w : BitVec 512) : BitVec 32 := if s.first then wqeLen w else s.transferLength

def localAt (s : SqIf) (w : BitVec 512) : BitVec 64 :=
  if s.first then wqeLocal w else s.currLocalPaddr

def remoteAt (s : SqIf) (w : BitVec 512) : BitVec 64 :=
  if s.first then wqeRemote w else s.currRemoteVaddr

/-- The opcode of the last request, and that of any other. -/
def closing (s : SqIf) (o : Opcodes) : BitVec 5 := if s.first then o.only else o.last

def opening (s : SqIf) (o : Opcodes) : BitVec 5 := if s.first then o.first else o.middle

/-- The two branches of `SQ_WRITE` are one. -/
theorem writeStep_eq (s : SqIf) (w : BitVec 512) :
    s.writeStep w =
      if s.left w ≤ s.mtu then
        s.packet (s.closing writeOpcodes) true (s.remoteAt w) (s.left w) (s.localAt w)
      else
        { s.packet (s.opening writeOpcodes) false (s.remoteAt w) s.mtu (s.localAt w) with
          transferLength := s.left w - s.mtu
          currLocalPaddr := s.localAt w + s.mtu.setWidth 64
          currRemoteVaddr := s.remoteAt w + s.mtu.setWidth 64
          first := false } := by
  cases hfirst : s.first <;>
    simp [writeStep, left, localAt, remoteAt, closing, opening, writeOpcodes, hfirst]

/-- The two branches of `SQ_SEND` are one. -/
theorem sendStep_eq (s : SqIf) (w : BitVec 512) :
    s.sendStep w =
      if s.left w ≤ s.mtu then
        s.packet (s.closing sendOpcodes) true 0 (s.left w) (s.localAt w)
      else
        { s.packet (s.opening sendOpcodes) false 0 s.mtu (s.localAt w) with
          transferLength := s.left w - s.mtu
          currLocalPaddr := s.localAt w + s.mtu.setWidth 64
          first := false } := by
  cases hfirst : s.first <;>
    simp [sendStep, left, localAt, closing, opening, sendOpcodes, hfirst]

namespace Cut

variable (h : s.Cut w i)
include h

theorem toNat_left : (s.left w).toNat = wqeBytes w - mtuBytes * i := by
  by_cases hi : i = 0
  · simp [left, h.first, hi, wqeBytes]
  · simp [left, h.first, hi, h.rest hi]

theorem localAt_eq : s.localAt w = wqeLocal w + offset i := by
  by_cases hi : i = 0
  · simp [localAt, h.first, hi]
  · simp [localAt, h.first, hi, h.paddr hi]

theorem remoteAt_eq (hw : wqeOpcode w = 0x00#8) : s.remoteAt w = wqeRemote w + offset i := by
  by_cases hi : i = 0
  · simp [remoteAt, h.first, hi]
  · simp [remoteAt, h.first, hi, h.vaddr hi hw]

/-- The comparison with the MTU finds the last request. -/
theorem left_le_iff : s.left w ≤ s.mtu ↔ i + 1 = requests w := by
  have hnext : i + 1 < requests w ↔ mtuBytes * (i + 1) < wqeBytes w :=
    Pieces.succ_lt_count_iff (by decide)
  have hlt := h.lt
  rw [Nat.mul_add, Nat.mul_one] at hnext
  rw [BitVec.le_def, h.toNat_left, toNat_mtu h.mtu]
  omega

theorem closing_eq (o : Opcodes) (hlast : i + 1 = requests w) :
    s.closing o = o.get (requests w) i := by
  by_cases hi : i = 0
  · simp [closing, Opcodes.get, h.first, hi, ← hlast]
  · simp [closing, Opcodes.get, h.first, hi, ← hlast]

theorem opening_eq (o : Opcodes) (hlt : i + 1 < requests w) :
    s.opening o = o.get (requests w) i := by
  have hone : requests w ≠ 1 := by omega
  by_cases hi : i = 0
  · simp [opening, Opcodes.get, h.first, hi, hone]
  · simp [opening, Opcodes.get, h.first, hi, hone, hlt.ne]

/-- The last request fits, -/
theorem fits_last (hlast : i + 1 = requests w) {vaddr : BitVec 64}
    (hva : vaddr = if wqeOpcode w = 0x00#8 then wqeRemote w + offset i else 0) :
    s.Fits w i (s.closing (opcodesOf w)) vaddr (s.left w) (s.localAt w) where
  opcode := h.closing_eq _ hlast
  vaddr := hva
  len := by rw [h.toNat_left, Pieces.size_of_succ_eq (by decide) hlast]
  paddr := h.localAt_eq

/-- and so does any other. -/
theorem fits_next (hlt : i + 1 < requests w) {vaddr : BitVec 64}
    (hva : vaddr = if wqeOpcode w = 0x00#8 then wqeRemote w + offset i else 0) :
    s.Fits w i (s.opening (opcodesOf w)) vaddr s.mtu (s.localAt w) where
  opcode := h.opening_eq _ hlt
  vaddr := hva
  len := by rw [toNat_mtu h.mtu, Pieces.size_of_succ_lt (by decide) hlt]
  paddr := h.localAt_eq

theorem toNat_left_sub (hlt : i + 1 < requests w) :
    (s.left w - s.mtu).toNat = wqeBytes w - mtuBytes * (i + 1) := by
  have hle : s.mtu ≤ s.left w := BitVec.le_of_lt (BitVec.not_le.mp fun hle =>
    hlt.ne (h.left_le_iff.mp hle))
  rw [BitVec.toNat_sub_of_le hle, h.toNat_left, toNat_mtu h.mtu, Nat.mul_add, Nat.mul_one]
  omega

/-- The registers move on. -/
theorem next (hlt : i + 1 < requests w) {t : SqIf} (hmtu : t.mtu = s.mtu)
    (hfirst : t.first = false) (hrest : t.transferLength = s.left w - s.mtu)
    (hpaddr : t.currLocalPaddr = s.localAt w + s.mtu.setWidth 64)
    (hvaddr : wqeOpcode w = 0x00#8 →
      t.currRemoteVaddr = s.remoteAt w + s.mtu.setWidth 64) : t.Cut w (i + 1) where
  mtu := hmtu.trans h.mtu
  lt := hlt
  first := by simp [hfirst]
  rest _ := by rw [hrest, h.toNat_left_sub hlt]
  paddr _ := by
    rw [hpaddr, h.localAt_eq, setWidth_mtu h.mtu, offset_succ, BitVec.add_assoc]
  vaddr _ hw := by
    rw [hvaddr hw, h.remoteAt_eq hw, setWidth_mtu h.mtu, offset_succ, BitVec.add_assoc]

/-- **The body of `SQ_WRITE`.** -/
theorem loaded_writeStep (hw : wqeOpcode w = 0x00#8) : (s.writeStep w).Loaded w i := by
  have hop : opcodesOf w = writeOpcodes := if_pos hw
  have hva : s.remoteAt w = if wqeOpcode w = 0x00#8 then wqeRemote w + offset i else 0 := by
    rw [if_pos hw, h.remoteAt_eq hw]
  rw [writeStep_eq, ← hop]
  by_cases hlast : i + 1 = requests w
  · rw [if_pos (h.left_le_iff.mpr hlast)]
    exact (h.fits_last hlast hva).loaded_last hlast
  · have hlt : i + 1 < requests w := by
      have := h.lt
      omega
    rw [if_neg (mt h.left_le_iff.mp hlast)]
    exact (h.fits_next hlt hva).loaded_next hlt rfl rfl
      (h.next hlt rfl rfl rfl rfl fun _ => rfl)

/-- **The body of `SQ_SEND`.** -/
theorem loaded_sendStep (hw : wqeOpcode w = 0x02#8) : (s.sendStep w).Loaded w i := by
  have hne : wqeOpcode w ≠ 0x00#8 := by
    rw [hw]
    decide
  have hop : opcodesOf w = sendOpcodes := if_neg hne
  have hva : (0 : BitVec 64) = if wqeOpcode w = 0x00#8 then wqeRemote w + offset i else 0 := by
    rw [if_neg hne]
  rw [sendStep_eq, ← hop]
  by_cases hlast : i + 1 = requests w
  · rw [if_pos (h.left_le_iff.mpr hlast)]
    exact (h.fits_last hlast hva).loaded_last hlast
  · have hlt : i + 1 < requests w := by
      have := h.lt
      omega
    rw [if_neg (mt h.left_le_iff.mp hlast)]
    exact (h.fits_next hlt hva).loaded_next hlt rfl rfl
      (h.next hlt rfl rfl rfl rfl fun hw => absurd hw hne)

end Cut

/-- The registers are ready for the first request whenever no transfer is going on. -/
theorem cut_zero (hmtu : s.mtu = 4096#32) (hfirst : s.first = true) : s.Cut w 0 where
  mtu := hmtu
  lt := Pieces.count_pos
  first := by simp [hfirst]
  rest h := absurd rfl h
  paddr h := absurd rfl h
  vaddr h := absurd rfl h

end SqIf

/-! ## The run -/

namespace SqIf

variable {s t : SqIf} {w : BitVec 512} {i : Nat}

/-- Neither the state nor the flag for the `AR_*` machine is a register of the loop. -/
theorem Cut.move (h : s.Cut w i) (ht : t = { s with st := t.st, fetchWqe := t.fetchWqe }) :
    t.Cut w i := by
  rw [ht]
  exact ⟨h.mtu, h.lt, h.first, h.rest, h.paddr, h.vaddr⟩

theorem Loaded.move (h : s.Loaded w i) (ht : t = { s with st := t.st, fetchWqe := t.fetchWqe }) :
    t.Loaded w i := by
  rw [ht]
  exact ⟨h.lt, h.req, h.last, fun hne => (h.next hne).move rfl⟩

end SqIf

/-- The element that left `SQ_WAIT_QP` last, and the requests the stack has taken since. -/
structure Transfer where
  wqe : BitVec 512
  sent : List Dreq

/-- One cycle of the ledger. -/
def Transfer.note (t : Transfer) (s : State) (i : Input) : Transfer :=
  match s.sq.st with
  | .waitQp => ⟨s.ar.wqe, []⟩
  | .valid => if i.sqReady then { t with sent := t.sent ++ [s.sq.req] } else t
  | _ => t

/-- The work-queue manager with this ledger. -/
def issuing : Machine (State × Transfer) Input := wqManager.watch ⟨0, []⟩ Transfer.note

@[simp] theorem issuing_step (x : State × Transfer) (i : Input) :
    issuing.step x i = (x.1.step i, x.2.note x.1 i) := rfl

/-- The ledger does not influence the run. -/
theorem fst_run_issuing (is : List Input) : (issuing.run is).1 = wqManager.run is := by
  rw [Machine.run, issuing, Machine.fst_runFrom_watch]
  rfl

/-- The requests taken so far are the first segments of the element. -/
def Transfer.Sent (t : Transfer) : Prop :=
  t.sent.map segmentOf = (List.range t.sent.length).map (segment t.wqe)

/-- What holds of the registers where the `SQ_*` machine is. -/
def Progress (s : SqIf) (t : Transfer) : Prop :=
  match s.st with
  | .waitQp => s.mtu = 4096#32 ∧ s.first = true
  | .write => wqeOpcode t.wqe = 0x00#8 ∧ t.Sent ∧ s.Cut t.wqe t.sent.length
  | .send => wqeOpcode t.wqe = 0x02#8 ∧ t.Sent ∧ s.Cut t.wqe t.sent.length
  | .read => ¬ Transfers t.wqe ∧ s.first = true ∧ t.sent = []
  | .valid =>
    if Transfers t.wqe then t.Sent ∧ s.Loaded t.wqe t.sent.length
    else s.last = true ∧ s.first = true ∧ t.sent = [] ∧ segmentOf s.req = readSegment t.wqe
  | .writeCqCache =>
    s.first = true ∧ s.cqReg = 0#8 ++ wqeOpcode t.wqe ++ t.wqe.setWidth 16 ∧
      if Transfers t.wqe then t.Sent ∧ t.sent.length = requests t.wqe
      else t.sent.map segmentOf = [readSegment t.wqe]
  | _ => s.first = true

/-- The `SQ_*` machine has an element back that it goes through. -/
def SqState.issuing : SqState → Bool
  | .write | .send | .read | .valid => true
  | _ => false

/-- The invariant of the loop. -/
structure Segmented (x : State × Transfer) : Prop where
  coupled : Coupled x.1
  wqe : x.1.sq.st.issuing = true → x.1.ar.wqe = x.2.wqe
  progress : Progress x.1.sq x.2

theorem segmented_reset : Segmented issuing.reset := ⟨coupled_reset, nofun, rfl⟩

theorem Transfer.Sent.append {t : Transfer} {r : Dreq} (h : t.Sent)
    (hr : segmentOf r = segment t.wqe t.sent.length) :
    Transfer.Sent { t with sent := t.sent ++ [r] } := by
  simp only [Sent, List.map_append, List.map_cons, List.map_nil, List.length_append,
    List.length_cons, List.length_nil, List.range_succ, hr]
  rw [show t.sent.map segmentOf = _ from h]

section Step

variable {x : State × Transfer} {i : Input}

/-- The element stays in the register of the `AR_*` machine from its return on. -/
theorem Segmented.wqe_step (h : Segmented x) (hst : x.1.sq.st ≠ .waitQp ∨
    x.1.qp.intfDone = true) (hidle : x.1.sq.st ≠ .ifReady) :
    (x.1.step i).ar.wqe = x.1.ar.wqe := by
  refine h.coupled.wqe_step ?_ hidle
  rcases hst with hne | hdone
  · exact Or.inr hne
  · exact Or.inl (by rw [h.coupled.intfDone.mp hdone]; rfl)

theorem Progress.setFetch {s : SqIf} {t : Transfer} {b : Bool} (h : Progress s t) :
    Progress { s with fetchWqe := b } t := by
  cases hst : s.st with
  | write | send =>
    simp only [Progress, hst] at h ⊢
    exact ⟨h.1, h.2.1, h.2.2.move (by simp)⟩
  | valid =>
    simp only [Progress, hst] at h ⊢
    split_ifs with hw
    · rw [if_pos hw] at h
      exact ⟨h.1, h.2.move (by simp)⟩
    · rwa [if_neg hw] at h
  | _ => simpa only [Progress, hst] using h

/-- An element that comes back is gone through from its first request on. -/
theorem Segmented.progress_waitQp (h : Segmented x) (hst : x.1.sq.st = .waitQp) :
    Progress (x.1.sqNext i) ⟨x.1.ar.wqe, []⟩ := by
  have hwait := h.progress
  simp only [Progress, hst] at hwait
  have hcut : ∀ st, SqIf.Cut { x.1.sq with st := st } x.1.ar.wqe 0 := fun _ =>
    SqIf.cut_zero hwait.1 hwait.2
  simp only [State.sqNext, hst]
  split_ifs with hdone hwrite hsend hread
  · exact ⟨hwrite, rfl, hcut _⟩
  · exact ⟨hsend, rfl, hcut _⟩
  · exact ⟨not_or.mpr ⟨hwrite, hsend⟩, hwait.2, rfl⟩
  · simpa only [Progress, hst] using hwait
  · simpa only [Progress, hst] using hwait

/-- The request on the interface is taken, or it stays there. -/
theorem Segmented.progress_valid (h : Segmented x) (hst : x.1.sq.st = .valid) :
    Progress (x.1.sqNext i) (x.2.note x.1 i) := by
  have hvalid := h.progress
  have hwqe := h.wqe (by rw [hst]; rfl)
  simp only [Progress, hst] at hvalid
  simp only [State.sqNext, hst, Transfer.note]
  by_cases hready : i.sqReady = true
  · simp only [hready, if_true]
    by_cases hw : Transfers x.2.wqe
    · rw [if_pos hw] at hvalid
      obtain ⟨hsent, hload⟩ := hvalid
      have hsent' := hsent.append hload.req
      by_cases hlast : x.2.sent.length + 1 = requests x.2.wqe
      · rw [if_pos (by rw [hload.last, hlast]; simp), hwqe]
        refine ⟨rfl, rfl, ?_⟩
        rw [if_pos hw]
        exact ⟨hsent', by simpa using hlast⟩
      · have hcut := hload.next hlast
        have hcut' : ∀ st, SqIf.Cut { x.1.sq with st := st } x.2.wqe
            (x.2.sent ++ [x.1.sq.req]).length := fun _ => by
          rw [List.length_append, List.length_singleton]
          exact hcut.move rfl
        rw [if_neg (by rw [hload.last]; simpa using hlast), hwqe]
        rcases hw with hwrite | hsend
        · rw [if_pos hwrite]
          exact ⟨hwrite, hsent', hcut' _⟩
        · rw [if_neg (by rw [hsend]; decide), if_pos hsend]
          exact ⟨hsend, hsent', hcut' _⟩
    · rw [if_neg hw] at hvalid
      obtain ⟨hlast, -, hsent, hreq⟩ := hvalid
      rw [if_pos hlast, hwqe]
      refine ⟨rfl, rfl, ?_⟩
      rw [if_neg hw, hsent]
      exact congrArg (fun r => [r]) hreq
  · simp only [hready, Bool.false_eq_true, if_false]
    simpa only [Progress, hst] using hvalid

theorem Segmented.progress_step (h : Segmented x) :
    Progress (x.1.sqNext i) (x.2.note x.1 i) := by
  have hp := h.progress
  cases hst : x.1.sq.st with
  | waitQp =>
    rw [show x.2.note x.1 i = ⟨x.1.ar.wqe, []⟩ by simp [Transfer.note, hst]]
    exact h.progress_waitQp hst
  | valid => exact h.progress_valid hst
  | write =>
    simp only [Progress, hst] at hp
    obtain ⟨hwrite, hsent, hcut⟩ := hp
    simp only [State.sqNext, hst, Transfer.note, h.wqe (by rw [hst]; rfl), Progress,
      SqIf.st_writeStep, if_pos (show Transfers x.2.wqe from Or.inl hwrite)]
    exact ⟨hsent, hcut.loaded_writeStep hwrite⟩
  | send =>
    simp only [Progress, hst] at hp
    obtain ⟨hsend, hsent, hcut⟩ := hp
    simp only [State.sqNext, hst, Transfer.note, h.wqe (by rw [hst]; rfl), Progress,
      SqIf.st_sendStep, if_pos (show Transfers x.2.wqe from Or.inr hsend)]
    exact ⟨hsent, hcut.loaded_sendStep hsend⟩
  | read =>
    simp only [Progress, hst] at hp
    simp only [State.sqNext, hst, Transfer.note, h.wqe (by rw [hst]; rfl), Progress,
      SqIf.st_readStep, if_neg hp.1]
    exact ⟨rfl, hp.2.1, hp.2.2, rfl⟩
  | writeCqCache =>
    simp only [Progress, hst] at hp
    simpa only [State.sqNext, hst, Progress] using hp.1
  | idle | readCache | checkQueueBusy =>
    simp only [Progress, hst] at hp
    simp only [State.sqNext, hst]
    split_ifs <;> simpa only [Progress, hst] using hp
  | getQueue =>
    simp only [Progress, hst] at hp
    simpa only [State.sqNext, hst, Progress] using hp
  | ifReady =>
    simp only [Progress, hst] at hp
    simp only [State.sqNext, hst]
    split_ifs
    · exact hp
    · exact ⟨rfl, hp⟩
    · exact hp

/-- Where the `SQ_*` machine goes through an element, it did before or has got it back. -/
theorem issuing_sqNext {s : State} (hst : (s.sqNext i).st.issuing = true) :
    (s.sq.st = .waitQp ∧ s.qp.intfDone = true) ∨ s.sq.st.issuing = true := by
  cases h : s.sq.st with
  | waitQp =>
    left
    refine ⟨rfl, ?_⟩
    by_contra hdone
    simp [State.sqNext, h, hdone, SqState.issuing] at hst
  | write | send | read | valid => exact Or.inr rfl
  | idle | checkQueueBusy | ifReady =>
    simp only [State.sqNext, h] at hst
    split_ifs at hst <;> simp [h, SqState.issuing] at hst
  | _ => simp [State.sqNext, h, SqState.issuing] at hst

/-- **One cycle keeps the invariant.** -/
theorem Segmented.step (h : Segmented x) : Segmented (issuing.step x i) where
  coupled := h.coupled.step
  wqe hst := by
    rcases issuing_sqNext (i := i) hst with ⟨hwait, hdone⟩ | hst'
    · show (x.1.step i).ar.wqe = (x.2.note x.1 i).wqe
      rw [h.wqe_step (Or.inr hdone) (by simp [hwait])]
      simp [Transfer.note, hwait]
    · show (x.1.step i).ar.wqe = (x.2.note x.1 i).wqe
      have hne : x.1.sq.st ≠ .waitQp ∧ x.1.sq.st ≠ .ifReady := by
        constructor <;> intro heq <;> simp [heq, SqState.issuing] at hst'
      rw [h.wqe_step (Or.inl hne.1) hne.2, h.wqe hst']
      unfold Transfer.note
      split
      · exact h.wqe hst' ▸ rfl
      · split_ifs <;> rfl
      · rfl
  progress := h.progress_step.setFetch

end Step

/-! ## The result -/

/-- The requests of one write or send, in the order in which the stack took them. -/
structure Tiles (w : BitVec 512) (rs : List Dreq) : Prop where
  /-- As many as it takes. -/
  length : rs.length = max 1 ((wqeBytes w + 4095) / 4096)
  /-- The opcodes. -/
  short : wqeBytes w ≤ 4096 → rs.map (·.req1.opcode) = [(opcodesOf w).only]
  long : 4096 < wqeBytes w → rs.map (·.req1.opcode) =
    (opcodesOf w).first :: List.replicate (rs.length - 2) (opcodesOf w).middle ++
      [(opcodesOf w).last]
  /-- All but the last are full, -/
  full : ∀ i r, rs[i]? = some r → i + 1 < rs.length → r.req1.len = 4096#28
  /-- together they are the transfer, -/
  sum : (rs.map (·.req1.len.toNat)).sum = wqeBytes w
  /-- and both halves of a request have one length. -/
  len : ∀ r ∈ rs, r.req2.len = r.req1.len
  /-- The addresses go on by one MTU. -/
  paddr : ∀ i r, rs[i]? = some r → r.req2.vaddr = SqIf.wqeLocal w + BitVec.ofNat 64 (4096 * i)
  vaddr : wqeOpcode w = 0x00#8 →
    ∀ i r, rs[i]? = some r → r.req1.vaddr = SqIf.wqeRemote w + BitVec.ofNat 64 (4096 * i)
  last : ∀ i r, rs[i]? = some r → (r.req1.last = true ↔ i + 1 = rs.length)

section Tiles

variable {w : BitVec 512} {rs : List Dreq}

/-- What request `i` is. -/
theorem segmentOf_getElem? (h : rs.map segmentOf = (List.range rs.length).map (segment w))
    {i : Nat} {r : Dreq} (hr : rs[i]? = some r) : segmentOf r = segment w i := by
  have hlt : i < rs.length := (List.getElem?_eq_some_iff.mp hr).1
  obtain ⟨-, rfl⟩ := List.getElem?_eq_some_iff.mp hr
  have hget := congrArg (·[i]?) h
  simpa [hlt] using hget

/-- A length of at most one MTU is not cut off by the field. -/
theorem toNat_segment_len (i : Nat) :
    (segment w i).len.toNat = Pieces.size mtuBytes (wqeBytes w) i := by
  have hle : Pieces.size mtuBytes (wqeBytes w) i ≤ 4096 := Pieces.size_le
  exact Nat.mod_eq_of_lt (by omega)

/-- First, middle ones, last. -/
theorem Opcodes.map_get (o : Opcodes) (k : Nat) :
    (List.range (k + 2)).map (o.get (k + 2)) =
      o.first :: List.replicate k o.middle ++ [o.last] := by
  rw [List.range_succ, List.map_append, List.range_succ_eq_map, List.map_cons, List.map_map]
  have hmiddle : (List.range k).map (o.get (k + 2) ∘ Nat.succ) = List.replicate k o.middle := by
    rw [List.eq_replicate_iff]
    refine ⟨by simp, fun b hb => ?_⟩
    obtain ⟨i, hi, rfl⟩ := List.mem_map.mp hb
    have hne : i ≠ k := (List.mem_range.mp hi).ne
    simp [Opcodes.get, hne]
  rw [hmiddle]
  simp [Opcodes.get]

/-- Requests that are the segments of the element tile the transfer. -/
theorem tiles_of_segments (h : rs.map segmentOf = (List.range rs.length).map (segment w))
    (hlen : rs.length = requests w) : Tiles w rs := by
  have hopcode : rs.map (·.req1.opcode) =
      (List.range rs.length).map ((opcodesOf w).get rs.length) := by
    have hmap := congrArg (List.map Segment.opcode) h
    rw [List.map_map, List.map_map] at hmap
    rw [hlen] at hmap ⊢
    exact hmap
  have hone : rs.length = 1 ↔ wqeBytes w ≤ 4096 := by
    rw [hlen]
    exact Pieces.count_eq_one_iff (by decide)
  refine ⟨hlen, fun hle => ?_, fun hlt => ?_, fun i r hr hi => ?_, ?_, fun r hr => ?_,
    fun i r hr => ?_, fun hw i r hr => ?_, fun i r hr => ?_⟩
  · rw [hopcode, hone.mpr hle]
    rfl
  · obtain ⟨k, hk⟩ : ∃ k, rs.length = k + 2 := by
      have hpos : 0 < rs.length := hlen ▸ Pieces.count_pos
      have hne : rs.length ≠ 1 := fun heq => absurd (hone.mp heq) (by omega)
      exact ⟨rs.length - 2, by omega⟩
    rw [hopcode, hk, Opcodes.map_get]
    rfl
  · have hseg := congrArg Segment.len (segmentOf_getElem? h hr)
    refine BitVec.eq_of_toNat_eq ?_
    rw [show r.req1.len = _ from hseg, toNat_segment_len,
      Pieces.size_of_succ_lt (by decide) (show i + 1 < requests w from hlen ▸ hi)]
    rfl
  · have hmap := congrArg (List.map (fun s : Segment => s.len.toNat)) h
    rw [List.map_map, List.map_map] at hmap
    rw [show rs.map (·.req1.len.toNat) = _ from hmap, hlen, requests]
    refine Eq.trans ?_ (Pieces.sum_size (m := mtuBytes) (L := wqeBytes w) (by decide))
    congr 1
    exact List.map_congr_left fun i _ => toNat_segment_len i
  · obtain ⟨i, hi⟩ := List.mem_iff_getElem?.mp hr
    have hseg := segmentOf_getElem? h hi
    exact (congrArg Segment.plen hseg).trans (congrArg Segment.len hseg).symm
  · exact congrArg Segment.paddr (segmentOf_getElem? h hr)
  · have hseg := congrArg Segment.vaddr (segmentOf_getElem? h hr)
    rwa [segment, if_pos hw] at hseg
  · have hseg := congrArg Segment.last (segmentOf_getElem? h hr)
    rw [show r.req1.last = _ from hseg, segment, hlen]
    simp

end Tiles

/-- The `SQ_*` machine goes through a write or a send. -/
def Issuing (x : State × Transfer) : Prop :=
  x.1.sq.st.issuing = true ∧ Transfers x.2.wqe

/-- How many more times the stack has to be ready: twice a request, once less when the
request is already on the interface. -/
def debt (x : State × Transfer) : Nat :=
  2 * (requests x.2.wqe - x.2.sent.length) - if x.1.sq.st = .valid then 1 else 0

section Progress

variable {x : State × Transfer} {i : Input}

/-- The next request goes on the interface. -/
theorem advance_load (hx : Issuing x) (hlt : x.2.sent.length < requests x.2.wqe)
    (hst : x.1.sq.st = .write ∨ x.1.sq.st = .send) :
    Issuing (issuing.step x i) ∧ debt (issuing.step x i) + 1 ≤ debt x := by
  have hstep : (issuing.step x i).1.sq.st = .valid := by
    rcases hst with hst | hst <;> simp [State.step, State.sqNext, hst]
  have hnote : (issuing.step x i).2 = x.2 := by
    rcases hst with hst | hst <;> simp [Transfer.note, hst]
  have hnv : x.1.sq.st ≠ .valid := by
    rcases hst with hst | hst <;> simp [hst]
  refine ⟨⟨by rw [hstep]; rfl, by rw [hnote]; exact hx.2⟩, ?_⟩
  rw [debt, debt, if_pos hstep, if_neg hnv, hnote]
  omega

/-- The request on the interface is taken if the stack is ready. -/
theorem Segmented.advance_valid (h : Segmented x) (hx : Issuing x) (hst : x.1.sq.st = .valid) :
    (issuing.step x i).1.sq.st = .writeCqCache ∨
      (Issuing (issuing.step x i) ∧
        debt (issuing.step x i) + (if i.sqReady then 1 else 0) ≤ debt x) := by
  have hp := h.progress
  have hwqe := h.wqe hx.1
  simp only [Progress, hst, if_pos hx.2] at hp
  by_cases hready : i.sqReady = true
  · by_cases hlast : x.1.sq.last = true
    · left
      simp [State.step, State.sqNext, hst, hready, hlast]
    · right
      have hnote : (issuing.step x i).2 = { x.2 with sent := x.2.sent ++ [x.1.sq.req] } := by
        simp [Transfer.note, hst, hready]
      have hne : x.2.sent.length + 1 ≠ requests x.2.wqe := by
        intro heq
        simp [hp.2.last, heq] at hlast
      have hlt := hp.2.lt
      have hstep : (issuing.step x i).1.sq.st.issuing = true ∧
          (issuing.step x i).1.sq.st ≠ .valid := by
        rcases hx.2 with hw | hw <;>
          simp [State.step, State.sqNext, hst, hready, hlast, hwqe, hw, SqState.issuing]
      refine ⟨⟨hstep.1, by rw [hnote]; exact hx.2⟩, ?_⟩
      rw [debt, debt, if_pos hst, if_neg hstep.2, hnote, if_pos hready]
      simp only [List.length_append, List.length_singleton]
      omega
  · right
    have hsame : (issuing.step x i).1.sq.st = .valid := by
      simp [State.step, State.sqNext, hst, hready]
    have hnote : (issuing.step x i).2 = x.2 := by
      simp [Transfer.note, hst, hready]
    refine ⟨⟨by rw [hsame]; rfl, by rw [hnote]; exact hx.2⟩, ?_⟩
    rw [debt, debt, if_pos hst, if_pos hsame, hnote, if_neg hready]
    omega

/-- A write or a send that is gone through is finished, or comes closer to its end if the
stack is ready. -/
theorem Segmented.advance (h : Segmented x) (hx : Issuing x) :
    (issuing.step x i).1.sq.st = .writeCqCache ∨
      (Issuing (issuing.step x i) ∧
        debt (issuing.step x i) + (if i.sqReady then 1 else 0) ≤ debt x) := by
  have hp := h.progress
  have hload : x.1.sq.st = .write ∨ x.1.sq.st = .send →
      x.2.sent.length < requests x.2.wqe →
      Issuing (issuing.step x i) ∧
        debt (issuing.step x i) + (if i.sqReady then 1 else 0) ≤ debt x := by
    intro hst hlt
    obtain ⟨hx', hle⟩ := advance_load (i := i) hx hlt hst
    refine ⟨hx', ?_⟩
    split_ifs <;> omega
  cases hst : x.1.sq.st with
  | write =>
    simp only [Progress, hst] at hp
    exact Or.inr (hload (Or.inl hst) hp.2.2.lt)
  | send =>
    simp only [Progress, hst] at hp
    exact Or.inr (hload (Or.inr hst) hp.2.2.lt)
  | valid => exact h.advance_valid hx hst
  | read =>
    simp only [Progress, hst] at hp
    exact absurd hx.2 hp.1
  | _ =>
    have := hx.1
    simp [hst, SqState.issuing] at this

/-- There is something left to do. -/
theorem Segmented.debt_pos (h : Segmented x) (hx : Issuing x) : 0 < debt x := by
  have hp := h.progress
  have hlt : x.2.sent.length < requests x.2.wqe := by
    cases hst : x.1.sq.st with
    | write | send =>
      simp only [Progress, hst] at hp
      exact hp.2.2.lt
    | valid =>
      simp only [Progress, hst, if_pos hx.2] at hp
      exact hp.2.lt
    | read =>
      simp only [Progress, hst] at hp
      exact absurd hx.2 hp.1
    | _ =>
      have := hx.1
      simp [hst, SqState.issuing] at this
  rw [debt]
  split_ifs <;> omega

/-- **Every write and every send is finished** once the stack has been ready often enough,
however the ready cycles are spaced. -/
theorem Segmented.finishes (h : Segmented x) (hx : Issuing x) (js : List Input)
    (hready : debt x ≤ js.countP (·.sqReady)) :
    ∃ ks, ks <+: js ∧ (issuing.runFrom x ks).1.sq.st = .writeCqCache := by
  induction js generalizing x with
  | nil => exact absurd hready (Nat.not_le.mpr (h.debt_pos hx))
  | cons j js ih =>
    rcases h.advance (i := j) hx with hdone | ⟨hx', hle⟩
    · exact ⟨[j], by simp, hdone⟩
    · rw [List.countP_cons] at hready
      obtain ⟨ks, hks, hend⟩ := ih h.step hx' (by omega)
      exact ⟨j :: ks, List.cons_prefix_cons.mpr ⟨rfl, hks⟩, hend⟩

end Progress

/-- The invariant holds in every state of every run. -/
theorem segmented_run (is : List Input) : Segmented (issuing.run is) :=
  (Machine.always_of_step (fun _ _ h => h.step) segmented_reset is).last

/-- **Segmentation tiles the transfer.**  Whenever a write or a send reaches
`SQ_WRITE_CQ_CACHE`, the requests the stack has taken since it left `SQ_WAIT_QP` tile its
transfer, and `first` is set again.  And it does reach it: from the cycle in which it
leaves `SQ_WAIT_QP`, within any cycles in which the stack is ready twice a request. -/
theorem segmentation_tiles (is : List Input) :
    ((issuing.run is).1.sq.st = .writeCqCache → Transfers (issuing.run is).2.wqe →
      Tiles (issuing.run is).2.wqe (issuing.run is).2.sent ∧
        (issuing.run is).1.sq.first = true) ∧
    (Issuing (issuing.run is) → ∀ js : List Input,
      2 * requests (issuing.run is).2.wqe ≤ js.countP (·.sqReady) →
      ∃ ks, ks <+: js ∧ (issuing.run (is ++ ks)).1.sq.st = .writeCqCache) := by
  have h := segmented_run is
  constructor
  · intro hst hw
    have hp := h.progress
    simp only [Progress, hst] at hp
    obtain ⟨hfirst, -, hp⟩ := hp
    rw [if_pos hw] at hp
    exact ⟨tiles_of_segments hp.1 hp.2, hfirst⟩
  · intro hx js hready
    have hdebt : debt (issuing.run is) ≤ js.countP (·.sqReady) := by
      rw [debt]
      split_ifs <;> omega
    obtain ⟨ks, hks, hend⟩ := h.finishes hx js hdebt
    exact ⟨ks, hks, by rwa [Machine.run, Machine.runFrom_append]⟩

/-- A write of 5000 bytes, `n` cycles after its doorbell. -/
def longWrite (n : Nat) : List Input :=
  ring 1 1 0 :: List.replicate n (serve 1 ((5000#32).setWidth 512 <<< 96))

/-- Cycles in which the stack is ready every other time. -/
def everyOther : List Input :=
  (List.replicate 4 [{ Input.quiet with sqReady := false }, Input.quiet]).flatten

/-- It takes two requests, and comes to its end with a stack that is not always ready. -/
theorem segmentation_tiles_longWrite :
    Tiles (issuing.run (longWrite 18)).2.wqe (issuing.run (longWrite 18)).2.sent ∧
      (issuing.run (longWrite 18)).2.sent.length = 2 ∧
      ∃ ks, ks <+: everyOther ∧
        (issuing.run (longWrite 14 ++ ks)).1.sq.st = .writeCqCache :=
  ⟨((segmentation_tiles (longWrite 18)).1 (by decide +kernel) (by decide +kernel)).1,
    by decide +kernel,
    (segmentation_tiles (longWrite 14)).2 ⟨by decide +kernel, by decide +kernel⟩ everyOther
      (by decide +kernel)⟩

end WqManager
end RecoNIC
