import RecoNIC.RoceTypes

/-!
# The contents of the register file

The block RAMs of `roce_stack_csr.sv`: one RAM for each register of the
queue-pair region and of the protection-domain region, addressed by queue pair
or by entry, and one RAM for the global registers.
-/

namespace RecoNIC

/-- The registers of one entry of a region, by register number. -/
abbrev RegRow := RegIdx → BitVec 32

/-- The contents of the block RAMs. -/
structure RegFile where
  /-- Region 2, by queue pair. -/
  qp : BitVec 8 → RegRow
  /-- Region 1, by protection-domain entry. -/
  pd : BitVec 8 → RegRow
  /-- Region 0, by word address. -/
  glb : BitVec 8 → BitVec 32

/-- The bits that the byte strobes select. -/
def strobeMask (wstrb : BitVec 4) : BitVec 32 :=
  let byte (k : Nat) : BitVec 8 := if wstrb.getLsbD k then 0xff else 0
  byte 3 ++ byte 2 ++ byte 1 ++ byte 0

/-- A register after a strobed write. -/
def mergeBytes (old : BitVec 32) (wstrb : BitVec 4) (data : BitVec 32) : BitVec 32 :=
  (old &&& ~~~ strobeMask wstrb) ||| (data &&& strobeMask wstrb)

/-- A strobed write lands: the strobed bytes are the written ones. -/
theorem mergeBytes_and_mask (old : BitVec 32) (wstrb : BitVec 4) (data : BitVec 32) :
    mergeBytes old wstrb data &&& strobeMask wstrb = data &&& strobeMask wstrb := by
  unfold mergeBytes
  ext i hi
  cases h : (strobeMask wstrb)[i] <;> simp [h]

/-- A write of all bytes. -/
theorem mergeBytes_all (old data : BitVec 32) : mergeBytes old 0xf data = data := by
  have hmask : strobeMask 0xf = BitVec.allOnes 32 := by decide
  rw [mergeBytes, hmask, BitVec.not_allOnes, BitVec.and_zero, BitVec.zero_or, BitVec.and_allOnes]

/-- Bytes written twice are bytes written once. -/
theorem mergeBytes_mergeBytes (old : BitVec 32) (wstrb : BitVec 4) (data data' : BitVec 32) :
    mergeBytes (mergeBytes old wstrb data) wstrb data' = mergeBytes old wstrb data' := by
  unfold mergeBytes
  ext i hi
  cases h : (strobeMask wstrb)[i] <;> simp [h]

namespace RegFile

/-- All registers zero. -/
def zero : RegFile := ⟨fun _ _ => 0, fun _ _ => 0, fun _ => 0⟩

/-- The contents after a write. -/
def write (f : RegFile) (c : WrCmd) : RegFile :=
  if c.region = 2 then
    { f with qp := fun a r =>
        if a = c.address ∧ r = c.bramIdx then mergeBytes (f.qp a r) c.wstrb c.data
        else f.qp a r }
  else if c.region = 1 then
    { f with pd := fun a r =>
        if a = c.address ∧ r = c.bramIdx then mergeBytes (f.pd a r) c.wstrb c.data
        else f.pd a r }
  else if c.region = 0 then
    { f with glb := fun a =>
        if a = c.address then mergeBytes (f.glb a) c.wstrb c.data else f.glb a }
  else f

theorem write_qp {f : RegFile} {c : WrCmd} (hc : c.region = 2) (a : BitVec 8) (r : RegIdx) :
    (f.write c).qp a r =
      if a = c.address ∧ r = c.bramIdx then mergeBytes (f.qp a r) c.wstrb c.data
      else f.qp a r := by
  simp [write, hc]

/-! ## Registers as cells -/

/-- The registers by their place. -/
inductive Cell where
  | qp (address : BitVec 8) (idx : RegIdx)
  | pd (address : BitVec 8) (idx : RegIdx)
  | glb (address : BitVec 8)
  deriving DecidableEq

/-- The contents of a cell. -/
def read (f : RegFile) : Cell → BitVec 32
  | .qp a r => f.qp a r
  | .pd a r => f.pd a r
  | .glb a => f.glb a

/-- The cell a command writes. -/
def target (c : WrCmd) : Option Cell :=
  if c.region = 2 then some (.qp c.address c.bramIdx)
  else if c.region = 1 then some (.pd c.address c.bramIdx)
  else if c.region = 0 then some (.glb c.address)
  else none

theorem ext_read {f g : RegFile} (h : ∀ x, f.read x = g.read x) : f = g := by
  obtain ⟨fqp, fpd, fglb⟩ := f
  obtain ⟨gqp, gpd, gglb⟩ := g
  obtain rfl : fqp = gqp := funext fun a => funext fun r => h (.qp a r)
  obtain rfl : fpd = gpd := funext fun a => funext fun r => h (.pd a r)
  obtain rfl : fglb = gglb := funext fun a => h (.glb a)
  rfl

/-- A write changes its cell and no other one. -/
theorem read_write (f : RegFile) (c : WrCmd) (x : Cell) :
    (f.write c).read x =
      if target c = some x then mergeBytes (f.read x) c.wstrb c.data else f.read x := by
  by_cases h2 : c.region = 2#2
  · cases x <;> simp [write, target, read, h2, eq_comm (a := c.address), eq_comm (a := c.bramIdx)]
  · by_cases h1 : c.region = 1#2
    · cases x <;>
        simp [write, target, read, h1, eq_comm (a := c.address), eq_comm (a := c.bramIdx)]
    · by_cases h0 : c.region = 0#2
      · cases x <;> simp [write, target, read, h0, eq_comm (a := c.address)]
      · cases x <;> simp [write, target, read, h2, h1, h0]

/-- Writes of other cells. -/
theorem read_foldl_write_of_ne {ws : List WrCmd} {x : Cell} (h : ∀ c ∈ ws, target c ≠ some x)
    (f : RegFile) : (ws.foldl write f).read x = f.read x := by
  induction ws generalizing f with
  | nil => rfl
  | cons c ws ih =>
    rw [List.foldl_cons, ih fun c' hc' => h c' (List.mem_cons_of_mem c hc'), read_write,
      if_neg (h c List.mem_cons_self)]

/-- Writes of one word with one strobe. -/
theorem read_foldl_write {strb : BitVec 4} {data : BitVec 32} {ws : List WrCmd}
    (h : ∀ c ∈ ws, c.wstrb = strb ∧ c.data = data) (f : RegFile) (x : Cell) :
    (ws.foldl write f).read x =
      if some x ∈ ws.map target then mergeBytes (f.read x) strb data else f.read x := by
  induction ws generalizing f with
  | nil => simp
  | cons c ws ih =>
    obtain ⟨hstrb, hdata⟩ := h c List.mem_cons_self
    rw [List.foldl_cons, ih (fun c' hc' => h c' (List.mem_cons_of_mem _ hc')), read_write, hstrb,
      hdata]
    by_cases hx : target c = some x <;> by_cases hmem : some x ∈ ws.map target <;>
      simp only [hx, hmem, List.map_cons, List.mem_cons, if_true, if_false, or_true,
        or_false, eq_comm (a := some x)]
    exact mergeBytes_mergeBytes ..

end RegFile

end RecoNIC
