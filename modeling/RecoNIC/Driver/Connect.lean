import RecoNIC.Driver.Setup
import RecoNIC.RoceStack.Announce

/-!
# Connections

Where a queue pair is connected to is decided by a program, with `allocate_rdma_qp`: the address
of the other side, its MAC address and the number of the queue pair there.  The stack is told by
an announcement of the registers.  Between the two are some writes over AXI-Lite, the FIFO
between the clocks and the register port, which also serves the stack.

`connected_run` goes all the way: when nothing is on its way any more, the stack has the
connections that the calls describe.
-/

namespace RecoNIC
namespace Connect

open Synchronous AxilPort Setup
open Announce (announcer AtRest)
open RdmaApi (RdmaDev)
open RegisterPort (AxilCmd QpEvent)

/-- Where a queue pair is connected to. -/
structure Connection where
  ipDesAddr : BitVec 32
  macDesAdd : BitVec 64
  destQpConf : BitVec 32

/-- The connection of a queue pair. -/
def connection (c : QpConfig) : Connection where
  ipDesAddr := c.ipDesAddr
  macDesAdd := c.macDesAdd
  destQpConf := c.destQpConf

section Run

variable (F : AsyncFifo AxilCmd)

/-- One edge in the list of the accepted writes. -/
def noteWrite (ws : List HostWrite) (x : Announce.State F × (BitVec 8 → RegRow)) :
    Announce.Edge → List HostWrite
  | .axil i => ws ++ (acceptedWrite x.1.csr.axil i).toList
  | .axis _ _ => ws

/-- What the stack has been told of the connections, with the writes that have been accepted. -/
def connector (regs : RegFile) :
    Machine ((Announce.State F × (BitVec 8 → RegRow)) × List HostWrite) Announce.Edge :=
  Machine.watch (announcer F .conn regs) [] (noteWrite F)

variable {F}

/-- The registers of the host hold what has been written. -/
theorem owned_run {x : RegFile.Cell} (hx : HostRegisters.HostOnly x) (regs : RegFile)
    (es : List Announce.Edge) : HostRegisters.Owned regs x
      (((connector F regs).run es).1.1.csr, ((connector F regs).run es).2) := by
  have hreset : HostRegisters.Owned regs x
      ((connector F regs).reset.1.1.csr, (connector F regs).reset.2) := ⟨nofun, nofun, rfl⟩
  have hrun : (connector F regs).Always (fun y => HostRegisters.Owned regs x (y.1.1.csr, y.2))
      (connector F regs).reset es := by
    refine Machine.always_of_step (P := fun y : (Announce.State F × (BitVec 8 → RegRow)) ×
      List HostWrite => HostRegisters.Owned regs x (y.1.1.csr, y.2)) (fun y e h => ?_) hreset es
    cases e with
    | axil i => exact HostRegisters.Owned.axil h { i with cmdFifoInAck := y.1.1.cmdFifoInAck }
    | axis wires i => exact HostRegisters.Owned.axis hx h wires (y.1.1.portIn wires i)
  exact hrun.last

/-- **Connected.**  For each FIFO that is as its data sheet says: after any calls with queue pairs
and entries that exist, over any bus and in any order of the edges of the two clocks, when nothing
is on its way any more then the stack has been told the connection of each queue pair as the calls
describe it. -/
theorem connected_run (F : AsyncFifo AxilCmd) (dev : RdmaDev) (calls : List Call)
    (hcalls : ∀ c ∈ calls, c.Valid) (regs : RegFile) (es : List Announce.Edge)
    (hrest : AtRest ((connector F regs).run es).1.1)
    (hwrites : ((connector F regs).run es).2 = hostWrites dev calls) (q : BitVec 8) :
    connection (.of (((connector F regs).run es).1.2 q)) =
      connection ((calls.foldl (Config.apply dev) (Config.of regs)).qp q) := by
  have hinv : Announce.Inv .conn ((connector F regs).run es).1 := by
    rw [connector, Machine.run, Machine.fst_runFrom_watch]
    exact (Announce.inv_run F .conn regs es).last
  rw [← of_hostWrites dev regs calls hcalls, ← hwrites]
  have htold (ev : QpEvent) (hev : ev ∈ Announce.Kind.conn.events) :
      ((connector F regs).run es).1.2 q ev.idx =
        (((connector F regs).run es).2.foldl applyWrite regs).qp q ev.idx := by
    rw [hinv.of_atRest hrest q hev]
    have hcell := (owned_run (F := F) (HostRegisters.hostOnly_qp
      (Announce.not_mem_wbRegs hev) q) regs es).cell
    have hsettled : HostRegisters.settled ((connector F regs).run es).1.1.csr = _ :=
      if_neg hrest.axil.1
    rw [hsettled] at hcell
    exact hcell
  have hip := htold .ipdesaddr1i (by decide)
  have hlsb := htold .macdesaddlsbi (by decide)
  have hmsb := htold .macdesaddmsbi (by decide)
  have hdest := htold .destqpconfi (by decide)
  rw [connection, connection, Connection.mk.injEq]
  exact ⟨hip, congrArg₂ (· ++ ·) hmsb hlsb, hdest⟩

end Run

/-! ### One queue pair -/

/-- The clients ask for nothing. -/
def quiet : Announce.Clients := ⟨none, none, none, .none⟩

/-- The writes of the host, and the cycles in which the port takes the commands. -/
def callEdges (ws : List HostWrite) : List Announce.Edge :=
  (ws.flatMap fun w =>
    [.axil { Decoder.quiet with aw := some w.1 }, .axil { Decoder.quiet with w := some w.2 }] ++
      List.replicate 5 (.axil { Decoder.quiet with bready := true })) ++
    List.replicate 25 (.axis Decoder.quiet quiet)

/-- The run of the call. -/
def oneRun : List Announce.Edge := callEdges (hostWrites ⟨8, 0, 0⟩ [.allocateRdmaQp toQp7])

theorem connected_run_toQp7 :
    connection (.of (((connector (.ofDepth 32 2 (.glb 0)) .zero).run oneRun).1.2 0)) =
      ⟨0x0a000001, 0x0000000a35000001, 7⟩ :=
  connected_run (.ofDepth 32 2 (.glb 0)) ⟨8, 0, 0⟩ [.allocateRdmaQp toQp7]
    (fun c hc => by
      rw [List.mem_singleton.mp hc]
      exact show 1 ≤ (1 : BitVec 32).toNat ∧ (1 : BitVec 32).toNat ≤ 256 by decide)
    .zero oneRun
    ⟨by decide +kernel, by decide +kernel, by decide +kernel, by decide +kernel⟩
    (by decide +kernel) 0

end Connect
end RecoNIC
