import ArrayImage.Script
import ArrayImage.Stream.Word

/-!
# ArrayImage.Stream.Routing

The second phase of a run: stream switches, then shim muxes.

Each item of a switchbox, a connect, a master set or a packet table, is turned into its writes or
into the problem that keeps it from being routed; items do not influence each other. Where two
items use one register, the later one has it.
-/

namespace ArrayImage

open RegisterMap

/-! ## Circuits -/

/-- The steps of one circuit. The input port is looked up first. -/
def Connect.steps (tile : TileId) (c : Connect) : Script :=
  match c.source.number .slave tile.isShim with
  | .error error => [.report tile (.route error)]
  | .ok slave =>
    match c.dest.number .master tile.isShim with
    | .error error => [.report tile (.route error)]
    | .ok master =>
      [Step.put tile (masterOffset master) (.put (StreamWord.circuitMaster (.ofNat slave))),
        Step.put tile (slaveOffset slave) (.put StreamWord.circuitSlave)]

/-! ## Packet routes -/

/-- The amsels of a master set, put together. -/
inductive Selection where
  /-- The switchbox has no amsel of this name. -/
  | unknown (amsel : String)
  /-- A select value has no bit in a word. -/
  | fault (f : Fault)
  /-- The select bits, and the arbiter of the last amsel. -/
  | selected (mask : Word) (arbiter : Option UInt8)

/-- Put the named amsels together, from left to right, onto what was selected before. -/
def Switchbox.select (s : Switchbox) : List String → Word → Option UInt8 → Selection
  | [], mask, arbiter => .selected mask arbiter
  | name :: rest, mask, _ =>
    match s.amsel? name with
    | none => .unknown name
    | some amsel =>
      if amsel.msel < 32 then
        s.select rest (mask ||| (1 <<< amsel.msel.toNat)) (some amsel.arbiter)
      else .fault .shiftOverflow

/-- The steps of one master set. Packets for the DMA lose their header. -/
def MasterSet.steps (tile : TileId) (s : Switchbox) (m : MasterSet) : Script :=
  match m.dest.number .master tile.isShim with
  | .error error => [.report tile (.route error)]
  | .ok master =>
    match s.select m.amsels 0 none with
    | .unknown name => [.report tile (.masterAmsel m.dest name)]
    | .fault fault => [.fault fault]
    | .selected _ none => [.report tile (.masterWithoutAmsel m.dest)]
    | .selected mask (some arbiter) =>
      let word := StreamWord.packetMaster mask (.ofByte arbiter) (m.dest.bundle == .dma)
      [Step.put tile (masterOffset master) (.put word)]

def PacketRule.steps (tile : TileId) (s : Switchbox) (slave slot : Nat) (r : PacketRule) : Script :=
  match s.amsel? r.amsel with
  | none => [.report tile (.ruleAmsel r.amsel)]
  | some amsel =>
    [Step.put tile (slaveOffset slave) (.put StreamWord.packetSlave),
      Step.put tile (slotOffset slave slot)
        (.put (StreamWord.packetSlot r.value r.mask amsel.msel amsel.arbiter))]

/-- The steps of one packet table. Rules past the slots of the port are reported once and left
out. -/
def PacketTable.steps (tile : TileId) (s : Switchbox) (t : PacketTable) : Script :=
  match t.source.number .slave tile.isShim with
  | .error error => [.report tile (.route error)]
  | .ok slave =>
    ((t.rules.take slotsPerPort).mapIdx fun slot r => r.steps tile s slave slot).flatten ++
      if slotsPerPort < t.rules.length then [.report tile (.tooManyRules t.source)] else []

/-- The steps of one switchbox: circuits, then master sets, then packet tables. -/
def Switchbox.steps (tile : TileId) (s : Switchbox) : Script :=
  s.connects.flatMap (Connect.steps tile) ++ s.masterSets.flatMap (MasterSet.steps tile s) ++
    s.packetTables.flatMap (PacketTable.steps tile s)

/-! ## Shim muxes -/

def Bundle.muxSelect : Bundle → Except RouteError Word
  | .plio => .ok 0
  | .dma => .ok 1
  | .noc => .ok 2
  | other => .error (.muxInput other)

/-- Where the demux has the select bits of a stream from the north. -/
def demuxShift (index : UInt8) : Except RouteError Nat :=
  if index = 2 then .ok 4
  else if index = 3 then .ok 6
  else if index = 6 then .ok 8
  else if index = 7 then .ok 10
  else .error (.muxIndex index)

/-- Where the mux has the select bits of a stream to the north. -/
def muxShift (index : UInt8) : Except RouteError Nat :=
  if index = 2 then .ok 8
  else if index = 3 then .ok 10
  else if index = 6 then .ok 12
  else if index = 7 then .ok 14
  else .error (.muxIndex index)

/-- The register of the shim mux that a connect needs, and its bits there. Connects that do not
cross the mux need none. -/
def Connect.muxBits (c : Connect) : Except RouteError (Option (Nat × Word)) :=
  if c.source.bundle = .north then do
    let shift ← demuxShift c.source.index
    let select ← c.dest.bundle.muxSelect
    return some (shimDemux, select <<< shift)
  else if c.dest.bundle = .north then do
    let shift ← muxShift c.dest.index
    let select ← c.source.bundle.muxSelect
    return some (shimMux, select <<< shift)
  else return none

def Connect.muxSteps (tile : TileId) (c : Connect) : Script :=
  match c.muxBits with
  | .error error => [.report tile (.route error)]
  | .ok none => []
  | .ok (some (offset, bits)) => [Step.put tile offset (.raise bits)]

/-! ## The phase -/

/-- The steps of all stream switches and shim muxes. -/
def Device.streamSteps (d : Device) : Script :=
  (d.switchboxes.filter fun s => !s.isEmpty).flatMap (fun s =>
    Script.onTile d.arrayOffset.toNat s.column.toNat s.row.toNat fun tile => s.steps tile) ++
  d.shimMuxes.flatMap fun m =>
    Script.onTile d.arrayOffset.toNat m.column.toNat m.row.toNat fun tile =>
      m.connects.flatMap (Connect.muxSteps tile)

end ArrayImage
