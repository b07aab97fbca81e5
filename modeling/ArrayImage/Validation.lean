import ArrayImage.Stream.Port

/-!
# ArrayImage.Validation

The rules that a design keeps before it is compiled.

`Device.issues` lists every violation: the version and the tiles first, then references to tiles
that are not declared, then each DMA program, then each switchbox. A design is valid when the list
is empty. Ports of bundles without a stream switch are left to the compiler.
-/

namespace ArrayImage

/-- The coordinates of a tile. -/
structure Coordinates where
  column : UInt8
  row : UInt8
deriving DecidableEq

def Coordinates.text (c : Coordinates) : String :=
  s!"({c.column},{c.row})"

/-- A part of a design that sits on a tile. -/
inductive Part where
  | buffer (name : String)
  | lock (name : String)
  | switchbox
  | shimMux
  | memory
deriving DecidableEq

def Part.title : Part → String
  | buffer name => s!"buffer '{name}'"
  | lock name => s!"lock '{name}'"
  | switchbox => "switchbox"
  | shimMux => "shim mux"
  | memory => "mem"

/-- A rule that a design breaks, and where. -/
inductive Issue where
  | schemaVersion (version : String)
  | tileOutOfRange (tile : Coordinates)
  | columnZero (tile : Coordinates)
  | duplicateTile (tile : Coordinates)
  | kindMismatch (tile : Coordinates) (kind : TileKind)
  | undeclaredTile (part : Part) (tile : Coordinates)
  | muxOffShimRow (tile : Coordinates)
  | lockId (name : String) (id : UInt8)
  | duplicateLabel (tile : Coordinates) (label : String)
  | unknownBlock (tile : Coordinates) (label target : String)
  | unknownBuffer (tile : Coordinates) (label buffer : String)
  | unknownLock (tile : Coordinates) (label lock : String)
  | duplicateSlot (tile : Coordinates) (label : String) (slot : BufferSlot)
  | mixedLocks (tile : Coordinates) (label : String)
  | tooManyDescriptors (tile : Coordinates) (count : Nat)
  | noSuchChannel (tile : Coordinates) (channel : UInt8)
  | memoryOnShim (tile : Coordinates)
  | portIndex (tile : Coordinates) (port : Port) (side : Side)
  | unknownAmsel (tile : Coordinates) (name : String)
  | emptyMasterSet (tile : Coordinates)
deriving DecidableEq

/-- The text of an issue. -/
def Issue.message : Issue → String
  | schemaVersion version => s!"unsupported schema_version '{version}' (supported: '1.0')"
  | tileOutOfRange tile => s!"tile {tile.text} is out of range"
  | columnZero tile => s!"tile {tile.text} is in column 0, which is not addressable"
  | duplicateTile tile => s!"tile {tile.text} is declared more than once"
  | kindMismatch tile kind => s!"tile {tile.text} is declared as {kind.title} but its row disagrees"
  | undeclaredTile part tile => s!"{part.title} refers to undeclared tile {tile.text}"
  | muxOffShimRow tile => s!"shim mux on tile {tile.text} is not in the shim row"
  | lockId name id => s!"lock '{name}' has id {id}, above the maximum of 15"
  | duplicateLabel tile label => s!"tile {tile.text}: block label '{label}' is used more than once"
  | unknownBlock tile label target =>
    s!"tile {tile.text}: '{label}' refers to unknown block '{target}'"
  | unknownBuffer tile label buffer =>
    s!"tile {tile.text}: block '{label}' transfers unknown buffer '{buffer}'"
  | unknownLock tile label lock => s!"tile {tile.text}: block '{label}' uses unknown lock '{lock}'"
  | duplicateSlot tile label slot =>
    s!"tile {tile.text}: block '{label}' has two transfers in slot {slot.title}"
  | mixedLocks tile label => s!"tile {tile.text}: block '{label}' uses more than one lock"
  | tooManyDescriptors tile count =>
    s!"tile {tile.text}: {count} descriptor blocks exceed the 16 available"
  | noSuchChannel tile channel => s!"tile {tile.text}: DMA channel {channel} does not exist"
  | memoryOnShim tile => s!"tile {tile.text} is a shim tile and has no memory DMA"
  | portIndex tile port side =>
    s!"switchbox {tile.text}: {port.bundle.title} {side.title} port {port.index} does not exist"
  | unknownAmsel tile name => s!"switchbox {tile.text} refers to unknown amsel '{name}'"
  | emptyMasterSet tile => s!"switchbox {tile.text}: master set has no amsel"

namespace Validation

/-- The issue, if the rule is broken. -/
def require (rule : Bool) (issue : Issue) : List Issue :=
  if rule then [] else [issue]

/-- What `f` finds for each item, given the keys of the items before it. -/
def withEarlier {α β : Type} (key : α → β) (f : List β → α → List Issue) :
    (earlier : List β) → List α → List Issue
  | _, [] => []
  | earlier, x :: rest => f earlier x ++ withEarlier key f (key x :: earlier) rest

/-! ## Tiles -/

def supportedVersion : String := "1.0"

def maxColumn : UInt8 := 127

def maxRow : UInt8 := 31

def maxLockId : UInt8 := 15

def maxChannel : UInt8 := 1

def place (t : Tile) : Coordinates :=
  ⟨t.column, t.row⟩

/-- The issues of a declared tile, given the places of the tiles before it. -/
def tileIssues (earlier : List Coordinates) (t : Tile) : List Issue :=
  require (t.column ≤ maxColumn && t.row ≤ maxRow) (.tileOutOfRange (place t)) ++
    require (t.column != 0) (.columnZero (place t)) ++
    require (!earlier.contains (place t)) (.duplicateTile (place t)) ++
    require ((t.kind == .compute) != t.isShim) (.kindMismatch (place t) t.kind)

/-- The issue of a part that sits on a tile that is not declared. -/
def tileReference (d : Device) (part : Part) (tile : Coordinates) : List Issue :=
  require (d.tiles.any fun t => place t == tile) (.undeclaredTile part tile)

/-! ## DMA programs -/

def labels (m : MemoryDma) : List String :=
  m.blocks.map (·.label)

def transferIssues (d : Device) (tile : Coordinates) (label : String) (earlier : List BufferSlot)
    (t : Transfer) : List Issue :=
  require (d.buffer? t.buffer).isSome (.unknownBuffer tile label t.buffer) ++
    require (!earlier.contains t.slot) (.duplicateSlot tile label t.slot)

/-- A block uses the same lock for everything. -/
def usesOneLock (block : DmaBlock) : Bool :=
  match block.locks with
  | [] => true
  | first :: rest => rest.all fun u => u.lock == first.lock

def blockIssues (d : Device) (m : MemoryDma) (tile : Coordinates) (block : DmaBlock) : List Issue :=
  (match block.next with
    | none => []
    | some next =>
      require ((labels m).contains next) (.unknownBlock tile block.label next)) ++
    withEarlier Transfer.slot (transferIssues d tile block.label) [] block.transfers ++
    block.locks.flatMap (fun u =>
      require (d.lock? u.lock).isSome (.unknownLock tile block.label u.lock)) ++
    require (usesOneLock block) (.mixedLocks tile block.label)

def startIssues (m : MemoryDma) (tile : Coordinates) (s : ChannelStart) : List Issue :=
  require ((labels m).contains s.block)
      (.unknownBlock tile (s!"{s.direction.name}{s.channel}") s.block) ++
    require (s.channel ≤ maxChannel) (.noSuchChannel tile s.channel)

/-- The number of blocks that need a descriptor. -/
def descriptorBlocks (m : MemoryDma) : Nat :=
  m.blocks.countP fun block => !block.transfers.isEmpty

def memoryIssues (d : Device) (m : MemoryDma) : List Issue :=
  let tile : Coordinates := ⟨m.column, m.row⟩
  require (m.row != 0) (.memoryOnShim tile) ++
    withEarlier DmaBlock.label (fun earlier block =>
      require (!earlier.contains block.label) (.duplicateLabel tile block.label)) [] m.blocks ++
    require (descriptorBlocks m ≤ 16) (.tooManyDescriptors tile (descriptorBlocks m)) ++
    m.blocks.flatMap (blockIssues d m tile) ++
    m.starts.flatMap (startIssues m tile)

/-! ## Switchboxes -/

/-- The issue of a port past the end of its bundle. -/
def portIssues (tile : Coordinates) (port : Port) (side : Side) : List Issue :=
  match port.bundle.ports side (tile.row == 0) with
  | none => []
  | some range => require (port.index.toNat < range.count) (.portIndex tile port side)

/-- The issue of an amsel that the switchbox does not have. -/
def amselIssues (s : Switchbox) (tile : Coordinates) (name : String) : List Issue :=
  require (s.amsel? name).isSome (.unknownAmsel tile name)

def switchboxIssues (s : Switchbox) : List Issue :=
  let tile : Coordinates := ⟨s.column, s.row⟩
  s.connects.flatMap (fun c => portIssues tile c.source .slave ++ portIssues tile c.dest .master) ++
    s.masterSets.flatMap (fun m =>
      portIssues tile m.dest .master ++ require (!m.amsels.isEmpty) (.emptyMasterSet tile) ++
        m.amsels.flatMap (amselIssues s tile)) ++
    s.packetTables.flatMap fun t =>
      portIssues tile t.source .slave ++ t.rules.flatMap fun r => amselIssues s tile r.amsel

end Validation

/-! ## Designs -/

open Validation in
/-- All issues of a design. -/
def Device.issues (d : Device) : List Issue :=
  require (d.schemaVersion == supportedVersion) (.schemaVersion d.schemaVersion) ++
    withEarlier place tileIssues [] d.tiles ++
    d.buffers.flatMap (fun b => tileReference d (.buffer b.name) ⟨b.column, b.row⟩) ++
    d.locks.flatMap (fun l => tileReference d (.lock l.name) ⟨l.column, l.row⟩ ++
      require (l.id ≤ maxLockId) (.lockId l.name l.id)) ++
    d.switchboxes.flatMap (fun s => tileReference d .switchbox ⟨s.column, s.row⟩) ++
    d.shimMuxes.flatMap (fun m => tileReference d .shimMux ⟨m.column, m.row⟩ ++
      require (m.row == 0) (.muxOffShimRow ⟨m.column, m.row⟩)) ++
    d.memories.flatMap (fun m =>
      tileReference d .memory ⟨m.column, m.row⟩ ++ memoryIssues d m) ++
    d.switchboxes.flatMap switchboxIssues

def issuesMessage (issues : List Issue) : String :=
  s!"{issues.length} problem(s) in device description: " ++
    "; ".intercalate (issues.map Issue.message)

end ArrayImage
