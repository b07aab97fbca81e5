import ArrayImage.Path
import ArrayImage.Script

/-!
# ArrayImage.TileSetup

The first phase of a run: every declared tile is cleared, and compute tiles get their programs.

`TileKind.resetRegions` lists what is cleared for each kind of tile. A program that cannot be loaded is
reported and left out, unless its file cannot be trusted: then the run ends.
-/

namespace ArrayImage

/-- Where programs come from: the image at a path, or the reason why there is none. -/
abbrev ProgramSource := String → Except LoadError ProgramImage

/-- What a compute tile is cleared of, in order. -/
def computeRegions : List Region :=
  [RegisterMap.programMemory, RegisterMap.dataMemory, RegisterMap.descriptors,
    RegisterMap.s2mmChannels, RegisterMap.mm2sChannels,
    RegisterMap.computeMasters, RegisterMap.computeSlaves, RegisterMap.computeSlots]

/-- What a shim tile is cleared of, in order. Only those with a network interface have a DMA. -/
def shimRegions (network : Bool) : List Region :=
  (if network then [RegisterMap.shimDescriptors] else []) ++
    [RegisterMap.shimMasters, RegisterMap.shimSlaves, RegisterMap.shimSlots]

def TileKind.resetRegions : TileKind → List Region
  | .compute => computeRegions
  | .shimNoc => shimRegions true
  | .shimPl => shimRegions false

def clearSteps (tile : TileId) (regions : List Region) : Script :=
  regions.flatMap fun region => Script.clear tile region.base region.size

/-! ## Programs -/

namespace Segment

/-- The words of a segment that fits, one after the other from its destination on. -/
def placeSteps (tile : TileId) (s : Segment) : Script :=
  match s.destination with
  | .error fault => [.fault fault]
  | .ok dest =>
    (wordsOfBytes s.data).mapIdx fun i word => Step.put tile (dest + 4 * i) (.put word)

end Segment

/-- The steps that write a program. A program of which one segment does not fit is not written at
all. -/
def ProgramImage.placeSteps (tile : TileId) (p : ProgramImage) : Except LoadError Script :=
  match p.verdict with
  | .fits => .ok (p.segments.flatMap (Segment.placeSteps tile))
  | .rejected error => .error error
  | .broken fault => .ok [.fault fault]

/-- The program file of a compute tile. Without a name it is called after the coordinates. -/
def programPath (dir : String) (column row : UInt8) (file : Option String) : String :=
  Path.join dir (file.getD s!"core_{column}_{row}.elf")

def loadSteps (source : ProgramSource) (dir : String) (tile : TileId) (t : Tile) : Script :=
  match t.core with
  | none => []
  | some core =>
    let path := programPath dir t.column t.row core.programFile
    match source path with
    | .error cause => failed path cause
    | .ok image =>
      let remark := if image.segments.isEmpty then [Step.remark tile .emptyProgram] else []
      match image.placeSteps tile with
      | .error cause => remark ++ failed path cause
      | .ok steps => remark ++ steps
where
  /-- A program that is not loaded. -/
  failed (path : String) (cause : LoadError) : Script :=
    if cause.isFatal then [.abort ⟨tile, path, cause⟩]
    else [.report tile (.programLoad path cause)]

/-! ## The phase -/

def Tile.setupSteps (source : ProgramSource) (dir : String) (array : Nat) (t : Tile) : Script :=
  Script.onTile array t.column.toNat t.row.toNat fun tile =>
    match t.kind with
    | .compute => clearSteps tile TileKind.compute.resetRegions ++ loadSteps source dir tile t
    | kind => clearSteps tile kind.resetRegions

def Device.tileSteps (d : Device) (source : ProgramSource) (dir : String) : Script :=
  d.tiles.flatMap (Tile.setupSteps source dir d.arrayOffset.toNat)

end ArrayImage
