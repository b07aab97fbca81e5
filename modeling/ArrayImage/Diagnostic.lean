import ArrayImage.Program.Image
import ArrayImage.Stream.Port

/-!
# ArrayImage.Diagnostic

Problems that a run reports and carries past. A `Problem` is the cause; its kind and its text
follow from it, and a `Diagnostic` is what a reader sees of a problem on a tile.
-/

namespace ArrayImage

/-- The four kinds of diagnostics. -/
inductive DiagnosticKind where
  /-- A core program could not be loaded. -/
  | programLoad
  /-- The two buffers of a descriptor do not match. -/
  | abMode
  /-- The design asks for something that is not supported. -/
  | unimplemented
  /-- The design breaks a rule. -/
  | contract
deriving DecidableEq

namespace DiagnosticKind

def name : DiagnosticKind → String
  | programLoad => "program-load"
  | abMode => "ab-mode"
  | unimplemented => "unimplemented"
  | contract => "contract"

/-- Lost programs and broken rules are errors, the other two kinds are warnings. -/
def isError : DiagnosticKind → Bool
  | programLoad | contract => true
  | abMode | unimplemented => false

end DiagnosticKind

/-- A problem as a reader sees it. -/
structure Diagnostic where
  kind : DiagnosticKind
  tile : TileId
  message : String

def Diagnostic.text (d : Diagnostic) : String :=
  s!"[{d.kind.name}] tile {d.tile.text}: {d.message}"

/-- A recoverable problem on one tile. -/
inductive Problem where
  /-- A core program is left out. -/
  | programLoad (path : String) (cause : LoadError)
  /-- A connection cannot be routed. -/
  | route (error : RouteError)
  /-- A master set names an amsel that its switchbox does not have. -/
  | masterAmsel (dest : Port) (amsel : String)
  /-- A master set names no amsel. -/
  | masterWithoutAmsel (dest : Port)
  /-- A packet rule names an amsel that its switchbox does not have. -/
  | ruleAmsel (amsel : String)
  /-- A packet table has more rules than the port has slots. -/
  | tooManyRules (source : Port)
  /-- A shim tile has no data memory. -/
  | memoryOnShim
  /-- A transfer names a buffer without an address. -/
  | unresolvedBuffer (block buffer : String)
  /-- The two transfers of a descriptor have different lengths. -/
  | lengthMismatch (block : String) (a b : UInt32)
  /-- The two buffers of a descriptor have elements of different sizes. -/
  | elementMismatch (block : String) (a b : UInt32)
  /-- A lock use names a lock that the design does not have. -/
  | unknownLock (block lock : String)
  /-- Locks are ignored for the second buffer. -/
  | lockOnB (block : String)
  /-- All descriptors of the tile are taken. -/
  | noDescriptorLeft (block : String) (slot : Nat)
  /-- A start names a channel that the direction does not have. -/
  | noSuchChannel (direction : ChannelDirection) (channel : UInt8)
deriving DecidableEq

/-- Only a port past the end of its bundle breaks a rule; other routes are just not supported. -/
def RouteError.kind : RouteError → DiagnosticKind
  | noSuchPort _ _ _ => .contract
  | unmapped _ | muxIndex _ | muxInput _ => .unimplemented

namespace Problem

def kind : Problem → DiagnosticKind
  | programLoad _ _ => .programLoad
  | route error => error.kind
  | lengthMismatch _ _ _ | elementMismatch _ _ _ => .abMode
  | lockOnB _ => .unimplemented
  | masterAmsel _ _ | masterWithoutAmsel _ | ruleAmsel _ | tooManyRules _ | memoryOnShim
  | unresolvedBuffer _ _ | unknownLock _ _ | noDescriptorLeft _ _ | noSuchChannel _ _ => .contract

def message : Problem → String
  | programLoad path cause => s!"cannot load {Text.quoted path}: {cause.message}"
  | route error => error.message
  | masterAmsel dest amsel => s!"master set on {dest.name} uses unknown amsel '{amsel}'"
  | masterWithoutAmsel dest => s!"master set on {dest.name} has no amsel"
  | ruleAmsel amsel => s!"packet rule uses unknown amsel '{amsel}'"
  | tooManyRules source =>
    s!"{source.name} has more than {RegisterMap.slotsPerPort} packet rules"
  | memoryOnShim => "shim tiles have no memory DMA"
  | unresolvedBuffer block buffer => s!"block '{block}': buffer '{buffer}' has no address"
  | lengthMismatch block a b => s!"block '{block}': AB mode needs matching lengths ({a} vs {b})"
  | elementMismatch block a b =>
    s!"block '{block}': AB mode needs matching element types ({a} vs {b} bytes)"
  | unknownLock block lock => s!"block '{block}': unknown lock '{lock}'"
  | lockOnB block =>
    s!"block '{block}': locks on buffer B are not supported, B carries its address only"
  | noDescriptorLeft block slot => s!"block '{block}': no descriptor left (slot {slot})"
  | noSuchChannel direction channel => s!"{direction.title} channel {channel} does not exist"

def on (p : Problem) (tile : TileId) : Diagnostic :=
  ⟨p.kind, tile, p.message⟩

end Problem
end ArrayImage
