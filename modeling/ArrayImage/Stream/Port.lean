import ArrayImage.Description.Names

/-!
# ArrayImage.Stream.Port

The ports of a stream switch. A bundle and an index name a port of a design; the switch itself
numbers its input side (slaves) and its output side (masters). `Bundle.ports` says which numbers a
bundle has on each side of a shim or compute tile, and `Port.number` looks a port up there.
-/

namespace ArrayImage

/-- A side of the stream switch: input ports are slaves, output ports are masters. -/
inductive Side where
  | slave
  | master
deriving DecidableEq

def Side.title : Side → String
  | slave => "Slave"
  | master => "Master"

/-- `count` consecutive port numbers from `first` on. -/
structure PortRange where
  first : Nat
  count : Nat

namespace Bundle

/-- The switch ports of a bundle on one side of a shim (`true`) or compute (`false`) tile. Bundles
without stream-switch ports have none. -/
def ports : Bundle → Side → Bool → Option PortRange
  | dma, _, true => some ⟨2, 1⟩
  | dma, _, false => some ⟨2, 2⟩
  | south, .slave, true => some ⟨3, 8⟩
  | south, .master, true => some ⟨3, 6⟩
  | south, .slave, false => some ⟨7, 6⟩
  | south, .master, false => some ⟨7, 4⟩
  | west, .slave, true => some ⟨11, 4⟩
  | west, .master, true => some ⟨9, 4⟩
  | west, .slave, false => some ⟨13, 4⟩
  | west, .master, false => some ⟨11, 4⟩
  | north, .slave, true => some ⟨15, 4⟩
  | north, .master, true => some ⟨13, 6⟩
  | north, .slave, false => some ⟨17, 4⟩
  | north, .master, false => some ⟨15, 6⟩
  | east, _, true => some ⟨19, 4⟩
  | east, _, false => some ⟨21, 4⟩
  | _, _, _ => none

end Bundle

/-- Why a connection cannot be routed. -/
inductive RouteError where
  /-- The bundle has no switch ports. -/
  | unmapped (bundle : Bundle)
  /-- The bundle has only `count` ports. -/
  | noSuchPort (bundle : Bundle) (index : UInt8) (count : Nat)
  /-- The shim mux does not reach this stream. -/
  | muxIndex (index : UInt8)
  /-- The shim mux cannot select this bundle. -/
  | muxInput (bundle : Bundle)
deriving DecidableEq

def RouteError.message : RouteError → String
  | unmapped bundle => s!"{bundle.title} ports have no stream switch mapping"
  | noSuchPort bundle index count =>
    s!"{bundle.title} port {index} does not exist (the bundle has {count})"
  | muxIndex index => s!"shim mux index {index} is not routable"
  | muxInput bundle => s!"{bundle.title} cannot drive the shim mux"

namespace Port

/-- A port by its bundle and index, as in `north4`. -/
def name (p : Port) : String :=
  s!"{p.bundle.name}{p.index}"

/-- The number of a port on one side of the switch. -/
def number (p : Port) (side : Side) (shim : Bool) : Except RouteError Nat :=
  match p.bundle.ports side shim with
  | none => .error (.unmapped p.bundle)
  | some range =>
    if p.index.toNat < range.count then .ok (range.first + p.index.toNat)
    else .error (.noSuchPort p.bundle p.index range.count)

end Port
end ArrayImage
