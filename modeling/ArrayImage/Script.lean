import ArrayImage.Diagnostic
import ArrayImage.WriteLog

/-!
# ArrayImage.Script

A configuration run as a list of steps.

Each phase turns a description into a `Script`: the writes it makes and the problems it finds, in
order. What ends a run is a step too, a broken precondition or a program that cannot be trusted,
and the steps behind it are never reached. Scripts do not depend on the register state, so what a
phase does can be read off its list, and phases are joined with `++`.
-/

namespace ArrayImage

/-- A program file that cannot be trusted. It ends the run. -/
structure LoadFailure where
  tile : TileId
  path : String
  cause : LoadError

def LoadFailure.message (f : LoadFailure) : String :=
  s!"Cannot load core program for tile {f.tile.text} from {Text.quoted f.path}"

/-- Something that is worth a line in the log, but no problem. -/
inductive Remark where
  /-- A program without segments was loaded. -/
  | emptyProgram
  /-- The descriptor of a block was written, with this control word. -/
  | descriptor (slot : Nat) (block : String) (control : Word)
  /-- A start was left out, since its block has no descriptor. -/
  | startLeftOut (block : String)

/-- One step of a run. -/
inductive Step where
  /-- A register is written. -/
  | write (w : Write)
  /-- A problem is reported; the run goes on. -/
  | report (tile : TileId) (p : Problem)
  /-- Something is remarked; nothing changes. -/
  | remark (tile : TileId) (r : Remark)
  /-- A precondition does not hold. -/
  | fault (f : Fault)
  /-- A program cannot be trusted. -/
  | abort (f : LoadFailure)

/-- Why a run ended early. -/
inductive Stop where
  | fault (f : Fault)
  | abort (f : LoadFailure)

namespace Step

def stop? : Step → Option Stop
  | fault f => some (.fault f)
  | abort f => some (.abort f)
  | write _ | report _ _ | remark _ _ => none

def continues (s : Step) : Bool :=
  s.stop?.isNone

def write? : Step → Option Write
  | write w => some w
  | report _ _ | remark _ _ | fault _ | abort _ => none

def diagnostic? : Step → Option Diagnostic
  | report tile p => some (p.on tile)
  | write _ | remark _ _ | fault _ | abort _ => none

/-- The write of `update` at `offset` of `tile`, or the fault that it is. -/
def put (tile : TileId) (offset : Nat) (update : Update) : Step :=
  match Write.at? tile offset update with
  | .ok w => .write w
  | .error f => .fault f

end Step

/-- The steps of a run, in order. -/
abbrev Script := List Step

namespace Script

/-- The steps before the first one that ends the run. -/
def reached (s : Script) : Script :=
  s.takeWhile Step.continues

/-- Why the run ends early, if it does. -/
def stop? (s : Script) : Option Stop :=
  s.findSome? Step.stop?

def writes (s : Script) : List Write :=
  s.reached.filterMap Step.write?

def diagnostics (s : Script) : List Diagnostic :=
  s.reached.filterMap Step.diagnostic?

/-- The register state after the run. -/
def applyTo (s : Script) (log : WriteLog) : WriteLog :=
  log.applyAll s.writes

/-- The steps of `f` on the tile at these coordinates, or the fault that they are. -/
def onTile (array column row : Nat) (f : TileId → Script) : Script :=
  match TileId.at? array column row with
  | .ok tile => f tile
  | .error fault => [.fault fault]

/-- Zero for `length` bytes from `start` on, a word at a time.

The first word past the window is a fault, and a window has no more than `windowSize / 4` words,
so one more than these is all that need be listed. -/
def clear (tile : TileId) (start length : Nat) : Script :=
  if start % 4 ≠ 0 then [.fault (.clearStart start)]
  else if length % 4 ≠ 0 then [.fault (.clearLength length)]
  else
    match checkedAdd 32 start length with
    | .error fault => [.fault fault]
    | .ok _ =>
      (List.range (min (length / 4) (windowSize / 4 + 1))).map fun i =>
        Step.put tile (start + 4 * i) (.put 0)

end Script
end ArrayImage
