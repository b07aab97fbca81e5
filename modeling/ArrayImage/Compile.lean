import ArrayImage.Dma.Chain
import ArrayImage.Section
import ArrayImage.Stream.Routing
import ArrayImage.TileSetup

/-!
# ArrayImage.Compile

From a design to the sections of its image.

The three phases run in order on an empty log: tiles are cleared and loaded, streams are routed,
DMA programs are written. `Device.compile` reports the sections of the log and all diagnostics, or
says why the run ended early.
-/

namespace ArrayImage

/-- The steps of a whole run. -/
def Device.script (d : Device) (source : ProgramSource) (dir : String)
    (addresses : AddressSource) : Script :=
  d.tileSteps source dir ++ d.streamSteps ++ d.dmaSteps addresses

/-- The result of a run that did not end early. -/
structure Report where
  sections : List Section
  diagnostics : List Diagnostic
  words : Nat

def Report.isClean (r : Report) : Bool :=
  r.diagnostics.isEmpty

/-- The final register state and the diagnostics of a run. -/
def Device.configure (d : Device) (source : ProgramSource) (dir : String)
    (addresses : AddressSource) : Except Stop (WriteLog × List Diagnostic) :=
  let script := d.script source dir addresses
  match script.stop? with
  | some stop => .error stop
  | none => .ok (script.applyTo .empty, script.diagnostics)

/-- Compile a design. -/
def Device.compile (d : Device) (source : ProgramSource) (dir : String)
    (addresses : AddressSource) : Except Stop Report :=
  match d.configure source dir addresses with
  | .error stop => .error stop
  | .ok (log, diagnostics) =>
    match log.sections with
    | .error fault => .error (.fault fault)
    | .ok sections => .ok ⟨sections, diagnostics, log.size⟩

end ArrayImage
