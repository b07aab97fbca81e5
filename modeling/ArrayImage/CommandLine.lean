import ArrayImage.Compile
import ArrayImage.Container.Image
import ArrayImage.Loading
import ArrayImage.Options
import ArrayImage.Program.Reader
import ArrayImage.Text.Terminal

/-!
# ArrayImage.CommandLine

A whole run, from the arguments to the output file.

`Options.run` is a function of the options and of what the files say. Its `Outcome` has the exit code,
the lines that are shown, and the bytes of the output file if one is written.
-/

namespace ArrayImage

inductive LogLevel where
  | error
  | warning
  | info
  | debug
deriving DecidableEq

def LogLevel.name : LogLevel → String
  | error => "ERROR"
  | warning => "WARN"
  | info => "INFO"
  | debug => "DEBUG"

/-- A line that a run shows. -/
inductive Line where
  | log (level : LogLevel) (message : String)
  /-- A row of the table of sections. -/
  | row (text : String)
deriving DecidableEq

/-- The text of a line as it is shown. The log can quote a design, so it is made fit for a
terminal. -/
def Line.text : Line → String
  | log _ message => Text.forTerminal message
  | row text => text

/-- How a run ends. -/
inductive ExitCode where
  | pass
  /-- Something was reported, and nothing may be. -/
  | diagnostics
  /-- There is no design. -/
  | badDesign
  /-- There is no image. -/
  | failed
  /-- A precondition does not hold. -/
  | fault (cause : Fault)
deriving DecidableEq

def ExitCode.number : ExitCode → Nat
  | pass => 0
  | diagnostics => 1
  | badDesign => 2
  | failed => 3
  | fault _ => 101

/-- The result of a run. -/
structure Outcome where
  exit : ExitCode
  lines : List Line
  /-- The bytes of the output file, if it is written. -/
  image : Option (List UInt8)
deriving DecidableEq

def Outcome.after (lines : List Line) (outcome : Outcome) : Outcome :=
  { outcome with lines := lines ++ outcome.lines }

/-! ## The log -/

namespace Remark

def level : Remark → LogLevel
  | emptyProgram => .warning
  | descriptor _ _ _ | startLeftOut _ => .debug

def message (tile : TileId) : Remark → String
  | emptyProgram => "No loadable segments found in core program"
  | descriptor slot block control =>
    s!"{tile.text}: BD{slot} '{block}' control={Text.hexPadded 8 control.toNat}"
  | startLeftOut block => s!"{tile.text}: start of '{block}' has no descriptor"

end Remark

/-- The line of one step. -/
def Step.line? : Step → Option Line
  | .report tile p => some (.log (if p.kind.isError then .error else .warning) (p.on tile).text)
  | .remark tile r => some (.log r.level (r.message tile))
  | .write _ | .fault _ | .abort _ => none

def Script.lines (s : Script) : List Line :=
  s.reached.filterMap Step.line?

/-- What a design has, in one line. -/
def Device.summary (d : Device) : String :=
  s!"Loaded device '{d.name}': {d.tiles.length} tiles, {d.memories.length} mems, " ++
    s!"{d.switchboxes.length} switchboxes, {d.shimMuxes.length} shim muxes"

def Report.summary (r : Report) : String :=
  s!"{r.words} words in {r.sections.length} sections, {r.diagnostics.length} diagnostics"

/-- The last line of a run that reported something. -/
def countLine (diagnostics : List Diagnostic) : List Line :=
  if diagnostics.isEmpty then []
  else [.log .warning s!"{diagnostics.length} diagnostic(s) reported"]

def OutputError.message (path : String) : OutputError → String
  | notOpened cause => s!"Failed to create output {Text.quoted path}: {cause.message}"
  | notTaken cause =>
    ": ".intercalate
      (s!"Failed to write airbin image to {Text.quoted path}" :: WriteError.chain ⟨cause.message⟩)

/-- The line is shown. Only a run that is asked to log more shows all lines. -/
def Options.shows (o : Options) : Line → Bool
  | .log .debug _ => o.trace
  | .log _ _ | .row _ => true

/-! ## The table -/

def tableRow (index name address tile size : String) : Line :=
  .row (Text.padLeft 4 ' ' index ++ "  " ++ Text.padRight 10 name ++ " " ++
    Text.padLeft 14 ' ' address ++ " " ++ Text.padLeft 16 ' ' tile ++ " " ++
    Text.padLeft 8 ' ' size)

def Section.row (index : Nat) (s : Section) : Line :=
  let r := Register.ofAddress s.address
  tableRow (toString index) (s.name?.getD "-") (Text.hexPadded 12 s.address)
    s!"{r.tile.text}+{Text.hex r.offset}" (Text.hex s.byteSize)

/-- The table of some sections. The first two sections of an image have no data. -/
def sectionTable (sections : List Section) : List Line :=
  tableRow "idx" "name" "address" "tile" "size" ::
    sections.mapIdx fun i s => s.row (i + 2)

/-! ## The run -/

def FileSystem.programs (files : FileSystem) : ProgramSource := fun path =>
  match files.read path with
  | .ok bytes => ProgramImage.ofBytes bytes
  | .error _ => .error (.unreadable path)

def Report.deliver (r : Report) (o : Options) (files : FileSystem) : Outcome :=
  let lines := .log .info r.summary :: if o.showSections then sectionTable r.sections else []
  match files.outputError? o.output with
  | some e => ⟨.failed, lines ++ [.log .error (e.message o.output)], none⟩
  | none =>
    let written :=
      s!"Wrote {r.sections.length} sections ({r.words} words) to {Text.quoted o.output}"
    ⟨if o.strict && !r.isClean then .diagnostics else .pass,
      lines ++ .log .info written :: countLine r.diagnostics, some (Container.encode r.sections)⟩

/-- Compile a design and write its image. -/
def Options.build (o : Options) (files : FileSystem) (d : Device) : Outcome :=
  let lines := .log .info s!"Compiling device '{d.name}'" ::
    (d.script files.programs o.programDir d.addressOf?).lines
  match d.compile files.programs o.programDir d.addressOf? with
  | .error (.fault fault) => ⟨.fault fault, lines, none⟩
  | .error (.abort f) =>
    ⟨.failed, lines ++ [.log .error s!"{f.message}: {f.cause.message}"], none⟩
  | .ok report => (report.deliver o files).after lines

/-- A whole run with all of its lines. -/
def Options.perform (o : Options) (files : FileSystem) : Outcome :=
  let start := Line.log .info s!"Loading device description: {Text.quoted o.design}"
  match Device.load files o.design with
  | .error e => ⟨.badDesign, [start, .log .error e.message], none⟩
  | .ok d =>
    let lines := [start, .log .debug d.summary]
    match d.accept o.design with
    | .error e => ⟨.badDesign, lines ++ [.log .error e.message], none⟩
    | .ok d => (o.build files d).after lines

def Options.run (o : Options) (files : FileSystem) : Outcome :=
  let outcome := o.perform files
  { outcome with lines := outcome.lines.filter o.shows }

def Outcome.files (outcome : Outcome) (o : Options) (before : FileTree) : FileTree :=
  match outcome.image with
  | some bytes => before.write o.output bytes
  | none => before

end ArrayImage
