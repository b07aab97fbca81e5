import ArrayImage.CommandLine

/-!
# ArrayImage.Main

The program: it reads the files that a run asks for, does the run, writes the output and shows the
lines.
-/

namespace ArrayImage

def fileErrorOf : IO.Error → FileError
  | .noFileOrDirectory .. => .notFound
  | .inappropriateType _ 20 _ => .notDirectory
  | .inappropriateType _ 21 _ => .isDirectory
  | .invalidArgument _ 36 _ => .nameTooLong
  | .resourceExhausted _ 28 _ => .noSpace
  | e => .other (toString e)

/-- The bytes of a file, or why it cannot be read. -/
def readFile (path : String) : IO (Except FileError (List UInt8)) := do
  try return .ok (← IO.FS.readBinFile path).toList
  catch e => return .error (fileErrorOf e)

def writeFile (path : String) (bytes : List UInt8) : IO (Option OutputError) := do
  match ← (IO.FS.Handle.mk path .write).toBaseIO with
  | .error e => return some (.notOpened (fileErrorOf e))
  | .ok handle =>
    try
      handle.write ⟨bytes.toArray⟩
      handle.flush
      return none
    catch e => return some (.notTaken (fileErrorOf e))

/-- Files that were read before. -/
def knownFiles (known : List (String × Except FileError (List UInt8))) : FileSystem where
  read path := (known.lookup path).getD (.error .notFound)
  outputError? _ := none

def readFiles (o : Options) : IO FileSystem := do
  let design := (o.design, ← readFile o.design)
  match Device.load (knownFiles [design]) o.design with
  | .error _ => return knownFiles [design]
  | .ok d =>
    let programs ← d.tiles.mapM fun t => do
      let file := t.core.bind (·.programFile)
      let path := programPath o.programDir t.column t.row file
      return (path, ← readFile path)
    return knownFiles (design :: programs)

def showLine (line : Line) : IO Unit :=
  match line with
  | .log level _ => IO.println s!"{level.name} {line.text}"
  | .row _ => IO.println line.text

/-- Write the output of a run. If that fails, the run is one that knows so. -/
def outcomeWith (o : Options) (files : FileSystem) : IO Outcome := do
  let outcome := o.run files
  match outcome.image with
  | none => return outcome
  | some bytes =>
    match ← writeFile o.output bytes with
    | none => return outcome
    | some e => return o.run { files with outputError? := fun _ => some e }

def runWith (o : Options) : IO UInt32 := do
  let outcome ← outcomeWith o (← readFiles o)
  outcome.lines.forM showLine
  if let .fault fault := outcome.exit then IO.eprintln fault.message
  return UInt32.ofNat outcome.exit.number

end ArrayImage

/-- Read the arguments and do the run. -/
def main (args : List String) : IO UInt32 := do
  match ArrayImage.Options.ofArguments? args with
  | some o => ArrayImage.runWith o
  | none =>
    IO.eprintln "usage: -d DEVICE -o OUTPUT [--elf-dir DIR] [--strict] [--trace] [--dump-sections]"
    return 2
