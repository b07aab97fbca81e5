import ArrayImage.Path

/-!
# ArrayImage.Options

The arguments of a run.

`Options.ofArguments?` reads them: each option may be given once, `-d` and `-o` must be given, and a
value stands in the same argument or in the next one.
-/

namespace ArrayImage

structure Options where
  /-- The file with the design. -/
  design : String
  /-- The file to be written. -/
  output : String
  /-- Where programs are, if that is said. -/
  programDir? : Option String
  /-- Fail if anything was reported. -/
  strict : Bool
  /-- Log more. -/
  trace : Bool
  /-- Show the table of sections. -/
  showSections : Bool
deriving DecidableEq

/-- The directory with the programs. It is the one with the design unless something else is said. -/
def Options.programDir (o : Options) : String :=
  o.programDir?.getD (Path.directory o.design)

/-! ## Arguments -/

/-- An option by its name. -/
inductive Flag where
  | design
  | output
  | programDir
  | strict
  | trace
  | showSections
deriving DecidableEq

namespace Flag

def all : List Flag :=
  [design, output, programDir, strict, trace, showSections]

def name : Flag → String
  | design => "device"
  | output => "output"
  | programDir => "elf-dir"
  | strict => "strict"
  | trace => "trace"
  | showSections => "dump-sections"

def letter? : Flag → Option Char
  | design => some 'd'
  | output => some 'o'
  | trace => some 't'
  | programDir | strict | showSections => none

def hasValue : Flag → Bool
  | design | output | programDir => true
  | strict | trace | showSections => false

end Flag

/-- What one argument says: options with their values, and an option whose value comes next. -/
structure Argument where
  given : List (Flag × String)
  waiting : Option Flag

/-- Options by their letters. What stands behind one with a value is its value. -/
def letters? : List Char → Option Argument
  | [] => some ⟨[], none⟩
  | c :: rest => do
    let flag ← Flag.all.find? (·.letter? == some c)
    if flag.hasValue then
      match rest with
      | [] => return ⟨[], some flag⟩
      | '=' :: value | value => return ⟨[(flag, String.ofList value)], none⟩
    else
      let others ← letters? rest
      return { others with given := (flag, "") :: others.given }

def named? (cs : List Char) : Option Argument := do
  let flag ← Flag.all.find? (·.name.toList == cs.takeWhile (· != '='))
  match flag.hasValue, cs.dropWhile (· != '=') with
  | true, [] => return ⟨[], some flag⟩
  | true, _ :: value => return ⟨[(flag, String.ofList value)], none⟩
  | false, [] => return ⟨[(flag, "")], none⟩
  | false, _ :: _ => none

/-- What one argument says. -/
def Argument.ofText? (text : String) : Option Argument :=
  match text.toList with
  | '-' :: '-' :: name => named? name
  | '-' :: c :: rest => letters? (c :: rest)
  | _ => none

/-- The text can be a value of its own. A lone dash can. -/
def isValue (text : String) : Bool :=
  text == "-" || text.toList.head? != some '-'

/-- All options that are given, in order. -/
def givenOptions? : List String → Option (List (Flag × String))
  | [] | ["--"] => some []
  | text :: rest =>
    match Argument.ofText? text, rest with
    | some ⟨given, none⟩, rest => (givenOptions? rest).map (given ++ ·)
    | some ⟨given, some flag⟩, value :: rest =>
      if isValue value then (givenOptions? rest).map (given ++ (flag, value) :: ·) else none
    | _, _ => none

/-- The options in some arguments. Nothing is read from arguments that do not fit together. -/
def Options.ofArguments? (arguments : List String) : Option Options := do
  let given ← givenOptions? arguments
  let flags := given.map (·.1)
  guard (flags.eraseDups.length = flags.length)
  guard (given.all fun (flag, value) => !flag.hasValue || value != "")
  let has (flag : Flag) : Bool := flags.contains flag
  return {
    design := ← given.lookup .design
    output := ← given.lookup .output
    programDir? := given.lookup .programDir
    strict := has .strict
    trace := has .trace
    showSections := has .showSections }

end ArrayImage
