import ArrayImage.FileTree
import ArrayImage.Json.Reader
import ArrayImage.Path
import ArrayImage.Schema.Device
import ArrayImage.Validation
import ArrayImage.Yaml.Decode

/-!
# ArrayImage.Loading

From a file to the design that it describes.

A file whose name ends in `.json` holds JSON, every other one YAML. `Device.loadValid` also wants a
design without issues.
-/

namespace ArrayImage

/-- Why there is no design. -/
inductive LoadingError where
  /-- The file cannot be read as text. -/
  | unreadable (path reason : String)
  /-- The file holds no JSON of the right shape. -/
  | json (path : String) (cause : Json.ReadError)
  /-- The file holds no YAML of the right shape. -/
  | yaml (path : String)
  /-- The design breaks rules. -/
  | invalid (path : String) (issues : List Issue)

namespace LoadingError

/-- What was tried, in words. -/
def attempt : LoadingError → String
  | unreadable path _ => s!"Failed to read device description at {Text.quoted path}"
  | json path _ => s!"Failed to parse device description JSON from {Text.quoted path}"
  | yaml _ => "Failed to parse device description YAML"
  | invalid path _ => s!"Invalid device description {Text.quoted path}"

/-- Why it failed, in words, if words are known. -/
def reason? : LoadingError → Option String
  | unreadable _ reason => some reason
  | json _ (.data cause) => some cause.message
  | json _ .malformed | yaml _ => none
  | invalid _ issues => some (issuesMessage issues)

def message (e : LoadingError) : String :=
  match e.reason? with
  | none => e.attempt
  | some reason => s!"{e.attempt}: {reason}"

end LoadingError

/-- The text of a file. -/
def FileSystem.readText (files : FileSystem) (path : String) : Except String String :=
  match files.read path with
  | .error e => .error e.message
  | .ok bytes =>
    match String.fromUTF8? ⟨bytes.toArray⟩ with
    | some text => .ok text
    | none => .error "stream did not contain valid UTF-8"

namespace Device

def ofJson (text : String) : Except Json.ReadError Device := do
  match ofValue? (← Json.read shape text) with
  | some d => return d
  | none => throw .malformed

def ofYaml? (text : String) : Option Device :=
  (Yaml.read? shape text).bind ofValue?

/-- The design that a file describes. -/
def load (files : FileSystem) (path : String) : Except LoadingError Device := do
  let text ← (files.readText path).mapError (.unreadable path)
  if Path.extension? path = some "json" then (ofJson text).mapError (.json path)
  else
    match ofYaml? text with
    | some d => return d
    | none => throw (.yaml path)

/-- The design that the file at a path describes, if it has no issues. -/
def accept (path : String) (d : Device) : Except LoadingError Device :=
  if d.issues.isEmpty then .ok d else .error (.invalid path d.issues)

/-- The design that a file describes, which must have no issues. -/
def loadValid (files : FileSystem) (path : String) : Except LoadingError Device := do
  (← load files path).accept path

end Device
end ArrayImage
