/-!
# ArrayImage.FileTree

Files as a run sees them.

A `FileSystem` says what can be read and where an output can be written, and nothing else. A
`FileTree` is a file system in memory: some files, the directories that they need, and what every
system has. Above the working directory there are more directories, of which nothing else is known.
-/

namespace ArrayImage

/-- Why a file cannot be read or written. -/
inductive FileError where
  | notFound
  | notDirectory
  | isDirectory
  | nameTooLong
  | noSpace
  /-- The path has a NUL in it, so it names nothing. -/
  | nulInName
  /-- Any other reason, by its text. -/
  | other (text : String)
deriving DecidableEq

def FileError.message : FileError → String
  | notFound => "No such file or directory (os error 2)"
  | notDirectory => "Not a directory (os error 20)"
  | isDirectory => "Is a directory (os error 21)"
  | nameTooLong => "File name too long (os error 36)"
  | noSpace => "No space left on device (os error 28)"
  | nulInName => "file name contained an unexpected NUL byte"
  | other text => text

/-- Why an output cannot be written. -/
inductive OutputError where
  /-- There is no file to write to. -/
  | notOpened (cause : FileError)
  /-- The file does not take the bytes. -/
  | notTaken (cause : FileError)
deriving DecidableEq

/-- What a run may ask for. -/
structure FileSystem where
  /-- The bytes of the file at a path. -/
  read : String → Except FileError (List UInt8)
  /-- Why no output can be written at a path. -/
  outputError? : String → Option OutputError

/-! ## Places -/

/-- A place in a file system, by the names on the way to it from the working directory. It starts
with `..` for each directory above the working directory, or with `/` when it is under the root. -/
abbrev Place := List String

def Place.root : Place := ["/"]

/-- The directory around a place. The root is in itself. -/
def Place.above (place : Place) : Place :=
  if place = root then root
  else if place.all (· = "..") then ".." :: place
  else place.dropLast

def Place.device (name : String) : Place := ["/", "dev", name]

/-- The place of the device that takes no bytes. -/
def Place.fullDevice : Place := .device "full"

/-- The devices that every system has. No output changes what is read from them. -/
def Place.standardDevices : List Place :=
  [fullDevice, .device "null", .device "stderr", .device "stdout", .device "zero"]

def Place.standardDirectories : List Place :=
  ["bin", "boot", "dev", "etc", "home", "lib", "media", "mnt", "opt", "proc", "root", "run", "sbin",
    "srv", "sys", "tmp", "usr", "var"].map fun name => ["/", name]

/-- Some files and directories. Of several files at one place the first one counts. -/
structure FileTree where
  files : List (Place × List UInt8)
  directories : List Place

namespace FileTree

/-- The tree without files of its own. Its devices have nothing to read. -/
def empty : FileTree :=
  ⟨Place.standardDevices.map (·, []), Place.standardDirectories⟩

/-- A directory stands at this place. -/
def isDirectory (t : FileTree) (place : Place) : Bool :=
  place = Place.root || place.all (· = "..") || t.directories.contains place

/-- A file stands at this place. -/
def isFile (t : FileTree) (place : Place) : Bool :=
  (t.files.lookup place).isSome

/-! ## Paths -/

/-- A part of a path that stays in its directory or leaves it. -/
def isStep (part : String) : Bool :=
  part = "" || part = "." || part = ".."

/-- The place of `part` as seen from the directory `here`. -/
def next (here : Place) (part : String) : Except FileError Place :=
  if part = "" ∨ part = "." then .ok here
  else if part = ".." then .ok here.above
  else if 255 < part.utf8ByteSize then .error .nameTooLong
  else .ok (here ++ [part])

/-- The directory that some parts of a path lead to from the directory `here`. -/
def enter (t : FileTree) (here : Place) : List String → Except FileError Place
  | [] => .ok here
  | part :: rest => do
    let place ← next here part
    if t.isDirectory place then enter t place rest
    else throw (if t.isFile place then .notDirectory else .notFound)

/-- Where the parts of a path start, and the parts that go on from there. -/
def start : List String → Place × List String
  | "" :: rest => (Place.root, rest)
  | parts => ([], parts)

/-- The parts of a path. A slash at the end leaves an empty part behind it. -/
def parts (path : String) : List String :=
  (path.toList.splitOn '/').map String.ofList

/-- The parts of a path that a file can have. -/
def parts? (path : String) : Except FileError (List String) :=
  if path.toList.contains '\x00' then .error .nulInName
  else if path = "" then .error .notFound
  else if 4096 ≤ path.utf8ByteSize then .error .nameTooLong
  else .ok (parts path)

/-- The bytes of the file at a path. -/
def read (t : FileTree) (path : String) : Except FileError (List UInt8) := do
  let (here, parts) := start (← parts? path)
  let directory ← t.enter here parts.dropLast
  let place ← next directory (parts.getLastD "")
  match t.files.lookup place with
  | some bytes => return bytes
  | none => throw (if t.isDirectory place then .isDirectory else .notFound)

/-- The place of a file to be written. A slash at the end asks for a directory. -/
def target (t : FileTree) (path : String) : Except FileError Place := do
  let (here, parts) := start (← parts? path)
  let named := (parts.reverse.dropWhile (· = "")).reverse
  let directory ← t.enter here named.dropLast
  let name := named.getLastD ""
  if named.length < parts.length ∨ isStep name then throw .isDirectory
  let place ← next directory name
  if t.isDirectory place then throw .isDirectory
  return place

/-! ## Changes -/

def write (t : FileTree) (path : String) (bytes : List UInt8) : FileTree :=
  match t.target path with
  | .ok place =>
    if Place.standardDevices.contains place then t
    else { t with files := (place, bytes) :: t.files }
  | .error _ => t

/-- The tree with one more directory, and those that its path needs. -/
def addDirectory (t : FileTree) (here : Place) : List String → FileTree
  | [] => t
  | part :: rest =>
    match next here part with
    | .ok place => addDirectory { t with directories := place :: t.directories } place rest
    | .error _ => t

def add (t : FileTree) (path : String) (bytes : List UInt8) : FileTree :=
  let (here, parts) := start (parts path)
  (t.addDirectory here parts.dropLast).write path bytes

/-- What a run may ask of these files. -/
def fileSystem (t : FileTree) : FileSystem where
  read := t.read
  outputError? := fun path =>
    match t.target path with
    | .ok place => if place = Place.fullDevice then some (.notTaken .noSpace) else none
    | .error e => some (.notOpened e)

end FileTree
end ArrayImage
