/-!
# ArrayImage.Path

File paths with `/` between their parts. Paths are kept as they were written: nothing here
resolves `.` or `..`.
-/

namespace ArrayImage
namespace Path

def isAbsolute (path : String) : Bool :=
  path.toList.head? == some '/'

/-- `name` as seen from the directory `dir`. An absolute name stands for itself. -/
def join (dir name : String) : String :=
  if isAbsolute name then name
  else
    match dir.toList.getLast? with
    | none => name
    | some '/' => dir ++ name
    | some _ => dir ++ "/" ++ name

/-- A path, last character first, without the slashes and lone dots at its end. The root and a dot
at the very start stay. -/
def trimEnd : List Char → List Char
  | [] => []
  | ['/'] => ['/']
  | ['.'] => ['.']
  | '/' :: rest => trimEnd rest
  | '.' :: '/' :: rest => trimEnd ('/' :: rest)
  | c :: rest => c :: rest

/-- The last part of a path, unless the path ends at the root. -/
def fileName? (path : String) : Option String :=
  match (trimEnd path.toList.reverse).takeWhile (· != '/') with
  | [] => none
  | name => if name = ['.', '.'] || name = ['.'] then none else some (String.ofList name.reverse)

/-- What stands behind the last dot of the file name. A name whose only dot comes first has no
extension. -/
def extension? (path : String) : Option String :=
  (fileName? path).bind fun name =>
    let back := name.toList.reverse
    match back.dropWhile (· != '.') with
    | [] | [_] => none
    | _ :: _ :: _ => some (String.ofList (back.takeWhile (· != '.')).reverse)

/-- The path without its last part; the root and the empty path have no parent. -/
def parent? (path : String) : Option String :=
  match trimEnd path.toList.reverse with
  | [] | ['/'] => none
  | back => some (String.ofList (trimEnd (back.dropWhile (· != '/'))).reverse)

/-- The directory of a file: its parent, or `.` when the path is a bare name. -/
def directory (path : String) : String :=
  match parent? path with
  | none | some "" => "."
  | some parent => parent

end Path
end ArrayImage
