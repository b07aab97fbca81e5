import ArrayImage.Json.Decode
import ArrayImage.Json.Number
import ArrayImage.Text.Number

/-!
# ArrayImage.Json.Reader

From a JSON text to its document.

Reading never fails: where the text stops being JSON, the document has a broken place, and nothing
is read behind it. `read` takes data of a given shape from a text, which must hold nothing else.
-/

namespace ArrayImage
namespace Json

def isBlank (c : Char) : Bool :=
  c == ' ' || c == '\n' || c == '\t' || c == '\r'

/-- The text without the blanks at its start. -/
def skipBlanks (cs : List Char) : List Char :=
  cs.dropWhile isBlank

/-! ## Strings -/

/-- What the letter behind a backslash stands for. -/
def escapes : List (Char × Char) :=
  [('"', '"'), ('\\', '\\'), ('/', '/'), ('b', '\x08'), ('f', '\x0c'), ('n', '\n'), ('r', '\r'),
    ('t', '\t')]

/-- The code numbers of a string behind its opening quote, and the text behind its closing one.
Numbers of escapes may be halves of a character. -/
def stringCodes? : List Char → Option (List Nat × List Char)
  | [] => none
  | '"' :: rest => some ([], rest)
  | '\\' :: 'u' :: a :: b :: c :: d :: rest => do
    let code ← Text.hexNumber? [a, b, c, d]
    let (codes, rest) ← stringCodes? rest
    return (code :: codes, rest)
  | '\\' :: c :: rest => do
    let meant ← escapes.lookup c
    let (codes, rest) ← stringCodes? rest
    return (meant.toNat :: codes, rest)
  | c :: rest => do
    guard (c ≠ '\\' ∧ 0x20 ≤ c.toNat)
    let (codes, rest) ← stringCodes? rest
    return (c.toNat :: codes, rest)

/-- The first or the second half of a character that takes two code numbers. -/
def isFirstHalf (n : Nat) : Bool := 0xD800 ≤ n && n < 0xDC00

@[inherit_doc isFirstHalf]
def isSecondHalf (n : Nat) : Bool := 0xDC00 ≤ n && n < 0xE000

/-- The characters of code numbers, unless a half stands alone. -/
def charsOfCodes? : List Nat → Option (List Char)
  | [] => some []
  | [n] => if isFirstHalf n || isSecondHalf n then none else some [Char.ofNat n]
  | n :: m :: rest =>
    if isFirstHalf n then
      if isSecondHalf m then
        (charsOfCodes? rest).map (Char.ofNat (0x10000 + (n - 0xD800) * 0x400 + (m - 0xDC00)) :: ·)
      else none
    else if isSecondHalf n then none
    else (charsOfCodes? (m :: rest)).map (Char.ofNat n :: ·)

/-- A string behind its opening quote, without its text when that is unreadable, and the text
behind it. -/
def string? (cs : List Char) : Option (Option String × List Char) :=
  (stringCodes? cs).map fun (codes, rest) => ((charsOfCodes? codes).map String.ofList, rest)

/-! ## Values -/

def behind? (word : String) (cs : List Char) : Option (List Char) :=
  if word.toList.isPrefixOf cs then some (cs.drop word.length) else none

/-- A value that is no list and no record, and the text behind it unless the value is broken. -/
def scalar (cs : List Char) : Document × Option (List Char) :=
  match cs with
  | '"' :: rest =>
    match string? rest with
    | some (some s, rest) => (.string s, some rest)
    | some (none, rest) => (.unreadable, some rest)
    | none => (.broken, none)
  | _ =>
    match behind? "null" cs, behind? "true" cs, behind? "false" cs, Numeral.read? cs with
    | some rest, _, _, _ => (.null, some rest)
    | _, some rest, _, _ => (.bool true, some rest)
    | _, _, some rest, _ => (.bool false, some rest)
    | _, _, _, some (n, rest) => (n.document, some rest)
    | none, none, none, none => (.broken, none)

mutual

/-- The value at the start of a text, and the text behind it unless the value is broken. Each value
and each entry of a value takes one unit of fuel. -/
def value : (fuel : Nat) → List Char → Document × Option (List Char)
  | 0, _ => (.broken, none)
  | fuel + 1, cs =>
    match skipBlanks cs with
    | '[' :: rest =>
      match skipBlanks rest with
      | ']' :: rest => (.array .closed, some rest)
      | rest =>
        let (items, rest) := items fuel rest
        (.array items, rest)
    | '\x7b' :: rest =>
      match skipBlanks rest with
      | '\x7d' :: rest => (.object .closed, some rest)
      | rest =>
        let (entries, rest) := entries fuel rest
        (.object entries, rest)
    | cs => scalar cs

/-- The values of a list from the next one on, and the text behind its closing bracket. -/
def items : (fuel : Nat) → List Char → Items × Option (List Char)
  | 0, _ => (.broken, none)
  | fuel + 1, cs =>
    let (first, rest) := value fuel cs
    match rest.map skipBlanks with
    | some (']' :: rest) => (.item first .closed, some rest)
    | some (',' :: rest) =>
      let (others, rest) := items fuel rest
      (.item first others, rest)
    | _ => (.item first .broken, none)

/-- The entries of a record from the next one on, and the text behind its closing brace. Only strings
are keys. -/
def entries : (fuel : Nat) → List Char → Entries × Option (List Char)
  | 0, _ => (.broken, none)
  | fuel + 1, cs =>
    match skipBlanks cs with
    | '"' :: rest =>
      match string? rest with
      | none => (.broken, none)
      | some (key, rest) =>
        match skipBlanks rest with
        | ':' :: rest =>
          let (first, rest) := value fuel rest
          match rest.map skipBlanks with
          | some ('\x7d' :: rest) => (.entry key first .closed, some rest)
          | some (',' :: rest) =>
            let (others, rest) := entries fuel rest
            (.entry key first others, rest)
          | _ => (.entry key first .broken, none)
        | _ => (.entry key .broken .broken, none)
    | _ => (.broken, none)

end

/-- The document of a text, and what stands behind it unless it is broken. Two units of fuel a
character are enough, since a bracket takes two and a comma takes one. -/
def document (text : String) : Document × Option (List Char) :=
  let cs := text.toList
  value (2 * cs.length + 2) cs

def read (shape : Shape) (text : String) : Except ReadError Value := do
  let (d, rest) := document text
  let v ← decode d shape
  match rest.map skipBlanks with
  | some [] => return v
  | _ => throw .malformed

end Json
end ArrayImage
