import ArrayImage.Text.ExtendingMark
import ArrayImage.Text.Unprintable

/-!
# ArrayImage.Text.Quoted

Texts between double quotes, as messages show paths and strings. Quotes, backslashes and characters
that cannot be seen by themselves are escaped; every other character stands for itself.
-/

namespace ArrayImage
namespace Text

def isWithin (runs : List (Nat × Nat)) (c : Char) : Bool :=
  runs.any fun (first, last) => first ≤ c.toNat && c.toNat ≤ last

/-- The character has a shape of its own. -/
def isVisible (c : Char) : Bool :=
  (' ' ≤ c && c ≤ '~') || !(isWithin unprintable c || isWithin extendingMarks c)

/-- A character by its number. -/
def unicodeEscape (c : Char) : List Char :=
  ['\\', 'u', '\x7b'] ++ Nat.toDigits 16 c.toNat ++ ['\x7d']

/-- The written form of one character inside quotes. -/
def escape (c : Char) : List Char :=
  if c = '"' then ['\\', '"']
  else if c = '\\' then ['\\', '\\']
  else if c = '\n' then ['\\', 'n']
  else if c = '\t' then ['\\', 't']
  else if c = '\r' then ['\\', 'r']
  else if c = '\x00' then ['\\', '0']
  else if isVisible c then [c]
  else unicodeEscape c

/-- `s` between double quotes. -/
def quoted (s : String) : String :=
  String.ofList ('"' :: s.toList.flatMap escape ++ ['"'])

end Text
end ArrayImage
