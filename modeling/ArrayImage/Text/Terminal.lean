import ArrayImage.Text.Number
import ArrayImage.Text.Quoted

/-!
# ArrayImage.Text.Terminal

Texts for a terminal. The characters that start or end a command to a terminal are escaped, so what
a design calls its parts cannot change how a log looks. Line breaks and tabs stay.
-/

namespace ArrayImage
namespace Text

/-- The escape character, the bell, the backspace, the form feed and the delete character. -/
def isTerminalCommand (c : Char) : Bool :=
  ['\x1b', '\x07', '\x08', '\x0c', '\x7f'].contains c

def isUpperControl (c : Char) : Bool :=
  0x80 ≤ c.toNat && c.toNat ≤ 0x9F

def terminalEscape (c : Char) : List Char :=
  if isTerminalCommand c then '\\' :: 'x' :: (padLeft 2 '0' (hexDigits c.toNat)).toList
  else if isUpperControl c then unicodeEscape c
  else [c]

/-- `s` as a terminal gets it. -/
def forTerminal (s : String) : String :=
  String.ofList (s.toList.flatMap terminalEscape)

end Text
end ArrayImage
