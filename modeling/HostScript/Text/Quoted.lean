import HostScript.Text.Visible

/-!
# Text/Quoted — texts between quotes

A text is shown between quotes with one escape for each character that would not show: the named
escapes for tab, return, line feed and nul, a backslash before a backslash and before the quote in
use, and the code point in braces for everything else that is invisible or attaches to its
neighbour.
-/

namespace HostScript.Text

/-- The code point of a character in lower-case hexadecimal, in braces. -/
def codePointEscape (c : Char) : List Char :=
  ['\\', 'u', '\x7b'] ++ Nat.toDigits 16 c.toNat ++ ['\x7d']

/-- One character as it stands between the given quotes. -/
def escaped (quote c : Char) : List Char :=
  if c = '\x00' then ['\\', '0']
  else if c = '\t' then ['\\', 't']
  else if c = '\r' then ['\\', 'r']
  else if c = '\n' then ['\\', 'n']
  else if c = '\\' || c = quote then ['\\', c]
  else if isVisible c && !isExtender c then [c]
  else codePointEscape c

/-- A character between single quotes. -/
def quotedChar (c : Char) : String :=
  String.ofList ('\'' :: escaped '\'' c ++ ['\''])

/-- A text between double quotes. -/
def quoted (s : String) : String :=
  String.ofList ('"' :: s.toList.flatMap (escaped '"') ++ ['"'])

end HostScript.Text
