import ForkParser.Text.Printable

/-!
# ForkParser.Text.Quoted

Text between double quotes, in a form that fits on one line and shows every
character.  Quotes, backslashes and the usual controls have a short escape;
any other character that is unprintable, or would merge with its neighbour,
is given by its code point in hexadecimal.  An apostrophe stands for itself.
-/

namespace ForkParser.Text

/-- The code point of `c` in hexadecimal, between braces after `\u`. -/
def codePointEscape (c : Char) : List Char :=
  '\\' :: 'u' :: '\x7b' :: Nat.toDigits 16 c.toNat ++ ['\x7d']

/-- How one character is written inside quotes. -/
def escapeChar (c : Char) : List Char :=
  if c = '"' then ['\\', '"']
  else if c = '\\' then ['\\', '\\']
  else if c = '\n' then ['\\', 'n']
  else if c = '\r' then ['\\', 'r']
  else if c = '\t' then ['\\', 't']
  else if c = '\x00' then ['\\', '0']
  else if isExtending c || isUnprintable c then codePointEscape c
  else [c]

/-- The characters of a text as they are written inside quotes. -/
def escapeChars (cs : List Char) : List Char := cs.flatMap escapeChar

/-- A text between double quotes. -/
def quote (text : String) : String :=
  String.ofList ('"' :: escapeChars text.toList ++ ['"'])

end ForkParser.Text
