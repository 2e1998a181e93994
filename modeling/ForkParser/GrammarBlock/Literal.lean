import ForkParser.Text.Identifier

/-!
# ForkParser.GrammarBlock.Literal

The literals that may stand in the text of a grammar block: strings, raw
strings, byte strings, zero-terminated strings, bytes, characters and numbers.
No block with a literal in it is well formed, but a literal has to be read as
one piece to find out where it ends, and a malformed one spoils the whole text.

Every reader takes the text from where the literal may begin, and gives the
text after it.
-/

namespace ForkParser.GrammarBlock

open Text

/-! ## identifiers -/

/-- The identifier a text begins with, and the text after it. -/
def identifier? : List Char → Option (List Char × List Char)
  | [] => none
  | c :: rest =>
    if isIdentifierStart c then
      some (c :: rest.takeWhile isIdentifierContinue, rest.dropWhile isIdentifierContinue)
    else
      none

/-- An identifier has at least one character. -/
theorem length_of_identifier? {cs name rest : List Char}
    (h : identifier? cs = some (name, rest)) : rest.length < cs.length := by
  cases cs with
  | nil => simp [identifier?] at h
  | cons c cs =>
    have := (List.dropWhile_suffix isIdentifierContinue (l := cs)).length_le
    grind [identifier?]

/-- The text after the identifier it begins with, if there is one. -/
def skipIdentifier (cs : List Char) : List Char :=
  match identifier? cs with
  | some (_, rest) => rest
  | none => cs

theorem length_skipIdentifier_le (cs : List Char) :
    (skipIdentifier cs).length ≤ cs.length := by
  unfold skipIdentifier
  split
  · next h => exact Nat.le_of_lt (length_of_identifier? h)
  · exact Nat.le_refl _

/-- The text, unless it would prolong a word or number that has just ended. -/
def wordBreak? : List Char → Option (List Char)
  | [] => some []
  | c :: rest => if isIdentifierContinue c then none else some (c :: rest)

/-- Nothing is taken at the end of a word. -/
theorem eq_of_wordBreak? {cs rest : List Char} (h : wordBreak? cs = some rest) :
    rest = cs := by
  cases cs <;> grind [wordBreak?]

/-! ## escapes -/

def hexValue? (c : Char) : Option Nat :=
  if '0' ≤ c ∧ c ≤ '9' then some (c.toNat - '0'.toNat)
  else if 'a' ≤ c ∧ c ≤ 'f' then some (c.toNat - 'a'.toNat + 10)
  else if 'A' ≤ c ∧ c ≤ 'F' then some (c.toNat - 'A'.toNat + 10)
  else none

/-- What a kind of quoted literal admits. -/
structure Flavour where
  /-- Only ASCII characters. -/
  onlyAscii : Bool
  /-- Escapes by code point. -/
  codePoints : Bool
  /-- The character 0, also as an escape. -/
  zero : Bool
  /-- The greatest value of an escape by two hexadecimal digits. -/
  maxHex : Nat

/-- Text admits every character; two digits give an ASCII character. -/
def Flavour.text : Flavour := ⟨false, true, true, 0x7F⟩

/-- Bytes are ASCII characters, or given by two digits. -/
def Flavour.bytes : Flavour := ⟨true, false, true, 0xFF⟩

/-- Zero-terminated text has no character 0 inside. -/
def Flavour.zeroTerminated : Flavour := ⟨false, true, false, 0xFF⟩

/-- Whether a flavour admits `n` as the value of an escape. -/
def Flavour.admits (f : Flavour) (n : Nat) : Bool := f.zero || n != 0

/-- The code point in braces, and the text after it: one to six hexadecimal
digits, with underscores after the first, that name a character. -/
def codePoint? (digits value : Nat) : List Char → Option (Nat × List Char)
  | [] => none
  | c :: rest =>
    match hexValue? c with
    | some d => if digits = 6 then none else codePoint? (digits + 1) (16 * value + d) rest
    | none =>
      if digits = 0 then none
      else if c = '_' then codePoint? digits value rest
      else if c = '\x7d' && value.isValidChar then some (value, rest)
      else none

/-- A code point takes at least its closing brace. -/
theorem length_of_codePoint? {digits value n : Nat} {cs rest : List Char}
    (h : codePoint? digits value cs = some (n, rest)) : rest.length < cs.length := by
  induction cs generalizing digits value with
  | nil => simp [codePoint?] at h
  | cons c cs ih => grind [codePoint?]

/-- The text after an escape, given the text after its backslash. -/
def escape? (f : Flavour) : List Char → Option (List Char)
  | 'x' :: a :: b :: rest =>
    match hexValue? a, hexValue? b with
    | some m, some n => if 16 * m + n ≤ f.maxHex && f.admits (16 * m + n) then some rest else none
    | _, _ => none
  | 'u' :: '\x7b' :: rest =>
    if f.codePoints then
      match codePoint? 0 0 rest with
      | some (value, rest) => if f.admits value then some rest else none
      | none => none
    else
      none
  | c :: rest =>
    if c ∈ ['n', 'r', 't', '\\', '\'', '"'] || (c = '0' && f.zero) then some rest else none
  | [] => none

/-- An escape has at least one character after its backslash. -/
theorem length_of_escape? {f : Flavour} {cs rest : List Char}
    (h : escape? f cs = some rest) : rest.length < cs.length := by
  fun_cases escape? f cs <;> grind [escape?, → length_of_codePoint?]

/-- The text after the blanks that a backslash at the end of a line joins. -/
def joinLines? : List Char → Option (List Char)
  | '\r' :: '\n' :: rest => joinLines? rest
  | '\r' :: _ => none
  | c :: rest => if c = ' ' ∨ c = '\t' ∨ c = '\n' then joinLines? rest else some (c :: rest)
  | [] => none

/-- Joining lines never lengthens a text. -/
theorem length_of_joinLines? {cs rest : List Char} (h : joinLines? cs = some rest) :
    rest.length ≤ cs.length := by
  fun_induction joinLines? cs <;> grind [joinLines?]

/-- The text after an escape inside a string, where a backslash may also join
lines. -/
def stringEscape? (f : Flavour) : List Char → Option (List Char)
  | '\n' :: rest => joinLines? rest
  | '\r' :: '\n' :: rest => joinLines? rest
  | cs => escape? f cs

/-- Nor does an escape inside a string. -/
theorem length_of_stringEscape? {f : Flavour} {cs rest : List Char}
    (h : stringEscape? f cs = some rest) : rest.length ≤ cs.length := by
  fun_cases stringEscape? f cs <;>
    grind [stringEscape?, → length_of_escape?, → length_of_joinLines?]

/-! ## quoted literals -/

/-- Whether a flavour admits a character that stands for itself. -/
def Flavour.admitsPlain (f : Flavour) (c : Char) : Bool :=
  (!f.onlyAscii || c.toNat < 128) && f.admits c.toNat

/-- The text after the closing quote of a string, given the text after its
opening quote.  A carriage return has to be part of a line end. -/
def stringEnd? (f : Flavour) : List Char → Option (List Char)
  | [] => none
  | '"' :: rest => some rest
  | '\r' :: '\n' :: rest => stringEnd? f rest
  | '\r' :: _ => none
  | '\\' :: rest =>
    match _h : stringEscape? f rest with
    | some after => stringEnd? f after
    | none => none
  | c :: rest => if f.admitsPlain c then stringEnd? f rest else none
termination_by cs => cs.length
decreasing_by
  all_goals simp only [List.length_cons]
  · omega
  · exact Nat.lt_succ_of_le (length_of_stringEscape? _h)
  · omega

/-- A string takes at least its closing quote. -/
theorem length_of_stringEnd? {f : Flavour} {cs rest : List Char}
    (h : stringEnd? f cs = some rest) : rest.length < cs.length := by
  fun_induction stringEnd? f cs <;> grind [stringEnd?, → length_of_stringEscape?]

/-- The text after the closing quote of a raw string with as many `#` as
`hashes`, given the text after its opening quote. -/
def rawEnd? (f : Flavour) (hashes : Nat) : List Char → Option (List Char)
  | [] => none
  | '\r' :: '\n' :: rest => rawEnd? f hashes rest
  | '\r' :: _ => none
  | c :: rest =>
    if c = '"' ∧ rest.take hashes = List.replicate hashes '#' then some (rest.drop hashes)
    else if f.admitsPlain c then rawEnd? f hashes rest
    else none

/-- A raw string takes at least its closing quote. -/
theorem length_of_rawEnd? {f : Flavour} {hashes : Nat} {cs rest : List Char}
    (h : rawEnd? f hashes cs = some rest) : rest.length < cs.length := by
  fun_induction rawEnd? f hashes cs <;> grind [rawEnd?]

/-- The text after a raw string, given the text after its `r`.  There are at
most 255 `#`. -/
def raw? (f : Flavour) (cs : List Char) : Option (List Char) :=
  let hashes := (cs.takeWhile (· = '#')).length
  match cs.dropWhile (· = '#') with
  | '"' :: rest => if hashes ≤ 255 then rawEnd? f hashes rest else none
  | _ => none

/-- A raw string takes at least its quotes. -/
theorem length_of_raw? {f : Flavour} {cs rest : List Char} (h : raw? f cs = some rest) :
    rest.length < cs.length := by
  have := (List.dropWhile_suffix (· = '#') (l := cs)).length_le
  grind [raw?, → length_of_rawEnd?]

/-- The text after the closing apostrophe of a byte or a character, given the
text after its opening one. -/
def charEnd? (f : Flavour) : List Char → Option (List Char)
  | '\\' :: rest =>
    match escape? f rest with
    | some ('\'' :: after) => some after
    | _ => none
  | c :: '\'' :: after => if f.onlyAscii && 128 ≤ c.toNat then none else some after
  | _ => none

/-- A byte or a character takes at least its apostrophe. -/
theorem length_of_charEnd? {f : Flavour} {cs rest : List Char}
    (h : charEnd? f cs = some rest) : rest.length < cs.length := by
  fun_cases charEnd? f cs <;> grind [charEnd?, → length_of_escape?]

/-- The text after a quoted literal of any kind. -/
def quoted? : List Char → Option (List Char)
  | '"' :: rest => stringEnd? .text rest
  | 'r' :: rest => raw? .text rest
  | 'b' :: '"' :: rest => stringEnd? .bytes rest
  | 'b' :: 'r' :: rest => raw? .bytes rest
  | 'c' :: '"' :: rest => stringEnd? .zeroTerminated rest
  | 'c' :: 'r' :: rest => raw? .zeroTerminated rest
  | 'b' :: '\'' :: rest => charEnd? .bytes rest
  | '\'' :: rest => charEnd? .text rest
  | _ => none

/-- A quoted literal has at least one character. -/
theorem length_of_quoted? {cs rest : List Char} (h : quoted? cs = some rest) :
    rest.length < cs.length := by
  fun_cases quoted? cs <;>
    grind [quoted?, → length_of_stringEnd?, → length_of_raw?, → length_of_charEnd?]

/-! ## numbers -/

/-- Whether `c` is a decimal digit or an underscore. -/
def isDigitOrGap (c : Char) : Bool := c.isDigit || c = '_'

/-- The text after digits that underscores may stand before. -/
def digits? (cs : List Char) : Option (List Char) :=
  match cs.dropWhile (· = '_') with
  | c :: rest => if c.isDigit then some (rest.dropWhile isDigitOrGap) else none
  | [] => none

/-- Digits take at least one character. -/
theorem length_of_digits? {cs rest : List Char} (h : digits? cs = some rest) :
    rest.length < cs.length := by
  have := (List.dropWhile_suffix (· = '_') (l := cs)).length_le
  unfold digits? at h
  split at h
  · next c tail hc =>
    have := (List.dropWhile_suffix isDigitOrGap (l := tail)).length_le
    grind
  · cases h

/-- The text after the exponent of a number, given the text after its `e`: a
sign, if any, and digits, with underscores anywhere. -/
def exponent? (cs : List Char) : Option (List Char) :=
  match cs.dropWhile (· = '_') with
  | '+' :: rest => digits? rest
  | '-' :: rest => digits? rest
  | rest => digits? rest

/-- An exponent takes at least one digit. -/
theorem length_of_exponent? {cs rest : List Char} (h : exponent? cs = some rest) :
    rest.length < cs.length := by
  have := (List.dropWhile_suffix (· = '_') (l := cs)).length_le
  unfold exponent? at h
  split at h <;> grind [→ length_of_digits?]

/-- The text after the digits of a fraction and the exponent.  An `e` without
exponent is left for the suffix. -/
def skipFraction (cs : List Char) : List Char :=
  match cs.dropWhile isDigitOrGap with
  | 'e' :: rest => (exponent? rest).getD ('e' :: rest)
  | 'E' :: rest => (exponent? rest).getD ('E' :: rest)
  | rest => rest

theorem length_skipFraction_le (cs : List Char) : (skipFraction cs).length ≤ cs.length := by
  have := (List.dropWhile_suffix isDigitOrGap (l := cs)).length_le
  unfold skipFraction
  split
  · next rest _ => cases he : exponent? rest <;> grind [→ length_of_exponent?]
  · next rest _ => cases he : exponent? rest <;> grind [→ length_of_exponent?]
  · assumption

/-- The text after the fraction and the exponent of a number, given the text
after its point.  The point is none of the number's if another one or a name
follows. -/
def fraction? : List Char → Option (List Char)
  | c :: rest =>
    if c = '.' || isIdentifierStart c then none else some (skipFraction (c :: rest))
  | [] => some []

/-- A fraction never lengthens a text. -/
theorem length_of_fraction? {cs rest : List Char} (h : fraction? cs = some rest) :
    rest.length ≤ cs.length := by
  cases cs <;> grind [fraction?, length_skipFraction_le]

/-- The text after the digits of a number with a point or an exponent. -/
def floatDigits? : List Char → Option (List Char)
  | [] => none
  | c :: cs =>
    if c.isDigit then
      match cs.dropWhile isDigitOrGap with
      | '.' :: rest => fraction? rest
      | 'e' :: rest => exponent? rest
      | 'E' :: rest => exponent? rest
      | _ => none
    else
      none

/-- A number has at least one digit. -/
theorem length_of_floatDigits? {cs rest : List Char} (h : floatDigits? cs = some rest) :
    rest.length < cs.length := by
  cases cs with
  | nil => simp [floatDigits?] at h
  | cons c cs =>
    have := (List.dropWhile_suffix isDigitOrGap (l := cs)).length_le
    grind [floatDigits?, → length_of_fraction?, → length_of_exponent?]

/-- The text after the digits of a whole number to a base, `some` digit of
which has been read or not.  A decimal digit too large for the base spoils the
number, a letter ends it. -/
def intDigits? (base : Nat) (some? : Bool) : List Char → Option (List Char)
  | [] => if some? then some [] else none
  | c :: rest =>
    match hexValue? c with
    | some d =>
      if d < base then intDigits? base true rest
      else if d < 10 then none
      else if some? then some (c :: rest)
      else none
    | none =>
      if c = '_' then
        if !some? && base = 10 then none else intDigits? base some? rest
      else if some? then some (c :: rest)
      else none

/-- Reading digits never lengthens a text, and shortens it unless some digit was
read before. -/
theorem length_of_intDigits? {base : Nat} {some? : Bool} {cs rest : List Char}
    (h : intDigits? base some? cs = some rest) :
    rest.length ≤ cs.length ∧ (some? = false → rest.length < cs.length) := by
  induction cs generalizing some? with
  | nil => grind [intDigits?]
  | cons c cs ih => grind [intDigits?]

/-- The text after the digits of a whole number, with its base sign. -/
def wholeDigits? : List Char → Option (List Char)
  | '0' :: 'x' :: rest => intDigits? 16 false rest
  | '0' :: 'o' :: rest => intDigits? 8 false rest
  | '0' :: 'b' :: rest => intDigits? 2 false rest
  | cs => intDigits? 10 false cs

/-- A whole number has at least one digit. -/
theorem length_of_wholeDigits? {cs rest : List Char} (h : wholeDigits? cs = some rest) :
    rest.length < cs.length := by
  fun_cases wholeDigits? cs <;> grind [wholeDigits?, → length_of_intDigits?]

/-- The text after the suffix of a number, where the number has to end. -/
def numberEnd? (cs : List Char) : Option (List Char) := wordBreak? (skipIdentifier cs)

/-- A suffix never lengthens a text. -/
theorem length_of_numberEnd? {cs rest : List Char} (h : numberEnd? cs = some rest) :
    rest.length ≤ cs.length := by
  rw [eq_of_wordBreak? h]
  exact length_skipIdentifier_le cs

/-- The text after a number, with its suffix. -/
def number? (cs : List Char) : Option (List Char) :=
  ((floatDigits? cs).bind numberEnd?).or ((wholeDigits? cs).bind numberEnd?)

/-- A number has at least one character. -/
theorem length_of_number? {cs rest : List Char} (h : number? cs = some rest) :
    rest.length < cs.length := by
  rcases Option.or_eq_some_iff.1 h with h | ⟨_, h⟩
  · obtain ⟨after, hd, he⟩ := Option.bind_eq_some_iff.1 h
    exact Nat.lt_of_le_of_lt (length_of_numberEnd? he) (length_of_floatDigits? hd)
  · obtain ⟨after, hd, he⟩ := Option.bind_eq_some_iff.1 h
    exact Nat.lt_of_le_of_lt (length_of_numberEnd? he) (length_of_wholeDigits? hd)

/-- The text after a literal.  A quoted literal may have a suffix. -/
def literal? (cs : List Char) : Option (List Char) :=
  ((quoted? cs).map skipIdentifier).or (number? cs)

/-- A literal has at least one character. -/
theorem length_of_literal? {cs rest : List Char} (h : literal? cs = some rest) :
    rest.length < cs.length := by
  cases hq : quoted? cs with
  | none => exact length_of_number? (by simpa [literal?, hq] using h)
  | some after =>
    have := length_of_quoted? hq
    have := length_skipIdentifier_le after
    grind [literal?]

end ForkParser.GrammarBlock
