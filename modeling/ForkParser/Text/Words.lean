import ForkParser.Text.Blank

/-!
# ForkParser.Text.Words

Text cut into lines and into words.  A word is a maximal run of characters
that are not blank; it knows where it starts, counted in the bytes of the
text's UTF-8 form.
-/

namespace ForkParser.Text

/-- Bytes of the UTF-8 form of a run of characters. -/
def byteLength : List Char → Nat
  | [] => 0
  | c :: cs => c.utf8Size + byteLength cs

theorem byteLength_append (cs ds : List Char) :
    byteLength (cs ++ ds) = byteLength cs + byteLength ds := by
  induction cs with
  | nil => simp [byteLength]
  | cons c cs ih =>
    simp only [List.cons_append, byteLength, ih]
    omega

/-! ## lines -/

/-- Puts a character in front of lines already cut: a line feed starts a new
line, any other character joins the first one. -/
def consLine (c : Char) : List (List Char) → List (List Char)
  | [] => if c = '\n' then [[], []] else [[c]]
  | line :: lines => if c = '\n' then [] :: line :: lines else (c :: line) :: lines

/-- The lines of a text, without their line feeds.  There is one more line
than there are line feeds, so the last one may be empty. -/
def lines (cs : List Char) : List (List Char) := cs.foldr consLine [[]]

def withoutReturn (line : List Char) : List Char :=
  if line.getLast? = some '\r' then line.dropLast else line

/-- The lines of a text without their whole line ends: a carriage return before a line feed is
part of the end, and what follows the last line feed is a line only if it is not empty. -/
def trimLines : List (List Char) → List (List Char)
  | [] => []
  | [last] => if last.isEmpty then [] else [last]
  | line :: rest => withoutReturn line :: trimLines rest

/-! ## words -/

/-- A run of characters and the byte offset it starts at. -/
structure Word where
  offset : Nat
  chars : List Char
deriving DecidableEq

def Word.text (w : Word) : String := String.ofList w.chars

/-- Maximal runs of characters that are all blank or all not blank. -/
def runs (cs : List Char) : List (List Char) :=
  cs.splitBy fun a b => isBlank a == isBlank b

/-- Gives each run its offset, the first one starting at `offset`. -/
def placeRuns (offset : Nat) : List (List Char) → List Word
  | [] => []
  | run :: rest => ⟨offset, run⟩ :: placeRuns (offset + byteLength run) rest

/-- The words of a text, in order, with their byte offsets. -/
def words (cs : List Char) : List Word :=
  (placeRuns 0 (runs cs)).filter fun w => !w.chars.all isBlank

/-- The words from byte `offset` on, read in one pass.  `open?` is the word that has been
started and not yet ended: a blank ends it, any other character starts one or joins it. -/
def scan (offset : Nat) (open? : Option Word) : List Char → List Word
  | [] => open?.toList
  | c :: cs =>
    if isBlank c then open?.toList ++ scan (offset + c.utf8Size) none cs
    else
      match open? with
      | none => scan (offset + c.utf8Size) (some ⟨offset, [c]⟩) cs
      | some w => scan (offset + c.utf8Size) (some ⟨w.offset, w.chars ++ [c]⟩) cs

end ForkParser.Text
