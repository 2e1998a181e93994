import ForkParser.GrammarBlock.Literal
import ForkParser.Text.Blank

/-!
# ForkParser.GrammarBlock.Piece

The text of a grammar block cut into pieces: words, punctuation marks,
literals and delimiters, with blanks and comments between them left out.

A text is cut from left to right, each time taking a blank, a comment or a
piece off its front.  Comments for documentation are no blanks: they count as
pieces.  A text that cannot be cut, or whose delimiters do not balance, has no
pieces at all.
-/

namespace ForkParser.GrammarBlock

open Text

/-- The three kinds of brackets. -/
inductive Delimiter where
  | round
  | square
  | curly
deriving DecidableEq

/-- A piece of the text of a grammar block. -/
inductive Piece where
  /-- An identifier, and the number of characters before it. -/
  | word (text : String) (offset : Nat)
  /-- A punctuation mark; `joint` if another follows at once. -/
  | mark (char : Char) (joint : Bool)
  /-- A string, a character or a number. -/
  | literal
  | documentation
  | opening (delimiter : Delimiter)
  | closing (delimiter : Delimiter)
deriving DecidableEq

/-! ## comments -/

/-- The text after a block comment, given the text after its opening and the
number of comments it is nested in. -/
def blockEnd? : Nat → List Char → Option (List Char)
  | depth, '/' :: '*' :: rest => blockEnd? (depth + 1) rest
  | 0, '*' :: '/' :: rest => some rest
  | depth + 1, '*' :: '/' :: rest => blockEnd? depth rest
  | depth, _ :: rest => blockEnd? depth rest
  | _, [] => none

/-- A block comment takes at least its end. -/
theorem length_of_blockEnd? {depth : Nat} {cs rest : List Char}
    (h : blockEnd? depth cs = some rest) : rest.length < cs.length := by
  fun_induction blockEnd? depth cs <;> grind [blockEnd?]

/-- Whether some carriage return is not followed by a line feed. -/
def hasBareReturn : List Char → Bool
  | '\r' :: '\n' :: rest => hasBareReturn rest
  | '\r' :: _ => true
  | _ :: rest => hasBareReturn rest
  | [] => false

/-- A comment taken off a text: nothing if it is an ordinary one, a piece if it
is for documentation.  Documentation may not hold a bare carriage return. -/
def commentPiece? (isDocumentation : Bool) (comment rest : List Char) :
    Option (Option Piece × List Char) :=
  if isDocumentation then
    if hasBareReturn comment then none else some (some .documentation, rest)
  else
    some (none, rest)

/-- A comment leaves the text after it. -/
theorem rest_of_commentPiece? {isDocumentation : Bool} {comment rest rest' : List Char}
    {piece? : Option Piece} (h : commentPiece? isDocumentation comment rest = some (piece?, rest')) :
    rest' = rest := by
  grind [commentPiece?]

/-- Whether the text after `//` makes the comment one for documentation: it
starts with `!`, or with a third slash and no fourth. -/
def isLineDocumentation : List Char → Bool
  | '!' :: _ => true
  | '/' :: '/' :: _ => false
  | '/' :: _ => true
  | _ => false

/-- Whether the text after the opening of a block comment makes it one for
documentation: it starts with `!`, or with a second asterisk and neither a
third nor the end of the comment. -/
def isBlockDocumentation : List Char → Bool
  | '!' :: _ => true
  | '*' :: '*' :: _ => false
  | '*' :: '/' :: _ => false
  | '*' :: _ => true
  | _ => false

/-! ## words and marks -/

/-- Words that cannot be written raw. -/
def neverRaw : List String := ["_", "super", "self", "Self", "crate"]

/-- The word a text begins with, and the text after it.  A raw word keeps its
`r#`. -/
def anyWord? : List Char → Option (List Char × List Char)
  | 'r' :: '#' :: rest =>
    match identifier? rest with
    | some (name, rest) =>
      if String.ofList name ∈ neverRaw then none else some ('r' :: '#' :: name, rest)
    | none => none
  | cs => identifier? cs

/-- A word has at least one character. -/
theorem length_of_anyWord? {cs name rest : List Char} (h : anyWord? cs = some (name, rest)) :
    rest.length < cs.length := by
  fun_cases anyWord? cs <;> grind [anyWord?, → length_of_identifier?]

/-- Whether a text begins like a quoted literal. -/
def isQuotedStart : List Char → Bool
  | 'r' :: '"' :: _ | 'r' :: '#' :: '"' :: _ | 'r' :: '#' :: '#' :: _ => true
  | 'b' :: '"' :: _ | 'b' :: '\'' :: _ | 'b' :: 'r' :: '"' :: _ | 'b' :: 'r' :: '#' :: _ => true
  | 'c' :: '"' :: _ | 'c' :: 'r' :: '"' :: _ | 'c' :: 'r' :: '#' :: _ => true
  | _ => false

/-- The word a text begins with, unless it looks like a quoted literal. -/
def word? (cs : List Char) : Option (List Char × List Char) :=
  if isQuotedStart cs then none else anyWord? cs

/-- A word has at least one character. -/
theorem length_of_word? {cs name rest : List Char} (h : word? cs = some (name, rest)) :
    rest.length < cs.length := by
  grind [word?, → length_of_anyWord?]

def marks : List Char :=
  ['~', '!', '@', '#', '$', '%', '^', '&', '*', '-', '=', '+', '|', ';', ':', ',', '<', '.', '>',
    '/', '?', '\'']

/-- Whether a text begins with a punctuation mark that does not open a
comment. -/
def startsWithMark : List Char → Bool
  | '/' :: '/' :: _ => false
  | '/' :: '*' :: _ => false
  | c :: _ => c ∈ marks
  | [] => false

/-- Whether the text after an apostrophe makes it the start of a label: a word
follows, and nothing that would make it a character. -/
def isLabel (cs : List Char) : Bool :=
  match anyWord? cs with
  | none => false
  | some (_, '\'' :: _) => false
  | some (_, '#' :: _) => cs.take 2 = ['r', '#']
  | some _ => true

/-- The punctuation mark a text begins with, and the text after it.  An
apostrophe counts only at the start of a label, and is then joint. -/
def mark? (cs : List Char) : Option (Piece × List Char) :=
  if startsWithMark cs then
    match cs with
    | '\'' :: rest => if isLabel rest then some (.mark '\'' true, rest) else none
    | c :: rest => some (.mark c (startsWithMark rest), rest)
    | [] => none
  else
    none

/-- A mark is one character. -/
theorem length_of_mark? {cs rest : List Char} {piece : Piece}
    (h : mark? cs = some (piece, rest)) : rest.length < cs.length := by
  unfold mark? at h
  split at h
  · split at h
    · split at h <;> cases h
      simp
    · cases h; simp
    · cases h
  · cases h

/-! ## cutting -/

/-- Whether a character separates pieces: a blank, or a mark of text
direction. -/
def isGap (c : Char) : Bool := isBlank c || c = '\u200E' || c = '\u200F'

/-- The bracket a character is. -/
def bracket? : Char → Option Piece
  | '(' => some (.opening .round)
  | '[' => some (.opening .square)
  | '\x7b' => some (.opening .curly)
  | ')' => some (.closing .round)
  | ']' => some (.closing .square)
  | '\x7d' => some (.closing .curly)
  | _ => none

/-- The literal, mark or word a text begins with, and the text after it.  The
whole text has `size` characters. -/
def leaf? (size : Nat) (cs : List Char) : Option (Piece × List Char) :=
  match literal? cs with
  | some rest => some (.literal, rest)
  | none =>
    match mark? cs with
    | some found => some found
    | none =>
      (word? cs).map fun (name, rest) =>
        (.word (String.ofList name) (size - cs.length), rest)

/-- A piece has at least one character. -/
theorem length_of_leaf? {size : Nat} {cs rest : List Char} {piece : Piece}
    (h : leaf? size cs = some (piece, rest)) : rest.length < cs.length := by
  unfold leaf? at h
  split at h
  · next hl => cases h; exact length_of_literal? hl
  · split at h
    · next hm => cases h; exact length_of_mark? hm
    · obtain ⟨⟨name, after⟩, hw, he⟩ := Option.map_eq_some_iff.1 h
      cases he
      exact length_of_word? hw

/-- Takes a blank, a comment or a piece off the front of a text. -/
def next? (size : Nat) (cs : List Char) : Option (Option Piece × List Char) :=
  match cs with
  | [] => none
  | '/' :: '/' :: rest =>
    let after := rest.dropWhile (· != '\n')
    commentPiece? (isLineDocumentation rest) (rest.takeWhile (· != '\n') ++ after.take 1) after
  | '/' :: '*' :: rest =>
    match blockEnd? 0 rest with
    | some after =>
      commentPiece? (isBlockDocumentation rest) (rest.take (rest.length - after.length)) after
    | none => none
  | c :: rest =>
    if isGap c then some (none, rest)
    else
      match bracket? c with
      | some piece => some (some piece, rest)
      | none => (leaf? size cs).map fun (piece, rest) => (some piece, rest)

/-- Whatever is taken off a text has at least one character. -/
theorem length_of_next? {size : Nat} {cs rest : List Char} {piece? : Option Piece}
    (h : next? size cs = some (piece?, rest)) : rest.length < cs.length := by
  unfold next? at h
  split at h
  · cases h
  · next tail =>
    have := (List.dropWhile_suffix (· != '\n') (l := tail)).length_le
    rw [rest_of_commentPiece? h]
    simp only [List.length_cons]
    omega
  · split at h
    · next hb =>
      have := length_of_blockEnd? hb
      rw [rest_of_commentPiece? h]
      simp only [List.length_cons]
      omega
    · cases h
  · split at h
    · cases h; simp
    · split at h
      · cases h; simp
      · obtain ⟨⟨piece, after⟩, hl, he⟩ := Option.map_eq_some_iff.1 h
        cases he
        exact length_of_leaf? hl

/-- The pieces of a text, which ends one of `size` characters. -/
def cut? (size : Nat) (cs : List Char) : Option (List Piece) :=
  if cs.isEmpty then some []
  else
    match _h : next? size cs with
    | none => none
    | some (piece?, rest) => (cut? size rest).map (piece?.toList ++ ·)
termination_by cs.length
decreasing_by exact length_of_next? _h

/-- Whether the brackets of some pieces balance, `pending` being those still to be
closed, innermost first. -/
def balanced (pending : List Delimiter) : List Piece → Bool
  | [] => pending.isEmpty
  | .opening d :: rest => balanced (d :: pending) rest
  | .closing d :: rest =>
    match pending with
    | [] => false
    | p :: outer => p = d && balanced outer rest
  | _ :: rest => balanced pending rest

/-- The text without the byte order mark it may start with. -/
def withoutByteOrderMark : List Char → List Char
  | '\uFEFF' :: rest => rest
  | cs => cs

/-- The pieces of a text.  A byte order mark at its start is skipped, though it
counts as a character. -/
def pieces? (source : List Char) : Option (List Piece) :=
  (cut? source.length (withoutByteOrderMark source)).filter (balanced [])

end ForkParser.GrammarBlock
