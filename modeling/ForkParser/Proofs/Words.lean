import ForkParser.Text.Words
import Mathlib.Data.List.SplitBy

/-!
# ForkParser.Proofs.Words

The lines and the words of a text.

A line goes from a line feed to the next one, and its number counts the line feeds before it
(`lineAt_iff`).

A text is made of blanks and of words, and its words are found by going along it: a blank
only moves what follows (`wordsFrom_gap`), and a word that ends at a blank or with the text
is found where it stands (`wordsFrom_word`).  So the words are just the maximal runs of
characters that are not blank, in order (`mem_words_iff`, `pairwise_wordsFrom`), and the bytes
of the text from the offset of a word on are those of the word (`Word.IsRunOf.extract`).  Going
along the text once, with the word that is open, finds the same words (`words_eq_scan`).
-/

namespace ForkParser.Text

/-- A text goes on with characters of one kind, and then with another or not at all. -/
theorem exists_front (p : Char → Bool) (cs : List Char) :
    ∃ front back, cs = front ++ back ∧ (∀ c ∈ front, p c = true) ∧
      ∀ c ∈ back.head?, p c = false := by
  refine ⟨cs.takeWhile p, cs.dropWhile p, List.takeWhile_append_dropWhile.symm,
    List.all_eq_true.1 List.all_takeWhile, fun c hc => ?_⟩
  simpa [Option.mem_def.1 hc] using List.head?_dropWhile_not p cs

/-! ## lines -/

theorem consLine_append {c : Char} {first rest : List (List Char)} (hne : first ≠ []) :
    consLine c (first ++ rest) = consLine c first ++ rest := by
  cases first with
  | nil => contradiction
  | cons line lines => by_cases hc : c = '\n' <;> simp [consLine, hc]

theorem consLine_ne_nil (c : Char) (lines : List (List Char)) : consLine c lines ≠ [] := by
  cases lines <;> simp only [consLine] <;> split <;> simp

theorem lines_cons (c : Char) (cs : List Char) : lines (c :: cs) = consLine c (lines cs) := rfl

theorem lines_ne_nil (cs : List Char) : lines cs ≠ [] := by
  cases cs with
  | nil => simp [lines]
  | cons c cs => exact consLine_ne_nil c _

/-- A line feed keeps the lines before it apart from those after it. -/
theorem lines_append (cs ds : List Char) : lines (cs ++ '\n' :: ds) = lines cs ++ lines ds := by
  induction cs with
  | nil =>
      obtain ⟨line, rest, hlines⟩ := List.exists_cons_of_ne_nil (lines_ne_nil ds)
      simp only [lines] at hlines ⊢
      simp [consLine, hlines]
  | cons c cs ih =>
      rw [List.cons_append, lines_cons, ih, consLine_append (lines_ne_nil cs), ← lines_cons]

/-- A text without a line feed is one line. -/
theorem lines_of_notMem {cs : List Char} (h : '\n' ∉ cs) : lines cs = [cs] := by
  induction cs with
  | nil => rfl
  | cons c cs ih =>
      rw [List.mem_cons, not_or] at h
      simp [lines_cons, ih h.2, consLine, Ne.symm h.1]

/-- There is one more line than there are line feeds. -/
theorem length_lines (cs : List Char) : (lines cs).length = cs.count '\n' + 1 := by
  induction cs with
  | nil => rfl
  | cons c cs ih =>
      obtain ⟨line, rest, hlines⟩ := List.exists_cons_of_ne_nil (lines_ne_nil cs)
      rw [hlines] at ih
      by_cases hc : c = '\n'
      · simp [lines_cons, hlines, consLine, hc, ← ih]
      · simp [lines_cons, hlines, consLine, hc, ← ih]

/-- A text is one line, or it has a first line and others after a line feed. -/
theorem lines_cases (cs : List Char) :
    ('\n' ∉ cs ∧ lines cs = [cs]) ∨
      ∃ first rest, '\n' ∉ first ∧ cs = first ++ '\n' :: rest ∧ lines cs = first :: lines rest := by
  obtain ⟨first, back, rfl, hfirst, hback⟩ := exists_front (· != '\n') cs
  have hnot : '\n' ∉ first := fun h => by simpa using hfirst '\n' h
  cases back with
  | nil =>
      rw [List.append_nil]
      exact .inl ⟨hnot, lines_of_notMem hnot⟩
  | cons c rest =>
      obtain rfl : c = '\n' := by simpa using hback c rfl
      exact .inr ⟨first, rest, hnot, rfl, by rw [lines_append, lines_of_notMem hnot]; rfl⟩

/-- `line` goes from a line feed to the next one, or from and to an end of the text. -/
structure LineBetween (before line after : List Char) : Prop where
  notMem : '\n' ∉ line
  left : ∀ c ∈ before.getLast?, c = '\n'
  right : ∀ c ∈ after.head?, c = '\n'

/-- The line of this number in a text, counted from 1. -/
def LineAt (cs : List Char) (number : Nat) (line : List Char) : Prop :=
  ∃ before after, cs = before ++ (line ++ after) ∧ LineBetween before line after ∧
    number = before.count '\n' + 1

theorem LineAt.exists_succ {cs line : List Char} {number : Nat} (h : LineAt cs number line) :
    ∃ i, number = i + 1 := by
  obtain ⟨before, -, -, -, hnumber⟩ := h
  exact ⟨before.count '\n', hnumber⟩

theorem LineAt.getElem?_lines {cs line : List Char} {i : Nat} (h : LineAt cs (i + 1) line) :
    (lines cs)[i]? = some line := by
  obtain ⟨before, after, rfl, hbetween, hnumber⟩ := h
  have hfirst : (lines (line ++ after))[0]? = some line := by
    cases after with
    | nil => simp [lines_of_notMem hbetween.notMem]
    | cons c after =>
        obtain rfl := hbetween.right c rfl
        simp [lines_append, lines_of_notMem hbetween.notMem]
  rcases List.eq_nil_or_concat' before with rfl | ⟨front, c, rfl⟩
  · obtain rfl : i = 0 := by simpa using hnumber
    exact hfirst
  · obtain rfl := hbetween.left c (by simp)
    obtain rfl : i = (lines front).length := by simpa [length_lines] using hnumber
    rw [List.append_assoc, List.singleton_append, lines_append, List.getElem?_append_right,
      Nat.sub_self]
    · exact hfirst
    · exact Nat.le_refl _

/-- A line in front of a text adds one to the numbers of its lines. -/
theorem LineAt.succ {rest line : List Char} {number : Nat} (h : LineAt rest number line)
    {first : List Char} (hfirst : '\n' ∉ first) :
    LineAt (first ++ '\n' :: rest) (number + 1) line := by
  obtain ⟨before, after, rfl, hbetween, rfl⟩ := h
  refine ⟨first ++ '\n' :: before, after, by simp, ⟨hbetween.notMem, fun c hc => ?_,
    hbetween.right⟩, ?_⟩
  · have hlast : before.getLast?.getD '\n' = c := by simpa [List.getLast?_cons] using hc
    cases hbefore : before.getLast? with
    | none => simpa [hbefore, eq_comm] using hlast
    | some d =>
        obtain rfl : d = c := by simpa [hbefore] using hlast
        exact hbetween.left d hbefore
  · simp [List.count_eq_zero_of_not_mem hfirst]

/-- The lines of a text are those between line feeds, in order. -/
theorem lineAt_iff {cs line : List Char} {i : Nat} :
    LineAt cs (i + 1) line ↔ (lines cs)[i]? = some line := by
  refine ⟨LineAt.getElem?_lines, fun h => ?_⟩
  induction i generalizing cs with
  | zero =>
      rcases lines_cases cs with ⟨hnot, hlines⟩ | ⟨first, rest, hnot, rfl, hlines⟩
      · obtain rfl : cs = line := by simpa [hlines] using h
        exact ⟨[], [], by simp, ⟨hnot, by simp, by simp⟩, rfl⟩
      · obtain rfl : first = line := by simpa [hlines] using h
        exact ⟨[], '\n' :: rest, rfl, ⟨hnot, by simp, by simp⟩, rfl⟩
  | succ i ih =>
      rcases lines_cases cs with ⟨-, hlines⟩ | ⟨first, rest, hnot, rfl, hlines⟩
      · simp [hlines] at h
      · exact (ih (by simpa [hlines] using h)).succ hnot

/-! ## words -/

/-- The words of a text that starts at byte `offset`. -/
def wordsFrom (offset : Nat) (cs : List Char) : List Word :=
  (placeRuns offset (runs cs)).filter fun w => !w.chars.all isBlank

theorem words_eq (cs : List Char) : words cs = wordsFrom 0 cs := rfl

/-- A maximal run at the start of a text is the first run. -/
theorem runs_append {run : List Char} {blank : Bool} (hne : run ≠ [])
    (hrun : ∀ c ∈ run, isBlank c = blank) {rest : List Char}
    (hrest : ∀ c ∈ rest.head?, isBlank c ≠ blank) : runs (run ++ rest) = run :: runs rest := by
  have hchain : run.IsChain fun a b => (isBlank a == isBlank b) = true := by
    refine List.Pairwise.isChain (List.pairwise_of_forall_mem_list fun a ha b hb => ?_)
    simp [hrun a ha, hrun b hb]
  rw [runs, List.splitBy_append, List.splitBy_of_isChain hne hchain]
  · rfl
  · intro x hx y hy
    have hx' := hrun x (List.mem_of_mem_getLast? hx)
    have hy' := hrest y hy
    simp [hx', Ne.symm hy']

/-- A word that ends at a blank, or with the text, is the first word. -/
theorem wordsFrom_word {offset : Nat} {w rest : List Char} (hne : w ≠ [])
    (hw : ∀ c ∈ w, isBlank c = false) (hrest : ∀ c ∈ rest.head?, isBlank c = true) :
    wordsFrom offset (w ++ rest) = ⟨offset, w⟩ :: wordsFrom (offset + byteLength w) rest := by
  have hruns : runs (w ++ rest) = w :: runs rest :=
    runs_append hne hw fun c hc => by simp [hrest c hc]
  obtain ⟨c, hc⟩ := List.exists_mem_of_ne_nil w hne
  rw [wordsFrom, hruns, placeRuns, List.filter_cons_of_pos]
  · rfl
  · simp only [Bool.not_eq_true', List.all_eq_false]
    exact ⟨c, hc, by simp [hw c hc]⟩

theorem wordsFrom_gap_of_head {offset : Nat} {gap rest : List Char}
    (hgap : ∀ c ∈ gap, isBlank c = true) (hrest : ∀ c ∈ rest.head?, isBlank c = false) :
    wordsFrom offset (gap ++ rest) = wordsFrom (offset + byteLength gap) rest := by
  by_cases hne : gap = []
  · simp [hne, byteLength]
  · have hruns : runs (gap ++ rest) = gap :: runs rest :=
      runs_append hne hgap fun c hc => by simp [hrest c hc]
    rw [wordsFrom, hruns, placeRuns, List.filter_cons_of_neg]
    · rfl
    · simpa using hgap

/-- Blanks at the start of a text only move its words. -/
theorem wordsFrom_gap {offset : Nat} {gap rest : List Char} (hgap : ∀ c ∈ gap, isBlank c = true) :
    wordsFrom offset (gap ++ rest) = wordsFrom (offset + byteLength gap) rest := by
  -- the gap goes on as far as the text is blank
  obtain ⟨more, tail, rfl, hmore, htail⟩ := exists_front isBlank rest
  have hall : ∀ c ∈ gap ++ more, isBlank c = true := by
    intro c hc
    rcases List.mem_append.1 hc with hc | hc
    · exact hgap c hc
    · exact hmore c hc
  rw [← List.append_assoc, wordsFrom_gap_of_head hall htail, wordsFrom_gap_of_head hmore htail,
    byteLength_append, Nat.add_assoc]

/-- What holds of a text whenever it holds of the text behind its first blank or its first
word holds of all texts. -/
theorem text_induction {motive : List Char → Prop} (nil : motive [])
    (blank : ∀ c cs, isBlank c = true → motive cs → motive (c :: cs))
    (word : ∀ w cs, w ≠ [] → (∀ c ∈ w, isBlank c = false) → (∀ c ∈ cs.head?, isBlank c = true) →
      motive cs → motive (w ++ cs)) : (cs : List Char) → motive cs
  | [] => nil
  | c :: cs => by
      by_cases hc : isBlank c = true
      · exact blank c cs hc (text_induction nil blank word cs)
      · obtain ⟨w, rest, rfl, hw, hrest⟩ := exists_front (fun d => !isBlank d) cs
        rw [← List.cons_append]
        refine word (c :: w) rest (by simp) ?_ ?_ (text_induction nil blank word rest)
        · simpa [hc] using hw
        · simpa using hrest
termination_by cs => cs.length

/-- Blanks at the end of a text hold no words. -/
theorem wordsFrom_append_gap {gap : List Char} (hgap : ∀ c ∈ gap, isBlank c = true) (offset : Nat)
    (cs : List Char) : wordsFrom offset (cs ++ gap) = wordsFrom offset cs := by
  induction cs using text_induction generalizing offset with
  | nil =>
      have hnone : wordsFrom offset (gap ++ []) = [] := wordsFrom_gap hgap
      rwa [List.append_nil] at hnone
  | blank c cs hc ih =>
      have hblank : ∀ d ∈ [c], isBlank d = true := by simpa using hc
      rw [← List.singleton_append, List.append_assoc, wordsFrom_gap hblank, wordsFrom_gap hblank,
        ih]
  | word w cs hne hw hcs ih =>
      have hrest : ∀ c ∈ (cs ++ gap).head?, isBlank c = true := by
        cases cs with
        | nil => exact fun c hc => hgap c (List.mem_of_mem_head? hc)
        | cons d cs => simpa using hcs
      rw [List.append_assoc, wordsFrom_word hne hw hrest, wordsFrom_word hne hw hcs, ih]

theorem map_chars_placeRuns (offset : Nat) (runs : List (List Char)) :
    ((placeRuns offset runs).filter fun w => !w.chars.all isBlank).map Word.chars =
      runs.filter fun run => !run.all isBlank := by
  induction runs generalizing offset with
  | nil => rfl
  | cons run runs ih => by_cases hrun : run.all isBlank <;> simp [placeRuns, hrun, ih]

/-- Where a text starts does not matter for what its words are. -/
theorem map_chars_wordsFrom (offset : Nat) (cs : List Char) :
    (wordsFrom offset cs).map Word.chars = (words cs).map Word.chars := by
  rw [words, wordsFrom, map_chars_placeRuns, map_chars_placeRuns]

/-! ## maximal runs -/

/-- `run` is a maximal run of characters that are not blank, between `before` and `after`. -/
structure RunBetween (before run after : List Char) : Prop where
  ne_nil : run ≠ []
  inWord : ∀ c ∈ run, isBlank c = false
  left : ∀ c ∈ before.getLast?, isBlank c = true
  right : ∀ c ∈ after.head?, isBlank c = true

/-- The first run of a text that starts with a run is that run. -/
theorem RunBetween.eq_of_append_eq {run run' after after' : List Char}
    (h : RunBetween [] run after) (h' : RunBetween [] run' after')
    (heq : run ++ after = run' ++ after') : run = run' ∧ after = after' := by
  have hruns : runs (run ++ after) = run :: runs after :=
    runs_append h.ne_nil h.inWord fun c hc => by simp [h.right c hc]
  have hruns' : runs (run' ++ after') = run' :: runs after' :=
    runs_append h'.ne_nil h'.inWord fun c hc => by simp [h'.right c hc]
  obtain ⟨rfl, -⟩ := List.cons.inj (hruns.symm.trans (heq ▸ hruns'))
  exact ⟨rfl, List.append_cancel_left heq⟩

theorem RunBetween.drop_left {front before run after : List Char}
    (h : RunBetween (front ++ before) run after) : RunBetween before run after := by
  refine ⟨h.ne_nil, h.inWord, fun c hc => h.left c ?_, h.right⟩
  rw [List.getLast?_append, Option.mem_def.1 hc]
  rfl

theorem RunBetween.extend_left {front before run after : List Char}
    (h : RunBetween before run after)
    (hfront : before = [] → ∀ c ∈ front.getLast?, isBlank c = true) :
    RunBetween (front ++ before) run after := by
  refine ⟨h.ne_nil, h.inWord, fun c hc => ?_, h.right⟩
  by_cases hbefore : before = []
  · exact hfront hbefore c (by simpa [hbefore] using hc)
  · refine h.left c ?_
    rwa [List.getLast?_append_of_ne_nil front hbefore] at hc

/-- The words of a text are its maximal runs of characters that are not blank. -/
theorem mem_wordsFrom_iff {offset : Nat} {cs : List Char} {w : Word} :
    w ∈ wordsFrom offset cs ↔ ∃ before after, cs = before ++ (w.chars ++ after) ∧
      RunBetween before w.chars after ∧ w.offset = offset + byteLength before := by
  induction cs using text_induction generalizing offset with
  | nil =>
      constructor
      · intro h
        contradiction
      · rintro ⟨before, after, hsplit, hrun, -⟩
        simp [hrun.ne_nil] at hsplit
  | blank c cs hc ih =>
      have hmove : wordsFrom offset ([c] ++ cs) = wordsFrom (offset + byteLength [c]) cs :=
        wordsFrom_gap (by simpa using hc)
      rw [← List.singleton_append, hmove, ih]
      constructor
      · rintro ⟨before, after, rfl, hrun, hoffset⟩
        refine ⟨[c] ++ before, after, by simp, hrun.extend_left (by simp [hc]), ?_⟩
        rw [hoffset, byteLength_append, Nat.add_assoc]
      · rintro ⟨before, after, hsplit, hrun, hoffset⟩
        cases before with
        | nil =>
            -- a run does not start with a blank
            have hhead : c ∈ w.chars := by
              obtain ⟨d, rest, hchars⟩ := List.exists_cons_of_ne_nil hrun.ne_nil
              simp_all
            simp [hrun.inWord c hhead] at hc
        | cons d before =>
            obtain ⟨rfl, rfl⟩ := List.cons.inj hsplit
            have hrun' : RunBetween ([c] ++ before) w.chars after := hrun
            refine ⟨before, after, rfl, hrun'.drop_left, ?_⟩
            simpa [byteLength, Nat.add_assoc] using hoffset
  | word v cs hne hv hcs ih =>
      rw [wordsFrom_word hne hv hcs, List.mem_cons, ih]
      constructor
      · rintro (rfl | ⟨before, after, rfl, hrun, hoffset⟩)
        · exact ⟨[], cs, rfl, ⟨hne, hv, by simp, hcs⟩, rfl⟩
        · refine ⟨v ++ before, after, by simp, hrun.extend_left ?_, ?_⟩
          · -- two words do not touch
            rintro rfl
            obtain ⟨d, rest, hchars⟩ := List.exists_cons_of_ne_nil hrun.ne_nil
            have hd := hrun.inWord d (by simp [hchars])
            simp [hchars, hd] at hcs
          · rw [hoffset, byteLength_append, Nat.add_assoc]
      · rintro ⟨before, after, hsplit, hrun, hoffset⟩
        rcases List.append_eq_append_iff.1 hsplit with ⟨more, rfl, rfl⟩ | ⟨more, rfl, hafter⟩
        · refine .inr ⟨more, after, rfl, hrun.drop_left, ?_⟩
          rw [hoffset, byteLength_append, Nat.add_assoc]
        · rcases List.eq_nil_or_concat before with rfl | ⟨front, d, rfl⟩
          · obtain ⟨hchars, -⟩ := hrun.eq_of_append_eq ⟨hne, hv, by simp, hcs⟩ hafter
            left
            cases w
            simp_all [byteLength]
          · -- the run would start inside the word
            have hd := hrun.left d (by simp)
            simp [hv d (by simp)] at hd

/-- The words of a text stand in the order of their offsets. -/
theorem pairwise_wordsFrom (offset : Nat) (cs : List Char) :
    (wordsFrom offset cs).Pairwise fun v w => v.offset < w.offset := by
  induction cs using text_induction generalizing offset with
  | nil => exact .nil
  | blank c cs hc ih =>
      rw [← List.singleton_append, wordsFrom_gap (by simpa using hc)]
      exact ih _
  | word v cs hne hv hcs ih =>
      rw [wordsFrom_word hne hv hcs]
      refine List.pairwise_cons.2 ⟨fun w hw => ?_, ih _⟩
      obtain ⟨before, after, -, -, hoffset⟩ := mem_wordsFrom_iff.1 hw
      obtain ⟨c, rest, rfl⟩ := List.exists_cons_of_ne_nil hne
      have hpos := c.utf8Size_pos
      simp only [hoffset, byteLength]
      omega

/-! ## in one pass -/

/-- Characters that are not blank join the word that is open. -/
theorem scan_append {cs : List Char} (hcs : ∀ c ∈ cs, isBlank c = false) (offset : Nat) (w : Word)
    (rest : List Char) :
    scan offset (some w) (cs ++ rest) =
      scan (offset + byteLength cs) (some ⟨w.offset, w.chars ++ cs⟩) rest := by
  induction cs generalizing offset w with
  | nil => simp [byteLength]
  | cons c cs ih =>
      have hc := hcs c (by simp)
      have hrest := ih fun d hd => hcs d (by simp [hd])
      simp [scan, hc, hrest, byteLength, Nat.add_assoc]

/-- An open word ends at a blank, or with the text. -/
theorem scan_some_of_head {offset : Nat} {w : Word} {rest : List Char}
    (hrest : ∀ c ∈ rest.head?, isBlank c = true) :
    scan offset (some w) rest = w :: scan offset none rest := by
  cases rest with
  | nil => rfl
  | cons c rest => simp [scan, hrest c rfl]

theorem scan_none (offset : Nat) (cs : List Char) : scan offset none cs = wordsFrom offset cs := by
  induction cs using text_induction generalizing offset with
  | nil => rfl
  | blank c cs hc ih =>
      have hmove : wordsFrom offset ([c] ++ cs) = wordsFrom (offset + byteLength [c]) cs :=
        wordsFrom_gap (by simpa using hc)
      rw [← List.singleton_append, hmove, ← ih]
      simp [scan, hc, byteLength]
  | word w cs hne hw hcs ih =>
      rw [wordsFrom_word hne hw hcs, ← ih]
      obtain ⟨c, w, rfl⟩ := List.exists_cons_of_ne_nil hne
      obtain ⟨hc, htail⟩ := List.forall_mem_cons.1 hw
      have hword := scan_append htail (offset + c.utf8Size) ⟨offset, [c]⟩ cs
      simp [scan, hc, hword, scan_some_of_head hcs, byteLength, Nat.add_assoc]

/-- The words of a text can be read off in one pass. -/
theorem words_eq_scan (cs : List Char) : words cs = scan 0 none cs := (scan_none 0 cs).symm

/-! ## bytes -/

/-- A word is a maximal run of characters of the text that are not blank, and its offset
counts the bytes before it. -/
def Word.IsRunOf (w : Word) (text : String) : Prop :=
  ∃ before after : String, text = before ++ w.text ++ after ∧
    before.utf8ByteSize = w.offset ∧ RunBetween before.toList w.chars after.toList

theorem byteLength_eq (cs : List Char) : byteLength cs = (String.ofList cs).utf8ByteSize := by
  induction cs with
  | nil => rfl
  | cons c cs ih =>
      rw [byteLength, ih, String.ofList_cons, String.utf8ByteSize_append,
        String.utf8ByteSize_singleton]

/-- The words of a text are its maximal runs. -/
theorem mem_words_iff {text : String} {w : Word} : w ∈ words text.toList ↔ w.IsRunOf text := by
  rw [words_eq, mem_wordsFrom_iff]
  constructor
  · rintro ⟨before, after, hsplit, hrun, hoffset⟩
    refine ⟨.ofList before, .ofList after, ?_, ?_, by simpa using hrun⟩
    · rw [← String.toList_inj]
      simp [hsplit, Word.text]
    · simp [hoffset, byteLength_eq]
  · rintro ⟨before, after, rfl, hoffset, hrun⟩
    refine ⟨before.toList, after.toList, by simp [Word.text], hrun, ?_⟩
    simp [← hoffset, byteLength_eq]

/-- A word starts and ends between two characters of the text, and the bytes from its offset
on are its own. -/
theorem Word.IsRunOf.extract {w : Word} {text : String} (h : w.IsRunOf text) :
    String.Pos.Raw.IsValid text ⟨w.offset⟩ ∧
      String.Pos.Raw.IsValid text ⟨w.offset + w.text.utf8ByteSize⟩ ∧
      text.toByteArray.extract w.offset (w.offset + w.text.utf8ByteSize) = w.text.toByteArray := by
  obtain ⟨before, after, rfl, hoffset, -⟩ := h
  rw [← hoffset, ← String.utf8ByteSize_append]
  refine ⟨?_, ?_, ?_⟩
  · exact String.Pos.Raw.isValid_iff_exists_append.2
      ⟨before, w.text ++ after, String.append_assoc .., rfl⟩
  · exact String.Pos.Raw.isValid_iff_exists_append.2 ⟨before ++ w.text, after, rfl, rfl⟩
  · rw [String.toByteArray_append, ← String.size_toByteArray, ← String.size_toByteArray,
      ByteArray.extract_append_size_left, String.toByteArray_append,
      ByteArray.extract_append_eq_right rfl]
    simp

end ForkParser.Text
