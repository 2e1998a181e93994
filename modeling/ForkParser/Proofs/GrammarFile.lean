import ForkParser.GrammarFile
import ForkParser.Proofs.Words
import Mathlib.Data.List.Infix
import Mathlib.Data.List.TakeWhile

/-!
# ForkParser.Proofs.GrammarFile

How productions may be laid out as a grammar file, and that the file is read back as them.

A line has its content, a production with blanks around its parts or blanks alone, and then a
comment or none (`Line`).  The lines of a file stand one after the other, each with its end
except for the last (`Written`).  Reading a line undoes writing it (`readLine_of_line`): the
comment is cut off where the content ends (`withoutComment_append`), the first arrow is the one
of the production (`splitArrow?_rule`), and what stands before and after it are words
(`symbolsOf_spaced`).  Blanks at the end of a line make no difference (`readLine_append_gap`), so
how much of a line's end is taken off it does not matter, nor does an empty last line
(`readLines_trimLines`).

`load_undoes_writing` is the main statement.
-/

namespace ForkParser.GrammarFile

open Text

/-! ## layouts -/

/-- Blanks within a line. -/
def Gap (cs : List Char) : Prop := ∀ c ∈ cs, isBlank c = true ∧ c ≠ '\n'

-- named, so that no search over all characters is tried
instance : DecidablePred Gap := fun cs =>
  List.decidableBAll (fun c => isBlank c = true ∧ c ≠ '\n') cs

/-- The end of a line's content: nothing, or a comment. -/
inductive Remark : List Char → Prop where
  | none : Remark []
  | comment {body : List Char} (hbody : '\n' ∉ body) : Remark ('#' :: body)

/-- Symbols in a row, with blanks between neighbours. -/
inductive Spaced : List Symbol → List Char → Prop where
  | nil : Spaced [] []
  | single (s : Symbol) : Spaced [s] s.name.toList
  | cons (s : Symbol) {t : Symbol} {symbols : List Symbol} {gap rest : List Char} (hgap : Gap gap)
      (hne : gap ≠ []) (hrest : Spaced (t :: symbols) rest) :
      Spaced (s :: t :: symbols) (s.name.toList ++ (gap ++ rest))

/-- What a line has before its comment: a production, or nothing but blanks. -/
inductive Content : Option Production → List Char → Prop where
  | blank {gap : List Char} (hgap : Gap gap) : Content none gap
  | rule {p : Production} {front left right rhs back : List Char} (hfront : Gap front)
      (hleft : Gap left) (hright : Gap right) (hrhs : Spaced p.rhs rhs) (hback : Gap back) :
      Content (some p) (front ++ (p.lhs.name.toList ++
        (left ++ ('-' :: '>' :: (right ++ (rhs ++ back))))))

/-- A line of a file, with a production or without one. -/
inductive Line : Option Production → List Char → Prop where
  | mk {p? : Option Production} {content remark : List Char} (hcontent : Content p? content)
      (hremark : Remark remark) : Line p? (content ++ remark)

inductive LineEnd : List Char → Prop where
  | feed : LineEnd ['\n']
  | returnFeed : LineEnd ['\r', '\n']

/-- A file that has these productions, in order.  The last line may lack its end. -/
inductive Written : List Production → List Char → Prop where
  | last {p? : Option Production} {line : List Char} (hline : Line p? line) : Written p?.toList line
  | line {p? : Option Production} {line ending rest : List Char} {rules : List Production}
      (hline : Line p? line) (hend : LineEnd ending) (hrest : Written rules rest) :
      Written (p?.toList ++ rules) (line ++ (ending ++ rest))

/-- A symbol that can be written as a word of a line. -/
structure Plain (s : Symbol) : Prop where
  ne_empty : s.name ≠ ""
  inWord : ∀ c ∈ s.name.toList, isBlank c = false ∧ c ≠ '#'

instance : DecidablePred Plain := fun s =>
  have := List.decidableBAll (fun c => isBlank c = false ∧ c ≠ '#') s.name.toList
  decidable_of_iff (s.name ≠ "" ∧ ∀ c ∈ s.name.toList, isBlank c = false ∧ c ≠ '#')
    ⟨fun h => ⟨h.1, h.2⟩, fun h => ⟨h.ne_empty, h.inWord⟩⟩

/-- A production that can be written on a line: all of its symbols can, and there is no arrow
in its left-hand side. -/
structure Writable (p : Production) : Prop where
  plain : ∀ s ∈ p.symbols, Plain s
  noArrow : ¬ ['-', '>'] <:+: p.lhs.name.toList

instance : DecidablePred Writable := fun p =>
  decidable_of_iff ((∀ s ∈ p.symbols, Plain s) ∧ ¬ ['-', '>'] <:+: p.lhs.name.toList)
    ⟨fun h => ⟨h.1, h.2⟩, fun h => ⟨h.plain, h.noArrow⟩⟩

/-! ## words -/

theorem Gap.blank {gap : List Char} (h : Gap gap) : ∀ c ∈ gap, isBlank c = true :=
  fun c hc => (h c hc).1

theorem Plain.ne_nil {s : Symbol} (h : Plain s) : s.name.toList ≠ [] := by
  simpa using h.ne_empty

theorem Writable.plain_lhs {p : Production} (h : Writable p) : Plain p.lhs :=
  h.plain p.lhs (by simp [Production.symbols])

theorem Writable.plain_rhs {p : Production} (h : Writable p) : ∀ s ∈ p.rhs, Plain s :=
  fun s hs => h.plain s (by simp [Production.symbols, hs])

/-- Where a text starts does not matter for its symbols. -/
theorem symbolsOf_eq (offset : Nat) (cs : List Char) :
    symbolsOf cs = ((wordsFrom offset cs).map Word.chars).map fun chars => ⟨.ofList chars⟩ := by
  rw [map_chars_wordsFrom, List.map_map]
  rfl

theorem symbolsOf_gap {gap : List Char} (h : Gap gap) (rest : List Char) :
    symbolsOf (gap ++ rest) = symbolsOf rest := by
  rw [symbolsOf_eq 0, wordsFrom_gap h.blank, ← symbolsOf_eq]

theorem symbolsOf_word {s : Symbol} (hs : Plain s) {rest : List Char}
    (hrest : ∀ c ∈ rest.head?, isBlank c = true) :
    symbolsOf (s.name.toList ++ rest) = s :: symbolsOf rest := by
  have hword : ∀ c ∈ s.name.toList, isBlank c = false := fun c hc => (hs.inWord c hc).1
  rw [symbolsOf_eq 0, wordsFrom_word hs.ne_nil hword hrest, List.map_cons, List.map_cons,
    ← symbolsOf_eq, String.ofList_toList]

theorem Gap.head? {gap : List Char} (h : Gap gap) (hne : gap ≠ []) (rest : List Char) :
    ∀ c ∈ (gap ++ rest).head?, isBlank c = true := by
  intro c hc
  rw [List.head?_append_of_ne_nil gap hne] at hc
  exact h.blank c (List.mem_of_mem_head? hc)

theorem symbolsOf_append_gap {gap : List Char} (h : Gap gap) (cs : List Char) :
    symbolsOf (cs ++ gap) = symbolsOf cs := by
  rw [symbolsOf_eq 0, wordsFrom_append_gap h.blank, ← symbolsOf_eq]

/-- The words of symbols in a row are the symbols. -/
theorem symbolsOf_spaced {symbols : List Symbol} {cs : List Char} (h : Spaced symbols cs)
    (hplain : ∀ s ∈ symbols, Plain s) : symbolsOf cs = symbols := by
  induction h with
  | nil => rfl
  | single s =>
      have hword : symbolsOf (s.name.toList ++ []) = [s] :=
        symbolsOf_word (hplain s (by simp)) nofun
      rwa [List.append_nil] at hword
  | cons s hgap hne hrest ih =>
      rw [symbolsOf_word (hplain s (by simp)) (hgap.head? hne _), symbolsOf_gap hgap,
        ih fun t ht => hplain t (by simp [ht])]

/-! ## arrows -/

/-- The first arrow of a text is not in a part without one, nor across its end. -/
theorem splitArrow?_append {front rest : List Char} (harrow : ¬ ['-', '>'] <:+: front)
    (hseam : front.getLast? = some '-' → rest.head? ≠ some '>') :
    splitArrow? (front ++ rest) =
      (splitArrow? rest).map fun (before, after) => (front ++ before, after) := by
  induction front with
  | nil => simp
  | cons c front ih =>
      have hstep : splitArrow? (c :: (front ++ rest)) =
          (splitArrow? (front ++ rest)).map fun (before, after) => (c :: before, after) := by
        rw [splitArrow?]
        -- an arrow here would be in the part or across its end
        rintro more rfl hmore
        cases front with
        | nil => exact hseam (by simp) (by simpa using congrArg List.head? hmore)
        | cons d front =>
            obtain ⟨rfl, -⟩ := List.cons.inj hmore
            exact harrow ⟨[], front, rfl⟩
      have hrest : splitArrow? (front ++ rest) =
          (splitArrow? rest).map fun (before, after) => (front ++ before, after) := by
        refine ih (fun h => harrow (h.trans (List.suffix_cons c front).isInfix)) fun hlast => ?_
        refine hseam ?_
        rw [List.getLast?_cons, hlast]
        rfl
      rw [List.cons_append, hstep, hrest, Option.map_map]
      rfl

theorem splitArrow?_gap {gap : List Char} (hgap : Gap gap) (rest : List Char) :
    splitArrow? (gap ++ rest) =
      (splitArrow? rest).map fun (before, after) => (gap ++ before, after) := by
  have hdash : '-' ∉ gap := fun h => absurd (hgap.blank _ h) (by decide)
  refine splitArrow?_append (fun h => hdash (h.subset (by simp))) fun hlast => ?_
  exact absurd (List.mem_of_getLast? hlast) hdash

/-- Blanks at the end of a text neither make an arrow nor break one. -/
theorem splitArrow?_append_gap {gap : List Char} (hgap : Gap gap) (cs : List Char) :
    splitArrow? (cs ++ gap) =
      (splitArrow? cs).map fun (before, after) => (before, after ++ gap) := by
  fun_induction splitArrow? cs with
  | case1 =>
      have hnone := splitArrow?_gap hgap []
      rw [List.append_nil] at hnone
      exact hnone
  | case2 rest => rfl
  | case3 c rest harrow ih =>
      have hstep : splitArrow? (c :: (rest ++ gap)) =
          (splitArrow? (rest ++ gap)).map fun (before, after) => (c :: before, after) := by
        rw [splitArrow?]
        rintro more rfl hmore
        cases rest with
        | nil =>
            have hmark := hgap.blank '>' (by simp_all)
            exact absurd hmark (by decide)
        | cons d rest =>
            obtain ⟨rfl, -⟩ := List.cons.inj hmore
            exact harrow rest rfl rfl
      rw [List.cons_append, hstep, ih, Option.map_map, Option.map_map]
      rfl

/-- The arrow of a production is the first one of its line, even if it touches the symbols
beside it. -/
theorem splitArrow?_rule {p : Production} (hp : Writable p) {front left : List Char}
    (hfront : Gap front) (hleft : Gap left) (after : List Char) :
    splitArrow? (front ++ (p.lhs.name.toList ++ (left ++ ('-' :: '>' :: after)))) =
      some (front ++ (p.lhs.name.toList ++ left), after) := by
  have hseam : (left ++ ('-' :: '>' :: after)).head? ≠ some '>' := by
    cases left with
    | nil => simp
    | cons c left =>
        have hc := hleft.blank c (by simp)
        simp only [List.cons_append, List.head?_cons, ne_eq, Option.some.injEq]
        rintro rfl
        exact absurd hc (by decide)
  have harrow : splitArrow? ('-' :: '>' :: after) = some ([], after) := rfl
  rw [splitArrow?_gap hfront, splitArrow?_append hp.noArrow fun _ => hseam, splitArrow?_gap hleft,
    harrow]
  simp

/-! ## lines -/

/-- A character that ends neither a line nor the content of one. -/
def InContent (c : Char) : Prop := c ≠ '\n' ∧ c ≠ '#'

theorem Gap.inContent {gap : List Char} (h : Gap gap) : ∀ c ∈ gap, InContent c := by
  intro c hc
  obtain ⟨hblank, hfeed⟩ := h c hc
  refine ⟨hfeed, ?_⟩
  rintro rfl
  exact absurd hblank (by decide)

theorem Plain.inContent {s : Symbol} (h : Plain s) : ∀ c ∈ s.name.toList, InContent c := by
  intro c hc
  obtain ⟨hword, hmark⟩ := h.inWord c hc
  refine ⟨?_, hmark⟩
  rintro rfl
  exact absurd hword (by decide)

theorem Spaced.inContent {symbols : List Symbol} {cs : List Char} (h : Spaced symbols cs)
    (hplain : ∀ s ∈ symbols, Plain s) : ∀ c ∈ cs, InContent c := by
  induction h with
  | nil => simp
  | single s => exact (hplain s (by simp)).inContent
  | cons s hgap hne hrest ih =>
      simp only [List.forall_mem_append]
      exact ⟨(hplain s (by simp)).inContent, hgap.inContent, ih fun t ht => hplain t (by simp [ht])⟩

theorem Content.inContent {p? : Option Production} {content : List Char}
    (h : Content p? content) (hwritable : ∀ p ∈ p?, Writable p) : ∀ c ∈ content, InContent c := by
  cases h with
  | blank hgap => exact hgap.inContent
  | @rule p front left right rhs back hfront hleft hright hrhs hback =>
      have hp := hwritable p rfl
      simp only [List.forall_mem_append, List.forall_mem_cons]
      exact ⟨hfront.inContent, hp.plain_lhs.inContent, hleft.inContent, by simp [InContent],
        by simp [InContent], hright.inContent, hrhs.inContent hp.plain_rhs, hback.inContent⟩

/-- A comment is cut off where the content ends. -/
theorem withoutComment_append {content remark : List Char}
    (hcontent : ∀ c ∈ content, InContent c) (hremark : Remark remark) :
    withoutComment (content ++ remark) = content := by
  rw [withoutComment, List.takeWhile_append_of_pos fun c hc => by simpa using (hcontent c hc).2]
  cases hremark <;> simp

/-- Reading a line undoes writing it. -/
theorem readLine_of_line {p? : Option Production} {line : List Char} (h : Line p? line)
    (hwritable : ∀ p ∈ p?, Writable p) : readLine line = .ok p? := by
  obtain ⟨hcontent, hremark⟩ := h
  rw [readLine, withoutComment_append (hcontent.inContent hwritable) hremark]
  cases hcontent with
  | blank hgap =>
      have hall := List.all_eq_true.2 hgap.blank
      simp [hall]
  | @rule p front left right rhs back hfront hleft hright hrhs hback =>
      have hp := hwritable p rfl
      have hlhs := hp.plain_lhs
      have hbefore : symbolsOf (front ++ (p.lhs.name.toList ++ left)) = [p.lhs] := by
        rw [symbolsOf_gap hfront, symbolsOf_append_gap hleft]
        exact symbolsOf_spaced (.single p.lhs) (by simpa using hlhs)
      have hafter : symbolsOf (right ++ (rhs ++ back)) = p.rhs := by
        rw [symbolsOf_gap hright, symbolsOf_append_gap hback, symbolsOf_spaced hrhs hp.plain_rhs]
      obtain ⟨c, hc⟩ := List.exists_mem_of_ne_nil _ hlhs.ne_nil
      have hblank : ¬ (front ++ (p.lhs.name.toList ++
          (left ++ ('-' :: '>' :: (right ++ (rhs ++ back)))))).all isBlank = true := by
        intro hall
        have hc' := List.all_eq_true.1 hall c (by simp [hc])
        simp [(hlhs.inWord c hc).1] at hc'
      simp only [if_neg hblank, splitArrow?_rule hp hfront hleft, hbefore, hafter]

/-- Blanks at the end of a line belong to its content or to its comment. -/
theorem withoutComment_append_gap {gap : List Char} (hgap : Gap gap) (line : List Char) :
    withoutComment (line ++ gap) = withoutComment line ++ gap ∨
      withoutComment (line ++ gap) = withoutComment line := by
  have hkept : gap.takeWhile (· != '#') = gap :=
    List.takeWhile_eq_self_iff.2 fun c hc => by simpa using (hgap.inContent c hc).2
  rw [withoutComment, withoutComment, List.takeWhile_append, hkept]
  split
  · next hlength =>
      have hwhole := (List.takeWhile_prefix _).eq_of_length hlength
      exact .inl (by rw [hwhole])
  · exact .inr rfl

/-- Blanks at the end of a line make no difference. -/
theorem readLine_append_gap {gap : List Char} (hgap : Gap gap) (line : List Char) :
    readLine (line ++ gap) = readLine line := by
  rw [readLine, readLine]
  rcases withoutComment_append_gap hgap line with hcontent | hcontent
  · have hblank : (withoutComment line ++ gap).all isBlank = (withoutComment line).all isBlank := by
      rw [List.all_append, List.all_eq_true.2 hgap.blank, Bool.and_true]
    rw [hcontent, hblank, splitArrow?_append_gap hgap]
    rcases splitArrow? (withoutComment line) with _ | ⟨before, after⟩
    · rfl
    · simp only [Option.map_some, symbolsOf_append_gap hgap]
  · rw [hcontent]

theorem readLine_append_return (line : List Char) : readLine (line ++ ['\r']) = readLine line :=
  readLine_append_gap (by decide) line

theorem readLine_withoutReturn (line : List Char) :
    readLine (withoutReturn line) = readLine line := by
  rw [withoutReturn]
  split
  · next hreturn =>
      have hline := List.dropLast_append_getLast? _ hreturn
      rw [← readLine_append_return, hline]
  · rfl

theorem Line.notMem_feed {p? : Option Production} {line : List Char} (h : Line p? line)
    (hwritable : ∀ p ∈ p?, Writable p) : '\n' ∉ line := by
  obtain ⟨hcontent, hremark⟩ := h
  rw [List.mem_append, not_or]
  refine ⟨fun hmem => (hcontent.inContent hwritable _ hmem).1 rfl, ?_⟩
  cases hremark with
  | none => simp
  | comment hbody => simpa using hbody

/-! ## files -/

/-- The lines of a file with its first line apart, which may have kept a carriage return. -/
theorem exists_lines {line ending : List Char} (hfeed : '\n' ∉ line) (hend : LineEnd ending)
    (rest : List Char) :
    ∃ first, readLine first = readLine line ∧
      lines (line ++ (ending ++ rest)) = first :: lines rest := by
  cases hend with
  | feed => exact ⟨line, rfl, by simp [lines_append, lines_of_notMem hfeed]⟩
  | returnFeed =>
      refine ⟨line ++ ['\r'], readLine_append_return line, ?_⟩
      have hlines : lines (line ++ ['\r']) = [line ++ ['\r']] :=
        lines_of_notMem (by simpa using hfeed)
      have happend : line ++ (['\r', '\n'] ++ rest) = (line ++ ['\r']) ++ '\n' :: rest := by simp
      rw [happend, lines_append, hlines]
      rfl

/-- Reading the lines of a file undoes writing it, whatever the number of its first line. -/
theorem readLines_of_written {rules : List Production} {text : List Char} (h : Written rules text)
    (hwritable : ∀ p ∈ rules, Writable p) (number : Nat) :
    readLines number (lines text) = .ok rules := by
  induction h generalizing number with
  | last hline =>
      simp only [Option.mem_toList] at hwritable
      have hlines := lines_of_notMem (hline.notMem_feed hwritable)
      simp [hlines, readLines, readLine_of_line hline hwritable]
  | @line p? line ending rest rules hline hend hrest ih =>
      simp only [List.forall_mem_append, Option.mem_toList] at hwritable
      obtain ⟨first, hfirst, hlines⟩ := exists_lines (hline.notMem_feed hwritable.1) hend rest
      rw [readLine_of_line hline hwritable.1] at hfirst
      simp only [hlines, readLines, hfirst, ih hwritable.2]

/-- Neither a carriage return before a line feed nor an empty last line makes a difference. -/
theorem readLines_trimLines (number : Nat) (ls : List (List Char)) :
    readLines number (trimLines ls) = readLines number ls := by
  fun_induction trimLines ls generalizing number with
  | case1 => rfl
  | case2 last hempty =>
      obtain rfl := List.isEmpty_iff.1 hempty
      rfl
  | case3 last hsome => rfl
  | case4 line rest hrest ih => rw [readLines, readLines, readLine_withoutReturn, ih]

/-- **Grammar files.**  Productions that can be written, written in order one on a line, are
what the file is read as: however the lines end, whatever blanks stand around the symbols and
the arrows, whatever the comments say and wherever lines without a production stand. -/
theorem load_undoes_writing {rules : List Production} (hne : rules ≠ [])
    (hwritable : ∀ p ∈ rules, Writable p) {source : String} (h : Written rules source.toList) :
    load source = .ok rules := by
  rw [load, readLines_of_written h hwritable]
  cases rules with
  | nil => contradiction
  | cons p rules => rfl

/-- Arrows that touch their neighbours, blanks that are not ASCII, a comment with an arrow and
lines without a production. -/
theorem load_undoes_writing_touching :
    load "# keys\r\n\u00a0s->->x\u3000EOF# t -> #\n\t\na--> " =
      .ok [⟨⟨"s"⟩, [⟨"->x"⟩, ⟨"EOF"⟩]⟩, ⟨⟨"a-"⟩, []⟩] := by
  refine load_undoes_writing (by decide) (by decide) ?_
  have hkeys := Line.mk (.blank (show Gap [] by decide))
    (.comment (show '\n' ∉ " keys".toList by decide))
  have hrhs : Spaced [⟨"->x"⟩, ⟨"EOF"⟩] ("->x".toList ++ (['\u3000'] ++ "EOF".toList)) :=
    .cons ⟨"->x"⟩ (by decide) (by decide) (.single ⟨"EOF"⟩)
  have hs := Line.mk (@Content.rule ⟨⟨"s"⟩, _⟩ ['\u00a0'] [] [] _ [] (by decide) (by decide)
    (by decide) hrhs (by decide)) (.comment (show '\n' ∉ " t -> #".toList by decide))
  have htab := Line.mk (.blank (show Gap ['\t'] by decide)) .none
  have ha := Line.mk (@Content.rule ⟨⟨"a-"⟩, _⟩ [] [] [' '] _ [] (by decide) (by decide) (by decide)
    .nil (by decide)) .none
  exact Written.line hkeys .returnFeed (.line hs .feed (.line htab .feed (.last ha)))

end ForkParser.GrammarFile
