import Mathlib.Data.List.Nodup
import ForkParser.GrammarBlock.Check
import ForkParser.Proofs.Places

/-!
# ForkParser.Proofs.Declaration

The two checks of a grammar agree.

A declared grammar is checked rule by rule where it is declared
(`GrammarBlock.fault?`), and once more as a list of productions where it is made
(`Grammar.fault?`).  The checks come in different orders and do not ask the same
questions, but both ask whether the productions are `WellDeclared`.  The first one asks
in addition that no rule is given twice.
-/

namespace ForkParser

/-- What productions with a start symbol and an end of input have to be like to make a
grammar. -/
structure WellDeclared (start eof : Symbol) (rules : List Production) : Prop where
  /-- No terminal is expanded. -/
  expands : ∀ p ∈ rules, p.lhs.isTerminal = false
  /-- The start symbol is. -/
  starts : ∃ p ∈ rules, p.lhs = start
  /-- The input ends with a terminal. -/
  ends : eof.isTerminal = true
  /-- No symbol that has an empty production is used. -/
  unused : ∀ p ∈ rules, ∀ s ∈ p.rhs, ⟨s, []⟩ ∉ rules

/-! ## as productions -/

namespace Grammar

variable {settings : Settings} {rules : List Production}

theorem hasEmpty_iff {s : Symbol} : hasEmpty rules s = true ↔ ⟨s, []⟩ ∈ rules := by
  rw [hasEmpty, List.any_eq_true]
  constructor
  · rintro ⟨⟨lhs, rhs⟩, hp, h⟩
    obtain ⟨rfl, rfl⟩ : rhs = [] ∧ lhs = s := by simpa [Production.isEmpty] using h
    exact hp
  · intro h
    exact ⟨_, h, by simp [Production.isEmpty]⟩

theorem settingsFault?_eq_none_iff {symbols : SymbolSet} :
    settingsFault? settings symbols rules = none ↔
      settings.eof.isTerminal = true ∧ settings.eof ∈ symbols ∧
        ∃ p ∈ rules, p.lhs = settings.start := by
  rw [settingsFault?]
  cases settings.eof.isTerminal with
  | false => simp
  | true =>
      by_cases hmem : settings.eof ∈ symbols
      · simp [hmem]
      · simp [hmem]

theorem eof_mem_mentioned : settings.eof ∈ mentioned settings rules := by
  simp [mentioned]

theorem mem_mentioned {p : Production} (hp : p ∈ rules) {s : Symbol} (hs : s ∈ p.symbols) :
    s ∈ mentioned settings rules := by
  rw [mentioned, SymbolSet.mem_ofList, List.mem_append, List.mem_flatMap]
  exact Or.inl ⟨p, hp, hs⟩

/-- Productions make a grammar when they are well declared.  All symbols are known,
since they are mentioned. -/
theorem exists_ofProductions_iff_wellDeclared :
    (∃ g, ofProductions settings rules = .ok g) ↔
      WellDeclared settings.start settings.eof rules := by
  rw [exists_ofProductions_iff, fault?_eq_none_iff]
  simp only [productionFault?_eq_none_iff, settingsFault?_eq_none_iff]
  constructor
  · rintro ⟨-, -, hrules, ⟨heof, -, hstart⟩, hempty⟩
    refine ⟨fun p hp => (hrules p hp).1, hstart, heof, fun p hp s hs hmem => ?_⟩
    simpa [hempty p hp s hs] using hasEmpty_iff.2 hmem
  · intro h
    obtain ⟨q, hq, hstart⟩ := h.starts
    have hsymbols : (mentioned settings rules).isEmpty = false :=
      List.isEmpty_eq_false_iff_exists_mem.2 ⟨_, eof_mem_mentioned⟩
    refine ⟨List.isEmpty_eq_false_iff_exists_mem.2 ⟨q, hq⟩, hsymbols,
      fun p hp => ⟨h.expands p hp, fun s => mem_mentioned hp⟩,
      ⟨h.ends, eof_mem_mentioned, q, hq, hstart⟩, fun p hp s hs => ?_⟩
    rw [← Bool.not_eq_true, hasEmpty_iff]
    exact h.unused p hp s hs

end Grammar

/-! ## as a block -/

namespace GrammarBlock

/-- The rules pass when no terminal is expanded and no production comes up again. -/
theorem rulesFault?_eq_none_iff {rules : List Rule} {earlier : List Production} :
    rulesFault? earlier rules = none ↔
      (∀ p ∈ rules.map Rule.production, p.lhs.isTerminal = false ∧ p ∉ earlier) ∧
        (rules.map Rule.production).Nodup := by
  -- the production of a rule joins `earlier`, so no later rule may give it again
  induction rules generalizing earlier with
  | nil => simp [rulesFault?]
  | cons r rest ih =>
      have hlhs : r.production.lhs = r.lhs.symbol := rfl
      rw [rulesFault?, List.map_cons, List.forall_mem_cons, List.nodup_cons, hlhs]
      cases r.lhs.symbol.isTerminal with
      | true => simp
      | false =>
          by_cases hearlier : r.production ∈ earlier
          · simp [hearlier]
          · rw [if_neg Bool.false_ne_true, if_neg hearlier, ih]
            grind

theorem mem_emptySymbols {rules : List Rule} {s : Symbol} :
    s ∈ emptySymbols rules ↔ ⟨s, []⟩ ∈ rules.map Rule.production := by
  simp only [emptySymbols, List.mem_map, List.mem_filter, List.isEmpty_iff]
  constructor
  · rintro ⟨r, ⟨hr, hrhs⟩, rfl⟩
    exact ⟨r, hr, by simp [Rule.production, hrhs]⟩
  · rintro ⟨r, hr, h⟩
    obtain ⟨hlhs, hrhs⟩ : r.lhs.symbol = s ∧ r.rhs = [] := by simpa [Rule.production] using h
    exact ⟨r, ⟨hr, hrhs⟩, hlhs⟩

theorem emptyFault?_eq_none_iff {rules : List Rule} :
    emptyFault? rules = none ↔
      ∀ p ∈ rules.map Rule.production, ∀ s ∈ p.rhs, ⟨s, []⟩ ∉ rules.map Rule.production := by
  rw [emptyFault?, Option.map_eq_none_iff, List.find?_eq_none]
  simp only [decide_eq_true_eq, mem_emptySymbols, List.forall_mem_flatMap, List.forall_mem_map,
    Rule.production]

theorem namesFault?_eq_none_iff {b : GrammarBlock} :
    b.namesFault? = none ↔
      b.start.symbol.isTerminal = false ∧ (∃ p ∈ b.productions, p.lhs = b.start.symbol) ∧
        b.eof.symbol.isTerminal = true := by
  have hstart : (∃ p ∈ b.productions, p.lhs = b.start.symbol) ↔
      b.rules.any (·.lhs.symbol = b.start.symbol) = true := by
    simp [productions, Rule.production]
  rw [namesFault?, hstart]
  cases b.start.symbol.isTerminal with
  | true => simp
  | false =>
      cases b.rules.any (·.lhs.symbol = b.start.symbol) with
      | false => simp
      | true => simp

/-- A block passes when its productions are well declared and none is given twice.  The
start symbol is no terminal then, since it is expanded. -/
theorem fault?_eq_none_iff_wellDeclared (b : GrammarBlock) :
    b.fault? = none ↔
      WellDeclared b.start.symbol b.eof.symbol b.productions ∧ b.productions.Nodup := by
  have hrules : b.fault? = none ↔
      b.productions ≠ [] ∧ rulesFault? [] b.rules = none ∧
        emptyFault? b.rules = none ∧ b.namesFault? = none := by
    cases hempty : b.rules with
    | nil => simp [fault?, productions, hempty]
    | cons r rest => simp [fault?, productions, hempty, Option.or_eq_none_iff]
  rw [hrules, rulesFault?_eq_none_iff, emptyFault?_eq_none_iff, namesFault?_eq_none_iff]
  constructor
  · rintro ⟨-, ⟨hexpands, hnodup⟩, hunused, -, hstarts, hends⟩
    exact ⟨⟨fun p hp => (hexpands p hp).1, hstarts, hends, hunused⟩, hnodup⟩
  · rintro ⟨h, hnodup⟩
    obtain ⟨q, hq, hstart⟩ := h.starts
    refine ⟨List.ne_nil_of_mem hq, ⟨fun p hp => ⟨h.expands p hp, List.not_mem_nil⟩, hnodup⟩,
      h.unused, ?_, h.starts, h.ends⟩
    rw [← hstart]
    exact h.expands q hq

/-- **The checks agree.**  A block passes the check of its declaration exactly when its
productions make a grammar and no two of its rules have the same symbols on both sides:
a block that passes never fails to make a grammar, and only a repeated rule is refused
of what would make one. -/
theorem passes_iff_makes_grammar (b : GrammarBlock) :
    b.fault? = none ↔
      (∃ g, Grammar.ofProductions { start := b.start.symbol, eof := b.eof.symbol }
        b.productions = .ok g) ∧ b.productions.Nodup := by
  rw [fault?_eq_none_iff_wellDeclared, Grammar.exists_ofProductions_iff_wellDeclared]

end GrammarBlock

end ForkParser
