import Mathlib.Algebra.GroupWithZero.Nat
import Mathlib.Data.List.Nodup
import ForkParser.Proofs.FirstTie

/-!
# ForkParser.Proofs.Inventory

A table lists every place of its productions once.

Telling candidates apart changes what they match and nothing else, so what a table lists for
a symbol are the symbol's places, in order (`Table.map_occurrence_lookup`), each with the
move and the lookahead that its production gives it (`Candidate.Fits`).  Taken together, the
buckets hold every place of the productions (`Grammar.perm_places`), which gives the number
of candidates.  The set of symbols plays no part in that, as long as it has every symbol of
the productions: it says where to look for buckets, and those of other symbols are empty
(`Grammar.mem_openBuckets_iff`).
-/

namespace ForkParser

/-! ## places -/

namespace Occurrence

/-- The number of the production and the position in it. -/
def place (o : Occurrence) : Nat × Nat := (o.ruleIndex, o.pos)

theorem Precedes.place_ne {o o' : Occurrence} (h : o.Precedes o') : o.place ≠ o'.place := by
  intro heq
  obtain ⟨hrule, hpos⟩ := Prod.mk.inj heq
  rcases h with h | ⟨-, h⟩ <;> omega

end Occurrence

/-- The symbol at position `i` on the right-hand side of production `r`. -/
def symbolAt? (productions : List Production) (r i : Nat) : Option Symbol :=
  productions[r]?.bind fun p => p.rhs[i]?

theorem mem_map_place_occurrencesOf {s : Symbol} {productions : List Production} {r i : Nat} :
    (r, i) ∈ (occurrencesOf s productions).map Occurrence.place ↔
      symbolAt? productions r i = some s := by
  simp only [List.mem_map, mem_occurrencesOf, symbolAt?, Option.bind_eq_some_iff]
  constructor
  · rintro ⟨o, ⟨hp, rfl⟩, heq⟩
    obtain ⟨rfl, rfl⟩ := Prod.mk.inj heq
    exact ⟨o.production, hp, List.getElem?_eq_getElem o.inside⟩
  · rintro ⟨p, hp, hs⟩
    obtain ⟨hi, rfl⟩ := List.getElem?_eq_some_iff.1 hs
    exact ⟨⟨p, i, r, hi⟩, ⟨hp, rfl⟩, rfl⟩

/-- A production has as many places as symbols on its right. -/
theorem Production.length_occurrences (p : Production) (ruleIndex : Nat) :
    (p.occurrences ruleIndex).length = p.rhs.length := by
  have hat : ∀ pos ∈ List.range p.rhs.length,
      (Occurrence.at? p pos ruleIndex).map Occurrence.pos = some pos := by
    intro pos hpos
    simp [Occurrence.at?, List.mem_range.1 hpos]
  have hpositions : (p.occurrences ruleIndex).map Occurrence.pos = List.range p.rhs.length := by
    rw [occurrences, List.map_filterMap, List.filterMap_congr hat, List.filterMap_some]
  rw [← List.length_map Occurrence.pos, hpositions, List.length_range]

/-! ## candidates -/

/-- The candidate does what is to be done at its place: at the end of the production it
reduces by it, and accepts if the symbol there is the end of input; anywhere else it shifts.
It looks ahead at the terminal that follows, if one does, and so never where it reduces. -/
structure Candidate.Fits (eof : Symbol) (c : Candidate) : Prop where
  reduces_iff : (∃ accepts, c.action.move = .reduce c.occurrence.production accepts) ↔
    c.occurrence.pos + 1 = c.occurrence.production.rhs.length
  accepts_iff : c.action.accepts = true ↔
    c.occurrence.pos + 1 = c.occurrence.production.rhs.length ∧ c.occurrence.symbol = eof
  shifts_iff : c.action.move = .shift ↔
    c.occurrence.pos + 1 ≠ c.occurrence.production.rhs.length
  lookahead_iff : ∀ s, c.action.lookahead = some s ↔
    c.occurrence.production.rhs[c.occurrence.pos + 1]? = some s ∧ s.isTerminal = true
  lookahead_of_reduce : c.action.move ≠ .shift → c.action.lookahead = none

theorem Candidate.fits {eof : Symbol} {c : Candidate}
    (hmove : c.action.move = (ofOccurrence eof c.occurrence).action.move)
    (hlook : c.action.lookahead = c.occurrence.lookahead) : c.Fits eof := by
  have hnext : ∀ s, c.action.lookahead = some s ↔
      c.occurrence.production.rhs[c.occurrence.pos + 1]? = some s ∧ s.isTerminal = true := by
    intro s
    rw [hlook, Occurrence.lookahead, Option.filter_eq_some_iff, Occurrence.next?]
  cases hlast : c.occurrence.isLast with
  | true =>
      have hend : c.occurrence.pos + 1 = c.occurrence.production.rhs.length := by
        simpa [Occurrence.isLast] using hlast
      have hreduce : c.action.move =
          .reduce c.occurrence.production (c.occurrence.symbol = eof) := by
        simp [hmove, ofOccurrence, hlast]
      have hnone : c.action.lookahead = none := by
        rw [hlook, Occurrence.lookahead_of_isLast hlast]
      exact ⟨by simp [hreduce, hend], by simp [Action.accepts, hreduce, hend],
        by simp [hreduce, hend], hnext, fun _ => hnone⟩
  | false =>
      have hinside : c.occurrence.pos + 1 ≠ c.occurrence.production.rhs.length := by
        simpa [Occurrence.isLast] using hlast
      have hshift : c.action.move = .shift := by
        rw [hmove, move_of_not_isLast hlast]
      exact ⟨by simp [hshift, hinside], by simp [Action.accepts, hshift, hinside],
        by simp [hshift, hinside], hnext, fun hreduce => absurd hshift hreduce⟩

theorem map_occurrence_candidatesOf (s eof : Symbol) (productions : List Production) :
    (candidatesOf s eof productions).map Candidate.occurrence = occurrencesOf s productions := by
  rw [candidatesOf, List.map_map]
  refine List.map_id'' (fun o => ?_) _
  rw [Function.comp_apply, withLookahead_ofOccurrence]

namespace Table

variable {g : Grammar} {t : Table}

/-- What a table lists for a symbol are its places, in order. -/
theorem map_occurrence_lookup (hg : g.table = .ok t) (s : Symbol) :
    (t.lookup s).map Candidate.occurrence = occurrencesOf s g.productions := by
  rw [lookup_eq hg, Suffix.resolve_eq, List.map_map, ← map_occurrence_candidatesOf s g.settings.eof]
  rfl

theorem pairwise_lookup (hg : g.table = .ok t) (s : Symbol) :
    (t.lookup s).Pairwise fun c d => c.occurrence.Precedes d.occurrence := by
  rw [← List.pairwise_map, map_occurrence_lookup hg]
  exact pairwise_occurrencesOf s g.productions

/-- A place is listed once for the symbol that is there, and for no other symbol. -/
theorem count_place_lookup (hg : g.table = .ok t) (s : Symbol) (r i : Nat) :
    ((t.lookup s).map fun c => c.occurrence.place).count (r, i) =
      if symbolAt? g.productions r i = some s then 1 else 0 := by
  have hplaces : (t.lookup s).map (fun c => c.occurrence.place) =
      (occurrencesOf s g.productions).map Occurrence.place := by
    rw [← map_occurrence_lookup hg, List.map_map]
    rfl
  have hnodup : ((occurrencesOf s g.productions).map Occurrence.place).Nodup :=
    List.pairwise_map.2 ((pairwise_occurrencesOf s _).imp Occurrence.Precedes.place_ne)
  rw [hplaces, hnodup.count]
  simp only [mem_map_place_occurrencesOf]

end Table

/-! ## all buckets -/

namespace Grammar

variable {g g' : Grammar}

theorem mem_places {o : Occurrence} : o ∈ g.places ↔ g.HasPlace o := by
  have hsymbol : o ∈ occurrencesOf o.symbol g.productions ↔ o ∈ g.places := by
    simp [occurrencesOf, places]
  rw [← hsymbol, mem_occurrencesOf, HasPlace, and_iff_left rfl]

/-- A grammar has as many places as symbols on right-hand sides. -/
theorem length_places (g : Grammar) :
    g.places.length = (g.productions.map fun p => p.rhs.length).sum := by
  rw [places, List.length_flatMap]
  simp only [Production.length_occurrences]
  conv_rhs => rw [← List.zipIdx_map_fst 0 g.productions, List.map_map]
  rfl

/-- The buckets of a grammar are those of the symbols that occur, whatever else is in its
symbol set. -/
theorem mem_openBuckets_iff {b : Bucket} :
    b ∈ g.openBuckets ↔
      b.candidates = candidatesOf b.symbol g.settings.eof g.productions ∧ b.candidates ≠ [] := by
  rw [mem_openBuckets]
  constructor
  · rintro ⟨-, hcands, hne⟩
    exact ⟨hcands, hne⟩
  · rintro ⟨hcands, hne⟩
    refine ⟨Decidable.byContradiction fun hs => hne ?_, hcands, hne⟩
    rw [hcands, g.candidatesOf_eq_nil hs]

theorem nodup_openBuckets (g : Grammar) : g.openBuckets.Nodup := by
  refine g.pairwise_openBuckets.imp fun {b b'} hlt heq => ?_
  rw [heq] at hlt
  exact Symbol.lt_irrefl _ hlt

theorem map_occurrence_openBucket {b : Bucket} (hb : b ∈ g.openBuckets) :
    b.candidates.map Candidate.occurrence = occurrencesOf b.symbol g.productions := by
  rw [(mem_openBuckets_iff.1 hb).1, map_occurrence_candidatesOf]

/-- The places in all buckets of a grammar are the places of the grammar. -/
theorem perm_places (g : Grammar) :
    (g.openBuckets.flatMap fun b => b.candidates.map Candidate.occurrence).Perm g.places := by
  have hsymbol : ∀ b ∈ g.openBuckets, ∀ o ∈ b.candidates.map Candidate.occurrence,
      o.symbol = b.symbol := by
    intro b hb o ho
    rw [map_occurrence_openBucket hb] at ho
    exact (mem_occurrencesOf.1 ho).2
  -- a place is in the bucket of its symbol and in no other one
  have hnodup : (g.openBuckets.flatMap fun b => b.candidates.map Candidate.occurrence).Nodup := by
    refine List.nodup_flatMap.2 ⟨fun b hb => ?_, ?_⟩
    · rw [map_occurrence_openBucket hb]
      exact nodup_occurrencesOf _ _
    · refine g.pairwise_openBuckets.imp_of_mem fun {b b'} hb hb' hlt o ho ho' => ?_
      rw [← hsymbol b hb o ho, ← hsymbol b' hb' o ho'] at hlt
      exact Symbol.lt_irrefl _ hlt
  have hplaces : g.places.Nodup :=
    (pairwise_flatMap_occurrences g.productions).imp Occurrence.Precedes.ne
  refine (List.perm_ext_iff_of_nodup hnodup hplaces).2 fun o => ?_
  rw [mem_places, List.mem_flatMap]
  constructor
  · rintro ⟨b, hb, ho⟩
    rw [map_occurrence_openBucket hb, mem_occurrencesOf] at ho
    exact ho.1
  · intro ho
    refine ⟨_, exists_openBucket ho, ?_⟩
    rw [map_occurrence_candidatesOf, mem_occurrencesOf]
    exact ⟨ho, rfl⟩

/-- Grammars that differ in their symbol sets only have the same buckets. -/
theorem openBuckets_eq (hsettings : g.settings = g'.settings)
    (hproductions : g.productions = g'.productions) : g.openBuckets = g'.openBuckets := by
  have hperm : g.openBuckets.Perm g'.openBuckets := by
    refine (List.perm_ext_iff_of_nodup g.nodup_openBuckets g'.nodup_openBuckets).2 fun b => ?_
    rw [mem_openBuckets_iff, mem_openBuckets_iff, hsettings, hproductions]
  exact hperm.eq_of_pairwise
    (fun b b' _ _ hlt hgt => absurd (Symbol.lt_trans hlt hgt) (Symbol.lt_irrefl _))
    g.pairwise_openBuckets g'.pairwise_openBuckets

theorem table_eq (hsettings : g.settings = g'.settings)
    (hproductions : g.productions = g'.productions) : g.table = g'.table := by
  have hopen := openBuckets_eq hsettings hproductions
  simp only [table, tie?, clash?, buckets, hopen, hsettings, hproductions]

end Grammar

namespace Table

variable {settings : Settings} {symbols : List Symbol} {rules : List Production} {t : Table}

/-- A table has a candidate for every symbol on a right-hand side. -/
theorem size_eq_sum {g : Grammar} (hg : g.table = .ok t) :
    t.size = (g.productions.map fun p => p.rhs.length).sum := by
  obtain ⟨-, -, rfl⟩ := Grammar.table_eq_ok_iff.1 hg
  rw [← g.length_places, ← g.perm_places.length_eq, List.length_flatMap]
  simp [size, Grammar.buckets, Bucket.resolve, Suffix.resolve_eq, List.foldr_map, List.sum_eq_foldr]

/-- Where nothing is wrong with the productions, their table is that of the grammar they
make. -/
theorem build_eq_table (h : Grammar.fault? settings (.ofList symbols) rules = none) :
    build settings symbols rules = Grammar.table ⟨settings, .ofList symbols, rules, h⟩ := by
  have hgrammar : Grammar.withSymbols settings (.ofList symbols) rules =
      .ok ⟨settings, .ofList symbols, rules, h⟩ := by
    rw [Grammar.withSymbols]
    split
    · next fault hfault =>
        rw [h] at hfault
        contradiction
    · rfl
  rw [build, hgrammar]

theorem fault?_of_build (h : build settings symbols rules = .ok t) :
    Grammar.fault? settings (.ofList symbols) rules = none := by
  rw [build, Grammar.withSymbols] at h
  split at h
  · contradiction
  · next g hg =>
      split at hg
      · contradiction
      · next hnone => exact hnone

/-- **A table lists every place once.**  Whatever the symbols declared, a table that is built
lists for a symbol, by production and then by position, each place of the productions where
the symbol is, once, and nothing else; and what it lists there is what is to be done at the
place.  So it has as many candidates as there are symbols on right-hand sides, and any other
symbols that the productions may be declared over give the same table. -/
theorem build_lists_every_place (h : build settings symbols rules = .ok t) :
    (∀ s, ((t.lookup s).Pairwise fun c d => c.occurrence.Precedes d.occurrence) ∧
      (∀ r i, ((t.lookup s).map fun c => c.occurrence.place).count (r, i) =
        if symbolAt? rules r i = some s then 1 else 0) ∧
      ∀ c ∈ t.lookup s, c.occurrence.symbol = s ∧
        rules[c.occurrence.ruleIndex]? = some c.occurrence.production ∧ c.Fits settings.eof) ∧
    t.size = (rules.map fun p => p.rhs.length).sum ∧
    ∀ symbols', Grammar.fault? settings (.ofList symbols') rules = none →
      build settings symbols' rules = .ok t := by
  have hfaultless := fault?_of_build h
  have hg : Grammar.table ⟨settings, .ofList symbols, rules, hfaultless⟩ = .ok t := by
    rw [← build_eq_table, h]
  refine ⟨fun s => ⟨pairwise_lookup hg s, count_place_lookup hg s, fun c hc => ?_⟩,
    size_eq_sum hg, fun symbols' hfaultless' => ?_⟩
  · obtain ⟨hplace, hsymbol, hmove, hlook, -⟩ := of_mem_lookup hg hc
    exact ⟨hsymbol, hplace, Candidate.fits hmove hlook⟩
  · rw [build_eq_table hfaultless', ← hg]
    exact Grammar.table_eq rfl rfl

/-- Sums, one rule having the same symbol twice, and an empty rule that nothing uses. -/
def sumRules : List Production :=
  [⟨⟨"s"⟩, [⟨"e"⟩, ⟨"EOF"⟩]⟩, ⟨⟨"e"⟩, [⟨"e"⟩, ⟨"PLUS"⟩, ⟨"e"⟩]⟩, ⟨⟨"e"⟩, [⟨"NUM"⟩]⟩,
    ⟨⟨"nothing"⟩, []⟩]

/-- The symbols of the rules. -/
def sumSymbols : List Symbol := [⟨"s"⟩, ⟨"e"⟩, ⟨"nothing"⟩, ⟨"NUM"⟩, ⟨"PLUS"⟩, ⟨"EOF"⟩]

/-- The second `e` of `e PLUS e` is listed once, there are six candidates in all, and a symbol
that does not occur changes nothing. -/
theorem build_lists_every_place_sums :
    ∃ t, build { start := ⟨"s"⟩ } sumSymbols sumRules = .ok t ∧
      ((t.lookup ⟨"e"⟩).map fun c => c.occurrence.place).count (1, 2) = 1 ∧
      t.size = 6 ∧
      build { start := ⟨"s"⟩ } (⟨"UNUSED"⟩ :: sumSymbols) sumRules = .ok t := by
  obtain ⟨t, ht⟩ : ∃ t, build { start := ⟨"s"⟩ } sumSymbols sumRules = .ok t := ⟨_, rfl⟩
  obtain ⟨hlists, hsize, hsame⟩ := build_lists_every_place ht
  exact ⟨t, ht, (hlists ⟨"e"⟩).2.1 1 2, hsize, hsame _ (by decide +kernel)⟩

end Table

end ForkParser
