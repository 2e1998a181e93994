import ForkParser.Table.Basic

/-!
# ForkParser.Proofs.Places

The places of a grammar and where they stand in its table.

A place is a production number together with a position on that production's
right-hand side.  The lemmas go up the way a table is built: the list of places
of a symbol holds each of them once and in order (`mem_occurrencesOf`,
`pairwise_occurrencesOf`), the open candidates are those places with their
moves and lookaheads (`mem_candidatesOf`), and looking a symbol up in a
finished table gives its open candidates told apart (`Table.lookup_eq`),
whether or not the symbol has a bucket.
-/

namespace ForkParser

/-! ## places of a production list -/

namespace Occurrence

/-- The order of places: by production, then by position. -/
def Precedes (o o' : Occurrence) : Prop :=
  o.ruleIndex < o'.ruleIndex ∨ (o.ruleIndex = o'.ruleIndex ∧ o.pos < o'.pos)

theorem Precedes.ne {o o' : Occurrence} (h : o.Precedes o') : o ≠ o' := by
  rintro rfl
  rcases h with h | ⟨-, h⟩ <;> exact Nat.lt_irrefl _ h

/-- The place begins its own context. -/
theorem head?_context (o : Occurrence) : o.context.head? = some o.symbol := by
  rw [List.head?_eq_getElem?]
  exact o.symbolBefore_zero

/-- Contexts agree exactly when the left-hand parts of the productions do. -/
theorem context_eq_iff {o o' : Occurrence} :
    o.context = o'.context ↔
      o.production.rhs.take (o.pos + 1) = o'.production.rhs.take (o'.pos + 1) :=
  List.reverse_inj

/-- Places with one context have one symbol. -/
theorem symbol_eq_of_context_eq {o o' : Occurrence} (h : o.context = o'.context) :
    o.symbol = o'.symbol := by
  have hhead := o.head?_context
  rw [h, o'.head?_context] at hhead
  exact (Option.some.inj hhead).symm

/-- The last place of a production has its last symbol. -/
theorem getLast?_rhs {o : Occurrence} (h : o.isLast = true) :
    o.production.rhs.getLast? = some o.symbol := by
  rw [isLast, beq_iff_eq] at h
  rw [List.getLast?_eq_getElem?, ← h, Nat.add_sub_cancel, symbol, List.get_eq_getElem,
    List.getElem?_eq_getElem]

/-- Nothing is looked ahead for at the end of a production. -/
theorem lookahead_of_isLast {o : Occurrence} (h : o.isLast = true) : o.lookahead = none := by
  rw [lookahead, (o.next?_eq_none_iff).2 h]
  rfl

end Occurrence

/-- The places of one production are those that carry it and its number. -/
theorem Production.mem_occurrences {p : Production} {ruleIndex : Nat} {o : Occurrence} :
    o ∈ p.occurrences ruleIndex ↔ o.production = p ∧ o.ruleIndex = ruleIndex := by
  simp only [occurrences, Occurrence.at?, List.mem_filterMap, List.mem_range]
  constructor
  · rintro ⟨pos, hpos, h⟩
    rw [dif_pos hpos, Option.some.injEq] at h
    subst h
    exact ⟨rfl, rfl⟩
  · rintro ⟨rfl, rfl⟩
    exact ⟨o.pos, o.inside, dif_pos o.inside⟩

theorem Production.pairwise_occurrences (p : Production) (ruleIndex : Nat) :
    (p.occurrences ruleIndex).Pairwise Occurrence.Precedes := by
  rw [occurrences, List.pairwise_filterMap]
  refine List.pairwise_lt_range.imp fun {i j} hij o ho o' ho' => ?_
  simp only [Occurrence.at?, Option.dite_none_right_eq_some, Option.some.injEq] at ho ho'
  obtain ⟨-, rfl⟩ := ho
  obtain ⟨-, rfl⟩ := ho'
  exact Or.inr ⟨rfl, hij⟩

/-- The places of a symbol are the positions of the productions, numbered as
they stand in the list, at which the symbol occurs. -/
theorem mem_occurrencesOf {symbol : Symbol} {productions : List Production} {o : Occurrence} :
    o ∈ occurrencesOf symbol productions ↔
      productions[o.ruleIndex]? = some o.production ∧ o.symbol = symbol := by
  simp only [occurrencesOf, List.mem_filter, List.mem_flatMap, decide_eq_true_eq]
  constructor
  · rintro ⟨⟨⟨p, i⟩, hp, ho⟩, hs⟩
    obtain ⟨rfl, rfl⟩ := Production.mem_occurrences.1 ho
    exact ⟨List.mk_mem_zipIdx_iff_getElem?.1 hp, hs⟩
  · rintro ⟨hp, hs⟩
    exact ⟨⟨(o.production, o.ruleIndex), List.mk_mem_zipIdx_iff_getElem?.2 hp,
      Production.mem_occurrences.2 ⟨rfl, rfl⟩⟩, hs⟩

/-- The places of a list of productions are listed by production and then by position. -/
theorem pairwise_flatMap_occurrences (productions : List Production) :
    (productions.zipIdx.flatMap fun (p, i) => p.occurrences i).Pairwise Occurrence.Precedes := by
  refine List.pairwise_flatMap.2 ⟨?_, ?_⟩
  · rintro ⟨p, i⟩ -
    exact p.pairwise_occurrences i
  · have hnumbers : (productions.zipIdx.map Prod.snd).Pairwise (· < ·) := by
      rw [List.zipIdx_map_snd]
      exact List.pairwise_lt_range'
    refine (List.pairwise_map.1 hnumbers).imp ?_
    rintro ⟨p, i⟩ ⟨p', i'⟩ hlt o ho o' ho'
    rw [(Production.mem_occurrences.1 ho).2.symm, (Production.mem_occurrences.1 ho').2.symm] at hlt
    exact Or.inl hlt

/-- So are those of a symbol. -/
theorem pairwise_occurrencesOf (symbol : Symbol) (productions : List Production) :
    (occurrencesOf symbol productions).Pairwise Occurrence.Precedes :=
  (pairwise_flatMap_occurrences productions).filter _

theorem nodup_occurrencesOf (symbol : Symbol) (productions : List Production) :
    (occurrencesOf symbol productions).Nodup :=
  (pairwise_occurrencesOf symbol productions).imp Occurrence.Precedes.ne

/-! ## open candidates -/

/-- The end of a production reduces by it, and accepts exactly when its last symbol
is the end of input. -/
theorem Candidate.move_of_isLast {eof : Symbol} {o : Occurrence} (h : o.isLast = true) :
    (Candidate.ofOccurrence eof o).action.move =
      .reduce o.production (o.production.rhs.getLast? = some eof) := by
  simp [ofOccurrence, h, Occurrence.getLast?_rhs h]

theorem Candidate.move_of_not_isLast {eof : Symbol} {o : Occurrence} (h : o.isLast = false) :
    (Candidate.ofOccurrence eof o).action.move = .shift := by
  simp [ofOccurrence, h]

/-- The open candidate of a place has the move of the place, its lookahead, and
nothing to match yet. -/
theorem withLookahead_ofOccurrence (eof : Symbol) (o : Occurrence) :
    (Candidate.ofOccurrence eof o).withLookahead =
      ⟨o, { move := (Candidate.ofOccurrence eof o).action.move, lookahead := o.lookahead }⟩ := by
  cases h : o.isLast with
  | true =>
      simp [Candidate.withLookahead, Candidate.ofOccurrence, Action.isShift, h,
        Occurrence.lookahead_of_isLast h]
  | false => simp [Candidate.withLookahead, Candidate.ofOccurrence, Action.isShift, h]

theorem mem_candidatesOf {symbol eof : Symbol} {productions : List Production} {c : Candidate} :
    c ∈ candidatesOf symbol eof productions ↔
      c.occurrence ∈ occurrencesOf symbol productions ∧
        c = (Candidate.ofOccurrence eof c.occurrence).withLookahead := by
  rw [candidatesOf, List.mem_map]
  constructor
  · rintro ⟨o, ho, rfl⟩
    have hplace : (Candidate.ofOccurrence eof o).withLookahead.occurrence = o := by
      rw [withLookahead_ofOccurrence]
    rw [hplace]
    exact ⟨ho, rfl⟩
  · rintro ⟨ho, hc⟩
    exact ⟨c.occurrence, ho, hc.symm⟩

/-- An open candidate looks ahead as its place does. -/
theorem lookahead_of_mem_candidatesOf {symbol eof : Symbol} {productions : List Production}
    {c : Candidate} (h : c ∈ candidatesOf symbol eof productions) :
    c.action.lookahead = c.occurrence.lookahead := by
  rw [(mem_candidatesOf.1 h).2, withLookahead_ofOccurrence]

/-- Open candidates are told apart by their places. -/
theorem eq_of_occurrence_eq {symbol eof : Symbol} {productions : List Production}
    {c d : Candidate} (hc : c ∈ candidatesOf symbol eof productions)
    (hd : d ∈ candidatesOf symbol eof productions) (h : c.occurrence = d.occurrence) : c = d := by
  rw [(mem_candidatesOf.1 hc).2, (mem_candidatesOf.1 hd).2, h]

theorem nodup_candidatesOf (symbol eof : Symbol) (productions : List Production) :
    (candidatesOf symbol eof productions).Nodup := by
  refine List.pairwise_map.2 ((nodup_occurrencesOf symbol productions).imp fun {o o'} hne h => ?_)
  have hplaces := congrArg Candidate.occurrence h
  rw [withLookahead_ofOccurrence, withLookahead_ofOccurrence] at hplaces
  exact hne hplaces

/-! ## what a faultless grammar promises -/

namespace Grammar

/-- A production has no fault of its own when it expands no terminal and keeps to the
symbol set. -/
theorem productionFault?_eq_none_iff {symbols : SymbolSet} {p : Production} :
    productionFault? symbols p = none ↔
      p.lhs.isTerminal = false ∧ ∀ s ∈ p.symbols, s ∈ symbols := by
  rw [productionFault?]
  cases p.lhs.isTerminal <;> simp

section Faults

variable {settings : Settings} {rules : List Production}

/-- What a list of productions without a fault is like. -/
theorem fault?_eq_none_iff {symbols : SymbolSet} :
    fault? settings symbols rules = none ↔
      rules.isEmpty = false ∧ symbols.isEmpty = false ∧
        (∀ p ∈ rules, productionFault? symbols p = none) ∧
          settingsFault? settings symbols rules = none ∧
            ∀ p ∈ rules, ∀ s ∈ p.rhs, hasEmpty rules s = false := by
  rw [fault?]
  cases rules.isEmpty with
  | true => simp
  | false =>
      cases symbols.isEmpty with
      | true => simp
      | false => simp [emptyFault?]

/-- A list of productions makes a grammar when it has no fault. -/
theorem exists_ofProductions_iff :
    (∃ g, ofProductions settings rules = .ok g) ↔
      fault? settings (mentioned settings rules) rules = none := by
  rw [ofProductions, withSymbols]
  split
  · next fault h => simp [h]
  · next h => simp [h]

end Faults

/-- The place stands in the grammar: its production has the number it says. -/
def HasPlace (g : Grammar) (o : Occurrence) : Prop :=
  g.productions[o.ruleIndex]? = some o.production

/-- No terminal is expanded. -/
theorem isTerminal_lhs (g : Grammar) {p : Production} (hp : p ∈ g.productions) :
    p.lhs.isTerminal = false := by
  obtain ⟨-, -, hrules, -⟩ := fault?_eq_none_iff.1 g.faultless
  exact (productionFault?_eq_none_iff.1 (hrules p hp)).1

/-- Every symbol of a production is in the symbol set. -/
theorem mem_symbols (g : Grammar) {p : Production} (hp : p ∈ g.productions) {s : Symbol}
    (hs : s ∈ p.symbols) : s ∈ g.symbols := by
  obtain ⟨-, -, hrules, -⟩ := fault?_eq_none_iff.1 g.faultless
  exact (productionFault?_eq_none_iff.1 (hrules p hp)).2 s hs

/-- The symbol at a place is in the symbol set. -/
theorem symbol_mem_symbols (g : Grammar) {o : Occurrence} (ho : g.HasPlace o) :
    o.symbol ∈ g.symbols :=
  g.mem_symbols (List.mem_of_getElem? ho) (List.mem_cons_of_mem _ (List.get_mem _ _))

/-! ## buckets and look-up -/

theorem mem_openBuckets {g : Grammar} {b : Bucket} :
    b ∈ g.openBuckets ↔
      b.symbol ∈ g.symbols ∧
        b.candidates = candidatesOf b.symbol g.settings.eof g.productions ∧
          b.candidates ≠ [] := by
  simp only [openBuckets, List.mem_filter, List.mem_map, Bool.not_eq_true',
    List.isEmpty_eq_false_iff]
  constructor
  · rintro ⟨⟨s, hs, rfl⟩, hne⟩
    exact ⟨hs, rfl, hne⟩
  · rintro ⟨hs, hc, hne⟩
    refine ⟨⟨b.symbol, hs, ?_⟩, hne⟩
    rw [← hc]

/-- A place of the grammar is in the bucket of its symbol. -/
theorem exists_openBucket {g : Grammar} {o : Occurrence} (ho : g.HasPlace o) :
    ⟨o.symbol, candidatesOf o.symbol g.settings.eof g.productions⟩ ∈ g.openBuckets := by
  have hmem : o ∈ occurrencesOf o.symbol g.productions := mem_occurrencesOf.2 ⟨ho, rfl⟩
  exact mem_openBuckets.2
    ⟨g.symbol_mem_symbols ho, rfl, List.ne_nil_of_mem (List.mem_map_of_mem hmem)⟩

/-- A symbol outside the symbol set occurs nowhere. -/
theorem candidatesOf_eq_nil (g : Grammar) {s : Symbol} (hs : s ∉ g.symbols) (eof : Symbol) :
    candidatesOf s eof g.productions = [] := by
  refine List.eq_nil_iff_forall_not_mem.2 fun c hc => hs ?_
  obtain ⟨hplace, rfl⟩ := mem_occurrencesOf.1 (mem_candidatesOf.1 hc).1
  exact g.symbol_mem_symbols hplace

/-- A table is built when nothing is tied and nothing clashes, and then holds
the grammar's settings, productions and buckets. -/
theorem table_eq_ok_iff {g : Grammar} {t : Table} :
    g.table = .ok t ↔
      g.tie? = none ∧ g.clash? = none ∧ t = ⟨g.settings, g.productions, g.buckets⟩ := by
  rw [table]
  constructor
  · intro h
    split at h
    · contradiction
    · next hnone =>
      rw [Option.or_eq_none_iff] at hnone
      exact ⟨hnone.1, hnone.2, (Except.ok.inj h).symm⟩
  · rintro ⟨htie, hclash, rfl⟩
    rw [htie, hclash]
    rfl

end Grammar

/-- Telling apart no candidates leaves none. -/
theorem Suffix.resolve_nil : Suffix.resolve [] = [] := rfl

/-- Among the buckets made from a list of symbols, the one found for a symbol is
the one made for it, unless that was empty and left out. -/
theorem find?_buckets (f : Symbol → List Candidate) {s : Symbol} (symbols : List Symbol) :
    (((symbols.map fun x => (⟨x, f x⟩ : Bucket)).filter fun b => !b.candidates.isEmpty).map
      Bucket.resolve).find? (·.symbol = s) =
      if s ∈ symbols ∧ f s ≠ [] then some ⟨s, Suffix.resolve (f s)⟩ else none := by
  induction symbols with
  | nil => simp
  | cons x xs ih =>
      rw [List.map_cons, List.filter_cons]
      by_cases hx : f x = []
      · simp only [hx, List.isEmpty_nil, Bool.not_true, Bool.false_eq_true, if_false, ih]
        by_cases hs : s = x
        · simp [hs, hx]
        · simp [hs]
      · simp only [List.isEmpty_eq_false_iff.2 hx, Bool.not_false, if_true, List.map_cons,
          Bucket.resolve, List.find?_cons]
        by_cases hs : x = s
        · subst hs
          simp [hx]
        · have hs' : s ≠ x := fun h => hs h.symm
          simp [hs, hs', ih]

/-- Looking up a symbol gives the candidates of all its places, told apart; a
symbol that occurs nowhere has none. -/
theorem Table.lookup_eq {g : Grammar} {t : Table} (h : g.table = .ok t) (s : Symbol) :
    t.lookup s = Suffix.resolve (candidatesOf s g.settings.eof g.productions) := by
  obtain ⟨-, -, rfl⟩ := Grammar.table_eq_ok_iff.1 h
  rw [lookup, Grammar.buckets, Grammar.openBuckets, find?_buckets]
  by_cases hs : s ∈ g.symbols.toList ∧ candidatesOf s g.settings.eof g.productions ≠ []
  · rw [if_pos hs]
  · rw [if_neg hs]
    have hnil : candidatesOf s g.settings.eof g.productions = [] := by
      by_cases hmem : s ∈ g.symbols
      · exact Decidable.byContradiction fun hne => hs ⟨hmem, hne⟩
      · exact g.candidatesOf_eq_nil hmem _
    rw [hnil, Suffix.resolve_nil]

/-- A candidate found for a symbol is one of its places, with the move and the
lookahead of the place, and matches a beginning of its context. -/
theorem Table.of_mem_lookup {g : Grammar} {t : Table} (h : g.table = .ok t) {s : Symbol}
    {c : Candidate} (hc : c ∈ t.lookup s) :
    g.HasPlace c.occurrence ∧ c.occurrence.symbol = s ∧
      c.action.move = (Candidate.ofOccurrence g.settings.eof c.occurrence).action.move ∧
      c.action.lookahead = c.occurrence.lookahead ∧ c.action.matched <+: c.occurrence.context := by
  rw [lookup_eq h] at hc
  obtain ⟨d, hd, rfl⟩ := List.mem_map.1 hc
  obtain ⟨hplace, hopen⟩ := mem_candidatesOf.1 hd
  obtain ⟨hplace, hsymbol⟩ := mem_occurrencesOf.1 hplace
  have hlook := lookahead_of_mem_candidatesOf hd
  refine ⟨hplace, hsymbol, ?_, hlook, List.take_prefix _ _⟩
  rw [withLookahead_ofOccurrence] at hopen
  exact congrArg (fun x => x.action.move) hopen

/-- Every place of the grammar has a candidate in the table. -/
theorem Table.exists_mem_lookup {g : Grammar} {t : Table} (h : g.table = .ok t) {o : Occurrence}
    (ho : g.HasPlace o) : ∃ c ∈ t.lookup o.symbol, c.occurrence = o := by
  have hopen : (Candidate.ofOccurrence g.settings.eof o).withLookahead ∈
      candidatesOf o.symbol g.settings.eof g.productions :=
    List.mem_map_of_mem (mem_occurrencesOf.2 ⟨ho, rfl⟩)
  rw [lookup_eq h]
  refine ⟨_, List.mem_map_of_mem hopen, ?_⟩
  change (Candidate.ofOccurrence g.settings.eof o).withLookahead.occurrence = o
  rw [withLookahead_ofOccurrence]

/-- A candidate that reduces does so by a production of the grammar that has
symbols, and accepts exactly when the last of them is the end of input. -/
theorem Table.reduce_of_mem_lookup {g : Grammar} {t : Table} (h : g.table = .ok t) {s : Symbol}
    {c : Candidate} (hc : c ∈ t.lookup s) {rule : Production} {accepts : Bool}
    (hmove : c.action.move = .reduce rule accepts) :
    rule ∈ g.productions ∧ rule.rhs ≠ [] ∧
      (accepts = true ↔ rule.rhs.getLast? = some g.settings.eof) := by
  obtain ⟨hplace, -, hplaceMove, -, -⟩ := of_mem_lookup h hc
  rw [hmove] at hplaceMove
  cases hlast : c.occurrence.isLast with
  | false =>
      rw [Candidate.move_of_not_isLast hlast] at hplaceMove
      contradiction
  | true =>
      rw [Candidate.move_of_isLast hlast] at hplaceMove
      obtain ⟨rfl, rfl⟩ := Move.reduce.inj hplaceMove
      refine ⟨List.mem_of_getElem? hplace, ?_, decide_eq_true_iff⟩
      exact List.ne_nil_of_length_pos (Nat.zero_lt_of_lt c.occurrence.inside)

end ForkParser
