import ForkParser.Proofs.Ambiguity

/-!
# ForkParser.Proofs.FirstTie

Which tie a grammar is refused for.

Places that are tied with each other make up a class, and a grammar is refused for the
least class of several members: by the symbol, then by the lookahead, then by the left
context read backwards (`Occurrence.TiesBefore`).  The search for ties goes through three
lists, one inside the other, and each of them is in order: the buckets by symbol
(`Grammar.pairwise_openBuckets`), the parts of a bucket by lookahead
(`Suffix.pairwise_lookaheads`), and the verdicts on a part by the contexts of the
candidates they are about (`Suffix.pairwise_verdictsOf`), since the walk comes to the
start of a production before it goes one symbol deeper.  What is found first in an ordered
list is the least (`exists_first_of_findSome?`), so the first tie is the least of all
(`Suffix.tie?_least`, `Grammar.tie?_least`).
-/

namespace ForkParser

/-- What is found first in an ordered list precedes whatever else could be found. -/
theorem exists_first_of_findSome? {α β : Type} {R : α → α → Prop} {f : α → Option β}
    {l : List α} {b : β} (hl : l.Pairwise R) (h : l.findSome? f = some b) :
    ∃ a ∈ l, f a = some b ∧ ∀ x ∈ l, f x ≠ none → x = a ∨ R a x := by
  obtain ⟨before, a, behind, rfl, ha, hnone⟩ := List.findSome?_eq_some_iff.1 h
  refine ⟨a, by simp, ha, fun x hx hfound => ?_⟩
  rcases List.mem_append.1 hx with hx | hx
  · exact absurd (hnone x hx) hfound
  · rcases List.mem_cons.1 hx with rfl | hx
    · exact Or.inl rfl
    · exact Or.inr ((List.pairwise_cons.1 (List.pairwise_append.1 hl).2.1).1 x hx)

/-! ## the order of contexts -/

section Contexts

variable {seen a b : List Symbol} {s t : Symbol}

/-- A context comes before those that go on from it. -/
theorem lt_of_begins (h : seen ++ [s] <+: a) : seen < a := by
  obtain ⟨rest, rfl⟩ := h
  have hlt : seen ++ [] < seen ++ ([s] ++ rest) := List.append_left_lt (List.nil_lt_cons s rest)
  rwa [List.append_nil, ← List.append_assoc] at hlt

/-- Contexts that go on with different symbols are in the order of these. -/
theorem lt_of_begins_of_lt (hst : s < t) (ha : seen ++ [s] <+: a) (hb : seen ++ [t] <+: b) :
    a < b := by
  obtain ⟨rest, rfl⟩ := ha
  obtain ⟨rest', rfl⟩ := hb
  have hlt : seen ++ s :: rest < seen ++ t :: rest' :=
    List.append_left_lt (List.cons_lt_cons_iff.2 (Or.inl hst))
  simpa using hlt

end Contexts

/-! ## the order of verdicts -/

namespace Suffix

/-- The candidates that a verdict is about. -/
def Verdict.members : Verdict → List Candidate
  | tied members => members
  | byStart member _ => [member]
  | bySuffix member _ => [member]

/-- A verdict precedes another one when the contexts of its candidates do. -/
def Verdict.Precedes (v w : Verdict) : Prop :=
  ∀ c ∈ v.members, ∀ d ∈ w.members, c.occurrence.context < d.occurrence.context

theorem mem_of_mem_startVerdict {depth : Nat} {group : List Candidate} {v : Verdict}
    (hv : v ∈ startVerdict depth group) {c : Candidate} (hc : c ∈ v.members) : c ∈ group := by
  unfold startVerdict at hv
  split at hv
  · contradiction
  · obtain rfl := List.mem_singleton.1 hv
    exact hc
  · obtain rfl := List.mem_singleton.1 hv
    exact hc

theorem pairwise_startVerdict (depth : Nat) (group : List Candidate) :
    (startVerdict depth group).Pairwise Verdict.Precedes := by
  unfold startVerdict
  split <;> simp

/-- The walk comes to verdicts on members of its group only. -/
theorem mem_of_mem_distinguish {height depth : Nat} {group : List Candidate} {v : Verdict}
    (hv : v ∈ distinguish height depth group) {c : Candidate} (hc : c ∈ v.members) :
    c ∈ group := by
  induction height generalizing depth group with
  | zero => exact (List.mem_filter.1 (mem_of_mem_startVerdict hv hc)).1
  | succ height ih =>
      rw [distinguish, List.mem_append, List.mem_flatMap] at hv
      rcases hv with hv | ⟨s, -, hv⟩
      · exact (List.mem_filter.1 (mem_of_mem_startVerdict hv hc)).1
      · split at hv
        · next member halone =>
            obtain rfl := List.mem_singleton.1 hv
            have hmem : c ∈ atSymbol depth s group := by rw [halone]; exact hc
            exact (List.mem_filter.1 hmem).1
        · exact (List.mem_filter.1 (ih hv)).1

/-- The walk comes to its verdicts in the order of the contexts they are about: first to
the context that ends where the walk is, then, symbol by symbol, to those that go on. -/
theorem pairwise_distinguish {height : Nat} {seen : List Symbol} {group : List Candidate}
    (hseen : ∀ c ∈ group, seen <+: c.occurrence.context) :
    (distinguish height seen.length group).Pairwise Verdict.Precedes := by
  induction height generalizing seen group with
  | zero => exact pairwise_startVerdict _ _
  | succ height ih =>
      -- the verdicts that a symbol leads to are about contexts that go on with it
      obtain ⟨verdicts, hverdicts, hpairwise, hbegins⟩ : ∃ verdicts : Symbol → List Verdict,
          distinguish (height + 1) seen.length group =
            startVerdict seen.length (atStart seen.length group) ++
              (symbolsAt seen.length group).toList.flatMap verdicts ∧
          (∀ s, (verdicts s).Pairwise Verdict.Precedes) ∧
          ∀ s, ∀ v ∈ verdicts s, ∀ c ∈ v.members, seen ++ [s] <+: c.occurrence.context := by
        refine ⟨_, rfl, fun s => ?_, fun s v hv c hc => ?_⟩
        · split
          · exact List.pairwise_singleton _ _
          · have hdepth : (seen ++ [s]).length = seen.length + 1 := by simp
            rw [← hdepth]
            exact ih fun c hc => ((mem_atSymbol hseen).1 hc).2
        · have hmem : c ∈ atSymbol seen.length s group := by
            split at hv
            · next member halone =>
                obtain rfl := List.mem_singleton.1 hv
                rw [halone]
                exact hc
            · exact mem_of_mem_distinguish hv hc
          exact ((mem_atSymbol hseen).1 hmem).2
      rw [hverdicts, List.pairwise_append, List.pairwise_flatMap]
      refine ⟨pairwise_startVerdict _ _, ⟨fun s _ => hpairwise s, ?_⟩, ?_⟩
      · refine (symbolsAt seen.length group).ascending.imp ?_
        intro s t hst v hv w hw c hc d hd
        exact lt_of_begins_of_lt hst (hbegins s v hv c hc) (hbegins t w hw d hd)
      · intro v hv w hw c hc d hd
        obtain ⟨s, -, hw⟩ := List.mem_flatMap.1 hw
        have hstart := mem_of_mem_startVerdict hv hc
        rw [atStart_eq_filter hseen, List.mem_filter, decide_eq_true_eq] at hstart
        rw [hstart.2]
        exact lt_of_begins (hbegins s w hw d hd)

theorem pairwise_verdictsOf (part : List Candidate) :
    (verdictsOf part).Pairwise Verdict.Precedes := by
  rw [verdictsOf]
  split
  · exact List.Pairwise.nil
  · exact pairwise_distinguish fun _ _ => List.nil_prefix

/-! ## the first tie of a symbol -/

/-- The lookaheads of some candidates are listed in order, none before all others. -/
theorem pairwise_lookaheads (candidates : List Candidate) :
    (lookaheads candidates).Pairwise (· < ·) := by
  rw [lookaheads, List.pairwise_append, List.pairwise_map]
  refine ⟨?_, ?_, ?_⟩
  · split <;> simp
  · exact (SymbolSet.ascending _).imp fun hlt => Option.some_lt_some.2 hlt
  · intro l hl l' hl'
    obtain rfl : l = none := by
      split at hl
      · exact List.mem_singleton.1 hl
      · contradiction
    obtain ⟨s, -, rfl⟩ := List.mem_map.1 hl'
    exact Option.none_lt_some

/-- The first tie of a part is of the least context that several members have. -/
theorem tie_of_part_least {part members : List Candidate} (hnodup : part.Nodup)
    (h : (verdictsOf part).findSome? Verdict.tie? = some members) :
    2 ≤ members.length ∧ ∃ context, members = part.filter (·.occurrence.context = context) ∧
      ∀ c ∈ part, ∀ d ∈ part, c ≠ d → c.occurrence.context = d.occurrence.context →
        c.occurrence.context = context ∨ context < c.occurrence.context := by
  obtain ⟨v, hv, hfound, hleast⟩ := exists_first_of_findSome? (pairwise_verdictsOf part) h
  obtain rfl : v = .tied members := by
    cases v with
    | tied => exact congrArg Verdict.tied (Option.some.inj hfound)
    | byStart => contradiction
    | bySuffix => contradiction
  obtain ⟨hlen, context, hmembers⟩ := holds_of_mem_verdictsOf hnodup hv
  refine ⟨hlen, context, hmembers, fun c hc d hd hne hctx => ?_⟩
  obtain ⟨members', hv', hmem⟩ := exists_tied_of_context_eq hnodup hc hd hne hctx
  rcases hleast _ hv' (by simp [Verdict.tie?]) with heq | hprecedes
  · rw [Verdict.tied.inj heq, hmembers, List.mem_filter, decide_eq_true_eq] at hmem
    exact Or.inl hmem.2
  · obtain ⟨x, hx⟩ := List.exists_mem_of_length_pos (by omega : 0 < members.length)
    have hlt := hprecedes x hx c hmem
    rw [hmembers, List.mem_filter, decide_eq_true_eq] at hx
    rw [hx.2] at hlt
    exact Or.inr hlt

/-- The first tie among the candidates of a symbol is the least: of the least lookahead
with a tie, and there of the least context. -/
theorem tie?_least {candidates members : List Candidate} (hnodup : candidates.Nodup)
    (h : tie? candidates = some members) :
    2 ≤ members.length ∧ ∃ lookahead context,
      members = candidates.filter (fun c =>
        c.action.lookahead = lookahead ∧ c.occurrence.context = context) ∧
      ∀ c ∈ candidates, ∀ d ∈ candidates, c ≠ d → c.action.lookahead = d.action.lookahead →
        c.occurrence.context = d.occurrence.context →
        lookahead < c.action.lookahead ∨ (lookahead = c.action.lookahead ∧
          (c.occurrence.context = context ∨ context < c.occurrence.context)) := by
  obtain ⟨lookahead, -, hfound, hleast⟩ :=
    exists_first_of_findSome? (pairwise_lookaheads candidates) h
  obtain ⟨hlen, context, hmembers, hcontext⟩ :=
    tie_of_part_least (nodup_partWith hnodup lookahead) hfound
  refine ⟨hlen, lookahead, context, ?_, fun c hc d hd hne hlook hctx => ?_⟩
  · rw [hmembers, partWith, List.filter_filter]
    refine List.filter_congr fun c _ => ?_
    simp [Bool.and_comm]
  · have hcpart : c ∈ partWith candidates c.action.lookahead := mem_partWith.2 ⟨hc, rfl⟩
    have hdpart : d ∈ partWith candidates c.action.lookahead := mem_partWith.2 ⟨hd, hlook.symm⟩
    have htied : (verdictsOf (partWith candidates c.action.lookahead)).findSome? Verdict.tie? ≠
        none := by
      obtain ⟨members', hv, -⟩ :=
        exists_tied_of_context_eq (nodup_partWith hnodup _) hcpart hdpart hne hctx
      intro hnone
      exact absurd (List.findSome?_eq_none_iff.1 hnone _ hv) (by simp [Verdict.tie?])
    rcases hleast _ (mem_lookaheads.2 ⟨c, hc, rfl⟩) htied with heq | hlt
    · rw [heq] at hcpart hdpart
      exact Or.inr ⟨heq.symm, hcontext c hcpart d hdpart hne hctx⟩
    · exact Or.inl hlt

end Suffix

/-! ## classes of tied places -/

namespace Occurrence

/-- Places whose candidates cannot be told apart: they look ahead at the same terminal, or
both at none, and have the same left context. -/
def Tied (o o' : Occurrence) : Prop :=
  o.lookahead = o'.lookahead ∧
    o.production.rhs.take (o.pos + 1) = o'.production.rhs.take (o'.pos + 1)

instance (o o' : Occurrence) : Decidable (o.Tied o') := inferInstanceAs (Decidable (_ ∧ _))

/-- The order in which ties are looked for: by the symbol, then by the lookahead, none
coming first, then by the left context read backwards, a beginning coming first. -/
def TiesBefore (o o' : Occurrence) : Prop :=
  o.symbol < o'.symbol ∨ (o.symbol = o'.symbol ∧
    (o.lookahead < o'.lookahead ∨ (o.lookahead = o'.lookahead ∧ o.context < o'.context)))

theorem tied_iff {o o' : Occurrence} :
    o.Tied o' ↔ o.lookahead = o'.lookahead ∧ o.context = o'.context := by
  rw [Tied, context_eq_iff]

/-- Tied places have one position in their productions. -/
theorem Tied.pos_eq {o o' : Occurrence} (h : o.Tied o') : o.pos = o'.pos := by
  have hlen := congrArg List.length (tied_iff.1 h).2
  simpa using hlen

end Occurrence

/-- The kind of conflict between places: all before the end of their productions, all at
the end, or some of either. -/
def conflictAt (places : List Occurrence) : Conflict :=
  if places.all (!·.isLast) then .shiftShift
  else if places.all (·.isLast) then .reduceReduce
  else .shiftReduce

namespace Grammar

/-- The places of a grammar, by production and then by position. -/
def places (g : Grammar) : List Occurrence :=
  g.productions.zipIdx.flatMap fun (p, i) => p.occurrences i

/-- The places of a grammar that are tied with a place, in order. -/
def tieClass (g : Grammar) (o : Occurrence) : List Occurrence :=
  g.places.filter fun o' => o.Tied o'

variable {g : Grammar}

/-- Tied places are places of one symbol. -/
theorem tieClass_eq (g : Grammar) (o : Occurrence) :
    g.tieClass o = (occurrencesOf o.symbol g.productions).filter fun o' => o.Tied o' := by
  rw [tieClass, occurrencesOf, List.filter_filter, ← places]
  refine List.filter_congr fun o' _ => ?_
  have hsymbol : o.Tied o' → o'.symbol = o.symbol := fun h =>
    (Occurrence.symbol_eq_of_context_eq (Occurrence.tied_iff.1 h).2).symm
  simpa using hsymbol

theorem mem_tieClass {o o' : Occurrence} : o' ∈ g.tieClass o ↔ g.HasPlace o' ∧ o.Tied o' := by
  rw [tieClass_eq, List.mem_filter, mem_occurrencesOf, decide_eq_true_eq]
  constructor
  · rintro ⟨⟨hplace, -⟩, htied⟩
    exact ⟨hplace, htied⟩
  · rintro ⟨hplace, htied⟩
    have hsymbol := Occurrence.symbol_eq_of_context_eq (Occurrence.tied_iff.1 htied).2
    exact ⟨⟨hplace, hsymbol.symm⟩, htied⟩

/-- Of the places of a class, each is in a production of its own, and these are in order. -/
theorem pairwise_ruleIndex_tieClass (g : Grammar) (o : Occurrence) :
    ((g.tieClass o).map (·.ruleIndex)).Pairwise (· < ·) := by
  have hprecedes : (g.tieClass o).Pairwise Occurrence.Precedes := by
    rw [tieClass_eq]
    exact (pairwise_occurrencesOf _ _).sublist List.filter_sublist
  rw [List.pairwise_map]
  refine hprecedes.imp_of_mem fun {x y} hx hy h => ?_
  have hposx := (mem_tieClass.1 hx).2.pos_eq
  have hposy := (mem_tieClass.1 hy).2.pos_eq
  rcases h with h | ⟨-, h⟩
  · exact h
  · omega

/-- The open candidates with the lookahead and the context of a place are those of its
class. -/
theorem filter_candidatesOf (g : Grammar) (o : Occurrence) :
    (candidatesOf o.symbol g.settings.eof g.productions).filter (fun c =>
        c.action.lookahead = o.lookahead ∧ c.occurrence.context = o.context) =
      (g.tieClass o).map fun o' => (Candidate.ofOccurrence g.settings.eof o').withLookahead := by
  rw [candidatesOf, List.filter_map, tieClass_eq]
  congr 1
  refine List.filter_congr fun o' _ => ?_
  simp [withLookahead_ofOccurrence, Occurrence.tied_iff, eq_comm]

/-- A class of several has different open candidates. -/
theorem exists_open_of_two_le {o : Occurrence} (h : 2 ≤ (g.tieClass o).length) :
    ∃ c ∈ candidatesOf o.symbol g.settings.eof g.productions,
      ∃ d ∈ candidatesOf o.symbol g.settings.eof g.productions, c ≠ d ∧
        (c.action.lookahead = o.lookahead ∧ c.occurrence.context = o.context) ∧
        (d.action.lookahead = o.lookahead ∧ d.occurrence.context = o.context) := by
  rw [← List.length_map (fun o' => (Candidate.ofOccurrence g.settings.eof o').withLookahead),
    ← filter_candidatesOf] at h
  have hnodup := (nodup_candidatesOf o.symbol g.settings.eof g.productions).sublist
    (List.filter_sublist (p := fun c =>
      c.action.lookahead = o.lookahead ∧ c.occurrence.context = o.context))
  obtain ⟨c, hc⟩ := List.exists_mem_of_length_pos (Nat.lt_of_lt_of_le Nat.two_pos h)
  obtain ⟨d, hd, hne⟩ := Suffix.exists_rival hnodup h c
  rw [List.mem_filter, decide_eq_true_eq] at hc hd
  exact ⟨c, hc.1, d, hd.1, hne.symm, hc.2, hd.2⟩

/-- The open candidates of some places are in conflict as the places are: a candidate
shifts when its place is before the end of its production. -/
theorem ambiguity_of_places (symbol eof : Symbol) (places : List Occurrence) :
    ambiguity symbol (places.map fun o => (Candidate.ofOccurrence eof o).withLookahead) =
      .ambiguous symbol (conflictAt places) (places.map (·.production.text)) := by
  have hshift : ∀ o, (Candidate.ofOccurrence eof o).withLookahead.action.isShift = !o.isLast := by
    intro o
    rw [withLookahead_ofOccurrence]
    cases h : o.isLast <;> simp [Candidate.ofOccurrence, Action.isShift, h]
  have hconflict : conflictOf (places.map fun o => (Candidate.ofOccurrence eof o).withLookahead) =
      conflictAt places := by
    simp only [conflictOf, conflictAt, List.all_map, List.any_map, Function.comp_def, hshift,
      ← List.not_all_eq_any_not]
    cases places.all (·.isLast) <;> rfl
  rw [ambiguity, hconflict, List.map_map]
  congr 1
  simp [Function.comp_def, withLookahead_ofOccurrence]

/-! ## the first tie of a grammar -/

/-- The buckets are in the order of their symbols. -/
theorem pairwise_openBuckets (g : Grammar) :
    g.openBuckets.Pairwise fun b b' => b.symbol < b'.symbol :=
  List.Pairwise.filter _ (List.pairwise_map.2 g.symbols.ascending)

/-- The first tie of a grammar is the least of its classes of several. -/
theorem tie?_least {symbol : Symbol} {members : List Candidate}
    (h : g.tie? = some (symbol, members)) :
    ∃ o, g.HasPlace o ∧ symbol = o.symbol ∧ 2 ≤ (g.tieClass o).length ∧
      members = (g.tieClass o).map
        (fun o' => (Candidate.ofOccurrence g.settings.eof o').withLookahead) ∧
      ∀ o', g.HasPlace o' → 2 ≤ (g.tieClass o').length → o.Tied o' ∨ o.TiesBefore o' := by
  obtain ⟨b, hb, hfound, hleast⟩ := exists_first_of_findSome? g.pairwise_openBuckets h
  obtain ⟨htie, rfl⟩ : Suffix.tie? b.candidates = some members ∧ b.symbol = symbol := by
    simpa using hfound
  obtain ⟨hlen, lookahead, context, hmembers, hfirst⟩ :=
    Suffix.tie?_least (nodup_of_mem_openBuckets hb) htie
  obtain ⟨-, hcands, -⟩ := mem_openBuckets.1 hb
  -- any member has the lookahead and the context of the tie
  obtain ⟨c, hc⟩ := List.exists_mem_of_length_pos (by omega : 0 < members.length)
  rw [hmembers, List.mem_filter, decide_eq_true_eq, hcands] at hc
  obtain ⟨hc, rfl, rfl⟩ := hc
  obtain ⟨hplace, hsymbol⟩ := mem_occurrencesOf.1 (mem_candidatesOf.1 hc).1
  have hlookahead := lookahead_of_mem_candidatesOf hc
  have hclass : members = (g.tieClass c.occurrence).map
      fun o' => (Candidate.ofOccurrence g.settings.eof o').withLookahead := by
    rw [hmembers, hcands, ← hsymbol, hlookahead, filter_candidatesOf]
  refine ⟨c.occurrence, hplace, hsymbol.symm, ?_, hclass, fun o' ho' hseveral => ?_⟩
  · rwa [hclass, List.length_map] at hlen
  · obtain ⟨x, hx, y, hy, hne, hxo, hyo⟩ := exists_open_of_two_le hseveral
    have htied : Suffix.tie? (candidatesOf o'.symbol g.settings.eof g.productions) ≠ none := by
      rw [Ne, Suffix.tie?_eq_none_iff (nodup_candidatesOf _ _ _)]
      intro hnone
      exact hne (hnone x hx y hy (hxo.1.trans hyo.1.symm) (hxo.2.trans hyo.2.symm))
    rcases hleast _ (exists_openBucket ho') (by simpa using htied) with rfl | hlt
    · -- in one bucket, the lookahead decides and then the context
      have hcases := hfirst x hx y hy hne (hxo.1.trans hyo.1.symm) (hxo.2.trans hyo.2.symm)
      rw [hxo.1, hxo.2, hlookahead] at hcases
      rcases hcases with hlt | ⟨hlook, hctx | hlt⟩
      · exact Or.inr (Or.inr ⟨hsymbol, Or.inl hlt⟩)
      · exact Or.inl (Occurrence.tied_iff.2 ⟨hlook, hctx.symm⟩)
      · exact Or.inr (Or.inr ⟨hsymbol, Or.inr ⟨hlook, hlt⟩⟩)
    · exact Or.inr (Or.inl (hsymbol ▸ hlt))

/-- **A refusal names the least tie of the grammar.**  Places are tied when they look ahead
at the same terminal, or both at none, and have the same left context.  The error of a
refused grammar is about one whole class of tied places, of several members; any other such
class comes after it, by the symbol, then by the lookahead, none coming first, and then by
the left context read backwards, a beginning coming first.  The error has the symbol of the
class, whether its places are before the end of their productions, at it, or either, and
the productions of all of them, in order. -/
theorem table_error_names_least_tie {e : Error} (h : g.table = .error e) :
    ∃ o, g.HasPlace o ∧ 2 ≤ (g.tieClass o).length ∧
      (∀ o', g.HasPlace o' → 2 ≤ (g.tieClass o').length → o.Tied o' ∨ o.TiesBefore o') ∧
      ((g.tieClass o).map (·.ruleIndex)).Pairwise (· < ·) ∧
      e = .ambiguous o.symbol (conflictAt (g.tieClass o))
        ((g.tieClass o).map (·.production.text)) := by
  obtain ⟨symbol, members, htie, rfl⟩ := table_eq_error_iff.1 h
  obtain ⟨o, ho, rfl, hlen, rfl, hleast⟩ := tie?_least htie
  exact ⟨o, ho, hlen, hleast, g.pairwise_ruleIndex_tieClass o, ambiguity_of_places _ _ _⟩

/-- Keys and words that begin alike. -/
def namesakes : Grammar where
  settings := { start := ⟨"s"⟩ }
  symbols := .ofList [⟨"s"⟩, ⟨"key"⟩, ⟨"word"⟩, ⟨"A"⟩, ⟨"B"⟩, ⟨"C"⟩, ⟨"EOF"⟩]
  productions :=
    [⟨⟨"s"⟩, [⟨"key"⟩, ⟨"EOF"⟩]⟩, ⟨⟨"s"⟩, [⟨"word"⟩, ⟨"EOF"⟩]⟩, ⟨⟨"key"⟩, [⟨"B"⟩, ⟨"A"⟩]⟩,
      ⟨⟨"key"⟩, [⟨"A"⟩]⟩, ⟨⟨"word"⟩, [⟨"B"⟩, ⟨"A"⟩, ⟨"C"⟩]⟩, ⟨⟨"word"⟩, [⟨"A"⟩, ⟨"word"⟩]⟩,
      ⟨⟨"word"⟩, [⟨"A"⟩]⟩, ⟨⟨"word"⟩, [⟨"B"⟩, ⟨"A"⟩]⟩]
  faultless := by decide +kernel

/-- Three of the productions begin with `A` and look ahead at nothing, which comes before
the two that end with `B A` and the three that begin with `B` and look ahead at `A`. -/
theorem table_error_names_least_tie_namesakes :
    namesakes.table =
      .error (.ambiguous ⟨"A"⟩ .shiftReduce ["key -> A", "word -> A word", "word -> A"]) ∧
    ∃ o, namesakes.HasPlace o ∧ (namesakes.tieClass o).map (·.production.text) =
        ["key -> A", "word -> A word", "word -> A"] ∧
      o.TiesBefore ⟨⟨⟨"key"⟩, [⟨"B"⟩, ⟨"A"⟩]⟩, 1, 2, by decide⟩ ∧
      o.TiesBefore ⟨⟨⟨"key"⟩, [⟨"B"⟩, ⟨"A"⟩]⟩, 0, 2, by decide⟩ := by
  have hrefused : namesakes.table = .error
      (.ambiguous ⟨"A"⟩ .shiftReduce ["key -> A", "word -> A word", "word -> A"]) := rfl
  obtain ⟨o, ho, -, hleast, -, he⟩ := table_error_names_least_tie hrefused
  obtain ⟨-, -, htexts⟩ := Error.ambiguous.inj he
  -- a place of a production that is not listed is in another class
  have hbefore : ∀ o', namesakes.HasPlace o' → 2 ≤ (namesakes.tieClass o').length →
      o'.production.text ∉ ["key -> A", "word -> A word", "word -> A"] → o.TiesBefore o' := by
    intro o' ho' hseveral htext
    refine (hleast o' ho' hseveral).resolve_left fun htied => htext ?_
    rw [htexts]
    exact List.mem_map_of_mem (mem_tieClass.2 ⟨ho', htied⟩)
  exact ⟨hrefused, o, ho, htexts.symm, hbefore _ rfl (by decide +kernel) (by decide +kernel),
    hbefore _ rfl (by decide +kernel) (by decide +kernel)⟩

end Grammar

end ForkParser
