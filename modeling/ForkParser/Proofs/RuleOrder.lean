import Mathlib.Data.List.Nodup
import Mathlib.Data.List.Perm.Basic
import ForkParser.Proofs.Ambiguity
import ForkParser.Proofs.Failure

/-!
# ForkParser.Proofs.RuleOrder

The order of the productions does not matter.

The number of a production tells its places apart but decides nothing: a place looks
ahead, reads back and moves by the production and the position alone.  So of a
permuted list of productions the places of a symbol are the same up to their numbers
and their order (`perm_map_occurrencesOf`).  What a candidate has to match is told by
the lookaheads and contexts of the other places (`Suffix.matchDepth_eq`), again in
any order, and so the actions of a symbol are the same up to order
(`Table.perm_map_action_lookup`).

Two parsers with the same actions then search alike (`Search.Shuffled`): round by
round the active branches are the same up to order, and so are those accepted.  In
particular there are equally many, which is all that the limits ask about.
-/

namespace ForkParser

/-! ## faults -/

namespace SymbolSet

theorem nodup_toList (set : SymbolSet) : set.toList.Nodup := by
  refine set.ascending.imp fun {x y} hlt heq => ?_
  rw [heq] at hlt
  exact Symbol.lt_irrefl y hlt

theorem eq_of_mem_iff {a b : SymbolSet} (h : ∀ s, s ∈ a ↔ s ∈ b) : a = b := by
  have hperm : a.toList.Perm b.toList :=
    (List.perm_ext_iff_of_nodup a.nodup_toList b.nodup_toList).2 h
  have heq : a.toList = b.toList := hperm.eq_of_pairwise
    (fun x y _ _ hxy hyx => absurd (Symbol.lt_trans hxy hyx) (Symbol.lt_irrefl x))
    a.ascending b.ascending
  cases a
  cases b
  simpa using heq

end SymbolSet

namespace Grammar

variable {settings : Settings} {rules rules' : List Production}

theorem mentioned_eq_of_perm (h : rules.Perm rules') :
    mentioned settings rules = mentioned settings rules' := by
  refine SymbolSet.eq_of_mem_iff fun s => ?_
  rw [mentioned, mentioned, SymbolSet.mem_ofList, SymbolSet.mem_ofList]
  exact ((h.flatMap_right _).append_right _).mem_iff

/-- Permuted productions have a fault together or not at all. -/
theorem fault?_eq_none_iff_of_perm (h : rules.Perm rules') {symbols : SymbolSet} :
    fault? settings symbols rules = none ↔ fault? settings symbols rules' = none := by
  have hempty : hasEmpty rules = hasEmpty rules' := funext fun _ => h.any_eq
  have hsettings : settingsFault? settings symbols rules =
      settingsFault? settings symbols rules' := by
    rw [settingsFault?, settingsFault?, h.any_eq]
  simp only [fault?_eq_none_iff, h.isEmpty_eq, h.mem_iff, hempty, hsettings]

/-- The grammar made from productions has those and the settings given. -/
theorem of_ofProductions {g : Grammar} (h : ofProductions settings rules = .ok g) :
    g.settings = settings ∧ g.productions = rules := by
  rw [ofProductions, withSymbols] at h
  split at h
  · contradiction
  · obtain rfl := Except.ok.inj h
    exact ⟨rfl, rfl⟩

end Grammar

/-! ## places up to their numbers -/

/-- The same place of a production that has another number. -/
def Occurrence.renumbered (o : Occurrence) (ruleIndex : Nat) : Occurrence :=
  { o with ruleIndex }

theorem Production.occurrences_eq_map (p : Production) (ruleIndex : Nat) :
    p.occurrences ruleIndex = (p.occurrences 0).map (·.renumbered ruleIndex) := by
  rw [occurrences, occurrences, List.map_filterMap]
  congr 1
  funext pos
  by_cases hpos : pos < p.rhs.length
  · simp [Occurrence.at?, hpos, Occurrence.renumbered]
  · simp [Occurrence.at?, hpos]

section Places

variable {α : Type} {f : Occurrence → α} (hf : ∀ o n, f (o.renumbered n) = f o)

include hf

/-- What does not depend on the numbers of the places of a symbol can be read off the
productions one by one. -/
theorem map_occurrencesOf (s : Symbol) (rules : List Production) :
    (occurrencesOf s rules).map f =
      rules.flatMap fun p => ((p.occurrences 0).filter (·.symbol = s)).map f := by
  have hone : ∀ (p : Production) (n : Nat),
      ((p.occurrences n).filter (·.symbol = s)).map f =
        ((p.occurrences 0).filter (·.symbol = s)).map f := by
    intro p n
    rw [p.occurrences_eq_map n, List.filter_map, List.map_map]
    exact List.map_congr_left fun o _ => hf o n
  rw [occurrencesOf, List.filter_flatMap, List.map_flatMap]
  simp only [hone]
  conv_rhs => rw [← List.zipIdx_map_fst 0 rules, List.flatMap_map]

/-- It is the same for permuted productions, up to order. -/
theorem perm_map_occurrencesOf (s : Symbol) {rules rules' : List Production}
    (h : rules.Perm rules') :
    ((occurrencesOf s rules).map f).Perm ((occurrencesOf s rules').map f) := by
  rw [map_occurrencesOf hf, map_occurrencesOf hf]
  exact h.flatMap_right _

end Places

/-! ## the surroundings of a place -/

/-- What tells a place from others of its symbol: its lookahead and its context. -/
structure Surroundings where
  lookahead : Option Symbol
  context : List Symbol
deriving DecidableEq

namespace Occurrence

def surroundings (o : Occurrence) : Surroundings := ⟨o.lookahead, o.context⟩

theorem surroundings_renumbered (o : Occurrence) (n : Nat) :
    (o.renumbered n).surroundings = o.surroundings := rfl

end Occurrence

namespace Grammar

/-- Nothing is tied in a grammar when no two places of a symbol have the same
surroundings. -/
theorem tie?_eq_none_iff_nodup {g : Grammar} :
    g.tie? = none ↔ ∀ s, ((occurrencesOf s g.productions).map Occurrence.surroundings).Nodup := by
  rw [tie?_eq_none_iff]
  constructor
  · intro h s
    refine (List.nodup_map_iff_inj_on (nodup_occurrencesOf s _)).2 fun o ho o' ho' heq => ?_
    obtain ⟨hlook, hctx⟩ := Surroundings.mk.inj heq
    exact h o o' (mem_occurrencesOf.1 ho).1 (mem_occurrencesOf.1 ho').1 hlook hctx
  · intro h o o' ho ho' hlook hctx
    have hsymbol := Occurrence.symbol_eq_of_context_eq hctx
    refine List.inj_on_of_nodup_map (h o.symbol) (mem_occurrencesOf.2 ⟨ho, rfl⟩)
      (mem_occurrencesOf.2 ⟨ho', hsymbol.symm⟩) ?_
    rw [Occurrence.surroundings, Occurrence.surroundings, hlook, hctx]

/-- A grammar has a table when nothing is tied. -/
theorem exists_table_iff {g : Grammar} : (∃ t, g.table = .ok t) ↔ g.tie? = none := by
  constructor
  · rintro ⟨t, ht⟩
    exact (table_eq_ok_iff.1 ht).1
  · exact fun htie => ⟨_, table_eq_ok_iff.2 ⟨htie, clash?_eq_none htie, rfl⟩⟩

/-- Grammars with permuted productions have a table together or not at all. -/
theorem tie?_eq_none_iff_of_perm {g g' : Grammar} (h : g.productions.Perm g'.productions) :
    g.tie? = none ↔ g'.tie? = none := by
  rw [tie?_eq_none_iff_nodup, tie?_eq_none_iff_nodup]
  refine forall_congr' fun s => ?_
  exact (perm_map_occurrencesOf Occurrence.surroundings_renumbered s h).nodup_iff

end Grammar

/-! ## what has to be matched -/

namespace Suffix

/-- The other surroundings with the same lookahead. -/
def othersAmong (all : List Surroundings) (x : Surroundings) : List Surroundings :=
  all.filter fun y => y.lookahead = x.lookahead ∧ y ≠ x

/-- How many symbols of its context a place has to match by the surroundings of all
places of its symbol: none if no other has its lookahead, and else one more than it
shares with any of those. -/
def depthAmong (all : List Surroundings) (x : Surroundings) : Nat :=
  if (othersAmong all x).isEmpty then 0
  else min ((othersAmong all x).foldr (fun y n => max (agreement x.context y.context) n) 0 + 1)
    x.context.length

/-- The order of the places does not matter for what has to be matched. -/
theorem depthAmong_eq_of_perm {all all' : List Surroundings} (h : all.Perm all')
    (x : Surroundings) : depthAmong all x = depthAmong all' x := by
  have hothers : (othersAmong all x).Perm (othersAmong all' x) := h.filter _
  have hshared := hothers.foldr_eq' (f := fun y n => max (agreement x.context y.context) n)
    (fun y _ z _ n => Nat.max_left_comm _ _ _) 0
  rw [depthAmong, depthAmong, hothers.isEmpty_eq, hshared]

end Suffix

def Candidate.surroundings (c : Candidate) : Surroundings :=
  ⟨c.action.lookahead, c.occurrence.context⟩

namespace Suffix

variable {candidates : List Candidate} (hnodup : candidates.Nodup)
  (htie : tie? candidates = none)

include hnodup htie

/-- The others are the rivals. -/
theorem othersAmong_surroundings {c : Candidate} (hc : c ∈ candidates) :
    othersAmong (candidates.map Candidate.surroundings) c.surroundings =
      (rivals (partWith candidates c.action.lookahead) c).map Candidate.surroundings := by
  rw [othersAmong, List.filter_map, rivals, partWith, List.filter_filter]
  congr 1
  refine List.filter_congr fun d hd => ?_
  have hiff : d.surroundings = c.surroundings ↔ d = c := by
    constructor
    · intro heq
      obtain ⟨hlook, hctx⟩ := Surroundings.mk.inj heq
      exact (tie?_eq_none_iff hnodup).1 htie d hd c hc hlook hctx
    · rintro rfl
      rfl
  change decide (d.action.lookahead = c.action.lookahead ∧ d.surroundings ≠ c.surroundings) = _
  simp [hiff, Bool.and_comm]

/-- What a candidate has to match is told by the surroundings of all. -/
theorem matchDepth_eq {c : Candidate} (hc : c ∈ candidates) :
    matchDepth candidates c =
      depthAmong (candidates.map Candidate.surroundings) c.surroundings := by
  rw [depthAmong, othersAmong_surroundings hnodup htie hc, List.foldr_map, List.isEmpty_map]
  split
  · next hnone => exact matchDepth_of_alone hnodup (List.isEmpty_iff.1 hnone)
  · next hsome => exact matchDepth_of_rivals hnodup htie hc (mt List.isEmpty_iff.2 hsome)

end Suffix

/-! ## the actions of a symbol -/

/-- The action at a place, by the surroundings of all places of its symbol. -/
def Occurrence.actionAmong (eof : Symbol) (all : List Surroundings) (o : Occurrence) : Action where
  move := (Candidate.ofOccurrence eof o).action.move
  lookahead := o.lookahead
  matched := o.context.take (Suffix.depthAmong all o.surroundings)

/-- An open candidate has the surroundings of its place. -/
theorem surroundings_ofOccurrence (eof : Symbol) (o : Occurrence) :
    (Candidate.ofOccurrence eof o).withLookahead.surroundings = o.surroundings := by
  rw [withLookahead_ofOccurrence]
  rfl

namespace Table

variable {g g' : Grammar} {t t' : Table}

/-- The actions of a symbol are told by its places, and by their numbers only in what
order they stand. -/
theorem map_action_lookup (hg : g.table = .ok t) (s : Symbol) :
    (t.lookup s).map Candidate.action =
      (occurrencesOf s g.productions).map
        (Occurrence.actionAmong g.settings.eof
          ((occurrencesOf s g.productions).map Occurrence.surroundings)) := by
  have hall : (candidatesOf s g.settings.eof g.productions).map Candidate.surroundings =
      (occurrencesOf s g.productions).map Occurrence.surroundings := by
    rw [candidatesOf, List.map_map]
    exact List.map_congr_left fun o _ => surroundings_ofOccurrence _ o
  rw [lookup_eq hg, Suffix.resolve_eq, List.map_map]
  nth_rewrite 2 [candidatesOf]
  rw [List.map_map]
  refine List.map_congr_left fun o ho => ?_
  have hdepth := Suffix.matchDepth_eq (nodup_candidatesOf s g.settings.eof g.productions)
    (tie?_candidatesOf hg s) (List.mem_map_of_mem ho)
  rw [hall, surroundings_ofOccurrence] at hdepth
  simp only [Function.comp_apply, hdepth]
  rw [withLookahead_ofOccurrence]
  rfl

/-- Grammars with permuted productions give each symbol the same actions, up to
order. -/
theorem perm_map_action_lookup (hg : g.table = .ok t) (hg' : g'.table = .ok t')
    (hsettings : g.settings = g'.settings) (h : g.productions.Perm g'.productions) (s : Symbol) :
    ((t.lookup s).map Candidate.action).Perm ((t'.lookup s).map Candidate.action) := by
  have hplaces := perm_map_occurrencesOf Occurrence.surroundings_renumbered s h
  rw [map_action_lookup hg, map_action_lookup hg', ← hsettings]
  have hall : Occurrence.actionAmong g.settings.eof
        ((occurrencesOf s g.productions).map Occurrence.surroundings) =
      Occurrence.actionAmong g.settings.eof
        ((occurrencesOf s g'.productions).map Occurrence.surroundings) := by
    funext o
    rw [Occurrence.actionAmong, Occurrence.actionAmong, Suffix.depthAmong_eq_of_perm hplaces]
  rw [hall]
  exact perm_map_occurrencesOf (fun _ _ => rfl) s h

end Table

/-! ## one step -/

/-- A branch after an action; it has failed if the action did. -/
def Branch.acting (b : Branch) (start : Symbol) (input : Array Token) (a : Action) : Branch :=
  match b.execute a start input with
  | (b, .ok ()) => b
  | (b, .error e) => b.fail e

namespace Parser

variable {p p' : Parser}

/-- Parsers that work under the same settings and do the same, up to order, for every
symbol on the stack top. -/
structure SameActions (p p' : Parser) : Prop where
  settings : p.settings = p'.settings
  actions : ∀ s, ((p.table.lookup s).map Candidate.action).Perm
    ((p'.table.lookup s).map Candidate.action)

/-- Candidates are chosen and followed by their actions. -/
theorem map_follow (b : Branch) (input : Array Token) (candidates : List Candidate) :
    candidates.map (p.follow b input) =
      (candidates.map Candidate.action).map (b.acting p.settings.start input) := by
  rw [List.map_map]
  rfl

theorem map_action_matching (b : Branch) (input : Array Token) (candidates : List Candidate) :
    (matching b input candidates).map Candidate.action =
      (candidates.map Candidate.action).filter fun a => (b.probe a input).2.isOk := by
  rw [List.filter_map]
  rfl

namespace SameActions

variable (h : p.SameActions p') (b : Branch) (input : Array Token)

include h

/-- Such parsers choose the same actions, up to order. -/
theorem chosen : ((p.chosen b input).map Candidate.action).Perm
    ((p'.chosen b input).map Candidate.action) := by
  cases htop : b.stack.peek? with
  | none => simp [Parser.chosen, htop]
  | some top =>
      have hactions := h.actions top.symbol
      have hlength : (p.table.lookup top.symbol).length = (p'.table.lookup top.symbol).length := by
        simpa using hactions.length_eq
      by_cases hone : (p.table.lookup top.symbol).length = 1
      · -- a single candidate is chosen without a look at its conditions, in both
        obtain ⟨c, hc⟩ := List.length_eq_one_iff.1 hone
        obtain ⟨c', hc'⟩ := List.length_eq_one_iff.1 (hlength ▸ hone)
        rw [chosen_of_single htop hc, chosen_of_single htop hc', ← hc, ← hc']
        exact hactions
      · rw [chosen_of_not_single htop hone, chosen_of_not_single htop (hlength ▸ hone),
          map_action_matching, map_action_matching]
        exact hactions.filter _

/-- The successors that have not failed are the same, up to order. -/
theorem step {P : Branch → Bool} (hP : ∀ b e, P (Branch.fail b e) = false) :
    ((p.step b input).filter P).Perm ((p'.step b input).filter P) := by
  rw [filter_step hP, filter_step hP, map_follow, map_follow, h.settings]
  exact ((h.chosen b input).map _).filter P

end SameActions

end Parser

/-! ## two searches -/

namespace Search

/-- The searches have the same branches active and the same accepted, up to order. -/
structure Shuffled (s s' : Search) : Prop where
  active : s.active.Perm s'.active
  accepted : s.accepted.Perm s'.accepted

namespace Shuffled

variable {s s' : Search} (h : s.Shuffled s')

include h

theorem isOver_eq (settings : Settings) : s.isOver settings = s'.isOver settings := by
  rw [isOver, isOver, h.active.isEmpty_eq, h.active.length_eq]

theorem limit?_eq (settings : Settings) : s.limit? settings = s'.limit? settings := by
  rw [limit?, limit?, h.active.isEmpty_eq, h.active.length_eq]

variable {p p' : Parser} (hsame : p.SameActions p') (input : Array Token)

include hsame

/-- A round of one parser and a round of the other leave the searches shuffled. -/
theorem advance : (s.advance p input).Shuffled (s'.advance p' input) := by
  constructor
  · simp only [Search.advance, successors, List.filter_flatMap]
    exact h.active.flatMap fun b _ => hsame.step b input fun _ _ => rfl
  · simp only [Search.advance, successors, List.filter_flatMap]
    exact h.accepted.append (h.active.flatMap fun b _ => hsame.step b input fun _ _ => rfl)

/-- The searches are over together, and shuffled at their end. -/
theorem run (left : Nat) : (s.run p input left).Shuffled (s'.run p' input left) := by
  induction left generalizing s s' with
  | zero => exact h
  | succ left ih =>
      rw [Search.run, Search.run, h.isOver_eq, ← hsame.settings]
      split
      · exact h
      · exact ih (h.advance hsame input)

end Shuffled

end Search

/-! ## two results -/

namespace Parser

/-- The results agree up to the order of the trees: both are forests or none is, the
forests hold the same trees, each as often, and one is the error of a limit where the
other is the error of that limit. -/
structure Alike (r r' : Except Error Forest) : Prop where
  succeed : (∃ forest, r = .ok forest) ↔ ∃ forest', r' = .ok forest'
  trees : ∀ forest forest', r = .ok forest → r' = .ok forest' →
    forest.trees.Perm forest'.trees
  branchLimit : ∀ n, r = .error (.branchLimit n) ↔ r' = .error (.branchLimit n)
  stepLimit : ∀ n, r = .error (.stepLimit n) ↔ r' = .error (.stepLimit n)

variable {p p' : Parser} (h : p.SameActions p')

include h

theorem SameActions.shuffled {input : Array Token} {s s' : Search} (hs : p.search input = .ok s)
    (hs' : p'.search input = .ok s') : s.Shuffled s' := by
  obtain ⟨token, htoken, -⟩ := search_eq_after hs
  rw [search, seed_eq_ok htoken] at hs hs'
  obtain rfl := Except.ok.inj hs
  obtain rfl := Except.ok.inj hs'
  rw [← h.settings]
  exact Search.Shuffled.run ⟨.refl _, .refl _⟩ h _ _

/-- Parsers that do the same return results that agree up to order. -/
theorem SameActions.alike {tokens : List Token} (hne : tokens ≠ [])
    (hleaf : ∀ t ∈ tokens, t.isLeaf = true) : Alike (p.parse tokens) (p'.parse tokens) := by
  obtain ⟨s, hs⟩ := exists_search (p := p) hne
  obtain ⟨s', hs'⟩ := exists_search (p := p') hne
  have hshuffled := h.shuffled hs hs'
  have hnone : s.accepted = [] ↔ s'.accepted = [] := by
    rw [← List.isEmpty_iff, hshuffled.accepted.isEmpty_eq, List.isEmpty_iff]
  -- an error that points nowhere is the limit, and that depends on how many are active
  have hlimit : ∀ e : Error, e.position = none →
      (p.parse tokens = .error e ↔ p'.parse tokens = .error e) := by
    intro e he
    rw [parse_eq_error_iff hne hs he, parse_eq_error_iff hne hs' he, hnone, hshuffled.limit?_eq,
      h.settings]
  refine ⟨?_, ?_, fun n => hlimit (.branchLimit n) rfl, fun n => hlimit (.stepLimit n) rfl⟩
  · rw [parse_eq hne hleaf hs, parse_eq hne hleaf hs']
    by_cases haccepted : s.accepted = []
    · simp [haccepted, hnone.1 haccepted]
    · simp [haccepted, mt hnone.2 haccepted]
  · intro forest forest' hforest hforest'
    rw [parse_eq hne hleaf hs] at hforest
    rw [parse_eq hne hleaf hs'] at hforest'
    split at hforest
    · contradiction
    · next haccepted =>
        rw [if_neg (mt hnone.2 haccepted)] at hforest'
        rw [← Except.ok.inj hforest, ← Except.ok.inj hforest']
        exact hshuffled.accepted.flatMap_right _

end Parser

namespace Grammar

/-- **The order of the productions does not matter.**  Permuted lists of productions make
a grammar together or not at all, and those grammars have a table together or not at
all.  Under the same limits their parsers return results that agree up to the order of
the trees, over every stream of leaves. -/
theorem rule_order_irrelevant (settings : Settings) {rules rules' : List Production}
    (h : rules.Perm rules') :
    ((∃ g, ofProductions settings rules = .ok g) ↔
      ∃ g', ofProductions settings rules' = .ok g') ∧
    ∀ g g', ofProductions settings rules = .ok g → ofProductions settings rules' = .ok g' →
      ((∃ t, g.table = .ok t) ↔ ∃ t', g'.table = .ok t') ∧
      ∀ t t', g.table = .ok t → g'.table = .ok t' →
        ∀ (limits : Settings) (tokens : List Token), tokens ≠ [] →
          (∀ x ∈ tokens, x.isLeaf = true) →
          Parser.Alike ((Parser.withLimits t limits).parse tokens)
            ((Parser.withLimits t' limits).parse tokens) := by
  refine ⟨?_, fun g g' hg hg' => ?_⟩
  · rw [exists_ofProductions_iff, exists_ofProductions_iff, mentioned_eq_of_perm h,
      fault?_eq_none_iff_of_perm h]
  · obtain ⟨rfl, rfl⟩ := of_ofProductions hg
    obtain ⟨hsettings, rfl⟩ := of_ofProductions hg'
    refine ⟨?_, fun t t' ht ht' limits tokens hne hleaf => ?_⟩
    · rw [exists_table_iff, exists_table_iff, tie?_eq_none_iff_of_perm h]
    · refine Parser.SameActions.alike ⟨?_, fun s => ?_⟩ hne hleaf
      · obtain ⟨-, -, rfl⟩ := table_eq_ok_iff.1 ht
        obtain ⟨-, -, rfl⟩ := table_eq_ok_iff.1 ht'
        rw [Parser.withLimits, Parser.withLimits, hsettings]
      · exact Table.perm_map_action_lookup ht ht' hsettings.symm h s

/-- `X Y` read in two ways by trees of one size. -/
def twofold : List Production :=
  [⟨⟨"s"⟩, [⟨"a"⟩, ⟨"EOF"⟩]⟩, ⟨⟨"a"⟩, [⟨"d"⟩]⟩, ⟨⟨"d"⟩, [⟨"X"⟩, ⟨"Y"⟩]⟩,
    ⟨⟨"s"⟩, [⟨"b"⟩, ⟨"EOF"⟩]⟩, ⟨⟨"b"⟩, [⟨"q"⟩, ⟨"Y"⟩]⟩, ⟨⟨"q"⟩, [⟨"X"⟩]⟩]

/-- The source `xy`. -/
def twofoldSource : List Lexeme := [⟨⟨"X"⟩, "x", 0⟩, ⟨⟨"Y"⟩, "y", 1⟩]

/-- Listed the other way round, the productions give the two trees the other way
round. -/
theorem rule_order_irrelevant_twofold :
    ∃ g g' t t' forest forest',
      ofProductions { start := ⟨"s"⟩ } twofold = .ok g ∧
      ofProductions { start := ⟨"s"⟩ } twofold.reverse = .ok g' ∧
      g.table = .ok t ∧ g'.table = .ok t' ∧
      (Parser.withLimits t {}).parse (stream twofoldSource ⟨"EOF"⟩) = .ok forest ∧
      (Parser.withLimits t' {}).parse (stream twofoldSource ⟨"EOF"⟩) = .ok forest' ∧
      forest.trees.length = 2 ∧ forest ≠ forest' ∧ forest.trees.Perm forest'.trees := by
  have hleaf : ∀ x ∈ stream twofoldSource ⟨"EOF"⟩, x.isLeaf = true := by decide
  obtain ⟨g, hg, g', hg', t, ht, t', ht', forest, hforest, forest', hforest', hlength, hne⟩ :
      ∃ g, ofProductions { start := ⟨"s"⟩ } twofold = .ok g ∧
      ∃ g', ofProductions { start := ⟨"s"⟩ } twofold.reverse = .ok g' ∧
      ∃ t, g.table = .ok t ∧ ∃ t', g'.table = .ok t' ∧
      ∃ forest, (Parser.withLimits t {}).parse (stream twofoldSource ⟨"EOF"⟩) = .ok forest ∧
      ∃ forest', (Parser.withLimits t' {}).parse (stream twofoldSource ⟨"EOF"⟩) = .ok forest' ∧
        forest.trees.length = 2 ∧ forest ≠ forest' :=
    ⟨_, rfl, _, rfl, _, rfl, _, rfl, _, rfl, _, rfl, rfl, by decide +kernel⟩
  have horder := rule_order_irrelevant { start := ⟨"s"⟩ } (List.reverse_perm twofold).symm
  have halike := (horder.2 g g' hg hg').2 t t' ht ht' {} _ (List.cons_ne_nil _ _) hleaf
  exact ⟨g, g', t, t', forest, forest', hg, hg', ht, ht', hforest, hforest', hlength, hne,
    halike.trees forest forest' hforest hforest'⟩

end Grammar

end ForkParser
