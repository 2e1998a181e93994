import Mathlib.Data.List.Perm.Subperm
import Mathlib.Logic.Relation
import ForkParser.Proofs.Failure
import ForkParser.Proofs.Invariant

/-!
# ForkParser.Proofs.UnitChains

Only unit productions that form a cycle can keep a search going.

A move that leaves a branch active takes a token, or replaces several tokens of the
stack by one, or is a unit reduction, which replaces the stack top alone.  Of the
first two kinds there can be only so many, since each lessens `Branch.remaining`.
Between two of them the unit reductions form a chain upwards from one symbol
(`UnitChain`), and without a cycle no production comes up in it twice
(`UnitChain.length_le`).  So a run is made of at most `2 * n - 1` phases over `n`
tokens, each of one such move and a chain (`Branch.Paced`), and
`Table.roundBound` bounds its length.
-/

namespace ForkParser

/-! ## chains of unit productions -/

/-- Whether the right-hand side is a single symbol. -/
def Production.isUnit (p : Production) : Bool := p.rhs.length == 1

/-- A unit production replaces the first symbol by the second. -/
def UnitStep (rules : List Production) (s s' : Symbol) : Prop := ⟨s', [s]⟩ ∈ rules

/-- No chain of unit productions leads from a symbol back to itself. -/
def UnitAcyclic (rules : List Production) : Prop :=
  ∀ s, ¬ Relation.TransGen (UnitStep rules) s s

/-- Unit productions do not form a cycle if some numbering of the symbols grows along
each of them. -/
theorem unitAcyclic_of_rank {rules : List Production} (rank : Symbol → Nat)
    (h : ∀ p ∈ rules, p.isUnit = true → ∀ s ∈ p.rhs, rank s < rank p.lhs) :
    UnitAcyclic rules := by
  have hgrows : ∀ s s', Relation.TransGen (UnitStep rules) s s' → rank s < rank s' := by
    intro s s' hchain
    induction hchain with
    | single hstep => exact h _ hstep rfl s (by simp)
    | tail _ hstep ih => exact Nat.lt_trans ih (h _ hstep rfl _ (by simp))
  exact fun s hcycle => Nat.lt_irrefl _ (hgrows s s hcycle)

/-- Unit productions, the last one first, each of which replaces what the one before it
led to; they lead up to the symbol. -/
inductive UnitChain (rules : List Production) : List Production → Symbol → Prop
  | nil (s : Symbol) : UnitChain rules [] s
  | cons {chain : List Production} {s s' : Symbol} (h : UnitChain rules chain s)
      (hstep : UnitStep rules s s') : UnitChain rules (⟨s', [s]⟩ :: chain) s'

namespace UnitChain

variable {rules chain : List Production} {s : Symbol}

theorem subset (h : UnitChain rules chain s) : chain ⊆ rules.filter Production.isUnit := by
  induction h with
  | nil => simp
  | cons _ hstep ih =>
      exact List.cons_subset.2 ⟨List.mem_filter.2 ⟨hstep, rfl⟩, ih⟩

/-- A chain leads up from each of its productions. -/
theorem reaches (h : UnitChain rules chain s) {p : Production} (hp : p ∈ chain) :
    Relation.ReflTransGen (UnitStep rules) p.lhs s := by
  induction h with
  | nil => contradiction
  | cons _ hstep ih =>
      rcases List.mem_cons.1 hp with rfl | hp
      · exact .refl
      · exact (ih hp).tail hstep

/-- Without a cycle no production comes up twice. -/
theorem nodup (hacyclic : UnitAcyclic rules) (h : UnitChain rules chain s) : chain.Nodup := by
  induction h with
  | nil => exact List.nodup_nil
  | @cons chain s s' h hstep ih =>
      refine List.nodup_cons.2 ⟨fun hmem => hacyclic s' ?_, ih⟩
      -- the chain would lead from the left-hand side up to the right-hand side
      exact Relation.TransGen.tail' (h.reaches hmem) hstep

/-- Without a cycle a chain is no longer than there are unit productions. -/
theorem length_le (hacyclic : UnitAcyclic rules) (h : UnitChain rules chain s) :
    chain.length ≤ rules.countP Production.isUnit := by
  rw [List.countP_eq_length_filter]
  exact (List.subperm_of_subset (h.nodup hacyclic) h.subset).length_le

end UnitChain

/-! ## what remains to be done -/

namespace Branch

variable {rules : List Production} {input : Array Token} {b b' : Branch}

/-- The most moves that a branch can still make, unit reductions apart: each token that
is left is taken, and each token on the stack but one goes into a longer reduction. -/
def remaining (input : Array Token) (b : Branch) : Nat :=
  2 * (input.size - b.index) + (b.stack.items.length - 1)

/-- Taking a token leaves one move less. -/
theorem remaining_taking {token : Token} (h : input[b.index]? = some token)
    (hne : b.stack.items ≠ []) : (b.taking token).remaining input + 1 = b.remaining input := by
  have hlt : b.index < input.size := (Array.getElem?_eq_some_iff.1 h).1
  have hpos := List.length_pos_iff.2 hne
  simp only [remaining, taking, List.length_cons]
  omega

/-- A reduction leaves less by what it takes off the stack. -/
theorem remaining_reducing {token : Token} {children rest : List Token}
    (hitems : b.stack.items = children.reverse ++ rest) (hne : children ≠ []) :
    (b.reducing token rest).remaining input + children.length = b.remaining input + 1 := by
  have hpos := List.length_pos_iff.2 hne
  simp only [remaining, reducing, hitems, List.length_cons, List.length_append,
    List.length_reverse]
  omega

/-- The second branch has the stack top replaced by a unit production. -/
def Climbs (rules : List Production) (b b' : Branch) : Prop :=
  ∃ top top' rest, b.stack.items = top :: rest ∧ b'.stack.items = top' :: rest ∧
    UnitStep rules top.symbol top'.symbol

/-- A move that leaves a branch active lessens what remains, or it is a unit reduction and
leaves as much. -/
theorem Effect.lessens_or_climbs {start : Symbol} {move : Move}
    (h : b.Effect start input move b') (hactive : b'.isActive = true)
    (hne : b.stack.items ≠ [])
    (hmove : ∀ {rule accepts}, move = .reduce rule accepts → rule ∈ rules ∧ rule.rhs ≠ []) :
    b'.remaining input < b.remaining input ∨
      b'.remaining input = b.remaining input ∧ b.Climbs rules b' := by
  cases h with
  | taken h =>
      have := remaining_taking h hne
      omega
  | exhausted => exact nomatch hactive
  | mismatched => exact nomatch hactive
  | @reduced rule children rest hitems hsymbols =>
      obtain ⟨hrule, hrhs⟩ := hmove rfl
      have hchildren : children ≠ [] := by
        rintro rfl
        exact hrhs hsymbols.symm
      have hless : (b.reducing (b.reduced rule children input) rest).remaining input +
          children.length = b.remaining input + 1 := remaining_reducing hitems hchildren
      have hpos := List.length_pos_iff.2 hchildren
      by_cases hone : children.length = 1
      · obtain ⟨top, rfl⟩ := List.length_eq_one_iff.1 hone
        have hunit : rule = ⟨rule.lhs, [top.symbol]⟩ := by rw [← List.map_singleton, hsymbols]
        refine Or.inr ⟨by omega, top, _, rest, hitems, rfl, ?_⟩
        rw [symbol_reduced, UnitStep, ← hunit]
        exact hrule
      · omega
  | accepted => exact nomatch hactive
  | refused => exact nomatch hactive

/-! ## phases of a run -/

/-- The branch has come here by `n` steps.  Of these `phases` were no unit reductions,
and since the last of them it has climbed by `chain`. -/
structure Paced (rules : List Production) (input : Array Token) (n : Nat) (b : Branch)
    (phases : Nat) (chain : List Production) : Prop where
  climb : ∃ top rest, b.stack.items = top :: rest ∧ UnitChain rules chain top.symbol
  phases_le : phases + b.remaining input ≤ 2 * (input.size - 1)
  steps_le : n ≤ phases * (rules.countP Production.isUnit + 1) + chain.length

namespace Paced

variable {n phases : Nat} {chain : List Production}

theorem items_ne_nil (hb : b.Paced rules input n phases chain) : b.stack.items ≠ [] := by
  obtain ⟨top, rest, hitems, -⟩ := hb.climb
  simp [hitems]

/-- A move that lessens what remains begins a new phase. -/
theorem lessen (hacyclic : UnitAcyclic rules) (hb : b.Paced rules input n phases chain)
    (hne : b'.stack.items ≠ []) (hless : b'.remaining input < b.remaining input) :
    b'.Paced rules input (n + 1) (phases + 1) [] where
  climb := by
    obtain ⟨top, rest, hitems⟩ := List.exists_cons_of_ne_nil hne
    exact ⟨top, rest, hitems, .nil _⟩
  phases_le := by
    have := hb.phases_le
    omega
  steps_le := by
    obtain ⟨top, rest, -, hchain⟩ := hb.climb
    have hlength := hchain.length_le hacyclic
    have hsteps := hb.steps_le
    rw [Nat.succ_mul, List.length_nil]
    omega

/-- A unit reduction goes on with the chain. -/
theorem climbs (hb : b.Paced rules input n phases chain) (hclimbs : b.Climbs rules b')
    (hsame : b'.remaining input = b.remaining input) :
    ∃ p, b'.Paced rules input (n + 1) phases (p :: chain) := by
  obtain ⟨top, rest, hitems, hchain⟩ := hb.climb
  obtain ⟨top₀, top', rest', hitems₀, hitems', hstep⟩ := hclimbs
  obtain ⟨rfl, rfl⟩ := List.cons.inj (hitems.symm.trans hitems₀)
  have hphases := hb.phases_le
  have hsteps := hb.steps_le
  refine ⟨⟨top'.symbol, [top.symbol]⟩, ⟨top', rest, hitems', hchain.cons hstep⟩, by omega, ?_⟩
  rw [List.length_cons]
  omega

/-- What the phases of a run come to, and the chain after the last. -/
theorem lt_bound (hacyclic : UnitAcyclic rules) (hb : b.Paced rules input n phases chain)
    (hsize : 0 < input.size) :
    n < (2 * input.size - 1) * (rules.countP Production.isUnit + 1) := by
  obtain ⟨top, rest, -, hchain⟩ := hb.climb
  have hlength := hchain.length_le hacyclic
  have hsteps := hb.steps_le
  have hphases := hb.phases_le
  have hmul : phases * (rules.countP Production.isUnit + 1) ≤
      2 * (input.size - 1) * (rules.countP Production.isUnit + 1) :=
    Nat.mul_le_mul_right _ (by omega)
  have hlast : 2 * input.size - 1 = 2 * (input.size - 1) + 1 := by omega
  rw [hlast, Nat.succ_mul]
  omega

end Paced

end Branch

/-! ## runs and searches -/

/-- The most rounds that a search over `n` tokens can take if the unit productions of the
table do not form a cycle. -/
def Table.roundBound (t : Table) (n : Nat) : Nat :=
  (2 * n - 1) * (t.productions.countP Production.isUnit + 1)

namespace Parser

variable {g : Grammar} {p : Parser} {input : Array Token}

/-- A step that leaves a branch active goes on with the phase or begins a new one. -/
theorem paced_of_mem_step (hg : g.table = .ok p.table) (hacyclic : UnitAcyclic g.productions)
    {b b' : Branch} (hcommitted : b.stack.changes = []) {n phases : Nat}
    {chain : List Production} (hb : b.Paced g.productions input n phases chain)
    (h : b' ∈ p.step b input) (hactive : b'.isActive = true) :
    ∃ phases' chain', b'.Paced g.productions input (n + 1) phases' chain' := by
  rcases mem_step h with ⟨e, rfl⟩ | ⟨top, c, -, hc, rfl⟩
  · exact nomatch hactive
  · have heffect : b.Effect p.settings.start input c.action.move (p.follow b input c) :=
      effect_follow hcommitted c
    have hmove : ∀ {rule accepts}, c.action.move = .reduce rule accepts →
        rule ∈ g.productions ∧ rule.rhs ≠ [] := by
      intro rule accepts hmove
      obtain ⟨hrule, hne, -⟩ := Table.reduce_of_mem_lookup hg hc hmove
      exact ⟨hrule, hne⟩
    rcases heffect.lessens_or_climbs hactive hb.items_ne_nil hmove with hless | ⟨hsame, hclimbs⟩
    · exact ⟨_, _, hb.lessen hacyclic (heffect.items_ne_nil hb.items_ne_nil) hless⟩
    · obtain ⟨rule, hpaced⟩ := hb.climbs hclimbs hsame
      exact ⟨_, _, hpaced⟩

/-- Every run that leads to an active branch goes by phases. -/
theorem Reaches.paced (hg : g.table = .ok p.table) (hacyclic : UnitAcyclic g.productions)
    {n : Nat} {b : Branch} (h : p.Reaches input n b) (hactive : b.isActive = true) :
    ∃ phases chain, b.Paced g.productions input n phases chain := by
  obtain ⟨token, htoken, hrun⟩ := h
  generalize hfirst : Branch.start.taking token = first at hrun
  induction hrun with
  | refl =>
      refine ⟨0, [], ⟨token, [], by rw [← hfirst]; rfl, .nil _⟩, ?_, by simp⟩
      rw [← hfirst]
      simp [Branch.remaining, Branch.taking, Branch.start, UndoStack.empty]
  | step hrun hactive' hstep ih =>
      have hreach : p.Reaches input _ _ := ⟨token, htoken, hfirst ▸ hrun⟩
      obtain ⟨phases, chain, hpaced⟩ := ih hactive' hfirst
      exact paced_of_mem_step hg hacyclic hreach.accounted.committed hpaced hstep hactive

/-- A search that has rounds enough is not stopped for want of them. -/
theorem limit?_ne_stepLimit {s : Search} (hs : p.search input = .ok s) {bound : Nat}
    (hbound : ∀ n b, p.Reaches input n b → b.isActive = true → n < bound)
    (hsteps : bound ≤ p.settings.maxSteps) (n : Nat) :
    s.limit? p.settings ≠ some (.stepLimit n) := by
  intro hlimit
  obtain ⟨token, htoken, -, hafter, hend⟩ := search_eq_after hs
  unfold Search.limit? at hlimit
  split at hlimit
  · contradiction
  · next hactive =>
      split at hlimit
      · simp at hlimit
      · next hfew =>
          -- the search is not over, so it has had all its rounds
          have hrounds : s.rounds = p.settings.maxSteps := by
            simpa [Search.isOver, hactive, hfew] using hend
          obtain ⟨b, hb⟩ := List.exists_mem_of_ne_nil _ (mt List.isEmpty_iff.2 hactive)
          rw [hafter] at hb
          obtain ⟨hreach, hactive⟩ := (Search.mem_active_opening htoken).1 hb
          have := hbound _ b hreach hactive
          omega

/-- **Only unit cycles run away.**  If the unit productions of a table form no cycle, then
over any tokens, leaves or not, every branch comes to an end within `Table.roundBound`
rounds.  With that many rounds to play the search is not stopped for want of rounds,
and the parser does not report that it was. -/
theorem inactive_of_unitAcyclic {g : Grammar} {table : Table} (hg : g.table = .ok table)
    (hacyclic : UnitAcyclic table.productions) (limits : Settings) {tokens : List Token}
    (hne : tokens ≠ []) :
    (∀ n b, (withLimits table limits).Reaches (inputOf tokens) n b → b.isActive = true →
      n < table.roundBound tokens.length) ∧
    (table.roundBound tokens.length ≤ limits.maxSteps →
      (∃ s, (withLimits table limits).search (inputOf tokens) = .ok s ∧
        ∀ n, s.limit? (withLimits table limits).settings ≠ some (.stepLimit n)) ∧
      ∀ n, (withLimits table limits).parse tokens ≠ .error (.stepLimit n)) := by
  have hsize : (inputOf tokens).size = tokens.length := by simp [inputOf]
  have hrules : table.productions = g.productions := by
    obtain ⟨-, -, rfl⟩ := Grammar.table_eq_ok_iff.1 hg
    rfl
  have hbound : ∀ n b, (withLimits table limits).Reaches (inputOf tokens) n b →
      b.isActive = true → n < table.roundBound tokens.length := by
    intro n b hreach hactive
    rw [hrules] at hacyclic
    obtain ⟨phases, chain, hpaced⟩ := hreach.paced (g := g) hg hacyclic hactive
    have hlt := hpaced.lt_bound hacyclic (by rw [hsize]; exact List.length_pos_iff.2 hne)
    rwa [hsize, ← hrules] at hlt
  refine ⟨hbound, fun hsteps => ?_⟩
  obtain ⟨s, hs⟩ := exists_search (p := withLimits table limits) hne
  have hlimit := limit?_ne_stepLimit hs hbound hsteps
  refine ⟨⟨s, hs, hlimit⟩, fun n herror => hlimit n ?_⟩
  exact ((parse_eq_error_iff hne hs rfl).1 herror).2

/-- Two groups make one, and one stands for a group again. -/
def doubling : Grammar where
  settings := { start := ⟨"a"⟩ }
  symbols := .ofList [⟨"a"⟩, ⟨"b"⟩, ⟨"EOF"⟩]
  productions := [⟨⟨"a"⟩, [⟨"b"⟩, ⟨"b"⟩]⟩, ⟨⟨"b"⟩, [⟨"a"⟩]⟩]
  faultless := by decide +kernel

/-- Two tokens `a`. -/
def doublingTokens : List Token :=
  [.leaf { origin := .made 0, symbol := ⟨"a"⟩, position := 0 } "x",
    .leaf { origin := .made 1, symbol := ⟨"a"⟩, position := 1 } "y"]

/-- The bound is reached: over two tokens and with one unit production it is six rounds,
and after five of them the search still has an active branch. -/
theorem inactive_of_unitAcyclic_doubling :
    ∃ table, doubling.table = .ok table ∧ table.roundBound doublingTokens.length = 6 ∧
      (withLimits table { maxSteps := 5 }).parse doublingTokens = .error (.stepLimit 5) ∧
      (∀ n b, (withLimits table { maxSteps := 6 }).Reaches (inputOf doublingTokens) n b →
        b.isActive = true → n < 6) ∧
      ∀ n, (withLimits table { maxSteps := 6 }).parse doublingTokens ≠
        .error (.stepLimit n) := by
  have hg : doubling.table = .ok ⟨doubling.settings, doubling.productions, doubling.buckets⟩ :=
    rfl
  have hacyclic : UnitAcyclic doubling.productions :=
    unitAcyclic_of_rank (fun s => if s = ⟨"b"⟩ then 1 else 0) (by decide)
  have hended := inactive_of_unitAcyclic hg hacyclic { maxSteps := 6 }
    (List.cons_ne_nil _ _ : doublingTokens ≠ [])
  exact ⟨_, hg, rfl, rfl, hended.1, (hended.2 (by decide)).2⟩

end Parser

end ForkParser
