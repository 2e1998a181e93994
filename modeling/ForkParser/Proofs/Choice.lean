import ForkParser.Proofs.Moves

/-!
# ForkParser.Proofs.Choice

Which candidates a step follows.

`Parser.chosen` is the list of candidates that a step follows: the only one of
the stack top, or those of several whose conditions hold.  The successors of a
branch are the branch after each of them, in order; where there are none, the
branch itself has failed (`Parser.step_cases`).  So of the successors that have not
failed, everything is said by the candidates chosen (`Parser.filter_step`).

The conditions of a candidate are a terminal that follows the stack top and
symbols that the stack begins with (`Action.HoldsOn`, `Branch.probe_isOk_iff`); where
they do not hold, one of these symbols was wanted (`Branch.mismatch_of_probe`).
Candidates whose conditions hold on one branch overlap
(`Parser.overlaps_of_mem_matching`).
-/

namespace ForkParser

/-! ## the conditions of an action -/

/-- The conditions of an action hold when `next` is the symbol it looks ahead for, if it
does, and the stack, given by its symbols from the top, begins with what it matches. -/
def Action.HoldsOn (a : Action) (stack : List Symbol) (next : Option Symbol) : Prop :=
  (∀ s, a.lookahead = some s → next = some s) ∧ a.matched <+: stack

/-- Where nothing is matched, only the lookahead matters. -/
theorem Action.holdsOn_iff_of_matched_eq_nil {a : Action} (h : a.matched = [])
    {stack : List Symbol} {next : Option Symbol} :
    a.HoldsOn stack next ↔ ∀ s, a.lookahead = some s → next = some s := by
  simp [HoldsOn, h]

namespace Branch

/-- Popping goes through exactly when the stack begins with the symbols wanted. -/
theorem popAll_isOk_iff {stack : UndoStack Token} (popped : List Token)
    {expected : List Symbol} :
    (popAll stack popped expected).2.isOk = true ↔
      expected <+: stack.items.map Token.symbol := by
  obtain ⟨items, changes⟩ := stack
  rcases front_cases items expected with ⟨xs, rest, rfl, rfl⟩ | ⟨xs, rest, e, es, rfl, rfl, hne⟩
  · simp [popAll_append, Except.isOk, Except.toBool]
  · rw [popAll_mismatch xs rest changes popped es hne]
    have hnot : ¬ e :: es <+: rest.map Token.symbol := by
      cases rest with
      | nil => simp
      | cons t rest =>
          have ht : e ≠ t.symbol := by simpa [eq_comm] using hne
          simp [List.cons_prefix_cons, ht]
    simp [Except.isOk, Except.toBool, List.prefix_append_right_inj, hnot]

/-- A probe asks for the symbols on the stack and for the one after the stack top. -/
theorem probe_isOk_iff {b : Branch} {a : Action} {input : Array Token} {top : Token}
    (htop : b.stack.peek? = some top) :
    (b.probe a input).2.isOk = true ↔
      a.HoldsOn (b.stack.items.map Token.symbol)
        ((top.lookahead.bind (input[·]?)).map Token.symbol) := by
  have hnext : lookaheadMismatch? a top input = none ↔ ∀ s, a.lookahead = some s →
      (top.lookahead.bind (input[·]?)).map Token.symbol = some s := by
    cases hlook : a.lookahead with
    | none => simp [lookaheadMismatch?, hlook]
    | some s => simp [lookaheadMismatch?, hlook]
  rw [Action.HoldsOn, ← hnext, ← popAll_isOk_iff []]
  cases hmismatch : lookaheadMismatch? a top input with
  | some m => simp [probe, htop, hmismatch, Except.isOk, Except.toBool]
  | none =>
      simp only [probe, htop, hmismatch, true_and]
      split <;> simp_all [Except.isOk, Except.toBool]

/-- Popping stops at one of the symbols wanted, and what it finds there is from the
stack. -/
theorem mismatch_of_popAll {stack : UndoStack Token} {popped : List Token}
    {expected : List Symbol} {m : Mismatch} (h : (popAll stack popped expected).2 = .error m) :
    m.expected ∈ expected ∧ ∀ t, m.found = some t → t ∈ stack.items := by
  obtain ⟨items, changes⟩ := stack
  rcases front_cases items expected with ⟨xs, rest, rfl, rfl⟩ | ⟨xs, rest, e, es, rfl, rfl, hne⟩
  · simp [popAll_append] at h
  · rw [popAll_mismatch xs rest changes popped es hne] at h
    obtain rfl := Except.error.inj h
    refine ⟨by simp, fun t ht => List.mem_append_right xs ?_⟩
    exact List.mem_of_head? ht

/-- A lookahead that is not met wants the terminal of its action, and what is found there is
from the input. -/
theorem mismatch_of_lookahead {a : Action} {top : Token} {input : Array Token} {m : Mismatch}
    (h : lookaheadMismatch? a top input = some m) :
    a.lookahead = some m.expected ∧ ∀ t, m.found = some t → t ∈ input := by
  cases hlook : a.lookahead with
  | none => simp [lookaheadMismatch?, hlook] at h
  | some expected =>
      simp only [lookaheadMismatch?, hlook, Option.ite_none_left_eq_some] at h
      obtain rfl := Option.some.inj h.2
      refine ⟨rfl, fun t ht => ?_⟩
      obtain ⟨i, -, hi⟩ := Option.bind_eq_some_iff.1 ht
      exact Array.mem_of_getElem? hi

/-- An action that fails its probe wants a symbol of its conditions, and what is found
there is from the stack or from the input. -/
theorem mismatch_of_probe {b : Branch} {a : Action} {input : Array Token} {e : Error}
    (h : (b.probe a input).2 = .error e) :
    ∃ m, e = b.unexpected input m ∧ (m.expected ∈ a.matched ∨ a.lookahead = some m.expected) ∧
      ∀ t, m.found = some t → t ∈ b.stack.items ∨ t ∈ input := by
  unfold probe at h
  split at h
  · -- an empty stack has nothing to compare with
    split at h
    · next expected hexpected =>
        refine ⟨_, (Except.error.inj h).symm, ?_, nofun⟩
        rcases Option.or_eq_some_iff.1 hexpected with hmatched | ⟨-, hlook⟩
        · exact Or.inl (List.mem_of_head? hmatched)
        · exact Or.inr hlook
    · contradiction
  · next top htop =>
      split at h
      · next m hm =>
          obtain ⟨hexpected, hfound⟩ := mismatch_of_lookahead hm
          exact ⟨m, (Except.error.inj h).symm, Or.inr hexpected, fun t ht => Or.inr (hfound t ht)⟩
      · split at h
        · next stack m hpop =>
            obtain ⟨hexpected, hfound⟩ := mismatch_of_popAll (congrArg Prod.snd hpop)
            exact ⟨m, (Except.error.inj h).symm, Or.inl hexpected, fun t ht => Or.inl (hfound t ht)⟩
        · contradiction

end Branch

namespace Branch

theorem error?_of_isActive {b : Branch} (h : b.isActive = true) : b.error? = none := by
  have hstatus : b.status = .active := by simpa [isActive] using h
  simp [error?, hstatus]

theorem error?_of_isAccepted {b : Branch} (h : b.isAccepted = true) : b.error? = none := by
  have hstatus : b.status = .accepted := by simpa [isAccepted] using h
  simp [error?, hstatus]

end Branch

namespace Error

/-- The errors that a branch fails with, all about a place of the input. -/
def AtPlace : Error → Prop
  | noElements .. | unexpectedToken .. | noAccept _ => True
  | _ => False

theorem AtPlace.position_ne_none {e : Error} (h : e.AtPlace) : e.position ≠ none := by
  cases e <;> simp_all [AtPlace, position]

end Error

namespace Action

theorem isShift_iff {a : Action} : a.isShift = true ↔ a.move = .shift := by
  cases h : a.move <;> simp [isShift, h]

end Action

/-- Two lists agree as far as the shorter of them goes when it begins the other. -/
theorem take_min_eq_iff {α : Type} {xs ys : List α} :
    xs.take (min xs.length ys.length) = ys.take (min xs.length ys.length) ↔
      xs <+: ys ∨ ys <+: xs := by
  constructor
  · intro h
    rcases Nat.le_total xs.length ys.length with hle | hle
    · rw [Nat.min_eq_left hle, List.take_length] at h
      exact Or.inl (h ▸ List.take_prefix _ _)
    · rw [Nat.min_eq_right hle, List.take_length] at h
      exact Or.inr (h ▸ List.take_prefix _ _)
  · rintro (⟨rest, rfl⟩ | ⟨rest, rfl⟩) <;> simp

namespace Candidate

/-- Candidates overlap when they do not look ahead at different terminals and one matches
the beginning of what the other does. -/
theorem overlaps_iff {c d : Candidate} :
    c.overlaps d = true ↔
      (∀ x y, c.action.lookahead = some x → d.action.lookahead = some y → x = y) ∧
      (c.action.matched <+: d.action.matched ∨ d.action.matched <+: c.action.matched) := by
  rw [overlaps, Bool.and_eq_true, decide_eq_true_eq, take_min_eq_iff]
  refine and_congr_left fun _ => ?_
  cases c.action.lookahead <;> cases d.action.lookahead <;> simp

/-- Candidates whose conditions hold of one stack, and of what follows it, overlap. -/
theorem overlaps_of_holdsOn {c d : Candidate} {stack : List Symbol} {next : Option Symbol}
    (hc : c.action.HoldsOn stack next) (hd : d.action.HoldsOn stack next) :
    c.overlaps d = true := by
  refine overlaps_iff.2 ⟨fun x y hx hy => ?_, List.prefix_or_prefix_of_prefix hc.2 hd.2⟩
  exact Option.some.inj ((hc.1 x hx).symm.trans (hd.1 y hy))

end Candidate

namespace Parser

variable {p : Parser} {b : Branch} {input : Array Token}

/-! ## the candidates chosen -/

/-- The candidates that a step follows: the only candidate of the stack top, or
those of several whose conditions hold. -/
def chosen (p : Parser) (b : Branch) (input : Array Token) : List Candidate :=
  match b.stack.peek? with
  | none => []
  | some top =>
    match p.table.lookup top.symbol with
    | [candidate] => [candidate]
    | candidates => matching b input candidates

section Chosen

variable {top : Token} (htop : b.stack.peek? = some top)

include htop

theorem chosen_of_single {c : Candidate} (hc : p.table.lookup top.symbol = [c]) :
    p.chosen b input = [c] := by
  simp [chosen, htop, hc]

theorem chosen_of_not_single (hlen : (p.table.lookup top.symbol).length ≠ 1) :
    p.chosen b input = matching b input (p.table.lookup top.symbol) := by
  match hcs : p.table.lookup top.symbol with
  | [] => simp [chosen, htop, hcs]
  | [c] => simp [hcs] at hlen
  | c :: d :: rest => simp [chosen, htop, hcs]

/-- The candidates chosen are candidates of the stack top, in their order. -/
theorem chosen_sublist : (p.chosen b input).Sublist (p.table.lookup top.symbol) := by
  match hcs : p.table.lookup top.symbol with
  | [] => simp [chosen, htop, hcs, matching]
  | [c] => simp [chosen, htop, hcs]
  | c :: d :: rest =>
      simp only [chosen, htop, hcs]
      exact List.filter_sublist

end Chosen

/-- A candidate is chosen for a token on the stack top. -/
theorem exists_top_of_mem_chosen {c : Candidate} (hc : c ∈ p.chosen b input) :
    ∃ top, b.stack.peek? = some top ∧ c ∈ p.table.lookup top.symbol := by
  cases htop : b.stack.peek? with
  | none => simp [chosen, htop] at hc
  | some top => exact ⟨top, rfl, (chosen_sublist htop).subset hc⟩

/-! ## the successors of a branch -/

/-- A candidate that is not followed is rejected by an error about a place of the
input. -/
theorem atPlace_rejection {candidates : List Candidate} {e : Error}
    (h : rejection? b input candidates = some e) : e.AtPlace := by
  obtain ⟨c, -, hc⟩ := List.exists_of_findSome?_eq_some h
  split at hc
  · next e' hprobe =>
      obtain ⟨m, rfl, -⟩ := Branch.mismatch_of_probe hprobe
      obtain rfl := Option.some.inj hc
      trivial
  · contradiction

/-- The successors of a branch are the branch after each of the candidates chosen; if
none is chosen, the branch itself has failed, at some place of the input. -/
theorem step_cases (p : Parser) (b : Branch) (input : Array Token) :
    (p.chosen b input = [] ∧ ∃ e, e.AtPlace ∧ p.step b input = [b.fail e]) ∨
      (p.chosen b input ≠ [] ∧
        p.step b input = (p.chosen b input).map (p.follow b input)) := by
  cases htop : b.stack.peek? with
  | none =>
      have hstep : p.step b input =
          [b.fail (.noAccept ((input[0]?.map Token.position).getD 0))] := by
        simp only [step, decision, htop]
      exact Or.inl ⟨by simp [chosen, htop], .noAccept _, trivial, hstep⟩
  | some top =>
      rcases hcs : p.table.lookup top.symbol with _ | ⟨c, _ | ⟨d, rest⟩⟩
      · have hstep : p.step b input = [b.fail (.noElements top.symbol top.position)] := by
          simp only [step, decision, htop, hcs]
        exact Or.inl ⟨by simp [chosen, htop, hcs, matching], .noElements .., trivial, hstep⟩
      · refine Or.inr ⟨by simp [chosen, htop, hcs], ?_⟩
        simp [step, decision, chosen, htop, hcs]
      · cases hm : matching b input (c :: d :: rest) with
        | nil =>
            have hstep : p.step b input = [b.fail ((rejection? b input (c :: d :: rest)).getD
                (.noElements top.symbol top.position))] := by
              simp only [step, decision, choose, htop, hcs, hm]
            refine Or.inl ⟨by simp [chosen, htop, hcs, hm], _, ?_, hstep⟩
            cases hrejected : rejection? b input (c :: d :: rest) with
            | none => trivial
            | some e => exact atPlace_rejection hrejected
        | cons x xs =>
            refine Or.inr ⟨by simp [chosen, htop, hcs, hm], ?_⟩
            simp only [step, decision, choose, chosen, htop, hcs, hm]

/-- Of the successors that have not failed, those with a property are found among the
branches after the candidates chosen. -/
theorem filter_step {P : Branch → Bool} (hP : ∀ b e, P (Branch.fail b e) = false) :
    (p.step b input).filter P = ((p.chosen b input).map (p.follow b input)).filter P := by
  rcases step_cases p b input with ⟨hnone, e, -, hstep⟩ | ⟨-, hstep⟩
  · simp [hnone, hstep, hP]
  · rw [hstep]

/-- A successor that has not failed is the branch after a candidate chosen. -/
theorem exists_chosen_of_mem_step {b' : Branch} (h : b' ∈ p.step b input)
    (hlive : b'.error? = none) : ∃ c ∈ p.chosen b input, b' = p.follow b input c := by
  rcases step_cases p b input with ⟨-, e, -, hstep⟩ | ⟨-, hstep⟩
  · rw [hstep] at h
    obtain rfl := List.mem_singleton.1 h
    contradiction
  · rw [hstep] at h
    obtain ⟨c, hc, rfl⟩ := List.mem_map.1 h
    exact ⟨c, hc, rfl⟩

/-- The branch after a candidate chosen is a successor. -/
theorem follow_mem_step_of_chosen {c : Candidate} (hc : c ∈ p.chosen b input) :
    p.follow b input c ∈ p.step b input := by
  rcases step_cases p b input with ⟨hnone, -⟩ | ⟨-, hstep⟩
  · rw [hnone] at hc
    contradiction
  · rw [hstep]
    exact List.mem_map_of_mem hc

/-! ## overlaps -/

/-- Candidates whose conditions hold on one branch overlap. -/
theorem overlaps_of_mem_matching {top : Token} (htop : b.stack.peek? = some top)
    {candidates : List Candidate} {c d : Candidate} (hc : c ∈ matching b input candidates)
    (hd : d ∈ matching b input candidates) : c.overlaps d = true :=
  Candidate.overlaps_of_holdsOn ((Branch.probe_isOk_iff htop).1 (List.mem_filter.1 hc).2)
    ((Branch.probe_isOk_iff htop).1 (List.mem_filter.1 hd).2)

end Parser

end ForkParser
