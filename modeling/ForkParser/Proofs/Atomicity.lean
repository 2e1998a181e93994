import ForkParser.Proofs.JointMatch

/-!
# ForkParser.Proofs.Atomicity

What can be done with a branch is done whole or not at all.

Reducing and probing pop tokens one by one and roll back where they must, and a rollback
takes back everything since the last commit, also what an earlier operation might have left
behind.  None does: whatever is done with a branch, in whatever order and with whatever
input, its stack is committed then (`committed_apply`, `committed_after`).

On a committed stack a reduction goes through exactly when the production's right-hand side
is on top, and then replaces it by one token (`reducesExactly`); any other stack stays as it
is, and the error is about the rightmost symbol that disagrees.  A probe changes nothing in
any case and asks for what the action says (`probesExactly`).
-/

namespace ForkParser.Branch

/-! ## operations -/

/-- What can be done with a branch. -/
inductive Operation where
  | shift (input : Array Token)
  | reduce (rule : Production) (input : Array Token)
  | probe (action : Action) (input : Array Token)
  | execute (action : Action) (start : Symbol) (input : Array Token)
  | fork
  | fail (error : Error)

/-- The branch after an operation, whether that succeeds or not.  A fork is the branch once
more. -/
def apply (b : Branch) : Operation → Branch
  | .shift input => (b.shift input).1
  | .reduce rule input => (b.reduce rule input).1
  | .probe action input => (b.probe action input).1
  | .execute action start input => (b.execute action start input).1
  | .fork => b
  | .fail error => b.fail error

/-- The branch after some operations from the start. -/
def after (ops : List Operation) : Branch := ops.foldl apply start

section Committed

variable {b : Branch} (hcommitted : b.stack.changes = [])

include hcommitted

theorem committed_shift (input : Array Token) : (b.shift input).1.stack.changes = [] := by
  cases h : input[b.index]? with
  | none => rw [shift_eq_error h, hcommitted]
  | some token => rw [shift_eq_ok h, taking]

theorem committed_reduce (rule : Production) (input : Array Token) :
    (b.reduce rule input).1.stack.changes = [] := by
  rcases reduce_cases hcommitted rule input with
    ⟨children, rest, -, -, hreduce⟩ | ⟨xs, rest, e, es, -, -, -, hreduce⟩
  · rw [hreduce, reducing]
  · rw [hreduce, hcommitted]

theorem committed_execute (a : Action) (start : Symbol) (input : Array Token) :
    (b.execute a start input).1.stack.changes = [] := by
  rw [execute]
  split
  · exact committed_shift hcommitted input
  · next rule accepts _ =>
      have hreduced := committed_reduce hcommitted rule input
      cases hreduce : b.reduce rule input with
      | mk b' result =>
          rw [hreduce] at hreduced
          cases result with
          | error e => exact hreduced
          | ok token =>
              -- accepting changes the status at most
              simp only
              split
              · split <;> exact hreduced
              · exact hreduced

/-- No operation leaves anything to undo. -/
theorem committed_apply (op : Operation) : (b.apply op).stack.changes = [] := by
  cases op with
  | shift input => exact committed_shift hcommitted input
  | reduce rule input => exact committed_reduce hcommitted rule input
  | probe action input => rw [apply, probe_eq_self hcommitted, hcommitted]
  | execute action start input => exact committed_execute hcommitted action start input
  | fork => exact hcommitted
  | fail error => exact hcommitted

theorem committed_foldl (ops : List Operation) : (ops.foldl apply b).stack.changes = [] := by
  induction ops generalizing b with
  | nil => exact hcommitted
  | cons op ops ih => exact ih (committed_apply hcommitted op)

end Committed

theorem committed_after (ops : List Operation) : (after ops).stack.changes = [] :=
  committed_foldl (b := start) rfl ops

/-! ## reductions -/

/-- The top `n` tokens of the stack, bottom to top; all of them if there are not so many. -/
def topmost (b : Branch) (n : Nat) : List Token := (b.stack.items.take n).reverse

/-- The tokens below the top `n`, bottom to top. -/
def below (b : Branch) (n : Nat) : List Token := (b.stack.items.drop n).reverse

/-- The token that `n` others are on top of. -/
def under? (b : Branch) (n : Nat) : Option Token := b.stack.items[n]?

/-- A reduction succeeds exactly when the right-hand side is on top, and puts one token in
its place, which has what it replaces as children.  Otherwise the branch is as it was, and
the error has the rightmost symbol of the right-hand side that disagrees, and the token in
its place, if there is one. -/
structure ReducesExactly (b : Branch) (rule : Production) (input : Array Token) : Prop where
  succeeds_iff : (∃ node, (b.reduce rule input).2 = .ok node) ↔
    (b.topmost rule.rhs.length).map Token.symbol = rule.rhs
  result : ∀ node, (b.reduce rule input).2 = .ok node →
    node.isLeaf = false ∧ node.symbol = rule.lhs ∧ node.children = b.topmost rule.rhs.length ∧
      (b.reduce rule input).1.stack.toList = b.below rule.rhs.length ++ [node] ∧
      (b.reduce rule input).1.index = b.index ∧ (b.reduce rule input).1.status = b.status
  refusal : (b.topmost rule.rhs.length).map Token.symbol ≠ rule.rhs →
    ∃ front e back, rule.rhs = front ++ e :: back ∧
      (b.topmost back.length).map Token.symbol = back ∧
      (b.under? back.length).map Token.symbol ≠ some e ∧
      b.reduce rule input = (b, .error (.unexpectedToken e
        ((b.under? back.length).map Token.symbol)
        (((b.under? back.length).map Token.position).getD (b.here input))))

/-- Symbols are on top when the stack, read from there, begins with them backwards. -/
theorem map_topmost_eq_iff {b : Branch} {wanted : List Symbol} :
    (b.topmost wanted.length).map Token.symbol = wanted ↔
      wanted.reverse <+: b.stack.items.map Token.symbol := by
  rw [topmost, List.map_reverse, List.map_take, List.reverse_eq_iff, List.prefix_iff_eq_take,
    List.length_reverse, eq_comm]

theorem exists_reduce_iff (b : Branch) (rule : Production) (input : Array Token) :
    (∃ node, (b.reduce rule input).2 = .ok node) ↔
      (b.topmost rule.rhs.length).map Token.symbol = rule.rhs := by
  rw [map_topmost_eq_iff, ← popAll_isOk_iff [], reduce]
  split <;> next hpop => simp [hpop, Except.isOk, Except.toBool]

theorem reducesExactly {b : Branch} (hcommitted : b.stack.changes = []) (rule : Production)
    (input : Array Token) : b.ReducesExactly rule input := by
  have hiff := b.exists_reduce_iff rule input
  rcases reduce_cases hcommitted rule input with
    ⟨children, rest, hitems, hsymbols, hreduce⟩ | ⟨xs, rest, e, es, hitems, hwanted, hne, hreduce⟩
  · have hlength : rule.rhs.length = children.reverse.length := by
      rw [← hsymbols, List.length_map, List.length_reverse]
    have htop : b.topmost rule.rhs.length = children := by
      rw [topmost, hitems, hlength, List.take_left, List.reverse_reverse]
    have hbelow : b.below rule.rhs.length = rest.reverse := by
      rw [below, hitems, hlength, List.drop_left]
    refine ⟨hiff, fun node hnode => ?_, fun hno => absurd (hiff.1 ⟨_, by rw [hreduce]⟩) hno⟩
    rw [hreduce] at hnode
    obtain rfl := Except.ok.inj hnode
    rw [hreduce, htop, hbelow]
    exact ⟨isLeaf_reduced .., symbol_reduced .., children_reduced ..,
      by simp [reducing, UndoStack.toList], rfl, rfl⟩
  · have hrhs : rule.rhs = es.reverse ++ e :: (xs.map Token.symbol).reverse := by
      rw [← List.reverse_reverse rule.rhs, hwanted]
      simp
    have hunder : b.under? (xs.map Token.symbol).reverse.length = rest.head? := by
      rw [under?, hitems, List.length_reverse, List.length_map,
        List.getElem?_append_right (Nat.le_refl _), Nat.sub_self, List.head?_eq_getElem?]
    refine ⟨hiff, fun node hnode => ?_, fun _ => ⟨_, e, _, hrhs, ?_, ?_, ?_⟩⟩
    · rw [hreduce] at hnode
      contradiction
    · simp [topmost, hitems]
    · rw [hunder]
      exact hne
    · rw [hunder, hreduce]
      rfl

/-! ## probes -/

/-- A probe leaves the branch as it was, and succeeds exactly when the action looks ahead at
nothing, or at the symbol of the token that the stack top has a link to, and the symbols it
matches are on top, read from there. -/
structure ProbesExactly (b : Branch) (a : Action) (input : Array Token) : Prop where
  unchanged : (b.probe a input).1 = b
  succeeds_iff : (b.probe a input).2 = .ok () ↔
    (a.lookahead = none ∨ ∃ top i t, b.stack.peek? = some top ∧ top.lookahead = some i ∧
        input[i]? = some t ∧ a.lookahead = some t.symbol) ∧
      a.matched <+: b.symbols.reverse

theorem following?_eq_some_iff {b : Branch} {input : Array Token} {t : Token} :
    b.following? input = some t ↔
      ∃ top i, b.stack.peek? = some top ∧ top.lookahead = some i ∧ input[i]? = some t := by
  rw [following?]
  cases b.stack.peek? with
  | none => simp
  | some top => simp [Option.bind_eq_some_iff]

theorem probesExactly {b : Branch} (hcommitted : b.stack.changes = []) (a : Action)
    (input : Array Token) : b.ProbesExactly a input := by
  refine ⟨probe_eq_self hcommitted a input, ?_⟩
  have hstack : b.symbols.reverse = b.stack.items.map Token.symbol := by
    rw [symbols, UndoStack.toList, List.map_reverse, List.reverse_reverse]
  rw [probe_eq_ok_iff, Action.HoldsOn, hstack]
  refine and_congr_left fun _ => ?_
  cases hlook : a.lookahead with
  | none => simp
  | some s =>
      constructor
      · intro h
        obtain ⟨t, ht, rfl⟩ := Option.map_eq_some_iff.1 (h s rfl)
        obtain ⟨top, i, htop, hlink, hnext⟩ := following?_eq_some_iff.1 ht
        exact Or.inr ⟨top, i, t, htop, hlink, hnext, rfl⟩
      · rintro (h | ⟨top, i, t, htop, hlink, hnext, hsymbol⟩) s' hs'
        · contradiction
        · rw [following?_eq_some_iff.2 ⟨top, i, htop, hlink, hnext⟩, ← hs', hsymbol,
            Option.map_some]

/-- **Reducing and probing are exact and atomic.**  Whatever has been done with a branch from
the start, nothing is left to undo, and over any input every production reduces it exactly
and every action probes it exactly. -/
theorem operations_exact (ops : List Operation) (input : Array Token) :
    (after ops).stack.pending = 0 ∧
    (∀ rule, (after ops).ReducesExactly rule input) ∧
    ∀ a, (after ops).ProbesExactly a input := by
  have hcommitted := committed_after ops
  refine ⟨?_, fun rule => reducesExactly hcommitted rule input,
    fun a => probesExactly hcommitted a input⟩
  rw [UndoStack.pending, hcommitted, List.length_nil]

end ForkParser.Branch
