import ForkParser.Proofs.Choice
import ForkParser.Proofs.Growth

/-!
# ForkParser.Proofs.JointMatch

Overlapping candidates are those that some branch can choose between.

That two candidates overlap is read off their conditions alone, while a probe finds out
whether conditions hold by following the link of the stack top and by popping.  On any
branch, also with an empty stack or a top without link, it asks for no more and no less
than the conditions say (`Branch.probe_eq_ok_iff`), so candidates that are probed with
success on one branch overlap.  For the other direction, overlapping candidates are turned
into a source (`sourceFor`): the symbols that the one with more of them matches, from the
bottom of the stack to its top, and then the terminal looked ahead at.  Taking its tokens
up to the last one leads to a branch on which the conditions of both hold.
-/

namespace ForkParser

namespace Branch

/-! ## what a probe asks for -/

/-- The token that follows the stack top, by its link. -/
def following? (b : Branch) (input : Array Token) : Option Token :=
  (b.stack.peek?.bind Token.lookahead).bind (input[·]?)

/-- Whatever the stack, a probe asks for the symbols on it and for the one after its
top. -/
theorem probe_eq_ok_iff {b : Branch} {a : Action} {input : Array Token} :
    (b.probe a input).2 = .ok () ↔
      a.HoldsOn (b.stack.items.map Token.symbol) ((b.following? input).map Token.symbol) := by
  have hok : (b.probe a input).2 = .ok () ↔ (b.probe a input).2.isOk = true := by
    cases (b.probe a input).2 <;> simp [Except.isOk, Except.toBool]
  cases htop : b.stack.peek? with
  | none =>
      -- nothing follows an empty stack, and it begins with nothing
      have hitems : b.stack.items = [] := List.head?_eq_none_iff.1 htop
      cases hlook : a.lookahead <;> cases hmatched : a.matched <;>
        simp [probe, following?, Action.HoldsOn, htop, hitems, hlook, hmatched]
  | some top =>
      rw [hok, probe_isOk_iff htop, following?, htop, Option.bind_some]

/-- A probe of a committed branch leaves it as it was. -/
theorem probe_eq_self {b : Branch} (hcommitted : b.stack.changes = []) (a : Action)
    (input : Array Token) : (b.probe a input).1 = b := by
  have hback := rollback_popAll b.stack [] a.matched
  rw [UndoStack.rollback_eq_self hcommitted] at hback
  unfold probe
  split
  · split <;> rfl
  · split
    · rfl
    · split
      all_goals
        next stack _ hpop =>
          rw [hpop] at hback
          exact congrArg (fun s => { b with stack := s }) hback

/-! ## taking tokens -/

/-- The branch that has taken the first `n` tokens of the input. -/
def taken (input : Array Token) : Nat → Branch
  | 0 => start
  | n + 1 => ((taken input n).shift input).1

theorem taken_eq {input : Array Token} {n : Nat} (h : n ≤ input.size) :
    taken input n = { stack := ⟨(input.toList.take n).reverse, []⟩, index := n } := by
  induction n with
  | zero => rfl
  | succ n ih =>
      have hlt : n < input.size := h
      have hnext : input[n]? = some input[n] := Array.getElem?_eq_getElem hlt
      rw [taken, ih (Nat.le_of_lt hlt), shift_eq_ok hnext]
      simp [taking, List.take_add_one, hlt]

/-- On a linked input, what follows the tokens taken is the next one. -/
theorem following?_taken {input : Array Token} (hlinked : Linked input) {n : Nat}
    (h : n + 1 ≤ input.size) :
    (taken input (n + 1)).following? input = input[n + 1]? := by
  have hlt : n < input.size := h
  have hlast : input[n]? = some input[n] := Array.getElem?_eq_getElem hlt
  have htop : (taken input (n + 1)).stack.peek? = some input[n] := by
    rw [taken_eq h]
    simp [UndoStack.peek?, List.take_add_one, hlt]
  rw [following?, htop, Option.bind_some, hlinked n _ hlast]
  split
  · rfl
  · next hend =>
      rw [Array.getElem?_eq_none (by omega)]
      rfl

end Branch

/-! ## a source for given conditions -/

/-- A source that puts the symbols `wanted` on the stack, top first, and goes on with
`next`.  One more token goes below them, so that there is a stack top to look ahead from
when nothing is wanted. -/
def sourceFor (wanted : List Symbol) (next : Symbol) : List Lexeme :=
  (next :: wanted.reverse ++ [next]).map fun s => ⟨s, s.name, 0⟩

/-- A stream has the symbols of its source. -/
theorem map_symbol_stream (lexemes : List Lexeme) (eof : Symbol) :
    (Parser.inputOf (stream lexemes eof)).toList.map Token.symbol =
      (withEnd lexemes eof).map Lexeme.symbol := by
  apply List.ext_getElem?
  intro i
  simp [Parser.inputOf, stream, List.getElem?_zipIdx, Function.comp_def, Token.symbol,
    Lexeme.toToken, Token.withOrigin, Token.withLabel, Token.label]

theorem map_symbol_sourceFor (wanted : List Symbol) (next : Symbol) :
    (Parser.inputOf (stream (sourceFor wanted next) next)).toList.map Token.symbol =
      next :: wanted.reverse ++ [next] := by
  have hlast : (sourceFor wanted next).getLast? = some ⟨next, next.name, 0⟩ := by
    rw [sourceFor, List.map_append]
    exact List.getLast?_concat
  have hend : withEnd (sourceFor wanted next) next = sourceFor wanted next := by
    simp [withEnd, hlast]
  rw [map_symbol_stream, hend, sourceFor, List.map_map]
  exact List.map_id _

/-- The conditions of an action that hold of `wanted` and `next` hold when all of the source
but its last token is taken. -/
theorem probe_sourceFor {a : Action} {wanted : List Symbol} {next : Symbol}
    (h : a.HoldsOn wanted (some next)) :
    let input := Parser.inputOf (stream (sourceFor wanted next) next)
    let b := Branch.taken input (wanted.length + 1)
    b.probe a input = (b, .ok ()) := by
  intro input b
  have hsymbols : input.toList.map Token.symbol = next :: wanted.reverse ++ [next] :=
    map_symbol_sourceFor wanted next
  have hsize : input.size = wanted.length + 2 := by
    have hlength := congrArg List.length hsymbols
    simpa using hlength
  have hle : wanted.length + 1 ≤ input.size := by omega
  have hb : b = { stack := ⟨(input.toList.take (wanted.length + 1)).reverse, []⟩,
                  index := wanted.length + 1 } := Branch.taken_eq hle
  have hstack : b.stack.items.map Token.symbol = wanted ++ [next] := by
    rw [hb, List.map_reverse, List.map_take, hsymbols]
    simp
  have hnext : (b.following? input).map Token.symbol = some next := by
    rw [Branch.following?_taken (linked_stream _ _) hle, ← Array.getElem?_toList,
      ← List.getElem?_map, hsymbols]
    simp
  refine Prod.ext (Branch.probe_eq_self (by rw [hb]) a input) (Branch.probe_eq_ok_iff.2 ?_)
  rw [hstack, hnext]
  exact ⟨h.1, h.2.trans (List.prefix_append _ _)⟩

/-! ## overlapping and matching together -/

namespace Candidate

/-- The conditions of overlapping candidates hold of one stack and of one symbol after
it. -/
theorem exists_holdsOn_of_overlaps {c d : Candidate} (h : c.overlaps d = true) :
    ∃ wanted next, c.action.HoldsOn wanted (some next) ∧ d.action.HoldsOn wanted (some next) := by
  obtain ⟨hlook, hmatched⟩ := overlaps_iff.1 h
  obtain ⟨wanted, hc, hd⟩ :
      ∃ wanted, c.action.matched <+: wanted ∧ d.action.matched <+: wanted := by
    rcases hmatched with hcd | hdc
    · exact ⟨_, hcd, List.prefix_rfl⟩
    · exact ⟨_, List.prefix_rfl, hdc⟩
  cases hx : c.action.lookahead with
  | some x =>
      exact ⟨wanted, x, ⟨by simp [hx], hc⟩, fun s hs => congrArg some (hlook x s hx hs), hd⟩
  | none =>
      -- any symbol will do when neither of them looks ahead
      cases hy : d.action.lookahead with
      | some y => exact ⟨wanted, y, ⟨by simp [hx], hc⟩, by simp [hy], hd⟩
      | none => exact ⟨wanted, default, ⟨by simp [hx], hc⟩, by simp [hy], hd⟩

/-- **Candidates overlap exactly when their conditions can hold together**: there are an
input and a branch, with any stack, on which the probes of both succeed.  If there are, then
there is also a source some of whose tokens lead to such a branch, when they are taken from
the start, and both probes leave it as it was. -/
theorem overlaps_iff_joint_match (c d : Candidate) :
    (c.overlaps d = true ↔ ∃ (input : Array Token) (b : Branch),
      (b.probe c.action input).2 = .ok () ∧ (b.probe d.action input).2 = .ok ()) ∧
    (c.overlaps d = true → ∃ lexemes eof n,
      let input := Parser.inputOf (stream lexemes eof)
      let b := Branch.taken input n
      b.probe c.action input = (b, .ok ()) ∧ b.probe d.action input = (b, .ok ())) := by
  have hjoint : c.overlaps d = true → ∃ lexemes eof n,
      let input := Parser.inputOf (stream lexemes eof)
      let b := Branch.taken input n
      b.probe c.action input = (b, .ok ()) ∧ b.probe d.action input = (b, .ok ()) := by
    intro h
    obtain ⟨wanted, next, hc, hd⟩ := exists_holdsOn_of_overlaps h
    exact ⟨sourceFor wanted next, next, wanted.length + 1, probe_sourceFor hc, probe_sourceFor hd⟩
  refine ⟨⟨fun h => ?_, ?_⟩, hjoint⟩
  · obtain ⟨lexemes, eof, n, hc, hd⟩ := hjoint h
    exact ⟨_, _, congrArg Prod.snd hc, congrArg Prod.snd hd⟩
  · rintro ⟨input, b, hc, hd⟩
    exact overlaps_of_holdsOn (Branch.probe_eq_ok_iff.1 hc) (Branch.probe_eq_ok_iff.1 hd)

end Candidate

end ForkParser
