import ForkParser.Parser.Basic

/-!
# ForkParser.Proofs.Moves

What the moves of a parser do to a branch.

Popping against a list of symbols either goes through or stops at the first
token that disagrees (`popAll_append`, `popAll_mismatch`), and of any stack and
any symbols one of the two is the case (`front_cases`).  From that come a law for
reducing and one for probing, and `Branch.Effect`, the list of everything that
carrying out a move can make of a branch; `Parser.effect_follow` and
`Parser.mem_step_of_top` say that a step does nothing else but fail.  All later facts about runs
are derived from these.
-/

namespace ForkParser

/-- A stack with nothing to undo is rolled back to itself. -/
theorem UndoStack.rollback_eq_self {α : Type} {s : UndoStack α} (h : s.changes = []) :
    s.rollback = s := by
  obtain ⟨items, changes⟩ := s
  obtain rfl : changes = [] := h
  rfl

namespace Branch

/-! ## popping -/

/-- Tokens that carry the symbols wanted are popped, and what is below them
stays. -/
theorem popAll_append (xs rest : List Token) (changes : List (Change Token))
    (popped : List Token) :
    popAll ⟨xs ++ rest, changes⟩ popped (xs.map Token.symbol) =
      (⟨rest, xs.reverse.map Change.popped ++ changes⟩, .ok (xs.reverse ++ popped)) := by
  induction xs generalizing changes popped with
  | nil => rfl
  | cons x xs ih =>
      simp only [List.map_cons, List.cons_append, popAll, UndoStack.pop, if_true]
      rw [ih]
      simp

/-- Popping stops at the first symbol that the stack does not have. -/
theorem popAll_mismatch (xs rest : List Token) (changes : List (Change Token))
    (popped : List Token) {e : Symbol} (es : List Symbol)
    (h : rest.head?.map Token.symbol ≠ some e) :
    (popAll ⟨xs ++ rest, changes⟩ popped (xs.map Token.symbol ++ e :: es)).2 =
      .error ⟨e, rest.head?⟩ := by
  induction xs generalizing changes popped with
  | nil =>
      cases rest with
      | nil => rfl
      | cons t rest =>
          have hne : t.symbol ≠ e := by simpa using h
          simp [popAll, UndoStack.pop, hne]
  | cons x xs ih =>
      simp only [List.map_cons, List.cons_append, popAll, UndoStack.pop, if_true]
      exact ih _ _

/-- A stack either begins with tokens of the symbols wanted, or agrees with them
up to a first symbol that it does not have there. -/
theorem front_cases (items : List Token) (expected : List Symbol) :
    (∃ xs rest, items = xs ++ rest ∧ xs.map Token.symbol = expected) ∨
      ∃ xs rest e es, items = xs ++ rest ∧ expected = xs.map Token.symbol ++ e :: es ∧
        rest.head?.map Token.symbol ≠ some e := by
  induction expected generalizing items with
  | nil => exact Or.inl ⟨[], items, rfl, rfl⟩
  | cons e es ih =>
      cases items with
      | nil => exact Or.inr ⟨[], [], e, es, rfl, rfl, nofun⟩
      | cons t items =>
          by_cases ht : t.symbol = e
          · rcases ih items with ⟨xs, rest, rfl, rfl⟩ | ⟨xs, rest, e', es', rfl, rfl, hne⟩
            · exact Or.inl ⟨t :: xs, rest, rfl, by rw [List.map_cons, ht]⟩
            · exact Or.inr ⟨t :: xs, rest, e', es', rfl, by simp [ht], hne⟩
          · exact Or.inr ⟨[], t :: items, e, es, rfl, rfl, by simpa using ht⟩

/-! ## shifting and reducing -/

/-- The branch with `token` taken from the input. -/
def taking (b : Branch) (token : Token) : Branch :=
  { b with stack := ⟨token :: b.stack.items, []⟩, index := b.index + 1 }

/-- The branch with a reduction on top of `rest`. -/
def reducing (b : Branch) (token : Token) (rest : List Token) : Branch :=
  { b with stack := ⟨token :: rest, []⟩, reductions := b.reductions + 1 }

theorem shift_eq_ok {b : Branch} {input : Array Token} {token : Token}
    (h : input[b.index]? = some token) : b.shift input = (b.taking token, .ok ()) := by
  rw [shift, h]
  rfl

theorem shift_eq_error {b : Branch} {input : Array Token} (h : input[b.index]? = none) :
    b.shift input = (b, .error (.noAccept (b.here input))) := by
  rw [shift, h]

/-- A stack that ends with the right-hand side of a production is reduced. -/
theorem reduce_eq_ok {b : Branch} {input : Array Token} {rule : Production}
    {children rest : List Token} (hitems : b.stack.items = children.reverse ++ rest)
    (hsymbols : children.map Token.symbol = rule.rhs) :
    b.reduce rule input =
      (b.reducing (b.reduced rule children input) rest, .ok (b.reduced rule children input)) := by
  have hwanted : rule.rhs.reverse = children.reverse.map Token.symbol := by
    rw [← hsymbols, List.map_reverse]
  have hpop : popAll b.stack [] rule.rhs.reverse =
      (⟨rest, children.map Change.popped ++ b.stack.changes⟩, .ok children) := by
    have := popAll_append children.reverse rest b.stack.changes []
    rw [← hitems, ← hwanted, List.reverse_reverse, List.append_nil] at this
    exact this
  rw [reduce, hpop]
  rfl

/-- Any other committed stack stays as it is, and the error names the rightmost
symbol of the production that disagrees and the token found there. -/
theorem reduce_eq_error {b : Branch} {input : Array Token} {rule : Production}
    (hcommitted : b.stack.changes = []) {xs rest : List Token} {e : Symbol} {es : List Symbol}
    (hitems : b.stack.items = xs ++ rest)
    (hwanted : rule.rhs.reverse = xs.map Token.symbol ++ e :: es)
    (hne : rest.head?.map Token.symbol ≠ some e) :
    b.reduce rule input = (b, .error (b.unexpected input ⟨e, rest.head?⟩)) := by
  have herror := popAll_mismatch xs rest b.stack.changes [] es hne
  rw [← hitems, ← hwanted] at herror
  have hback := rollback_popAll b.stack [] rule.rhs.reverse
  rw [UndoStack.rollback_eq_self hcommitted] at hback
  rw [reduce]
  cases hpop : popAll b.stack [] rule.rhs.reverse with
  | mk stack result =>
      rw [hpop] at herror hback
      obtain rfl : result = .error ⟨e, rest.head?⟩ := herror
      change ({ b with stack := stack.rollback }, _) = _
      rw [show stack.rollback = b.stack from hback]

/-- A reduction of a committed branch goes through or leaves the branch as it was. -/
theorem reduce_cases {b : Branch} (hcommitted : b.stack.changes = []) (rule : Production)
    (input : Array Token) :
    (∃ children rest, b.stack.items = children.reverse ++ rest ∧
      children.map Token.symbol = rule.rhs ∧
      b.reduce rule input =
        (b.reducing (b.reduced rule children input) rest, .ok (b.reduced rule children input))) ∨
    ∃ xs rest e es, b.stack.items = xs ++ rest ∧
      rule.rhs.reverse = xs.map Token.symbol ++ e :: es ∧ rest.head?.map Token.symbol ≠ some e ∧
      b.reduce rule input = (b, .error (b.unexpected input ⟨e, rest.head?⟩)) := by
  rcases front_cases b.stack.items rule.rhs.reverse with
    ⟨xs, rest, hitems, hxs⟩ | ⟨xs, rest, e, es, hitems, hwanted, hne⟩
  · have hitems' : b.stack.items = xs.reverse.reverse ++ rest := by
      rw [List.reverse_reverse, hitems]
    have hsymbols : xs.reverse.map Token.symbol = rule.rhs := by
      rw [List.map_reverse, hxs, List.reverse_reverse]
    exact Or.inl ⟨xs.reverse, rest, hitems', hsymbols, reduce_eq_ok hitems' hsymbols⟩
  · exact Or.inr ⟨xs, rest, e, es, hitems, hwanted, hne,
      reduce_eq_error hcommitted hitems hwanted hne⟩

/-! ## probing -/

/-- The conditions of an action hold on a stack that has the symbols it matches
on top, if the token after the stack top is the one it looks ahead for. -/
theorem probe_isOk {b : Branch} {a : Action} {input : Array Token} {top : Token}
    {rest : List Symbol} (htop : b.stack.peek? = some top)
    (hlook : ∀ s, a.lookahead = some s →
      (top.lookahead.bind (input[·]?)).map Token.symbol = some s)
    (hmatched : b.stack.items.map Token.symbol = a.matched ++ rest) :
    (b.probe a input).2 = .ok () := by
  have hnext : lookaheadMismatch? a top input = none := by
    rw [lookaheadMismatch?]
    split
    · rfl
    · next s hs => exact if_pos (hlook s hs)
  obtain ⟨xs, below, hitems, hxs, -⟩ := List.map_eq_append_iff.1 hmatched
  have hpop := popAll_append xs below b.stack.changes []
  rw [← hitems, hxs] at hpop
  have hpop' : popAll b.stack [] a.matched = _ := hpop
  simp only [probe, htop, hnext, hpop']

/-! ## what a move can do -/

/-- Everything that a move can make of a committed branch: a token is taken, or
there is none; the stack does not end with the production to reduce by; or it
does, and the reduction stays on the stack, where an accepting one is accepted if
it completes the parse and refused if not. -/
inductive Effect (start : Symbol) (input : Array Token) (b : Branch) : Move → Branch → Prop
  | taken {token : Token} (h : input[b.index]? = some token) :
      Effect start input b .shift (b.taking token)
  | exhausted (h : input[b.index]? = none) :
      Effect start input b .shift (b.fail (.noAccept (b.here input)))
  | mismatched {rule : Production} {accepts : Bool} {xs rest : List Token} {e : Symbol}
      {es : List Symbol} (hitems : b.stack.items = xs ++ rest)
      (hwanted : rule.rhs.reverse = xs.map Token.symbol ++ e :: es)
      (hne : rest.head?.map Token.symbol ≠ some e) :
      Effect start input b (.reduce rule accepts)
        (b.fail (b.unexpected input ⟨e, rest.head?⟩))
  | reduced {rule : Production} {children rest : List Token}
      (hitems : b.stack.items = children.reverse ++ rest)
      (hsymbols : children.map Token.symbol = rule.rhs) :
      Effect start input b (.reduce rule false)
        (b.reducing (b.reduced rule children input) rest)
  | accepted {rule : Production} {children : List Token}
      (hitems : b.stack.items = children.reverse) (hsymbols : children.map Token.symbol = rule.rhs)
      (hstart : rule.lhs = start) (hend : b.index = input.size) :
      Effect start input b (.reduce rule true)
        { b.reducing (b.reduced rule children input) [] with status := .accepted }
  | refused {rule : Production} {children rest : List Token}
      (hitems : b.stack.items = children.reverse ++ rest)
      (hsymbols : children.map Token.symbol = rule.rhs)
      (hrefused : ¬ (rest = [] ∧ rule.lhs = start ∧ b.index = input.size)) :
      Effect start input b (.reduce rule true)
        ((b.reducing (b.reduced rule children input) rest).fail (.noAccept (b.here input)))

@[simp] theorem symbol_reduced (b : Branch) (rule : Production) (children : List Token)
    (input : Array Token) : (b.reduced rule children input).symbol = rule.lhs := by
  rw [Branch.reduced]
  split <;> rfl

@[simp] theorem isLeaf_reduced (b : Branch) (rule : Production) (children : List Token)
    (input : Array Token) : (b.reduced rule children input).isLeaf = false := by
  rw [reduced]
  split <;> rfl

@[simp] theorem children_reduced (b : Branch) (rule : Production) (children : List Token)
    (input : Array Token) : (b.reduced rule children input).children = children := by
  rw [reduced]
  split
  · next hempty => exact (List.isEmpty_iff.1 hempty).symm
  · rfl

/-- A reduction completes the parse when it is alone on the stack, a start
symbol, and the input is used up. -/
theorem isComplete_reducing {b : Branch} {token : Token} {rest : List Token} {start : Symbol}
    {input : Array Token} :
    (b.reducing token rest).isComplete token start input = true ↔
      rest = [] ∧ token.symbol = start ∧ b.index = input.size := by
  simp only [isComplete, Bool.and_eq_true, decide_eq_true_eq, and_assoc]
  simp only [reducing, UndoStack.size, List.length_cons, Nat.add_eq_right,
    List.length_eq_zero_iff]

end Branch

namespace Parser

variable {p : Parser} {b : Branch} {input : Array Token}

/-! ## following a candidate -/

section Follow

variable {c : Candidate} {rule : Production} {children below : List Token}

theorem follow_shift (hmove : c.action.move = .shift) {token : Token}
    (h : input[b.index]? = some token) : p.follow b input c = b.taking token := by
  rw [follow, Branch.execute, hmove]
  simp only [Branch.shift_eq_ok h]

theorem follow_exhausted (hmove : c.action.move = .shift) (h : input[b.index]? = none) :
    p.follow b input c = b.fail (.noAccept (b.here input)) := by
  rw [follow, Branch.execute, hmove]
  simp only [Branch.shift_eq_error h]

theorem follow_mismatch {accepts : Bool} (hmove : c.action.move = .reduce rule accepts)
    (hcommitted : b.stack.changes = []) {xs rest : List Token} {e : Symbol} {es : List Symbol}
    (hitems : b.stack.items = xs ++ rest)
    (hwanted : rule.rhs.reverse = xs.map Token.symbol ++ e :: es)
    (hne : rest.head?.map Token.symbol ≠ some e) :
    p.follow b input c = b.fail (b.unexpected input ⟨e, rest.head?⟩) := by
  rw [follow, Branch.execute, hmove]
  simp only [Branch.reduce_eq_error hcommitted hitems hwanted hne]

theorem follow_reduce (hmove : c.action.move = .reduce rule false)
    (hitems : b.stack.items = children.reverse ++ below)
    (hsymbols : children.map Token.symbol = rule.rhs) :
    p.follow b input c = b.reducing (b.reduced rule children input) below := by
  rw [follow, Branch.execute, hmove]
  simp only [Branch.reduce_eq_ok hitems hsymbols]
  rfl

theorem follow_accept (hmove : c.action.move = .reduce rule true)
    (hitems : b.stack.items = children.reverse) (hsymbols : children.map Token.symbol = rule.rhs)
    (hstart : rule.lhs = p.settings.start) (hend : b.index = input.size) :
    p.follow b input c =
      { b.reducing (b.reduced rule children input) [] with status := .accepted } := by
  have hitems' : b.stack.items = children.reverse ++ [] := by rw [hitems, List.append_nil]
  have hcomplete : (b.reducing (b.reduced rule children input) []).isComplete
      (b.reduced rule children input) p.settings.start input = true := by
    rw [Branch.isComplete_reducing, Branch.symbol_reduced]
    exact ⟨rfl, hstart, hend⟩
  rw [follow, Branch.execute, hmove]
  simp only [Branch.reduce_eq_ok hitems' hsymbols, if_true, hcomplete]

theorem follow_refuse (hmove : c.action.move = .reduce rule true)
    (hitems : b.stack.items = children.reverse ++ below)
    (hsymbols : children.map Token.symbol = rule.rhs)
    (hrefused : ¬ (below = [] ∧ rule.lhs = p.settings.start ∧ b.index = input.size)) :
    p.follow b input c =
      (b.reducing (b.reduced rule children input) below).fail (.noAccept (b.here input)) := by
  have hincomplete : ¬ (b.reducing (b.reduced rule children input) below).isComplete
      (b.reduced rule children input) p.settings.start input = true := by
    rw [Branch.isComplete_reducing, Branch.symbol_reduced]
    exact hrefused
  rw [follow, Branch.execute, hmove]
  simp only [Branch.reduce_eq_ok hitems hsymbols, if_true, if_neg hincomplete]
  rfl

end Follow

/-- Following a candidate has one of the effects of its move. -/
theorem effect_follow (hcommitted : b.stack.changes = []) (c : Candidate) :
    b.Effect p.settings.start input c.action.move (p.follow b input c) := by
  cases hmove : c.action.move with
  | shift =>
      cases h : input[b.index]? with
      | none =>
          rw [follow_exhausted hmove h]
          exact .exhausted h
      | some token =>
          rw [follow_shift hmove h]
          exact .taken h
  | reduce rule accepts =>
      rcases Branch.front_cases b.stack.items rule.rhs.reverse with
        ⟨xs, rest, hitems, hxs⟩ | ⟨xs, rest, e, es, hitems, hwanted, hne⟩
      · have hitems' : b.stack.items = xs.reverse.reverse ++ rest := by
          rw [List.reverse_reverse, hitems]
        have hsymbols : xs.reverse.map Token.symbol = rule.rhs := by
          rw [List.map_reverse, hxs, List.reverse_reverse]
        cases accepts with
        | false =>
            rw [follow_reduce hmove hitems' hsymbols]
            exact .reduced hitems' hsymbols
        | true =>
            by_cases hdone : rest = [] ∧ rule.lhs = p.settings.start ∧ b.index = input.size
            · obtain ⟨rfl, hstart, hend⟩ := hdone
              rw [List.append_nil] at hitems'
              rw [follow_accept hmove hitems' hsymbols hstart hend]
              exact .accepted hitems' hsymbols hstart hend
            · rw [follow_refuse hmove hitems' hsymbols hdone]
              exact .refused hitems' hsymbols hdone
      · rw [follow_mismatch hmove hcommitted hitems hwanted hne]
        exact .mismatched hitems hwanted hne

/-! ## what a step can do -/

/-- A successor of a branch is the branch after a candidate of its stack top, or the branch
itself, failed, because there is no candidate or because of what a candidate wants. -/
theorem mem_step_of_top {b' : Branch} {top : Token} (htop : b.stack.peek? = some top)
    (h : b' ∈ p.step b input) :
    (∃ c ∈ p.table.lookup top.symbol, b' = p.follow b input c) ∨
      b' = b.fail (.noElements top.symbol top.position) ∨
      ∃ c ∈ p.table.lookup top.symbol, ∃ e, (b.probe c.action input).2 = .error e ∧
        b' = b.fail e := by
  rw [step, decision] at h
  simp only [htop] at h
  rcases hcs : p.table.lookup top.symbol with _ | ⟨c, _ | ⟨d, rest⟩⟩
  · simp only [hcs, List.mem_singleton] at h
    exact Or.inr (Or.inl h)
  · simp only [hcs, List.mem_singleton] at h
    exact Or.inl ⟨c, by simp, h⟩
  · simp only [hcs, choose] at h
    cases hm : matching b input (c :: d :: rest) with
    | nil =>
        simp only [hm, List.mem_singleton] at h
        cases hrejected : rejection? b input (c :: d :: rest) with
        | none =>
            rw [hrejected] at h
            exact Or.inr (Or.inl h)
        | some e =>
            rw [hrejected] at h
            obtain ⟨x, hx, hprobe⟩ := List.exists_of_findSome?_eq_some hrejected
            split at hprobe
            · next e' hfails =>
                obtain rfl := Option.some.inj hprobe
                exact Or.inr (Or.inr ⟨x, hx, _, hfails, h⟩)
            · contradiction
    | cons x xs =>
        simp only [hm] at h
        obtain ⟨y, hy, rfl⟩ := List.mem_map.1 h
        rw [← hm] at hy
        exact Or.inl ⟨y, (List.mem_filter.1 hy).1, rfl⟩

/-- A successor of a branch is the branch itself, failed, or the branch after a
candidate of its stack top. -/
theorem mem_step {b' : Branch} (h : b' ∈ p.step b input) :
    (∃ e, b' = b.fail e) ∨
      ∃ top c, b.stack.peek? = some top ∧ c ∈ p.table.lookup top.symbol ∧
        b' = p.follow b input c := by
  cases htop : b.stack.peek? with
  | none =>
      simp only [step, decision, htop, List.mem_singleton] at h
      exact Or.inl ⟨_, h⟩
  | some top =>
      rcases mem_step_of_top htop h with ⟨c, hc, rfl⟩ | rfl | ⟨c, -, e, -, rfl⟩
      · exact Or.inr ⟨top, c, rfl, hc, rfl⟩
      · exact Or.inl ⟨_, rfl⟩
      · exact Or.inl ⟨e, rfl⟩

/-- A candidate of the stack top whose conditions hold is followed, whether it is
forced or chosen. -/
theorem follow_mem_step {top : Token} {c : Candidate} (htop : b.stack.peek? = some top)
    (hc : c ∈ p.table.lookup top.symbol) (hprobe : (b.probe c.action input).2 = .ok ()) :
    p.follow b input c ∈ p.step b input := by
  rw [step, decision]
  simp only [htop]
  cases hcs : p.table.lookup top.symbol with
  | nil => rw [hcs] at hc; contradiction
  | cons d rest =>
      rw [hcs] at hc
      cases rest with
      | nil =>
          obtain rfl := List.mem_singleton.1 hc
          exact List.mem_singleton_self _
      | cons e rest =>
          have hmatching : c ∈ matching b input (d :: e :: rest) := by
            rw [matching, List.mem_filter, probe, hprobe]
            exact ⟨hc, rfl⟩
          simp only [choose]
          cases hm : matching b input (d :: e :: rest) with
          | nil => rw [hm] at hmatching; contradiction
          | cons x xs =>
              rw [hm] at hmatching
              exact List.mem_map_of_mem hmatching

end Parser

end ForkParser
