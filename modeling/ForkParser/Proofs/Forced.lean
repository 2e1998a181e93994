import ForkParser.Proofs.Ambiguity
import ForkParser.Proofs.Choice
import ForkParser.Proofs.Invariant

/-!
# ForkParser.Proofs.Forced

A forced candidate may be followed without a look at its conditions.

A symbol with a single candidate forces it, and a forced shift takes the next token
also where the candidate looks ahead for another one.  Such a branch is doomed
(`Branch.Doomed`): the symbol below has one place in the whole grammar, so it can
only be reduced together with the terminal that follows it there, and that terminal
can no longer come to stand on it, since terminals are never reduced to and no
reduction is of nothing.  A doomed branch stays doomed and is never accepted
(`Branch.Effect.doomed`).

The checked parser (`Parser.checkedParse`) probes single candidates too.  Round by
round its active branches are those of the parser without some doomed ones
(`Search.Pruned`), so as long as no limit interferes it accepts the same branches in
the same order.
-/

namespace ForkParser

/-! ## the checked parser -/

namespace Parser

/-- The decision of a step that probes a single candidate like several. -/
def checkedDecision (p : Parser) (b : Branch) (input : Array Token) : Decision :=
  match b.stack.peek? with
  | none => .emptyStack ((input[0]?.map Token.position).getD 0)
  | some top =>
    match p.table.lookup top.symbol with
    | [] => .noCandidates top.symbol top.position
    | candidates => choose b input top candidates

/-- The successors of a branch by a decision. -/
def enact (p : Parser) (b : Branch) (input : Array Token) : Decision → List Branch
  | .emptyStack position => [b.fail (.noAccept position)]
  | .noCandidates symbol position => [b.fail (.noElements symbol position)]
  | .forced c => [p.follow b input c]
  | .noMatch _ error => [b.fail error]
  | .choice _ cs => cs.map (p.follow b input)

/-- The successors of a branch when nothing is forced. -/
def checkedStep (p : Parser) (b : Branch) (input : Array Token) : List Branch :=
  p.enact b input (p.checkedDecision b input)

/-- A step and a checked step differ in nothing but the decision. -/
theorem step_eq_enact (p : Parser) (b : Branch) (input : Array Token) :
    p.step b input = p.enact b input (p.decision b input) := by
  rw [step]
  cases p.decision b input <;> rfl

end Parser

namespace Search

/-- One round in which each active branch is replaced by what `step` makes of it. -/
def advanceBy (step : Branch → List Branch) (s : Search) : Search :=
  let next := s.active.flatMap step
  { active := next.filter Branch.isActive
    accepted := s.accepted ++ next.filter Branch.isAccepted
    deepest := next.foldl deeper s.deepest
    rounds := s.rounds + 1 }

/-- Plays rounds by `step` until the search is over, at most `left` of them. -/
def runBy (step : Branch → List Branch) (settings : Settings) : (left : Nat) → Search → Search
  | 0, s => s
  | left + 1, s =>
    if s.isOver settings then s else runBy step settings left (s.advanceBy step)

theorem run_eq_runBy (p : Parser) (input : Array Token) (left : Nat) (s : Search) :
    s.run p input left = s.runBy (p.step · input) p.settings left := by
  induction left generalizing s with
  | zero => rfl
  | succ left ih => rw [run, runBy, ih, advance, advanceBy, successors]

end Search

namespace Parser

/-- Every tree of a token stream that the search finds when its rounds are played by
`step`. -/
def parseBy (p : Parser) (step : Branch → Array Token → List Branch) (tokens : List Token) :
    Except Error Forest :=
  if tokens.isEmpty then
    .error (.invalidInput "the token stream is empty")
  else
    match seed (inputOf tokens) with
    | .ok s =>
      (s.runBy (step · (inputOf tokens)) p.settings p.settings.maxSteps).outcome p.settings
    | .error e => .error e

/-- The parser plays its rounds by its own steps. -/
theorem parse_eq_parseBy (p : Parser) (tokens : List Token) :
    p.parse tokens = p.parseBy p.step tokens := by
  unfold parse parseBy search
  cases seed (inputOf tokens) with
  | error e => rfl
  | ok s => simp only [Search.run_eq_runBy]

/-- Every tree of a token stream, or why there is none, when the conditions of single
candidates are looked at too. -/
def checkedParse (p : Parser) (tokens : List Token) : Except Error Forest :=
  p.parseBy p.checkedStep tokens

end Parser

/-! ## single candidates -/

namespace Table

variable {g : Grammar} {t : Table}

/-- A single candidate matches nothing. -/
theorem matched_of_single (hg : g.table = .ok t) {s : Symbol} {c : Candidate}
    (hc : t.lookup s = [c]) : c.action.matched = [] := by
  rw [lookup_eq hg, Suffix.resolve_eq] at hc
  obtain ⟨x, hx, rfl⟩ := List.map_eq_singleton_iff.1 hc
  have hnodup : (candidatesOf s g.settings.eof g.productions).Nodup := nodup_candidatesOf _ _ _
  rw [hx] at hnodup ⊢
  have halone : Suffix.rivals (Suffix.partWith [x] x.action.lookahead) x = [] := by
    simp [Suffix.rivals, Suffix.partWith]
  simp [Suffix.matchDepth_of_alone hnodup halone]

/-- A terminal that a candidate looks ahead for is a terminal, and the candidate
shifts. -/
theorem shift_of_lookahead (hg : g.table = .ok t) {s : Symbol} {c : Candidate}
    (hc : c ∈ t.lookup s) {expected : Symbol} (hlook : c.action.lookahead = some expected) :
    expected.isTerminal = true ∧ c.action.move = .shift := by
  obtain ⟨-, -, hmove, hplace, -⟩ := of_mem_lookup hg hc
  rw [hlook, Occurrence.lookahead, eq_comm, Option.filter_eq_some_iff] at hplace
  obtain ⟨hnext, hterminal⟩ := hplace
  refine ⟨hterminal, ?_⟩
  cases hlast : c.occurrence.isLast with
  | false => rw [hmove, Candidate.move_of_not_isLast hlast]
  | true =>
      rw [(Occurrence.next?_eq_none_iff _).2 hlast] at hnext
      contradiction

/-- If a symbol has a single candidate and that looks ahead for a terminal, then in
every production the symbol is followed by that terminal, if by anything. -/
theorem follower_of_single (hg : g.table = .ok t) {s : Symbol} {c : Candidate}
    (hc : t.lookup s = [c]) {expected : Symbol} (hlook : c.action.lookahead = some expected)
    {rule : Production} (hrule : rule ∈ g.productions) {before after : List Symbol} {x : Symbol}
    (hrhs : rule.rhs = before ++ s :: x :: after) : x = expected := by
  obtain ⟨i, hi⟩ := List.getElem?_of_mem hrule
  have hinside : before.length < rule.rhs.length := by simp [hrhs]
  let o : Occurrence := ⟨rule, before.length, i, hinside⟩
  have hsymbol : o.symbol = s := by simp [o, Occurrence.symbol, hrhs]
  have hnext : o.next? = some x := by simp [o, Occurrence.next?, hrhs]
  obtain ⟨d, hd, hplace⟩ := exists_mem_lookup hg (o := o) hi
  rw [hsymbol, hc, List.mem_singleton] at hd
  obtain ⟨-, -, -, hlookahead, -⟩ := of_mem_lookup hg (hc ▸ List.mem_singleton_self c)
  rw [hlook, ← hd, hplace, Occurrence.lookahead, hnext, eq_comm, Option.filter_eq_some_iff]
    at hlookahead
  exact Option.some.inj hlookahead.1

end Table

/-! ## doomed branches -/

namespace Branch

/-- The token `above` stands on `below` although the one place of that symbol wants
another terminal after it. -/
def Blocks (t : Table) (below above : Token) : Prop :=
  ∃ c expected, t.lookup below.symbol = [c] ∧ c.action.lookahead = some expected ∧
    above.symbol ≠ expected

/-- Somewhere on the stack a token blocks the one below it. -/
def Doomed (t : Table) (b : Branch) : Prop :=
  ∃ front above below rest, b.stack.items = front ++ above :: below :: rest ∧
    Blocks t below above

variable {g : Grammar} {t : Table} {input : Array Token} {b b' : Branch}

/-- Tokens that spell a production do not block one another. -/
theorem not_blocks_of_spelled (hg : g.table = .ok t) {rule : Production}
    (hrule : rule ∈ g.productions) {before after : List Token} {below above : Token}
    (hsymbols : (before ++ below :: above :: after).map Token.symbol = rule.rhs) :
    ¬ Blocks t below above := by
  rintro ⟨c, expected, hc, hlook, hne⟩
  have hrhs : rule.rhs = before.map Token.symbol ++
      below.symbol :: above.symbol :: after.map Token.symbol := by simp [← hsymbols]
  exact hne (Table.follower_of_single hg hc hlook hrule hrhs)

/-- A reduction blocks what a token blocked that it was made of: it is no terminal. -/
theorem Blocks.of_lhs (hg : g.table = .ok t) {rule : Production} (hrule : rule ∈ g.productions)
    {below above token : Token} (h : Blocks t below above) (htoken : token.symbol = rule.lhs) :
    Blocks t below token := by
  obtain ⟨c, expected, hc, hlook, -⟩ := h
  refine ⟨c, expected, hc, hlook, fun heq => ?_⟩
  have hterminal := (Table.shift_of_lookahead hg (hc ▸ List.mem_singleton_self c) hlook).1
  rw [← heq, htoken, g.isTerminal_lhs hrule] at hterminal
  contradiction

/-- A reduction cannot take a token and the one it blocks, so the stack stays
blocked. -/
theorem Doomed.reducing (hg : g.table = .ok t) (hb : b.Doomed t) (input : Array Token)
    {rule : Production} (hrule : rule ∈ g.productions) {children rest : List Token}
    (hitems : b.stack.items = children.reverse ++ rest)
    (hsymbols : children.map Token.symbol = rule.rhs) :
    rest ≠ [] ∧ (b.reducing (b.reduced rule children input) rest).Doomed t := by
  obtain ⟨front, above, below, tail, hblocked, hblocks⟩ := hb
  rw [hitems, List.append_eq_append_iff] at hblocked
  rcases hblocked with ⟨more, rfl, rfl⟩ | ⟨more, hchildren, hrest⟩
  · -- both tokens stay
    exact ⟨by simp, _ :: more, above, below, tail, rfl, hblocks⟩
  · match more with
    | [] =>
        obtain rfl : above :: below :: tail = rest := hrest
        exact ⟨by simp, [_], above, below, tail, rfl, hblocks⟩
    | [x] =>
        -- the upper token is reduced with those above it, and the lower one stays
        obtain ⟨rfl, rfl⟩ := List.cons.inj hrest
        exact ⟨by simp, [], _, below, tail, rfl, hblocks.of_lhs hg hrule (by simp)⟩
    | x :: y :: more =>
        -- both would be reduced together
        simp only [List.cons_append, List.cons.injEq] at hrest
        obtain ⟨rfl, rfl, -⟩ := hrest
        have hspelled : children = more.reverse ++ below :: above :: front.reverse := by
          simpa using congrArg List.reverse hchildren
        rw [hspelled] at hsymbols
        exact absurd hblocks (not_blocks_of_spelled hg hrule hsymbols)

/-- A doomed branch stays doomed, whatever it does, and is not accepted. -/
theorem Effect.doomed (hg : g.table = .ok t) {start : Symbol} {move : Move}
    (h : b.Effect start input move b') (hactive : b.isActive = true) (hb : b.Doomed t)
    (hmove : ∀ {rule accepts}, move = .reduce rule accepts → rule ∈ g.productions) :
    b'.Doomed t ∧ b'.isAccepted = false := by
  have hnot : b.isAccepted = false := by simp [isAccepted, status_eq_active hactive]
  cases h with
  | @taken token =>
      obtain ⟨front, above, below, rest, hitems, hblocks⟩ := hb
      exact ⟨⟨token :: front, above, below, rest, by simp [taking, hitems], hblocks⟩, hnot⟩
  | exhausted => exact ⟨hb, rfl⟩
  | mismatched => exact ⟨hb, rfl⟩
  | reduced hitems hsymbols => exact ⟨(hb.reducing hg input (hmove rfl) hitems hsymbols).2, hnot⟩
  | @accepted rule children hitems hsymbols =>
      have hitems' : b.stack.items = children.reverse ++ [] := by simp [hitems]
      exact absurd rfl (hb.reducing hg input (hmove rfl) hitems' hsymbols).1
  | refused hitems hsymbols => exact ⟨(hb.reducing hg input (hmove rfl) hitems hsymbols).2, rfl⟩

end Branch

namespace Parser

variable {g : Grammar} {p : Parser} {input : Array Token} {b : Branch}

/-- The successors of a doomed branch are doomed, and none is accepted. -/
theorem doomed_of_mem_step (hg : g.table = .ok p.table) (hcommitted : b.stack.changes = [])
    (hactive : b.isActive = true) (hb : b.Doomed p.table) {b' : Branch}
    (h : b' ∈ p.step b input) : b'.Doomed p.table ∧ b'.isAccepted = false := by
  rcases mem_step h with ⟨e, rfl⟩ | ⟨top, c, -, hc, rfl⟩
  · exact ⟨hb, rfl⟩
  · refine (effect_follow hcommitted c).doomed hg hactive hb fun hmove => ?_
    exact (Table.reduce_of_mem_lookup hg hc hmove).1

/-- On a linked input, a single candidate whose conditions do not hold leads to a
branch that has failed or is doomed. -/
theorem doomed_of_forced (hg : g.table = .ok p.table) (hlinked : Linked input)
    (hb : b.Consistent g.productions input) (hactive : b.isActive = true) {top : Token}
    (htop : b.stack.peek? = some top) {c : Candidate} (hc : p.table.lookup top.symbol = [c])
    (hprobe : (probe b input c).isOk = false) :
    (p.follow b input c).isAccepted = false ∧
      ((p.follow b input c).isActive = true → (p.follow b input c).Doomed p.table) := by
  obtain ⟨rest, hitems⟩ := List.head?_eq_some_iff.1 htop
  -- there is nothing to match, so it is the token looked ahead for that is not there
  obtain ⟨expected, hlook, hnext⟩ : ∃ expected, c.action.lookahead = some expected ∧
      (top.lookahead.bind (input[·]?)).map Token.symbol ≠ some expected := by
    have hnot := (not_congr (Branch.probe_isOk_iff htop)).1 (Bool.eq_false_iff.1 hprobe)
    rw [Action.holdsOn_iff_of_matched_eq_nil (Table.matched_of_single hg hc)] at hnot
    simpa using hnot
  have hmove := (Table.shift_of_lookahead hg (hc ▸ List.mem_singleton_self c) hlook).2
  cases htoken : input[b.index]? with
  | none =>
      rw [follow_exhausted hmove htoken]
      exact ⟨rfl, nofun⟩
  | some token =>
      rw [follow_shift hmove htoken]
      have hlt : b.index < input.size := (Array.getElem?_eq_some_iff.1 htoken).1
      rw [hb.lookahead_top_of_linked hlinked hitems, if_pos hlt, Option.bind_some, htoken] at hnext
      have hne : token.symbol ≠ expected := by simpa using hnext
      refine ⟨by simp [Branch.isAccepted, Branch.taking, Branch.status_eq_active hactive], ?_⟩
      intro _
      exact ⟨[], token, top, rest, by simp [Branch.taking, hitems], c, expected, hc, hlook, hne⟩

/-! ## the candidates of a checked step -/

/-- The candidates that a checked step follows. -/
def checked (p : Parser) (b : Branch) (input : Array Token) : List Candidate :=
  match b.stack.peek? with
  | none => []
  | some top => matching b input (p.table.lookup top.symbol)

/-- The successors of a checked step that have not failed are the branches after the
candidates it follows. -/
theorem filter_checkedStep {P : Branch → Bool} (hP : ∀ b e, P (Branch.fail b e) = false) :
    (p.checkedStep b input).filter P = ((p.checked b input).map (p.follow b input)).filter P := by
  cases htop : b.stack.peek? with
  | none => simp [checkedStep, checkedDecision, checked, enact, htop, hP]
  | some top =>
      cases hcs : p.table.lookup top.symbol with
      | nil => simp [checkedStep, checkedDecision, checked, enact, htop, hcs, hP, matching]
      | cons c rest =>
          simp only [checkedStep, checkedDecision, checked, choose, htop, hcs]
          cases hm : matching b input (c :: rest) with
          | nil => simp [enact, hP]
          | cons x xs => rfl

/-- A checked step follows the candidates that a step follows, unless there is a single
one and its conditions do not hold. -/
theorem chosen_eq_checked_or (p : Parser) (b : Branch) (input : Array Token) :
    p.chosen b input = p.checked b input ∨
      ∃ top c, b.stack.peek? = some top ∧ p.table.lookup top.symbol = [c] ∧
        (probe b input c).isOk = false ∧ p.chosen b input = [c] ∧ p.checked b input = [] := by
  cases htop : b.stack.peek? with
  | none => simp [chosen, checked, htop]
  | some top =>
      rcases hcs : p.table.lookup top.symbol with _ | ⟨c, _ | ⟨d, rest⟩⟩
      · simp [chosen, checked, htop, hcs]
      · cases hprobe : (probe b input c).isOk with
        | true => simp [chosen, checked, matching, htop, hcs, hprobe]
        | false => exact Or.inr ⟨top, c, rfl, hcs, hprobe, by simp [chosen, htop, hcs],
            by simp [checked, matching, htop, hcs, hprobe]⟩
      · simp [chosen, checked, htop, hcs]

end Parser

/-! ## thinned lists -/

/-- The second list is the first one without some members that `P` holds of. -/
inductive Thinned {α : Type} (P : α → Prop) : List α → List α → Prop
  | nil : Thinned P [] []
  | keep (a : α) {l l' : List α} (h : Thinned P l l') : Thinned P (a :: l) (a :: l')
  | leave {a : α} {l l' : List α} (ha : P a) (h : Thinned P l l') : Thinned P (a :: l) l'

namespace Thinned

variable {α β : Type} {P : α → Prop} {Q : β → Prop} {l l' : List α}

theorem refl (l : List α) : Thinned P l l := by
  induction l with
  | nil => exact .nil
  | cons a l ih => exact .keep a ih

theorem of_forall (h : ∀ a ∈ l, P a) : Thinned P l [] := by
  induction l with
  | nil => exact .nil
  | cons a l ih => exact .leave (h a (by simp)) (ih fun x hx => h x (by simp [hx]))

theorem sublist (h : Thinned P l l') : l'.Sublist l := by
  induction h with
  | nil => exact .slnil
  | keep a _ ih => exact ih.cons_cons a
  | leave _ _ ih => exact ih.cons _

theorem append {m m' : List α} (h : Thinned P l l') (hm : Thinned P m m') :
    Thinned P (l ++ m) (l' ++ m') := by
  induction h with
  | nil => exact hm
  | keep a _ ih => exact .keep a ih
  | leave ha _ ih => exact .leave ha ih

/-- Lists made from the members are thinned if those from kept members are, and those
from members left out have nothing but what may be left out. -/
theorem flatMap {f f' : α → List β} (h : Thinned P l l')
    (hkeep : ∀ a ∈ l, Thinned Q (f a) (f' a)) (hleave : ∀ a ∈ l, P a → ∀ x ∈ f a, Q x) :
    Thinned Q (l.flatMap f) (l'.flatMap f') := by
  induction h with
  | nil => exact .nil
  | keep a _ ih =>
      simp only [List.flatMap_cons]
      exact (hkeep a (by simp)).append
        (ih (fun x hx => hkeep x (by simp [hx])) fun x hx => hleave x (by simp [hx]))
  | @leave a l l' ha _ ih =>
      have hnone := of_forall (hleave a (by simp) ha)
      exact hnone.append
        (ih (fun x hx => hkeep x (by simp [hx])) fun x hx => hleave x (by simp [hx]))

/-- Lists made from the members are equal if those from kept members are, and members
left out have nothing. -/
theorem flatMap_eq {f f' : α → List β} (h : Thinned P l l') (hkeep : ∀ a ∈ l, f a = f' a)
    (hleave : ∀ a ∈ l, P a → f a = []) : l.flatMap f = l'.flatMap f' := by
  induction h with
  | nil => rfl
  | keep a _ ih =>
      rw [List.flatMap_cons, List.flatMap_cons, hkeep a (by simp),
        ih (fun x hx => hkeep x (by simp [hx])) fun x hx => hleave x (by simp [hx])]
  | @leave a l l' ha _ ih =>
      rw [List.flatMap_cons, hleave a (by simp) ha, List.nil_append,
        ih (fun x hx => hkeep x (by simp [hx])) fun x hx => hleave x (by simp [hx])]

end Thinned

/-! ## the two searches -/

section Rounds

variable {g : Grammar} {p : Parser} {input : Array Token} (hg : g.table = .ok p.table)
  (hleaf : ∀ t ∈ input, t.isLeaf = true) (hlinked : Linked input)

namespace Parser

include hg hleaf hlinked

/-- A checked step has the active successors of a step, without some doomed ones. -/
theorem thinned_step {b : Branch} (hb : p.Visited input b) (hactive : b.isActive = true) :
    Thinned (Branch.Doomed p.table) ((p.step b input).filter Branch.isActive)
      ((p.checkedStep b input).filter Branch.isActive) := by
  rw [filter_step fun _ _ => rfl, filter_checkedStep fun _ _ => rfl]
  rcases chosen_eq_checked_or p b input with heq | ⟨top, c, htop, hc, hprobe, hchosen, hchecked⟩
  · rw [heq]
    exact .refl _
  · obtain ⟨-, hconsistent, -⟩ := hb.invariant hg hleaf
    have hdoomed := doomed_of_forced hg hlinked hconsistent hactive htop hc hprobe
    rw [hchosen, hchecked]
    refine .of_forall fun x hx => ?_
    obtain ⟨hx, hxactive⟩ := List.mem_filter.1 hx
    obtain rfl := List.mem_singleton.1 hx
    exact hdoomed.2 hxactive

/-- A checked step has the accepted successors of a step. -/
theorem accepted_step_eq {b : Branch} (hb : p.Visited input b) (hactive : b.isActive = true) :
    (p.step b input).filter Branch.isAccepted =
      (p.checkedStep b input).filter Branch.isAccepted := by
  rw [filter_step fun _ _ => rfl, filter_checkedStep fun _ _ => rfl]
  rcases chosen_eq_checked_or p b input with heq | ⟨top, c, htop, hc, hprobe, hchosen, hchecked⟩
  · rw [heq]
  · obtain ⟨-, hconsistent, -⟩ := hb.invariant hg hleaf
    have hdoomed := doomed_of_forced hg hlinked hconsistent hactive htop hc hprobe
    simp [hchosen, hchecked, hdoomed.1]

end Parser

namespace Search

/-- The second search has accepted what the first one has, and of its active branches
lacks only doomed ones. -/
structure Pruned (p : Parser) (input : Array Token) (s s' : Search) : Prop where
  visited : ∀ b ∈ s.active, p.Visited input b ∧ b.isActive = true
  active : Thinned (Branch.Doomed p.table) s.active s'.active
  accepted : s.accepted = s'.accepted

include hg hleaf hlinked

/-- A round of the parser and a round of the checked parser leave the second search
pruned. -/
theorem Pruned.advance {s s' : Search} (h : s.Pruned p input s') :
    (s.advanceBy (p.step · input)).Pruned p input (s'.advanceBy (p.checkedStep · input)) := by
  have hdoomed : ∀ b ∈ s.active, b.Doomed p.table → ∀ b' ∈ p.step b input,
      b'.Doomed p.table ∧ b'.isAccepted = false := by
    intro b hb hdoomed b' hb'
    obtain ⟨hvisited, hactive⟩ := h.visited b hb
    obtain ⟨haccounted, -, -⟩ := hvisited.invariant hg hleaf
    exact Parser.doomed_of_mem_step hg haccounted.committed hactive hdoomed hb'
  refine ⟨fun b hb => ?_, ?_, ?_⟩
  · obtain ⟨hb, hactive⟩ := List.mem_filter.1 hb
    obtain ⟨a, ha, hstep⟩ := List.mem_flatMap.1 hb
    exact ⟨.stepped (h.visited a ha).1 hstep, hactive⟩
  · simp only [advanceBy, List.filter_flatMap]
    refine h.active.flatMap (fun b hb => ?_) fun b hb hb' x hx => ?_
    · obtain ⟨hvisited, hactive⟩ := h.visited b hb
      exact Parser.thinned_step hg hleaf hlinked hvisited hactive
    · exact (hdoomed b hb hb' x (List.mem_filter.1 hx).1).1
  · simp only [advanceBy, List.filter_flatMap, h.accepted]
    congr 1
    refine h.active.flatMap_eq (fun b hb => ?_) fun b hb hb' => ?_
    · obtain ⟨hvisited, hactive⟩ := h.visited b hb
      exact Parser.accepted_step_eq hg hleaf hlinked hvisited hactive
    · exact List.filter_eq_nil_iff.2 fun x hx => by simp [(hdoomed b hb hb' x hx).2]

omit hg hleaf hlinked in
/-- A search with no active branch accepts no more. -/
theorem accepted_runBy_of_inactive (step : Branch → List Branch) (settings : Settings)
    (left : Nat) {s : Search} (h : s.active = []) :
    (s.runBy step settings left).accepted = s.accepted := by
  cases left with
  | zero => rfl
  | succ left => simp [runBy, isOver, h]

/-- If the parser's search ends with no active branch, the checked one accepts the
same. -/
theorem Pruned.accepted_runBy {s s' : Search} (h : s.Pruned p input s') (left : Nat)
    (hend : (s.runBy (p.step · input) p.settings left).active = []) :
    (s'.runBy (p.checkedStep · input) p.settings left).accepted =
      (s.runBy (p.step · input) p.settings left).accepted := by
  induction left generalizing s s' with
  | zero => exact h.accepted.symm
  | succ left ih =>
      have hle := h.active.sublist.length_le
      by_cases hover : s.isOver p.settings = true
      · simp only [runBy, hover, if_true] at hend ⊢
        have hnone : s'.active = [] := by simpa [hend] using hle
        rw [h.accepted]
        exact accepted_runBy_of_inactive _ _ (left + 1) hnone
      · have hgoing := hover
        simp only [isOver, Bool.or_eq_true, List.isEmpty_iff, decide_eq_true_eq, not_or] at hgoing
        simp only [runBy, if_neg hover] at hend ⊢
        rw [← ih (h.advance hg hleaf hlinked) hend]
        by_cases hover' : s'.isOver p.settings = true
        · -- the checked search has fewer branches, so it is over for want of any
          have hnone : s'.active = [] := by
            simp only [isOver, Bool.or_eq_true, List.isEmpty_iff, decide_eq_true_eq] at hover'
            exact hover'.resolve_right (by omega)
          rw [if_pos hover', accepted_runBy_of_inactive _ _ left (by simp [advanceBy, hnone])]
          simp [advanceBy, hnone]
        · rw [if_neg hover']

end Search

end Rounds

namespace Search

variable {s s' : Search} (settings : Settings)

/-- A search that has accepted nothing ends in an error. -/
theorem outcome_of_not_accepted (h : s.accepted = []) :
    s.outcome settings = .error (s.failure settings) := by
  simp [outcome, h]

/-- Searches that have accepted the same branches, and some, have the same outcome. -/
theorem outcome_eq_of_accepted (h : s'.accepted = s.accepted) (hsome : s.accepted ≠ []) :
    s'.outcome settings = s.outcome settings := by
  have hsome' : s.accepted.isEmpty = false := List.isEmpty_eq_false_iff.2 hsome
  simp [outcome, forest, h, hsome']

end Search

namespace Parser

/-- **Forcing changes no result.**  On a stream over which the parser is not stopped by
a limit, the checked parser returns the forest that the parser returns, and an error
where the parser returns one. -/
theorem checkedParse_agrees {g : Grammar} {table : Table} (hg : g.table = .ok table)
    (limits : Settings) (lexemes : List Lexeme) (eof : Symbol) {s : Search}
    (hs : (withLimits table limits).search (inputOf (stream lexemes eof)) = .ok s)
    (hlimit : s.limit? (withLimits table limits).settings = none) :
    (∀ forest, (withLimits table limits).parse (stream lexemes eof) = .ok forest →
      (withLimits table limits).checkedParse (stream lexemes eof) = .ok forest) ∧
    (∀ e, (withLimits table limits).parse (stream lexemes eof) = .error e →
      ∃ e', (withLimits table limits).checkedParse (stream lexemes eof) = .error e') := by
  generalize hp : withLimits table limits = p at *
  have hg' : g.table = .ok p.table := hp ▸ hg
  have hleaf := isLeaf_inputOf (isLeaf_stream lexemes eof)
  obtain ⟨token, htoken, -⟩ := search_eq_after hs
  have hseed := seed_eq_ok htoken
  have hvisited : p.Visited (inputOf (stream lexemes eof)) (Branch.start.taking token) :=
    .seeded (Branch.shift_eq_ok htoken)
  have hfirst : (Search.opening token).Pruned p (inputOf (stream lexemes eof)) (.opening token) :=
    ⟨by simpa [Search.opening] using ⟨hvisited, rfl⟩, .refl _, rfl⟩
  rw [search, hseed] at hs
  obtain rfl := Except.ok.inj hs
  rw [Search.run_eq_runBy] at hlimit
  have hend := hfirst.accepted_runBy hg' hleaf (linked_stream lexemes eof) p.settings.maxSteps
    (Search.active_eq_nil_of_limit? _ hlimit)
  have hempty : (stream lexemes eof).isEmpty = false :=
    List.isEmpty_eq_false_iff.2 (stream_ne_nil lexemes eof)
  rw [parse_eq_parseBy, checkedParse, parseBy, parseBy, hempty, hseed]
  simp only [Bool.false_eq_true, if_false]
  by_cases hnone : (Search.runBy (p.step · (inputOf (stream lexemes eof))) p.settings
      p.settings.maxSteps (.opening token)).accepted = []
  · rw [Search.outcome_of_not_accepted _ hnone,
      Search.outcome_of_not_accepted _ (hend.trans hnone)]
    exact ⟨by simp, fun e _ => ⟨_, rfl⟩⟩
  · rw [Search.outcome_eq_of_accepted _ hend hnone]
    exact ⟨fun _ h => h, fun e h => ⟨e, h⟩⟩

/-- `X Y` as the beginning of a pair, or with `X` as a group that only `Z` may follow. -/
def strayed : Grammar where
  settings := { start := ⟨"s"⟩ }
  symbols := .ofList [⟨"s"⟩, ⟨"p"⟩, ⟨"r"⟩, ⟨"X"⟩, ⟨"Y"⟩, ⟨"Z"⟩, ⟨"EOF"⟩]
  productions :=
    [⟨⟨"s"⟩, [⟨"p"⟩, ⟨"Z"⟩, ⟨"EOF"⟩]⟩, ⟨⟨"s"⟩, [⟨"r"⟩, ⟨"EOF"⟩]⟩, ⟨⟨"p"⟩, [⟨"X"⟩]⟩,
      ⟨⟨"r"⟩, [⟨"X"⟩, ⟨"Y"⟩]⟩]
  faultless := by decide +kernel

/-- The source `xy`. -/
def strayedSource : List Lexeme := [⟨⟨"X"⟩, "x", 0⟩, ⟨⟨"Y"⟩, "y", 1⟩]

/-- The parser forces `Y` after the group and goes on with a branch more than the checked
one, but both return the one tree there is. -/
theorem checkedParse_agrees_strayed :
    ∃ table forest, strayed.table = .ok table ∧
      (withLimits table {}).parse (stream strayedSource ⟨"EOF"⟩) = .ok forest ∧
      forest.trees.length = 1 ∧
      (withLimits table {}).checkedParse (stream strayedSource ⟨"EOF"⟩) = .ok forest := by
  have hg : strayed.table = .ok ⟨strayed.settings, strayed.productions, strayed.buckets⟩ := rfl
  obtain ⟨forest, hforest, hlength⟩ : ∃ forest,
      (withLimits ⟨strayed.settings, strayed.productions, strayed.buckets⟩ {}).parse
        (stream strayedSource ⟨"EOF"⟩) = .ok forest ∧ forest.trees.length = 1 := ⟨_, rfl, rfl⟩
  obtain ⟨s, hs, hlimit⟩ : ∃ s,
      (withLimits ⟨strayed.settings, strayed.productions, strayed.buckets⟩ {}).search
        (inputOf (stream strayedSource ⟨"EOF"⟩)) = .ok s ∧
      s.limit? { start := ⟨"s"⟩ } = none := ⟨_, rfl, rfl⟩
  have hagree := (checkedParse_agrees hg {} strayedSource ⟨"EOF"⟩ hs hlimit).1 forest hforest
  exact ⟨_, forest, hg, hforest, hlength, hagree⟩

end Parser

end ForkParser
