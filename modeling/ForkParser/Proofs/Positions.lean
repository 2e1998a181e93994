import ForkParser.Proofs.Invariant
import ForkParser.Proofs.Outcome

/-!
# ForkParser.Proofs.Positions

Where the error of a parse points.

An error takes its position from the token found, from a token on the stack or from the
next token of the input, and each of these is the position of a token of the input: a
token on the stack starts where its first leaf does (`Branch.Consistent.exists_position`),
and there always is a next token or a last one (`Branch.exists_here`).  The symbol that an
error wants comes from the conditions of a candidate or from the production it reduces by,
so a right-hand side has it (`Table.exists_rhs_of_mem_lookup`).  `Error.PointsInto` says
both of one error; a step that fails does so by such an error
(`Parser.pointsInto_of_mem_step`), and so does a search that no limit stopped.
-/

namespace ForkParser

/-- The error of a branch that points at a token of the input; a symbol that was wanted
stands on the right-hand side of one of the productions `rules`. -/
inductive Error.PointsInto (rules : List Production) (input : Array Token) : Error → Prop
  | noElements (symbol : Symbol) {t : Token} (ht : t ∈ input) :
      PointsInto rules input (.noElements symbol t.position)
  | unexpectedToken {expected : Symbol} (found : Option Symbol) {t : Token} (ht : t ∈ input)
      {rule : Production} (hrule : rule ∈ rules) (hexpected : expected ∈ rule.rhs) :
      PointsInto rules input (.unexpectedToken expected found t.position)
  | noAccept {t : Token} (ht : t ∈ input) : PointsInto rules input (.noAccept t.position)

/-! ## positions -/

namespace Branch

variable {rules : List Production} {input : Array Token} {b b' : Branch}

/-- In an input that is not empty, the place of a branch is that of a token. -/
theorem exists_here (hinput : 0 < input.size) (b : Branch) :
    ∃ t ∈ input, t.position = b.here input := by
  cases hnext : input[b.index]? with
  | some t => exact ⟨t, Array.mem_of_getElem? hnext, by simp [here, hnext]⟩
  | none =>
      have hlast : input.back? = some input[input.size - 1] := by
        rw [Array.back?, Array.getElem?_eq_getElem (by omega)]
      refine ⟨input[input.size - 1], Array.getElem_mem _, ?_⟩
      simp [here, hnext, hlast]

/-- A token on the stack starts where a token of the input does. -/
theorem Consistent.exists_position (hb : b.Consistent rules input) {t : Token}
    (ht : t ∈ b.stack.items) : ∃ leaf ∈ input, leaf.position = t.position := by
  obtain ⟨leaf, hleaf, hposition⟩ := Option.map_eq_some_iff.1 (hb.grown t ht).head?_frontier
  have hmem : leaf ∈ b.stack.toList.flatMap Token.frontier :=
    List.mem_flatMap.2 ⟨t, List.mem_reverse.2 ht, List.mem_of_head? hleaf⟩
  rw [hb.frontier_eq] at hmem
  exact ⟨leaf, Array.mem_toList_iff.1 (List.mem_of_mem_take hmem), hposition⟩

/-- A mismatch with a token that starts where one of the input does points there, and one
with no token points at the place of the branch. -/
theorem pointsInto_unexpected (hinput : 0 < input.size) {m : Mismatch}
    (hfound : ∀ t, m.found = some t → ∃ leaf ∈ input, leaf.position = t.position)
    {rule : Production} (hrule : rule ∈ rules) (hexpected : m.expected ∈ rule.rhs) :
    (b.unexpected input m).PointsInto rules input := by
  unfold unexpected
  cases htoken : m.found with
  | none =>
      obtain ⟨t, ht, hposition⟩ := exists_here hinput b
      simp only [Option.map_none, Option.getD_none, ← hposition]
      exact .unexpectedToken _ ht hrule hexpected
  | some token =>
      obtain ⟨t, ht, hposition⟩ := hfound token htoken
      simp only [Option.map_some, Option.getD_some, ← hposition]
      exact .unexpectedToken _ ht hrule hexpected

end Branch

/-- What a candidate of a table matches or looks ahead for stands on the right-hand side of
its production. -/
theorem Table.exists_rhs_of_mem_lookup {g : Grammar} {t : Table} (hg : g.table = .ok t)
    {s expected : Symbol} {c : Candidate} (hc : c ∈ t.lookup s)
    (h : expected ∈ c.action.matched ∨ c.action.lookahead = some expected) :
    ∃ rule ∈ g.productions, expected ∈ rule.rhs := by
  obtain ⟨hplace, -, -, hlook, hmatched⟩ := of_mem_lookup hg hc
  refine ⟨c.occurrence.production, List.mem_of_getElem? hplace, ?_⟩
  rcases h with hmem | hahead
  · have hcontext := hmatched.subset hmem
    rw [Occurrence.context, List.mem_reverse] at hcontext
    exact List.mem_of_mem_take hcontext
  · rw [hlook, Occurrence.lookahead, Option.filter_eq_some_iff] at hahead
    exact List.mem_of_getElem? hahead.1

/-! ## failing steps -/

namespace Branch

variable {rules : List Production} {input : Array Token} {b b' : Branch}

/-- A move that fails points into the input, if the production it reduces by is one of
`rules`. -/
theorem Effect.pointsInto {start : Symbol} {move : Move} (h : b.Effect start input move b')
    (hactive : b.isActive = true) (hb : b.Consistent rules input) (hinput : 0 < input.size)
    (hmove : ∀ {rule accepts}, move = .reduce rule accepts → rule ∈ rules) {e : Error}
    (he : b'.error? = some e) : e.PointsInto rules input := by
  have hhere : (Error.noAccept (b.here input)).PointsInto rules input := by
    obtain ⟨t, ht, hposition⟩ := exists_here hinput b
    rw [← hposition]
    exact .noAccept ht
  have hlive : ∀ {a : Branch}, a.isActive = true → a.error? ≠ some e := by
    intro a ha
    simp [error?_of_isActive ha]
  cases h with
  | taken => exact absurd he (hlive hactive)
  | exhausted =>
      obtain rfl : Error.noAccept (b.here input) = e := by simpa [error?, fail] using he
      exact hhere
  | @mismatched rule accepts xs rest expected es hitems hwanted hne =>
      obtain rfl : b.unexpected input ⟨expected, rest.head?⟩ = e := by
        simpa [error?, fail] using he
      refine pointsInto_unexpected hinput (fun t ht => ?_) (hmove rfl) ?_
      · refine hb.exists_position ?_
        rw [hitems]
        exact List.mem_append_right xs (List.mem_of_head? ht)
      · rw [← List.mem_reverse, hwanted]
        simp
  | reduced => exact absurd he (hlive hactive)
  | accepted => simp [error?] at he
  | refused =>
      obtain rfl : Error.noAccept (b.here input) = e := by simpa [error?, fail] using he
      exact hhere

end Branch

namespace Parser

variable {g : Grammar} {p : Parser} {input : Array Token}

/-- A step that fails points into the input. -/
theorem pointsInto_of_mem_step (hg : g.table = .ok p.table) {b b' : Branch}
    (hactive : b.isActive = true) (hcommitted : b.stack.changes = [])
    (hb : b.Consistent g.productions input) (hne : b.stack.items ≠ []) (h : b' ∈ p.step b input)
    {e : Error} (he : b'.error? = some e) : e.PointsInto g.productions input := by
  obtain ⟨top, rest, hitems⟩ := List.exists_cons_of_ne_nil hne
  have hmem : top ∈ b.stack.items := by simp [hitems]
  have htop : b.stack.peek? = some top := by simp [UndoStack.peek?, hitems]
  have hinput : 0 < input.size := Nat.lt_of_lt_of_le (hb.index_pos hmem) hb.index_le
  rcases mem_step_of_top htop h with ⟨c, hc, rfl⟩ | rfl | ⟨c, hc, e', hprobe, rfl⟩
  · refine (effect_follow hcommitted c).pointsInto hactive hb hinput (fun hmove => ?_) he
    exact (Table.reduce_of_mem_lookup hg hc hmove).1
  · obtain rfl : Error.noElements top.symbol top.position = e := by
      simpa [Branch.error?, Branch.fail] using he
    obtain ⟨leaf, hleaf, hposition⟩ := hb.exists_position hmem
    rw [← hposition]
    exact .noElements _ hleaf
  · obtain rfl : e' = e := by simpa [Branch.error?, Branch.fail] using he
    obtain ⟨m, rfl, hexpected, hfound⟩ := Branch.mismatch_of_probe hprobe
    obtain ⟨rule, hrule, hrhs⟩ := Table.exists_rhs_of_mem_lookup hg hc hexpected
    refine Branch.pointsInto_unexpected hinput (fun t ht => ?_) hrule hrhs
    rcases hfound t ht with hstack | hnext
    · exact hb.exists_position hstack
    · exact ⟨t, hnext, rfl⟩

/-! ## failing runs -/

/-- A branch that steps lead to comes up. -/
theorem Reaches.visited {n : Nat} {b : Branch} (h : p.Reaches input n b) : p.Visited input b := by
  obtain ⟨token, htoken, hrun⟩ := h
  refine hrun.invariant (fun hb _ hstep => .stepped hb hstep) (.seeded ?_)
  exact Branch.shift_eq_ok (b := Branch.start) htoken

/-- A branch of a search that has failed points into the input. -/
theorem Reaches.pointsInto (hg : g.table = .ok p.table) (hleaf : ∀ t ∈ input, t.isLeaf = true)
    {n : Nat} {b : Branch} (h : p.Reaches input n b) {e : Error} (he : b.error? = some e) :
    e.PointsInto g.productions input := by
  obtain ⟨token, htoken, hrun⟩ := h
  cases hrun with
  | refl => contradiction
  | @step n a b' b hrun hactive hstep =>
      have hreach : p.Reaches input n b' := ⟨token, htoken, hrun⟩
      obtain ⟨haccounted, hconsistent, hne⟩ := hreach.visited.invariant hg hleaf
      exact pointsInto_of_mem_step hg hactive haccounted.committed hconsistent hne hstep he

/-- The error of a parse is a limit, or it points into the input. -/
theorem limit_or_pointsInto (hg : g.table = .ok p.table) {tokens : List Token} (hne : tokens ≠ [])
    (hleaf : ∀ t ∈ tokens, t.isLeaf = true) {e : Error} (h : p.parse tokens = .error e) :
    (e = .branchLimit p.settings.maxBranches ∨ e = .stepLimit p.settings.maxSteps) ∨
      e.PointsInto g.productions (inputOf tokens) := by
  obtain ⟨s, hs⟩ := exists_search (p := p) hne
  rw [parse_eq hne hleaf hs] at h
  split at h
  · next hnone =>
      obtain rfl := Except.error.inj h
      cases hlimit : s.limit? p.settings with
      | some limit =>
          have hfailure : s.failure p.settings = limit := by simp [Search.failure, hlimit]
          rw [hfailure]
          exact Or.inl (Search.eq_of_limit? hlimit)
      | none =>
          obtain ⟨b, e, hdeepest, he, hfound⟩ := exists_deepest hs hnone hlimit
          have hfailure : s.failure p.settings = e := by simp [Search.failure, hlimit, hfound]
          rw [hfailure]
          obtain ⟨n, -, hlayer⟩ := List.mem_flatMap.1 hdeepest.mem
          exact Or.inr ((mem_layer_iff.1 hlayer).pointsInto hg (isLeaf_inputOf hleaf) he)
  · contradiction

/-- A token of an input stands where one of the tokens it was made from does. -/
theorem exists_position_of_mem_inputOf {tokens : List Token} {t : Token}
    (ht : t ∈ inputOf tokens) : ∃ t' ∈ tokens, t'.position = t.position := by
  have hlexeme : t.lexeme ∈ (inputOf tokens).toList.map Token.lexeme :=
    List.mem_map_of_mem (Array.mem_toList_iff.2 ht)
  rw [map_lexeme_inputOf] at hlexeme
  obtain ⟨t', ht', heq⟩ := List.mem_map.1 hlexeme
  exact ⟨t', ht', congrArg Lexeme.position heq⟩

/-- **Errors point into the input.**  The error of a parse of leaves, whatever their
lookaheads, is a limit or one that a branch fails with; and then it points at the position
of one of the leaves, and a symbol that it wants occurs on a right-hand side of the
grammar. -/
theorem parse_error_points_at_token {g : Grammar} {table : Table} (hg : g.table = .ok table)
    (limits : Settings) {tokens : List Token} (hne : tokens ≠ [])
    (hleaf : ∀ t ∈ tokens, t.isLeaf = true) {e : Error}
    (h : (withLimits table limits).parse tokens = .error e)
    (hbranches : ∀ n, e ≠ .branchLimit n) (hsteps : ∀ n, e ≠ .stepLimit n) :
    e.AtPlace ∧ (∃ t ∈ tokens, e.position = some t.position) ∧
    ∀ expected found position, e = .unexpectedToken expected found position →
      ∃ rule ∈ g.productions, expected ∈ rule.rhs := by
  rcases limit_or_pointsInto hg hne hleaf h with hlimit | hpoints
  · rcases hlimit with rfl | rfl
    · exact absurd rfl (hbranches _)
    · exact absurd rfl (hsteps _)
  · have hposition : ∃ t ∈ inputOf tokens, e.position = some t.position := by
      cases hpoints with
      | noElements _ ht => exact ⟨_, ht, rfl⟩
      | unexpectedToken _ ht => exact ⟨_, ht, rfl⟩
      | noAccept ht => exact ⟨_, ht, rfl⟩
    obtain ⟨t, ht, hat⟩ := hposition
    obtain ⟨t', ht', hsame⟩ := exists_position_of_mem_inputOf ht
    refine ⟨?_, ⟨t', ht', by rw [hat, hsame]⟩, ?_⟩
    · cases hpoints <;> trivial
    · rintro expected found position rfl
      cases hpoints with
      | unexpectedToken _ _ hrule hexpected => exact ⟨_, hrule, hexpected⟩

/-- A number that looks ahead past the end, and a plus. -/
def strayNumber : List Token :=
  [.leaf { origin := .made 0, symbol := ⟨"N"⟩, position := 7, lookahead := some 9 } "1",
    .leaf { origin := .made 1, symbol := ⟨"PLUS"⟩, position := 40 } "+"]

/-- A number that looks ahead at nothing cannot go on, so the reduction of a sum is tried at
once; what it misses is looked for at the plus. -/
theorem parse_error_points_at_token_strayNumber :
    ∃ table, sums.table = .ok table ∧
      (withLimits table {}).parse strayNumber = .error (.unexpectedToken ⟨"PLUS"⟩ none 40) ∧
      (∃ t ∈ strayNumber, t.position = 40) ∧
      ∃ rule ∈ sums.productions, ⟨"PLUS"⟩ ∈ rule.rhs := by
  have hg : sums.table = .ok ⟨sums.settings, sums.productions, sums.buckets⟩ := rfl
  have hparse : (withLimits ⟨sums.settings, sums.productions, sums.buckets⟩ {}).parse strayNumber =
      .error (.unexpectedToken ⟨"PLUS"⟩ none 40) := by decide +kernel
  obtain ⟨-, ⟨t, ht, hposition⟩, hwanted⟩ :=
    parse_error_points_at_token hg {} (by decide) (by decide) hparse nofun nofun
  exact ⟨_, hg, hparse, ⟨t, ht, (Option.some.inj hposition).symm⟩, hwanted _ _ _ rfl⟩

end Parser

end ForkParser
