import Mathlib.Data.List.Forall2
import Mathlib.Data.List.Induction
import ForkParser.Proofs.Overlaps

/-!
# ForkParser.Proofs.Outcome

Which result a parse reports.

The branches of a search make a tree: below an active branch stand its successors.
`Parser.layer` is that tree, read breadth first, and a search that has played `n` rounds
is told by the layers down to the `n`-th (`Search.after_opening_eq`): the active branches
are those of the last layer, and among all of them are the accepted ones, in order, and
the first of the deepest failures (`Search.foldl_deeper_cases`).  The limits only say at
which layer the search stops (`Parser.StopsAt`).

Every branch has a successor, so a tree of active branches alone goes on
(`Parser.layer_ne_nil`).  A search that ends by itself has therefore accepted a branch or
lost one, and the error that stands in for a missing failure is never reported.
-/

namespace ForkParser

/-! ## the search tree -/

namespace Parser

/-- The branches that `n` steps lead to, breadth first: the first token of the input is
taken, and then every active branch gives way to its successors. -/
def layer (p : Parser) (input : Array Token) : (n : Nat) → List Branch
  | 0 =>
    match Branch.start.shift input with
    | (b, .ok ()) => [b]
    | (_, .error _) => []
  | n + 1 => ((p.layer input n).filter Branch.isActive).flatMap fun b => p.step b input

/-- The search tree down to layer `n`, breadth first. -/
def explored (p : Parser) (input : Array Token) (n : Nat) : List Branch :=
  (List.range (n + 1)).flatMap (p.layer input)

/-- A search goes no further than layer `n`: no branch is active there, or more than there
may be, or there have been as many rounds as there may be.  In the last two cases that is
a limit, and the number of branches is looked at first. -/
inductive Halts (p : Parser) (input : Array Token) (n : Nat) : Option Error → Prop
  | settled (h : (p.layer input n).filter Branch.isActive = []) : Halts p input n none
  | crowded (h : p.settings.maxBranches < ((p.layer input n).filter Branch.isActive).length) :
      Halts p input n (some (.branchLimit p.settings.maxBranches))
  | spent (hactive : (p.layer input n).filter Branch.isActive ≠ [])
      (hbranches : ((p.layer input n).filter Branch.isActive).length ≤ p.settings.maxBranches)
      (hrounds : n = p.settings.maxSteps) :
      Halts p input n (some (.stepLimit p.settings.maxSteps))

/-- Layer `n` is the first that a search goes no further than, for the limit given or for
none. -/
def StopsAt (p : Parser) (input : Array Token) (n : Nat) (limit : Option Error) : Prop :=
  p.Halts input n limit ∧ ∀ m < n, ∀ limit, ¬ p.Halts input m limit

variable {p : Parser} {input : Array Token}

theorem layer_zero {token : Token} (htoken : input[0]? = some token) :
    p.layer input 0 = [Branch.start.taking token] := by
  rw [layer, Branch.shift_eq_ok (b := Branch.start) htoken]

theorem explored_zero : p.explored input 0 = p.layer input 0 := by
  simp [explored]

theorem explored_succ (n : Nat) :
    p.explored input (n + 1) = p.explored input n ++ p.layer input (n + 1) := by
  rw [explored, List.range_succ, List.flatMap_append, List.flatMap_singleton, ← explored]

/-- Layer `n` holds the branches that `n` steps lead to. -/
theorem mem_layer_iff {n : Nat} {b : Branch} : b ∈ p.layer input n ↔ p.Reaches input n b := by
  induction n generalizing b with
  | zero =>
      cases htoken : input[0]? with
      | none =>
          have hnone : p.layer input 0 = [] := by
            rw [layer, Branch.shift_eq_error (b := Branch.start) htoken]
          simp [hnone, Reaches, htoken]
      | some token =>
          rw [layer_zero htoken, List.mem_singleton]
          constructor
          · rintro rfl
            exact ⟨token, htoken, .refl _⟩
          · rintro ⟨token', htoken', hrun⟩
            obtain rfl := Option.some.inj (htoken'.symm.trans htoken)
            cases hrun
            rfl
  | succ n ih =>
      simp only [layer, List.mem_flatMap, List.mem_filter, ih]
      constructor
      · rintro ⟨b', ⟨hreach, hactive⟩, hstep⟩
        exact hreach.step hactive hstep
      · rintro ⟨token, htoken, hrun⟩
        cases hrun with
        | step hrun hactive hstep => exact ⟨_, ⟨⟨token, htoken, hrun⟩, hactive⟩, hstep⟩

/-- While all branches are active, the tree goes on: every branch has a successor. -/
theorem layer_ne_nil {token : Token} (htoken : input[0]? = some token) {n : Nat}
    (h : ∀ b ∈ p.explored input n, b.isActive = true) : p.layer input n ≠ [] := by
  induction n with
  | zero => simp [layer_zero htoken]
  | succ n ih =>
      rw [explored_succ] at h
      have hrest := ih fun b hb => h b (List.mem_append_left _ hb)
      obtain ⟨b, hb⟩ := List.exists_mem_of_ne_nil _ hrest
      have hexplored : b ∈ p.explored input n :=
        List.mem_flatMap.2 ⟨n, by simp, hb⟩
      have hactive := h b (List.mem_append_left _ hexplored)
      obtain ⟨b', hb'⟩ := List.exists_mem_of_ne_nil _ (step_ne_nil p b input)
      have hmem : b' ∈ p.layer input (n + 1) :=
        List.mem_flatMap.2 ⟨b, List.mem_filter.2 ⟨hb, hactive⟩, hb'⟩
      exact List.ne_nil_of_mem hmem

end Parser

/-! ## the deepest failure -/

/-- A branch that has neither failed nor been accepted is active. -/
theorem Branch.isActive_of_not_isAccepted {b : Branch} (herror : b.error? = none)
    (haccepted : b.isAccepted = false) : b.isActive = true := by
  cases hstatus : b.status with
  | active => simp [isActive, hstatus]
  | accepted => simp [isAccepted, hstatus] at haccepted
  | failed e => simp [error?, hstatus] at herror

/-- Of the failed branches in a list, this is the first of those that had taken the most
input. -/
def Branch.DeepestOf (branches : List Branch) (b : Branch) : Prop :=
  ∃ earlier later, branches.filter (·.error?.isSome) = earlier ++ b :: later ∧
    (∀ a ∈ earlier, a.index < b.index) ∧ ∀ a ∈ later, a.index ≤ b.index

theorem Branch.DeepestOf.mem {branches : List Branch} {b : Branch} (h : b.DeepestOf branches) :
    b ∈ branches := by
  obtain ⟨earlier, later, hsplit, -⟩ := h
  have hfailed : b ∈ branches.filter (·.error?.isSome) := by simp [hsplit]
  exact (List.mem_filter.1 hfailed).1

namespace Search

theorem deeper_of_error?_eq_none {b : Branch} (h : b.error? = none) (deepest : Option Failure) :
    deeper deepest b = deepest := by
  cases hstatus : b.status with
  | active => simp [deeper, hstatus]
  | accepted => simp [deeper, hstatus]
  | failed e => simp [Branch.error?, hstatus] at h

theorem deeper_of_error?_eq_some {b : Branch} {e : Error} (h : b.error? = some e) :
    deeper none b = some ⟨b.index, e⟩ ∧ ∀ f : Failure, deeper (some f) b =
      if f.index < b.index then some ⟨b.index, e⟩ else some f := by
  cases hstatus : b.status with
  | active => simp [Branch.error?, hstatus] at h
  | accepted => simp [Branch.error?, hstatus] at h
  | failed e' =>
      obtain rfl : e' = e := by simpa [Branch.error?, hstatus] using h
      simp [deeper, hstatus]

/-- The deepest failure of some branches is the first of those that had taken the most
input; there is none only where no branch has failed. -/
theorem foldl_deeper_cases (branches : List Branch) :
    ((∀ b ∈ branches, b.error? = none) ∧ branches.foldl deeper none = none) ∨
      ∃ (b : Branch) (e : Error), b.DeepestOf branches ∧ b.error? = some e ∧
        branches.foldl deeper none = some ⟨b.index, e⟩ := by
  -- the fold takes the last branch last, so the list grows at its end
  induction branches using List.reverseRecOn with
  | nil => simp
  | append_singleton branches x ih =>
      rw [List.foldl_concat]
      cases hx : x.error? with
      | none =>
          rw [deeper_of_error?_eq_none hx]
          simpa [Branch.DeepestOf, hx, or_imp, forall_and] using ih
      | some e =>
          obtain ⟨hfirst, hlater⟩ := deeper_of_error?_eq_some hx
          rcases ih with ⟨hnone, hfold⟩ | ⟨b, e', hdeepest, hb, hfold⟩
          · have hempty : branches.filter (·.error?.isSome) = [] :=
              List.filter_eq_nil_iff.2 fun b hb => by simp [hnone b hb]
            refine Or.inr ⟨x, e, ⟨[], [], ?_, nofun, nofun⟩, hx, by rw [hfold, hfirst]⟩
            simp [hempty, hx]
          · obtain ⟨earlier, later, hsplit, hearlier, hbehind⟩ := hdeepest
            rw [hfold, hlater]
            by_cases hdeeper : b.index < x.index
            · refine Or.inr ⟨x, e, ⟨earlier ++ b :: later, [], ?_, ?_, nofun⟩, hx, if_pos hdeeper⟩
              · simp [hsplit, hx]
              · intro a ha
                have hle : a.index ≤ b.index := by
                  rcases List.mem_append.1 ha with ha | ha
                  · exact Nat.le_of_lt (hearlier a ha)
                  · rcases List.mem_cons.1 ha with rfl | ha
                    · exact Nat.le_refl _
                    · exact hbehind a ha
                omega
            · refine Or.inr ⟨b, e', ⟨earlier, later ++ [x], ?_, hearlier, ?_⟩, hb, if_neg hdeeper⟩
              · simp [hsplit, hx]
              · intro a ha
                rcases List.mem_append.1 ha with ha | ha
                · exact hbehind a ha
                · obtain rfl := List.mem_singleton.1 ha
                  omega

/-! ## a search told by its tree -/

variable {p : Parser} {input : Array Token}

/-- After `n` rounds a search holds what the tree down to layer `n` says. -/
theorem after_opening_eq {token : Token} (htoken : input[0]? = some token) (n : Nat) :
    after p input n (opening token) =
      { active := (p.layer input n).filter Branch.isActive
        accepted := (p.explored input n).filter Branch.isAccepted
        deepest := (p.explored input n).foldl deeper none
        rounds := n } := by
  induction n with
  | zero =>
      rw [Parser.explored_zero, Parser.layer_zero htoken]
      rfl
  | succ n ih =>
      rw [after, ih, Parser.explored_succ, List.filter_append, List.foldl_append]
      rfl

end Search

namespace Parser

variable {p : Parser} {input : Array Token}

/-- A search that holds the active branches of layer `n` goes no further when it is over or
has had all its rounds, and the limit is then the one it reports. -/
theorem halts_iff {n : Nat} {s : Search}
    (hactive : s.active = (p.layer input n).filter Branch.isActive) {limit : Option Error} :
    p.Halts input n limit ↔
      (n = p.settings.maxSteps ∨ s.isOver p.settings = true) ∧ s.limit? p.settings = limit := by
  constructor
  · intro h
    cases h with
    | settled h => simp [Search.isOver, Search.limit?, hactive, h]
    | crowded h =>
        have hsome : (p.layer input n).filter Branch.isActive ≠ [] :=
          List.ne_nil_of_length_pos (by omega)
        simp [Search.isOver, Search.limit?, hactive, h, hsome]
    | spent hsome hbranches hrounds =>
        have hfew : ¬ p.settings.maxBranches <
            ((p.layer input n).filter Branch.isActive).length := by omega
        rw [Search.limit?, hactive, if_neg (mt List.isEmpty_iff.1 hsome), if_neg hfew]
        exact ⟨Or.inl hrounds, rfl⟩
  · rintro ⟨hend, rfl⟩
    unfold Search.limit?
    rw [Search.isOver, hactive] at hend
    rw [hactive]
    split
    · next hnone => exact .settled (List.isEmpty_iff.1 hnone)
    · next hsome =>
        split
        · next hcrowded => exact .crowded hcrowded
        · next hfew =>
            rw [List.isEmpty_iff] at hsome
            refine .spent hsome (by omega) (hend.resolve_right ?_)
            simp [hsome, hfew]

/-- A search stops at the layer of its last round, by the limit it reports. -/
theorem stopsAt_search {s : Search} (h : p.search input = .ok s) :
    p.StopsAt input s.rounds (s.limit? p.settings) := by
  obtain ⟨token, htoken, -⟩ := search_eq_after h
  rw [search, seed_eq_ok htoken] at h
  obtain rfl := Except.ok.inj h
  obtain ⟨n, hn, hrun, hbefore, hend⟩ :=
    Search.run_eq_after p input p.settings.maxSteps (.opening token)
  have hactive (m : Nat) : (Search.after p input m (.opening token)).active =
      (p.layer input m).filter Branch.isActive := by rw [Search.after_opening_eq htoken]
  have hrounds : (Search.after p input n (.opening token)).rounds = n := by
    rw [Search.after_opening_eq htoken]
  rw [hrun, hrounds]
  refine ⟨(halts_iff (hactive n)).2 ⟨hend, rfl⟩, fun m hm limit hhalts => ?_⟩
  rcases ((halts_iff (hactive m)).1 hhalts).1 with hlast | hover
  · omega
  · rw [hbefore m hm] at hover
    contradiction

/-- A search stops at one layer only. -/
theorem StopsAt.unique {n n' : Nat} {limit limit' : Option Error}
    (h : p.StopsAt input n limit) (h' : p.StopsAt input n' limit') : n = n' ∧ limit = limit' := by
  obtain rfl : n = n' := by
    rcases Nat.lt_trichotomy n n' with hlt | heq | hlt
    · exact absurd h.1 (h'.2 n hlt limit)
    · exact heq
    · exact absurd h'.1 (h.2 n' hlt limit')
  refine ⟨rfl, ?_⟩
  let s : Search := { active := (p.layer input n).filter Branch.isActive }
  have hlimit := ((halts_iff (s := s) rfl).1 h.1).2
  have hlimit' := ((halts_iff (s := s) rfl).1 h'.1).2
  exact hlimit.symm.trans hlimit'

/-! ## the result -/

/-- What a search reports that has explored these branches and was stopped by the limit
given, or by none: if there are accepted branches, one tree for each of them, in order, the
one that is left on its stack; otherwise the limit; and without a limit, the error of the
deepest failure. -/
inductive Reports (explored : List Branch) : Option Error → Except Error Forest → Prop
  | forest {limit : Option Error} {forest : Forest}
      (haccepted : explored.filter Branch.isAccepted ≠ [])
      (htrees : List.Forall₂ (fun b t => b.stack.toList.map Token.shape = [t] ∧ b.trees = .ok [t])
        (explored.filter Branch.isAccepted) forest.trees) :
      Reports explored limit (.ok forest)
  | limit {e : Error} (hnone : explored.filter Branch.isAccepted = []) :
      Reports explored (some e) (.error e)
  | failure {b : Branch} {e : Error} (hnone : explored.filter Branch.isAccepted = [])
      (hdeepest : b.DeepestOf explored) (he : b.error? = some e) :
      Reports explored none (.error e)

/-- A search that no limit stopped and that accepted nothing has lost a branch. -/
theorem exists_deepest {s : Search} (h : p.search input = .ok s) (hnone : s.accepted = [])
    (hlimit : s.limit? p.settings = none) :
    ∃ (b : Branch) (e : Error), b.DeepestOf (p.explored input s.rounds) ∧
      b.error? = some e ∧ s.deepest = some ⟨b.index, e⟩ := by
  obtain ⟨token, htoken, -, hs, -⟩ := search_eq_after h
  rw [Search.after_opening_eq htoken] at hs
  have hinactive : (p.layer input s.rounds).filter Branch.isActive = [] := by
    rw [← Search.active_eq_nil_of_limit? _ hlimit, hs]
  have hunaccepted : (p.explored input s.rounds).filter Branch.isAccepted = [] := by
    rw [← hnone, hs]
  have hfold : s.deepest = (p.explored input s.rounds).foldl Search.deeper none := by rw [hs]
  rcases Search.foldl_deeper_cases (p.explored input s.rounds) with ⟨hlive, -⟩ | hdeepest
  · -- with no failure either, all branches would be active, and so would the last layer
    exfalso
    have hactive : ∀ b ∈ p.explored input s.rounds, b.isActive = true := by
      intro b hb
      have haccepted := List.filter_eq_nil_iff.1 hunaccepted b hb
      exact Branch.isActive_of_not_isAccepted (hlive b hb) (Bool.eq_false_iff.2 haccepted)
    obtain ⟨b, hb⟩ := List.exists_mem_of_ne_nil _ (layer_ne_nil htoken hactive)
    have hexplored : b ∈ p.explored input s.rounds := List.mem_flatMap.2 ⟨_, by simp, hb⟩
    exact List.filter_eq_nil_iff.1 hinactive b hb (hactive b hexplored)
  · rwa [hfold]

/-- Each accepted branch of a search over leaves has one tree. -/
theorem exists_tree_of_accepted {g : Grammar} (hg : g.table = .ok p.table)
    (hstart : p.settings.start = g.settings.start) {tokens : List Token}
    (hleaf : ∀ t ∈ tokens, t.isLeaf = true) {s : Search}
    (hs : p.search (inputOf tokens) = .ok s) {b : Branch} (hb : b ∈ s.accepted) :
    ∃ t, b.stack.toList.map Token.shape = [t] ∧ b.trees = .ok [t] := by
  obtain ⟨t, ht, -⟩ := exists_parse_of_accepted hg hstart (isLeaf_inputOf hleaf) hs hb
  obtain ⟨k, -, hreach, -⟩ := (mem_accepted_search hs).1 hb
  have htrees := Branch.trees_eq_ok (nodup_origins hleaf hreach.accounted)
  rw [ht] at htrees
  exact ⟨t, ht, htrees⟩

/-- Branches with one tree each have as many trees as there are branches, in order. -/
theorem forall₂_trees {branches : List Branch}
    (h : ∀ b ∈ branches, ∃ t, b.stack.toList.map Token.shape = [t] ∧ b.trees = .ok [t]) :
    List.Forall₂ (fun b t => b.stack.toList.map Token.shape = [t] ∧ b.trees = .ok [t]) branches
      (branches.flatMap fun b => b.stack.toList.map Token.shape) := by
  induction branches with
  | nil => exact .nil
  | cons b branches ih =>
      obtain ⟨t, hshape, ht⟩ := h b (by simp)
      rw [List.flatMap_cons, hshape]
      exact .cons ⟨hshape, ht⟩ (ih fun b' hb' => h b' (by simp [hb']))

/-- **What a parse reports.**  Every branch has a successor.  There is one layer at which
the search stops, and the result is what the tree down to that layer calls for: one tree
for each accepted branch, in the order of the tree, whether or not a limit stopped the
search; without an accepted branch, the limit; and without a limit, the error of the
failed branch that had taken the most input, the first of several.  The error that stands
in where there is neither a limit nor a failure is never used. -/
theorem parse_outcome {g : Grammar} {table : Table} (hg : g.table = .ok table)
    (limits : Settings) {tokens : List Token} (hne : tokens ≠ [])
    (hleaf : ∀ t ∈ tokens, t.isLeaf = true) :
    (∀ b, (withLimits table limits).step b (inputOf tokens) ≠ []) ∧
    (∃ n limit, (withLimits table limits).StopsAt (inputOf tokens) n limit) ∧
    (∀ n limit, (withLimits table limits).StopsAt (inputOf tokens) n limit →
      Reports ((withLimits table limits).explored (inputOf tokens) n) limit
        ((withLimits table limits).parse tokens)) ∧
    ∀ s, (withLimits table limits).search (inputOf tokens) = .ok s → s.accepted = [] →
      (s.limit? (withLimits table limits).settings).or (s.deepest.map Failure.error) ≠ none := by
  obtain ⟨s, hs⟩ := exists_search (p := withLimits table limits) hne
  have hstops := stopsAt_search hs
  refine ⟨fun b => step_ne_nil _ b _, ⟨_, _, hstops⟩, fun n limit h => ?_, fun s' hs' hnone => ?_⟩
  · obtain ⟨rfl, rfl⟩ := h.unique hstops
    obtain ⟨token, htoken, -, hafter, -⟩ := search_eq_after hs
    rw [Search.after_opening_eq htoken] at hafter
    have haccepted : s.accepted =
        ((withLimits table limits).explored (inputOf tokens) s.rounds).filter
          Branch.isAccepted := by rw [hafter]
    rw [parse_eq hne hleaf hs]
    split
    · next hnone =>
        rw [haccepted] at hnone
        cases hlimit : s.limit? (withLimits table limits).settings with
        | some e =>
            have hfailure : s.failure (withLimits table limits).settings = e := by
              simp [Search.failure, hlimit]
            rw [hfailure]
            exact .limit hnone
        | none =>
            obtain ⟨b, e, hdeepest, he, hfound⟩ := exists_deepest hs (haccepted.trans hnone) hlimit
            have hfailure : s.failure (withLimits table limits).settings = e := by
              simp [Search.failure, hlimit, hfound]
            rw [hfailure]
            exact .failure hnone hdeepest he
    · next hsome =>
        refine .forest (haccepted ▸ hsome) ?_
        rw [← haccepted]
        exact forall₂_trees fun b hb =>
          exists_tree_of_accepted hg (start_withLimits hg limits) hleaf hs hb
  · intro hneither
    obtain ⟨hlimit, hdeepest⟩ := Option.or_eq_none_iff.1 hneither
    obtain ⟨b, e, -, -, hfound⟩ := exists_deepest hs' hnone hlimit
    simp [hfound] at hdeepest

/-- The source `1+2+`. -/
def unfinishedSum : List Lexeme :=
  [⟨⟨"N"⟩, "1", 0⟩, ⟨⟨"PLUS"⟩, "+", 1⟩, ⟨⟨"N"⟩, "2", 2⟩, ⟨⟨"PLUS"⟩, "+", 3⟩]

/-- A sum that ends with a plus is lost on four branches, two of which had taken all five
tokens; the first of these gives the error. -/
theorem parse_outcome_unfinishedSum :
    ∃ table, sums.table = .ok table ∧
      (withLimits table {}).StopsAt (inputOf (stream unfinishedSum ⟨"EOF"⟩)) 8 none ∧
      (((withLimits table {}).explored (inputOf (stream unfinishedSum ⟨"EOF"⟩)) 8).filter
        (·.error?.isSome)).map Branch.index = [1, 3, 5, 5] ∧
      (withLimits table {}).parse (stream unfinishedSum ⟨"EOF"⟩) =
        .error (.unexpectedToken ⟨"e"⟩ (some ⟨"PLUS"⟩) 3) ∧
      ∃ b : Branch,
        b.DeepestOf ((withLimits table {}).explored (inputOf (stream unfinishedSum ⟨"EOF"⟩)) 8) ∧
        b.error? = some (.unexpectedToken ⟨"e"⟩ (some ⟨"PLUS"⟩) 3) := by
  have hg : sums.table = .ok ⟨sums.settings, sums.productions, sums.buckets⟩ := rfl
  let p := withLimits ⟨sums.settings, sums.productions, sums.buckets⟩ {}
  let input := inputOf (stream unfinishedSum ⟨"EOF"⟩)
  have hgoes : ∀ m < 8, 0 < ((p.layer input m).filter Branch.isActive).length ∧
      ((p.layer input m).filter Branch.isActive).length ≤ 1024 ∧ m ≠ 1000000 := by
    decide +kernel
  have hlast : ((p.layer input 8).filter Branch.isActive).length = 0 := by decide +kernel
  have hstops : p.StopsAt input 8 none := by
    refine ⟨.settled (List.length_eq_zero_iff.1 hlast), fun m hm limit hhalts => ?_⟩
    obtain ⟨hsome, hbranches, hrounds⟩ := hgoes m hm
    cases hhalts with
    | settled h => simp [h] at hsome
    | crowded h => exact Nat.not_lt_of_le hbranches h
    | spent _ _ h => exact hrounds h
  have hfailed : ((p.explored input 8).filter (·.error?.isSome)).map Branch.index =
      [1, 3, 5, 5] := by decide +kernel
  have hparse : p.parse (stream unfinishedSum ⟨"EOF"⟩) =
      .error (.unexpectedToken ⟨"e"⟩ (some ⟨"PLUS"⟩) 3) := by decide +kernel
  obtain ⟨-, -, hreports, -⟩ :=
    parse_outcome hg {} (stream_ne_nil unfinishedSum ⟨"EOF"⟩) (isLeaf_stream unfinishedSum ⟨"EOF"⟩)
  have hreport := hreports 8 none hstops
  rw [show withLimits _ _ = p from rfl, hparse] at hreport
  cases hreport with
  | failure _ hdeepest he => exact ⟨_, hg, hstops, hfailed, hparse, _, hdeepest, he⟩

end Parser

end ForkParser
