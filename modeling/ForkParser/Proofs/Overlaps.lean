import ForkParser.Proofs.Failure
import ForkParser.Proofs.Repeats

/-!
# ForkParser.Proofs.Overlaps

A search forks only where the table says so.

A table lists every pair of candidates of one symbol that overlap
(`Table.mem_overlaps`), and candidates whose conditions hold on one branch do
overlap.  So a step that has several successors is at a pair of the list, and a table
that lists none has exactly one successor for each branch
(`Parser.length_step_of_overlaps_eq_nil`).  Then no round makes more branches of those
there are (`Search.length_live_after_le`): from the one branch a search starts with,
there is never more than one that is active or accepted.
-/

namespace ForkParser

/-! ## the list of overlaps -/

/-- Two candidates of a bucket that overlap are listed by their numbers. -/
theorem Bucket.mem_overlaps {b : Bucket} {i j : Nat} {c d : Candidate} (hij : i < j)
    (hc : b.candidates[i]? = some c) (hd : b.candidates[j]? = some d)
    (h : c.overlaps d = true) :
    ⟨b.symbol, i, j, c.occurrence, d.occurrence⟩ ∈ b.overlaps := by
  have hfirst : (c, i) ∈ b.candidates.zipIdx := List.mk_mem_zipIdx_iff_getElem?.2 hc
  have hsecond : (d, j) ∈ b.candidates.zipIdx.drop (i + 1) := by
    have hplace : (b.candidates.zipIdx.drop (i + 1))[j - (i + 1)]? = some (d, j) := by
      rw [List.getElem?_drop, Nat.add_sub_cancel' hij, List.getElem?_zipIdx, hd]
      simp
    exact List.mem_of_getElem? hplace
  unfold overlaps
  exact List.mem_flatMap.2 ⟨(c, i), hfirst, List.mem_filterMap.2 ⟨(d, j), hsecond, by simp [h]⟩⟩

namespace Table

variable {t : Table} {s : Symbol}

/-- Two candidates of a symbol that overlap are listed by their numbers. -/
theorem mem_overlaps {i j : Nat} {c d : Candidate} (hij : i < j)
    (hc : (t.lookup s)[i]? = some c) (hd : (t.lookup s)[j]? = some d)
    (h : c.overlaps d = true) :
    ⟨s, i, j, c.occurrence, d.occurrence⟩ ∈ t.overlaps := by
  cases hfind : t.buckets.find? (·.symbol = s) with
  | none => simp [lookup, hfind] at hc
  | some b =>
      simp only [lookup, hfind] at hc hd
      have hsymbol : b.symbol = s := by simpa using List.find?_some hfind
      have hlisted := b.mem_overlaps hij hc hd h
      rw [hsymbol] at hlisted
      exact List.mem_flatMap.2 ⟨b, List.mem_of_find?_eq_some hfind, hlisted⟩

/-- If nothing is listed, no two candidates of a symbol overlap. -/
theorem pairwise_lookup_of_overlaps_eq_nil (h : t.overlaps = []) (s : Symbol) :
    (t.lookup s).Pairwise fun c d => c.overlaps d = false := by
  rw [List.pairwise_iff_getElem]
  intro i j hi hj hij
  by_contra hoverlap
  have hlisted := mem_overlaps hij (List.getElem?_eq_getElem hi) (List.getElem?_eq_getElem hj)
    (by simpa using hoverlap)
  rw [h] at hlisted
  contradiction

end Table

/-! ## successors -/

namespace Parser

variable {p : Parser} {b : Branch} {input : Array Token}

/-- Every branch has a successor. -/
theorem step_ne_nil (p : Parser) (b : Branch) (input : Array Token) : p.step b input ≠ [] := by
  rcases step_cases p b input with ⟨-, e, -, hstep⟩ | ⟨hchosen, hstep⟩
  · simp [hstep]
  · simp [hstep, hchosen]

/-- Several successors are the branch after each of the candidates whose conditions
hold. -/
theorem step_eq_map_matching (h : 2 ≤ (p.step b input).length) :
    ∃ top, b.stack.peek? = some top ∧
      p.step b input =
        (matching b input (p.table.lookup top.symbol)).map (p.follow b input) := by
  rcases step_cases p b input with ⟨-, e, -, hstep⟩ | ⟨hchosen, hstep⟩
  · simp [hstep] at h
  · obtain ⟨c, hc⟩ := List.exists_mem_of_ne_nil _ hchosen
    obtain ⟨top, htop, -⟩ := exists_top_of_mem_chosen hc
    rw [hstep, List.length_map] at h
    have hle : (p.chosen b input).length ≤ (p.table.lookup top.symbol).length :=
      (chosen_sublist htop).length_le
    rw [chosen_of_not_single htop (by omega)] at hstep
    exact ⟨top, htop, hstep⟩

/-- Of candidates that do not overlap, the conditions of one at most hold. -/
theorem length_matching_le_one {candidates : List Candidate} {top : Token}
    (h : candidates.Pairwise fun c d => c.overlaps d = false)
    (htop : b.stack.peek? = some top) : (matching b input candidates).length ≤ 1 := by
  have hapart : (matching b input candidates).Pairwise fun c d => c.overlaps d = false :=
    h.sublist List.filter_sublist
  match hmatching : matching b input candidates with
  | [] => simp
  | [c] => simp
  | c :: d :: rest =>
      have hc : c ∈ matching b input candidates := by simp [hmatching]
      have hd : d ∈ matching b input candidates := by simp [hmatching]
      rw [hmatching, List.pairwise_cons] at hapart
      have hoverlap := overlaps_of_mem_matching htop hc hd
      rw [hapart.1 d (by simp)] at hoverlap
      contradiction

/-- A table that lists no overlaps leaves no choice: every branch has one successor. -/
theorem length_step_of_overlaps_eq_nil (h : p.table.overlaps = []) (b : Branch)
    (input : Array Token) : (p.step b input).length = 1 := by
  have hpos := List.length_pos_iff.2 (step_ne_nil p b input)
  by_contra hone
  have hfork : 2 ≤ (p.step b input).length := by omega
  obtain ⟨top, htop, hstep⟩ := step_eq_map_matching hfork
  have hle : (matching b input (p.table.lookup top.symbol)).length ≤ 1 :=
    length_matching_le_one (Table.pairwise_lookup_of_overlaps_eq_nil h top.symbol) htop
  rw [hstep, List.length_map] at hpos hone
  omega

end Parser

/-! ## live branches -/

namespace Search

variable {p : Parser} {input : Array Token}

/-- No branch is both active and accepted. -/
theorem length_filter_live_le (branches : List Branch) :
    (branches.filter Branch.isActive).length + (branches.filter Branch.isAccepted).length ≤
      branches.length := by
  induction branches with
  | nil => simp
  | cons b branches ih =>
      cases hstatus : b.status <;>
        simp [Branch.isActive, Branch.isAccepted, hstatus] at ih ⊢ <;> omega

/-- Where every branch has one successor, the branches that are active or accepted do not
become more. -/
theorem length_live_after_le (hone : ∀ b, (p.step b input).length = 1) (n : Nat) (s : Search) :
    (after p input n s).active.length + (after p input n s).accepted.length ≤
      s.active.length + s.accepted.length := by
  induction n with
  | zero => exact Nat.le_refl _
  | succ n ih =>
      have hnext : (successors p input (after p input n s).active).length =
          (after p input n s).active.length := by
        simp [successors, List.length_flatMap, hone]
      have hlive := length_filter_live_le (successors p input (after p input n s).active)
      simp only [after, advance, List.length_append]
      omega

end Search

namespace Parser

section Deterministic

variable {p : Parser} (hone : ∀ b input, (p.step b input).length = 1)

include hone

/-- Where every branch has one successor, a search ends with one branch at most that is
active or accepted. -/
theorem length_live_search_le {input : Array Token} {s : Search}
    (hs : p.search input = .ok s) : s.active.length + s.accepted.length ≤ 1 := by
  obtain ⟨token, -, -, hafter, -⟩ := search_eq_after hs
  rw [hafter]
  exact Search.length_live_after_le (hone · input) s.rounds (.opening token)

/-- A forest over leaves is then a single tree. -/
theorem length_trees_eq_one {g : Grammar} (hg : g.table = .ok p.table)
    (hstart : p.settings.start = g.settings.start) {tokens : List Token} (hne : tokens ≠ [])
    (hleaf : ∀ t ∈ tokens, t.isLeaf = true) {forest : Forest}
    (hforest : p.parse tokens = .ok forest) : forest.trees.length = 1 := by
  obtain ⟨s, hs⟩ := exists_search (p := p) hne
  have hlive := length_live_search_le hone hs
  rw [parse_eq hne hleaf hs] at hforest
  split at hforest
  · contradiction
  · next hsome =>
      obtain rfl := Except.ok.inj hforest
      have hpos := List.length_pos_iff.2 hsome
      obtain ⟨b, hb⟩ : ∃ b, s.accepted = [b] := List.length_eq_one_iff.1 (by omega)
      obtain ⟨t, ht, -⟩ := exists_parse_of_accepted hg hstart (isLeaf_inputOf hleaf) hs
        (hb ▸ List.mem_singleton_self b)
      simp [hb, ht]

/-- The branches are then never too many, if one may be live. -/
theorem parse_ne_branchLimit (hbranches : 1 ≤ p.settings.maxBranches) (tokens : List Token)
    (n : Nat) : p.parse tokens ≠ .error (.branchLimit n) := by
  intro herror
  by_cases hne : tokens = []
  · simp [parse, hne] at herror
  · obtain ⟨s, hs⟩ := exists_search (p := p) hne
    have hlive := length_live_search_le hone hs
    have hlimit := ((parse_eq_error_iff hne hs rfl).1 herror).2
    have hfew : ¬ p.settings.maxBranches < s.active.length := by omega
    simp [Search.limit?, hfew] at hlimit

end Deterministic

/-- **Forks are listed.**  If a branch has several successors, they come from the candidates
of its stack top whose conditions hold, and the table lists every two of these as
overlapping.  So if it lists none, every branch has exactly one successor, a forest
over leaves is a single tree, and unless no branch may be live at all the limit on
their number is never reported, whatever the input. -/
theorem forks_only_at_overlaps {g : Grammar} {table : Table} (hg : g.table = .ok table)
    (limits : Settings) :
    (∀ b input, 2 ≤ ((withLimits table limits).step b input).length →
      ∃ top, b.stack.peek? = some top ∧
        (withLimits table limits).step b input =
          (matching b input (table.lookup top.symbol)).map
            ((withLimits table limits).follow b input) ∧
        ∀ i j c d, i < j → (table.lookup top.symbol)[i]? = some c →
          (table.lookup top.symbol)[j]? = some d → (probe b input c).isOk = true →
          (probe b input d).isOk = true →
          ⟨top.symbol, i, j, c.occurrence, d.occurrence⟩ ∈ table.overlaps) ∧
    (table.overlaps = [] →
      (∀ b input, ((withLimits table limits).step b input).length = 1) ∧
      (∀ tokens forest, tokens ≠ [] → (∀ t ∈ tokens, t.isLeaf = true) →
        (withLimits table limits).parse tokens = .ok forest → forest.trees.length = 1) ∧
      (1 ≤ limits.maxBranches → ∀ tokens n,
        (withLimits table limits).parse tokens ≠ .error (.branchLimit n))) := by
  refine ⟨fun b input hfork => ?_, fun hnone => ?_⟩
  · obtain ⟨top, htop, hstep⟩ := step_eq_map_matching hfork
    refine ⟨top, htop, hstep, fun i j c d hij hc hd hprobec hprobed => ?_⟩
    have hc' : c ∈ matching b input (table.lookup top.symbol) :=
      List.mem_filter.2 ⟨List.mem_of_getElem? hc, hprobec⟩
    have hd' : d ∈ matching b input (table.lookup top.symbol) :=
      List.mem_filter.2 ⟨List.mem_of_getElem? hd, hprobed⟩
    exact Table.mem_overlaps hij hc hd (overlaps_of_mem_matching htop hc' hd')
  · have hone : ∀ b input, ((withLimits table limits).step b input).length = 1 :=
      length_step_of_overlaps_eq_nil hnone
    refine ⟨hone, fun tokens forest hne hleaf hforest => ?_, fun hbranches tokens n => ?_⟩
    · exact length_trees_eq_one hone (g := g) hg (start_withLimits hg limits) hne hleaf hforest
    · exact parse_ne_branchLimit hone hbranches tokens n

/-- A word that may be followed by a semicolon. -/
def terminated : Grammar where
  settings := { start := ⟨"s"⟩ }
  symbols := .ofList [⟨"s"⟩, ⟨"key"⟩, ⟨"W"⟩, ⟨"SEMI"⟩, ⟨"EOF"⟩]
  productions :=
    [⟨⟨"s"⟩, [⟨"key"⟩, ⟨"EOF"⟩]⟩, ⟨⟨"s"⟩, [⟨"key"⟩, ⟨"SEMI"⟩, ⟨"EOF"⟩]⟩,
      ⟨⟨"key"⟩, [⟨"W"⟩]⟩]
  faultless := by decide +kernel

/-- The source `x;`. -/
def terminatedSource : List Lexeme := [⟨⟨"W"⟩, "x", 0⟩, ⟨⟨"SEMI"⟩, ";", 1⟩]

/-- One word or more. -/
def words : Grammar where
  settings := { start := ⟨"s"⟩ }
  symbols := .ofList [⟨"s"⟩, ⟨"key"⟩, ⟨"W"⟩, ⟨"EOF"⟩]
  productions :=
    [⟨⟨"s"⟩, [⟨"key"⟩, ⟨"EOF"⟩]⟩, ⟨⟨"key"⟩, [⟨"W"⟩]⟩, ⟨⟨"key"⟩, [⟨"key"⟩, ⟨"W"⟩]⟩]
  faultless := by decide +kernel

/-- The branch that has taken a second word. -/
def secondWord : Branch :=
  let label (s : String) (q : Nat) : Label := { origin := .made q, symbol := ⟨s⟩, position := q }
  { stack := ⟨[.leaf (label "W" 2) "y", .node (label "key" 1) [.leaf (label "W" 0) "x"]], []⟩
    index := 2 }

/-- The second word of a list is a fork, and the table lists it; a semicolon or its absence
is told by the terminal that follows, so there are no forks and there is one tree. -/
theorem forks_only_at_overlaps_words :
    (∃ table, words.table = .ok table ∧
      ((withLimits table {}).step secondWord #[]).length = 2 ∧
      ∃ o ∈ table.overlaps, o.symbol = ⟨"W"⟩ ∧ o.first = 0 ∧ o.second = 1) ∧
    ∃ table forest, terminated.table = .ok table ∧ table.overlaps = [] ∧
      (withLimits table {}).parse (stream terminatedSource ⟨"EOF"⟩) = .ok forest ∧
      forest.trees.length = 1 := by
  have hwords : words.table = .ok ⟨words.settings, words.productions, words.buckets⟩ := rfl
  have hterminated : terminated.table =
      .ok ⟨terminated.settings, terminated.productions, terminated.buckets⟩ := rfl
  have hnone : (⟨terminated.settings, terminated.productions, terminated.buckets⟩ :
      Table).overlaps = [] := by decide +kernel
  obtain ⟨forest, hforest⟩ : ∃ forest,
      (withLimits ⟨terminated.settings, terminated.productions, terminated.buckets⟩ {}).parse
        (stream terminatedSource ⟨"EOF"⟩) = .ok forest := ⟨_, rfl⟩
  constructor
  · obtain ⟨top, htop, -, hlisted⟩ :=
      (forks_only_at_overlaps hwords {}).1 secondWord #[] (by decide +kernel)
    obtain rfl := Option.some.inj htop
    exact ⟨_, hwords, rfl, _, hlisted 0 1 _ _ (by decide) rfl rfl rfl rfl, rfl, rfl, rfl⟩
  · have hsingle := ((forks_only_at_overlaps hterminated {}).2 hnone).2.1 _ forest
      (stream_ne_nil _ _) (isLeaf_stream _ _) hforest
    exact ⟨_, forest, hterminated, hnone, hforest, hsingle⟩

end Parser

end ForkParser
