import Mathlib.Data.List.Flatten
import Mathlib.Data.List.Nodup
import ForkParser.Proofs.Ambiguity
import ForkParser.Proofs.History
import ForkParser.Proofs.Soundness

/-!
# ForkParser.Proofs.Repeats

When a forest holds a tree twice.

A token is taken twice over when several candidates of the stack top that shift are
chosen at once: the successors are then equal, and so is everything that follows
from them (`Parser.SharesShift`).  There is no other way to a repeated tree.  A tree
tells the moves that built it, so two equal trees were built by the same moves in
the same rounds; and of the candidates of one symbol no two reduce by the same
production (`Table.eq_of_reduce`), so where two such runs part, they part at a
shift.

Both halves go by rounds.  `Parser.pairwise_active` says of any two places among the
active branches of a round that equal histories come from a shared shift;
`Search.twice_active` says that a branch that stands in a round twice has its
successors twice in the next.
-/

namespace ForkParser

/-! ## a branch that stands in a round twice -/

namespace Search

variable {p : Parser} {input : Array Token}

/-- The successors of a branch that is there twice are there twice. -/
theorem twice_successors {branches : List Branch} {b b' : Branch}
    (hb : [b, b].Sublist branches) (hstep : b' ∈ p.step b input) :
    [b', b'].Sublist (successors p input branches) := by
  have hone : [b'].Sublist (p.step b input) := List.singleton_sublist.2 hstep
  have htwo : [b', b'].Sublist ([b, b].flatMap fun x => p.step x input) := by
    simpa using hone.append hone
  exact htwo.trans (hb.flatMap _)

/-- A branch that is active twice after `n` rounds leads to branches that are active
twice. -/
theorem twice_active {s : Search} {n m : Nat} {a b : Branch}
    (ha : [a, a].Sublist (after p input n s).active) (hrun : p.Runs input m a b)
    (hactive : b.isActive = true) : [b, b].Sublist (after p input (n + m) s).active := by
  induction hrun with
  | refl => exact ha
  | step hrun hactive' hstep ih =>
      have htwice := (twice_successors (ih ha hactive') hstep).filter Branch.isActive
      rw [List.filter_cons_of_pos hactive, List.filter_cons_of_pos hactive] at htwice
      exact htwice

/-- A branch that is active twice after `n` rounds leads to branches that are accepted
twice. -/
theorem twice_accepted {s : Search} {n m : Nat} {a b : Branch}
    (ha : [a, a].Sublist (after p input n s).active) (hactive : a.isActive = true)
    (hrun : p.Runs input m a b) (haccepted : b.isAccepted = true) :
    [b, b].Sublist (after p input (n + m) s).accepted := by
  cases hrun with
  | refl =>
      rw [Branch.isAccepted, Branch.status_eq_active hactive] at haccepted
      contradiction
  | step hrun hactive' hstep =>
      have htwice := (twice_successors (twice_active ha hrun hactive') hstep).filter
        Branch.isAccepted
      rw [List.filter_cons_of_pos haccepted, List.filter_cons_of_pos haccepted] at htwice
      exact htwice.trans (List.sublist_append_right _ _)

end Search

namespace Parser

variable {g : Grammar} {p : Parser} {input : Array Token}

/-! ## shared shifts -/

/-- The branch takes a token for several candidates at once: its stack top has
several, and the conditions of two or more that shift hold. -/
def TakesTwice (p : Parser) (input : Array Token) (b b' : Branch) : Prop :=
  ∃ top token, b.stack.peek? = some top ∧ 2 ≤ (p.table.lookup top.symbol).length ∧
    2 ≤ ((matching b input (p.table.lookup top.symbol)).filter (·.action.isShift)).length ∧
    input[b.index]? = some token ∧ b' = b.taking token

/-- Some step of a run of `n` steps to the branch takes a token for several
candidates at once. -/
def SharesShift (p : Parser) (input : Array Token) (n : Nat) (b : Branch) : Prop :=
  ∃ k m a a', k + 1 + m = n ∧ p.Reaches input k a ∧ a.isActive = true ∧
    p.TakesTwice input a a' ∧ p.Runs input m a' b

theorem SharesShift.step {n : Nat} {b b' : Branch} (h : p.SharesShift input n b)
    (hactive : b.isActive = true) (hstep : b' ∈ p.step b input) :
    p.SharesShift input (n + 1) b' := by
  obtain ⟨k, m, a, a', hn, hreach, hactive', htwice, hrun⟩ := h
  exact ⟨k, m + 1, a, a', by omega, hreach, hactive', htwice, hrun.step hactive hstep⟩

/-- A branch that takes a token for several candidates has the same successor for
each. -/
theorem TakesTwice.sublist_step {b b' : Branch} (h : p.TakesTwice input b b') :
    [b', b'].Sublist (p.step b input) := by
  obtain ⟨top, token, htop, hseveral, hshifts, htoken, rfl⟩ := h
  have hchosen : p.chosen b input = matching b input (p.table.lookup top.symbol) :=
    chosen_of_not_single htop (by omega)
  rw [← hchosen] at hshifts
  -- every candidate that shifts leads to the same branch
  have hfollow : ∀ c ∈ (p.chosen b input).filter (·.action.isShift),
      p.follow b input c = b.taking token := fun c hc =>
    follow_shift (Action.isShift_iff.1 (List.mem_filter.1 hc).2) htoken
  have hcopies : ((p.chosen b input).filter (·.action.isShift)).map (p.follow b input) =
      List.replicate ((p.chosen b input).filter (·.action.isShift)).length (b.taking token) :=
    List.map_eq_replicate_iff.2 hfollow
  have hsub : ((p.chosen b input).filter (·.action.isShift)).Sublist (p.chosen b input) :=
    List.filter_sublist
  have hmap := hsub.map (p.follow b input)
  rw [hcopies] at hmap
  have hpair : [b.taking token, b.taking token].Sublist
      ((p.chosen b input).map (p.follow b input)) :=
    ((List.replicate_sublist_replicate _).2 hshifts).trans hmap
  rcases step_cases p b input with ⟨hnone, -⟩ | ⟨-, hstep⟩
  · rw [hnone] at hpair
    contradiction
  · rwa [hstep]

/-- Two different candidates that are chosen and both shift share the shift. -/
theorem takesTwice_of_chosen {b : Branch} {c d : Candidate} (hc : c ∈ p.chosen b input)
    (hd : d ∈ p.chosen b input) (hne : c ≠ d) (hmovec : c.action.move = .shift)
    (hmoved : d.action.move = .shift) (hlive : (p.follow b input c).error? = none) :
    p.TakesTwice input b (p.follow b input c) := by
  obtain ⟨top, htop, hlookup⟩ := exists_top_of_mem_chosen hc
  have hseveral : 2 ≤ (p.table.lookup top.symbol).length :=
    Suffix.two_le_length hlookup ((chosen_sublist htop).subset hd) hne
  rw [chosen_of_not_single htop (by omega)] at hc hd
  have hshifts : 2 ≤ ((matching b input (p.table.lookup top.symbol)).filter
      (·.action.isShift)).length :=
    Suffix.two_le_length (List.mem_filter.2 ⟨hc, Action.isShift_iff.2 hmovec⟩)
      (List.mem_filter.2 ⟨hd, Action.isShift_iff.2 hmoved⟩) hne
  cases htoken : input[b.index]? with
  | none =>
      rw [follow_exhausted hmovec htoken] at hlive
      contradiction
  | some token => exact ⟨top, token, htop, hseveral, hshifts, htoken, follow_shift hmovec htoken⟩

/-! ## equal histories -/

/-- Equal histories come from a shared shift, for two branches of round `n`. -/
def Parted (p : Parser) (eof : Symbol) (input : Array Token) (n : Nat) (b b' : Branch) : Prop :=
  b.history eof = b'.history eof → p.SharesShift input n b

/-- Of two candidates chosen for one branch, the moves differ unless a shift is
shared. -/
theorem parted_of_chosen (hg : g.table = .ok p.table) (hleaf : ∀ t ∈ input, t.isLeaf = true)
    {n : Nat} {b : Branch} (hreach : p.Reaches input n b) (hactive : b.isActive = true)
    {c d : Candidate} (hc : c ∈ p.chosen b input) (hd : d ∈ p.chosen b input) (hne : c ≠ d)
    (hlivec : (p.follow b input c).error? = none) (hlived : (p.follow b input d).error? = none) :
    p.Parted g.settings.eof input (n + 1) (p.follow b input c) (p.follow b input d) := by
  intro hhistory
  have hcommitted := hreach.accounted.committed
  rw [history_follow hg hleaf hcommitted hc hlivec, history_follow hg hleaf hcommitted hd hlived]
    at hhistory
  have hmoves : c.action.move = d.action.move := by simpa using hhistory
  cases hmove : c.action.move with
  | shift =>
      have htwice := takesTwice_of_chosen hc hd hne hmove (hmoves ▸ hmove) hlivec
      exact ⟨n, 0, b, _, rfl, hreach, hactive, htwice, .refl _⟩
  | reduce rule accepts =>
      obtain ⟨top, htop, hlookup⟩ := exists_top_of_mem_chosen hc
      have hlookup' := (chosen_sublist htop).subset hd
      exact absurd (Table.eq_of_reduce hg hlookup hlookup' hmove (hmoves ▸ hmove)) hne

/-- Successors of two parted branches are parted. -/
theorem Parted.follow (hg : g.table = .ok p.table) (hleaf : ∀ t ∈ input, t.isLeaf = true)
    {n : Nat} {a b : Branch} (ha : p.Reaches input n a) (hb : p.Reaches input n b)
    (hactive : a.isActive = true) {c d : Candidate} (hc : c ∈ p.chosen a input)
    (hd : d ∈ p.chosen b input) (hlivec : (p.follow a input c).error? = none)
    (hlived : (p.follow b input d).error? = none)
    (h : p.Parted g.settings.eof input n a b) :
    p.Parted g.settings.eof input (n + 1) (p.follow a input c) (p.follow b input d) := by
  intro hhistory
  rw [history_follow hg hleaf ha.accounted.committed hc hlivec,
    history_follow hg hleaf hb.accounted.committed hd hlived] at hhistory
  have hbefore := (List.append_inj' hhistory rfl).1
  exact (h hbefore).step hactive (follow_mem_step_of_chosen hc)

/-- If the active branches of a round are parted, so are their successors. -/
theorem pairwise_successors (hg : g.table = .ok p.table) (hleaf : ∀ t ∈ input, t.isLeaf = true)
    {P : Branch → Bool} (hP : ∀ b, P b = true → b.error? = none) {n : Nat}
    {branches : List Branch}
    (hbranches : ∀ b ∈ branches, p.Reaches input n b ∧ b.isActive = true)
    (h : branches.Pairwise (p.Parted g.settings.eof input n)) :
    ((Search.successors p input branches).filter P).Pairwise
      (p.Parted g.settings.eof input (n + 1)) := by
  have hfail : ∀ b e, P (Branch.fail b e) = false := by
    intro b e
    rw [Bool.eq_false_iff]
    exact fun h => absurd (hP _ h) nofun
  rw [Search.successors, List.filter_flatMap]
  simp only [filter_step hfail]
  refine List.pairwise_flatMap.2 ⟨fun b hb => ?_, ?_⟩
  · obtain ⟨hreach, hactive⟩ := hbranches b hb
    rw [List.pairwise_filter, List.pairwise_map]
    have hnodup : (p.chosen b input).Nodup := by
      cases htop : b.stack.peek? with
      | none => simp [chosen, htop]
      | some top => exact (Table.nodup_lookup hg top.symbol).sublist (chosen_sublist htop)
    exact hnodup.imp_of_mem fun hc hd hne hPc hPd =>
      parted_of_chosen hg hleaf hreach hactive hc hd hne (hP _ hPc) (hP _ hPd)
  · refine h.imp_of_mem fun {a b} ha hb hparted x hx y hy => ?_
    obtain ⟨hx, hPx⟩ := List.mem_filter.1 hx
    obtain ⟨hy, hPy⟩ := List.mem_filter.1 hy
    obtain ⟨c, hc, rfl⟩ := List.mem_map.1 hx
    obtain ⟨d, hd, rfl⟩ := List.mem_map.1 hy
    exact hparted.follow hg hleaf (hbranches a ha).1 (hbranches b hb).1 (hbranches a ha).2 hc hd
      (hP _ hPx) (hP _ hPy)

section Rounds

variable (hg : g.table = .ok p.table) (hleaf : ∀ t ∈ input, t.isLeaf = true) {token : Token}
  (htoken : input[0]? = some token)

include hg hleaf htoken

/-- The active branches of every round are parted. -/
theorem pairwise_active (n : Nat) :
    (Search.after p input n (.opening token)).active.Pairwise
      (p.Parted g.settings.eof input n) := by
  induction n with
  | zero => exact List.pairwise_singleton _ _
  | succ n ih =>
      exact pairwise_successors hg hleaf (fun b => Branch.error?_of_isActive)
        (fun b hb => (Search.mem_active_opening htoken).1 hb) ih

/-- Among the accepted branches, equal histories come from a shared shift. -/
theorem pairwise_accepted (n : Nat) :
    (Search.after p input n (.opening token)).accepted.Pairwise fun b b' =>
      b.history g.settings.eof = b'.history g.settings.eof → ∃ k, p.SharesShift input k b := by
  induction n with
  | zero => exact List.Pairwise.nil
  | succ n ih =>
      have hactive : ∀ b ∈ (Search.after p input n (.opening token)).active,
          p.Reaches input n b ∧ b.isActive = true :=
        fun b hb => (Search.mem_active_opening htoken).1 hb
      have hnew := pairwise_successors hg hleaf (fun b => Branch.error?_of_isAccepted) hactive
        (pairwise_active hg hleaf htoken n)
      refine List.pairwise_append.2 ⟨ih, hnew.imp fun h heq => ⟨_, h heq⟩, ?_⟩
      -- branches of different rounds have made different numbers of moves
      intro b hb b' hb' heq
      obtain ⟨k, hk, a, ha, hrun, haccepted⟩ :=
        (Search.mem_accepted_after Search.isActive_of_mem_opening rfl).1 hb
      rw [List.mem_singleton.1 ha] at hrun
      obtain ⟨hb', haccepted'⟩ := List.mem_filter.1 hb'
      obtain ⟨x, hx, hstep⟩ := List.mem_flatMap.1 hb'
      have hreach' := (hactive x hx).1.step (hactive x hx).2 hstep
      have hlength := Reaches.length_history hg hleaf (p := p) ⟨token, htoken, hrun⟩
        (Branch.error?_of_isAccepted haccepted)
      have hlength' := hreach'.length_history hg hleaf (Branch.error?_of_isAccepted haccepted')
      rw [heq, hlength'] at hlength
      omega

end Rounds

/-- A branch that shares a shift is reached. -/
theorem SharesShift.reaches {n : Nat} {b : Branch} (h : p.SharesShift input n b) :
    p.Reaches input n b := by
  obtain ⟨k, m, a, a', rfl, hreach, hactive, htwice, hrun⟩ := h
  have hstep : a' ∈ p.step a input := htwice.sublist_step.subset List.mem_cons_self
  exact (hreach.step hactive hstep).runs hrun

/-- A branch that shares a shift and is accepted is accepted twice. -/
theorem SharesShift.twice_accepted {token : Token} (htoken : input[0]? = some token) {n : Nat}
    {b : Branch} (h : p.SharesShift input n b) (haccepted : b.isAccepted = true) :
    [b, b].Sublist (Search.after p input n (.opening token)).accepted := by
  obtain ⟨k, m, a, a', rfl, hreach, hactive, htwice, hrun⟩ := h
  have ha : [a].Sublist (Search.after p input k (.opening token)).active :=
    List.singleton_sublist.2 ((Search.mem_active_opening htoken).2 ⟨hreach, hactive⟩)
  have hactive' : a'.isActive = true := by
    obtain ⟨top, token, -, -, -, -, rfl⟩ := htwice
    exact hactive
  have hpair : [a', a'].Sublist (Search.after p input (k + 1) (.opening token)).active := by
    have hnext := (htwice.sublist_step.trans (by simpa using ha.flatMap (p.step · input))).filter
      Branch.isActive
    rw [List.filter_cons_of_pos hactive', List.filter_cons_of_pos hactive'] at hnext
    exact hnext
  exact Search.twice_accepted hpair hactive' hrun haccepted

/-! ## what a search accepts -/

/-- What a search accepts is one tree, a parse of the input. -/
theorem exists_parse_of_accepted (hg : g.table = .ok p.table)
    (hstart : p.settings.start = g.settings.start) (hleaf : ∀ t ∈ input, t.isLeaf = true)
    {s : Search} (hs : p.search input = .ok s) {b : Branch} (hb : b ∈ s.accepted) :
    ∃ t, b.stack.toList.map Token.shape = [t] ∧
      t.IsParse g (input.toList.map Token.lexeme) := by
  obtain ⟨k, -, hreach, haccepted⟩ := (mem_accepted_search hs).1 hb
  obtain ⟨token, hitems, hparse⟩ := (hreach.sound hg hstart hleaf).parsed haccepted
  exact ⟨token.shape, by simp [UndoStack.toList, hitems], hparse⟩

/-- A token is taken for two candidates only if two that shift overlap. -/
theorem not_takesTwice
    (hshifts : ∀ k ∈ p.table.buckets, k.candidates.Pairwise fun c d =>
      c.action.isShift = true → d.action.isShift = true → c.overlaps d = false)
    (b b' : Branch) : ¬ p.TakesTwice input b b' := by
  rintro ⟨top, token, htop, -, htwo, -, -⟩
  have hpairwise : (p.table.lookup top.symbol).Pairwise fun c d =>
      c.action.isShift = true → d.action.isShift = true → c.overlaps d = false := by
    rw [Table.lookup]
    split
    · next k hk => exact hshifts k (List.mem_of_find?_eq_some hk)
    · exact List.Pairwise.nil
  rcases hcs : (matching b input (p.table.lookup top.symbol)).filter (·.action.isShift) with
    _ | ⟨c, _ | ⟨d, rest⟩⟩
  · simp [hcs] at htwo
  · simp [hcs] at htwo
  · have hmem : ∀ x ∈ c :: d :: rest,
        x ∈ matching b input (p.table.lookup top.symbol) ∧ x.action.isShift = true :=
      fun x hx => List.mem_filter.1 (hcs ▸ hx)
    have hsub : (c :: d :: rest).Sublist (p.table.lookup top.symbol) :=
      hcs ▸ List.filter_sublist.trans List.filter_sublist
    obtain ⟨hc, hshiftc⟩ := hmem c (by simp)
    obtain ⟨hd, hshiftd⟩ := hmem d (by simp)
    have hapart := (List.pairwise_cons.1 (hpairwise.sublist hsub)).1 d (by simp) hshiftc hshiftd
    rw [overlaps_of_mem_matching htop hc hd] at hapart
    contradiction

/-- Without a shared shift, all trees that a search accepts are different. -/
theorem nodup_accepted (hg : g.table = .ok p.table)
    (hstart : p.settings.start = g.settings.start) (hleaf : ∀ t ∈ input, t.isLeaf = true)
    {s : Search} (hs : p.search input = .ok s)
    (hnone : ¬ ∃ b ∈ s.accepted, ∃ n, p.SharesShift input n b) :
    (s.accepted.flatMap fun b => b.stack.toList.map Token.shape).Nodup := by
  obtain ⟨token, htoken, -, hafter, -⟩ := search_eq_after hs
  have hpairwise := pairwise_accepted hg hleaf htoken s.rounds
  rw [← hafter] at hpairwise
  refine List.pairwise_flatMap.2 ⟨fun b hb => ?_, hpairwise.imp_of_mem ?_⟩
  · obtain ⟨t, ht, -⟩ := exists_parse_of_accepted hg hstart hleaf hs hb
    rw [ht]
    exact List.pairwise_singleton _ _
  · intro b b' hb hb' hshared t ht t' ht' heq
    obtain ⟨u, hu, -⟩ := exists_parse_of_accepted hg hstart hleaf hs hb
    obtain ⟨u', hu', -⟩ := exists_parse_of_accepted hg hstart hleaf hs hb'
    rw [hu, List.mem_singleton] at ht
    rw [hu', List.mem_singleton] at ht'
    have hhistory : b.history g.settings.eof = b'.history g.settings.eof := by
      rw [Branch.history, Branch.history, hu, hu', ← ht, ← ht', heq]
    exact hnone ⟨b, hb, hshared hhistory⟩

/-- An accepted branch that shares a shift has its tree twice among those accepted. -/
theorem not_nodup_accepted (hg : g.table = .ok p.table)
    (hstart : p.settings.start = g.settings.start) (hleaf : ∀ t ∈ input, t.isLeaf = true)
    {s : Search} (hs : p.search input = .ok s) {b : Branch} (hb : b ∈ s.accepted) {n : Nat}
    (hshared : p.SharesShift input n b) :
    ¬ (s.accepted.flatMap fun b => b.stack.toList.map Token.shape).Nodup := by
  obtain ⟨token, htoken, -, hafter, -⟩ := search_eq_after hs
  obtain ⟨k, hk, hreach, haccepted⟩ := (mem_accepted_search hs).1 hb
  -- both runs have made as many moves as the tree tells, so they are of one length
  have hlive := Branch.error?_of_isAccepted haccepted
  have hlength := hreach.length_history hg hleaf hlive
  rw [hshared.reaches.length_history hg hleaf hlive] at hlength
  have hle : n ≤ s.rounds := by omega
  have htwice : [b, b].Sublist s.accepted := by
    refine (hshared.twice_accepted htoken haccepted).trans ?_
    rw [hafter]
    obtain ⟨m, hm⟩ := Nat.exists_eq_add_of_le hle
    rw [hm]
    exact (Search.accepted_prefix n m _).sublist
  obtain ⟨t, ht, -⟩ := exists_parse_of_accepted hg hstart hleaf hs hb
  have hpair := htwice.flatMap fun b => b.stack.toList.map Token.shape
  simp only [List.flatMap_cons, List.flatMap_nil, ht, List.append_nil, List.singleton_append]
    at hpair
  exact fun hnodup => List.nodup_iff_sublist.1 hnodup t hpair

end Parser

/-! ## forests -/

namespace Forest

/-- A tree that a forest holds at two places. -/
theorem exists_repeat_iff {f : Forest} :
    (∃ i j, i < j ∧ j < f.trees.length ∧ f.trees[i]? = f.trees[j]?) ↔ ¬ f.trees.Nodup := by
  rw [List.nodup_iff_getElem?_ne_getElem?]
  push Not
  rfl

/-- A forest without repetition is ambiguous when it holds two different trees. -/
theorem isAmbiguous_iff_of_nodup {f : Forest} (h : f.trees.Nodup) :
    f.isAmbiguous = true ↔ ∃ t ∈ f.trees, ∃ t' ∈ f.trees, t ≠ t' := by
  rw [isAmbiguous, decide_eq_true_eq]
  match hts : f.trees with
  | [] => simp
  | [t] => simp
  | t :: t' :: rest =>
      have hne : t ≠ t' := by
        rw [hts] at h
        exact (List.pairwise_cons.1 h).1 t' List.mem_cons_self
      simp only [List.length_cons, Nat.lt_add_left_iff_pos, Nat.zero_lt_succ, true_iff]
      exact ⟨t, by simp, t', by simp, hne⟩

end Forest

namespace Parser

/-- A forest returned for leaves is what the search accepted. -/
theorem exists_search_of_parse {p : Parser} {tokens : List Token}
    (hleaf : ∀ t ∈ tokens, t.isLeaf = true) {forest : Forest}
    (h : p.parse tokens = .ok forest) :
    ∃ s, p.search (inputOf tokens) = .ok s ∧
      forest.trees = s.accepted.flatMap fun b => b.stack.toList.map Token.shape := by
  have hne : tokens ≠ [] := by
    rintro rfl
    contradiction
  obtain ⟨s, hs⟩ := exists_search (p := p) hne
  rw [parse_eq hne hleaf hs] at h
  split at h
  · contradiction
  · exact ⟨s, hs, by rw [← Except.ok.inj h]⟩

/-- **When a tree is returned twice.**  Two places of a forest hold the same tree
exactly when, on the run to some accepted branch, a token is taken for several
candidates at once.  So where no two shifts of one symbol overlap, all trees of a
forest are different, and an ambiguous forest holds two different parses. -/
theorem parse_repeats_iff {g : Grammar} {table : Table} (hg : g.table = .ok table)
    (limits : Settings) {tokens : List Token} (hleaf : ∀ t ∈ tokens, t.isLeaf = true)
    {forest : Forest} (h : (withLimits table limits).parse tokens = .ok forest) :
    ((∃ i j, i < j ∧ j < forest.trees.length ∧ forest.trees[i]? = forest.trees[j]?) ↔
      ∃ s, (withLimits table limits).search (inputOf tokens) = .ok s ∧
        ∃ b ∈ s.accepted, ∃ n, (withLimits table limits).SharesShift (inputOf tokens) n b) ∧
    ((∀ k ∈ table.buckets, k.candidates.Pairwise fun c d =>
        c.action.isShift = true → d.action.isShift = true → c.overlaps d = false) →
      forest.trees.Nodup ∧
      (forest.isAmbiguous = true ↔ ∃ t ∈ forest.trees, ∃ t' ∈ forest.trees, t ≠ t') ∧
      ∀ t ∈ forest.trees, t.IsParse g (tokens.map Token.lexeme)) := by
  obtain ⟨s, hs, htrees⟩ := exists_search_of_parse hleaf h
  have hstart := start_withLimits hg limits
  have hleaf' := isLeaf_inputOf hleaf
  have hrepeats : ¬ forest.trees.Nodup ↔
      ∃ b ∈ s.accepted, ∃ n, (withLimits table limits).SharesShift (inputOf tokens) n b := by
    rw [htrees]
    constructor
    · exact fun hrepeated => Classical.byContradiction fun hnone =>
        hrepeated (nodup_accepted hg hstart hleaf' hs hnone)
    · rintro ⟨b, hb, n, hshared⟩
      exact not_nodup_accepted hg hstart hleaf' hs hb hshared
  refine ⟨?_, fun hshifts => ?_⟩
  · rw [Forest.exists_repeat_iff, hrepeats]
    constructor
    · exact fun hshared => ⟨s, hs, hshared⟩
    · rintro ⟨s', hs', hshared⟩
      obtain rfl := Except.ok.inj (hs.symm.trans hs')
      exact hshared
  · have hnodup : forest.trees.Nodup := by
      refine Classical.byContradiction fun hrepeated => ?_
      obtain ⟨b, -, n, k, m, a, a', -, -, -, htwice, -⟩ := hrepeats.1 hrepeated
      exact not_takesTwice hshifts a a' htwice
    refine ⟨hnodup, Forest.isAmbiguous_iff_of_nodup hnodup, fun t ht => ?_⟩
    rw [htrees] at ht
    obtain ⟨b, hb, ht⟩ := List.mem_flatMap.1 ht
    obtain ⟨u, hu, hparse⟩ := exists_parse_of_accepted hg hstart hleaf' hs hb
    rw [hu, List.mem_singleton] at ht
    rw [ht, ← map_lexeme_inputOf]
    exact hparse

/-- `X Y` as a pair of tokens, or as a token before a group that is the other. -/
def grouped : Grammar where
  settings := { start := ⟨"s"⟩ }
  symbols := .ofList [⟨"s"⟩, ⟨"a"⟩, ⟨"b"⟩, ⟨"c"⟩, ⟨"X"⟩, ⟨"Y"⟩, ⟨"EOF"⟩]
  productions :=
    [⟨⟨"s"⟩, [⟨"a"⟩, ⟨"EOF"⟩]⟩, ⟨⟨"s"⟩, [⟨"b"⟩, ⟨"EOF"⟩]⟩, ⟨⟨"a"⟩, [⟨"X"⟩, ⟨"Y"⟩]⟩,
      ⟨⟨"b"⟩, [⟨"X"⟩, ⟨"c"⟩]⟩, ⟨⟨"c"⟩, [⟨"Y"⟩]⟩]
  faultless := by decide +kernel

/-- The source `xy`. -/
def groupedSource : List Lexeme := [⟨⟨"X"⟩, "x", 0⟩, ⟨⟨"Y"⟩, "y", 1⟩]

/-- After `X` one candidate looks ahead for `Y` and one for nothing, and both shift: each
of the two trees is returned twice. -/
theorem parse_repeats_grouped :
    ∃ table forest, grouped.table = .ok table ∧
      (withLimits table {}).parse (stream groupedSource ⟨"EOF"⟩) = .ok forest ∧
      forest.trees.length = 4 ∧ forest.isDistinct = false ∧
      ∃ s, (withLimits table {}).search (inputOf (stream groupedSource ⟨"EOF"⟩)) = .ok s ∧
        ∃ b ∈ s.accepted, ∃ n,
          (withLimits table {}).SharesShift (inputOf (stream groupedSource ⟨"EOF"⟩)) n b := by
  have hg : grouped.table = .ok ⟨grouped.settings, grouped.productions, grouped.buckets⟩ := rfl
  have hleaf : ∀ t ∈ stream groupedSource ⟨"EOF"⟩, t.isLeaf = true := by decide
  obtain ⟨forest, hforest, hlength, hrepeat, hdistinct⟩ : ∃ forest,
      (withLimits ⟨grouped.settings, grouped.productions, grouped.buckets⟩ {}).parse
        (stream groupedSource ⟨"EOF"⟩) = .ok forest ∧ forest.trees.length = 4 ∧
        forest.trees[0]? = forest.trees[1]? ∧ forest.isDistinct = false :=
    ⟨_, rfl, rfl, by decide +kernel, by decide +kernel⟩
  have hshared := (parse_repeats_iff hg {} hleaf hforest).1.1
    ⟨0, 1, by decide, by rw [hlength]; decide, hrepeat⟩
  exact ⟨_, forest, hg, hforest, hlength, hdistinct, hshared⟩

end Parser

end ForkParser
