import ForkParser.Proofs.Suffix

/-!
# ForkParser.Proofs.Ambiguity

When a grammar has a table, and what its candidates match.

Two places are tied when they look ahead at the same terminal, or both at
none, and have the same left context; a grammar has a table exactly when no two
of its places are tied (`Grammar.table_fails_iff`).  In a finished table every
candidate matches the shortest suffix of its left context that none of the
others with its lookahead agrees with (`Table.matched_eq_shortest_suffix`).
From that it follows that the last check of a table, for candidates chosen under
the same conditions, never finds any.
-/

namespace ForkParser

namespace Candidate

@[simp] theorem occurrence_withMatched (c : Candidate) (depth : Nat) :
    (c.withMatched depth).occurrence = c.occurrence := rfl

@[simp] theorem lookahead_withMatched (c : Candidate) (depth : Nat) :
    (c.withMatched depth).action.lookahead = c.action.lookahead := rfl

@[simp] theorem matched_withMatched (c : Candidate) (depth : Nat) :
    (c.withMatched depth).action.matched = c.occurrence.context.take depth := rfl

end Candidate

/-! ## candidates told apart -/

namespace Suffix

section Resolve

variable {candidates : List Candidate}

/-- Telling candidates apart changes neither how many have a lookahead nor which
those are. -/
theorem partWith_resolve (l : Option Symbol) :
    partWith (resolve candidates) l =
      (partWith candidates l).map fun c => c.withMatched (matchDepth candidates c) := by
  rw [resolve_eq, partWith, List.filter_map]
  rfl

/-- A member is alone in its group when it has no rivals. -/
theorem rivals_eq_nil_iff {group : List Candidate} (hnodup : group.Nodup) {c : Candidate}
    (hc : c ∈ group) : rivals group c = [] ↔ group = [c] := by
  constructor
  · intro h
    match group, hnodup, hc with
    | [d], _, hc => rw [List.mem_singleton.1 hc]
    | x :: y :: rest, hnodup, _ =>
        obtain ⟨d, hd, hne⟩ := exists_rival hnodup (by simp) c
        have := mem_rivals.2 ⟨hd, hne⟩
        rw [h] at this
        contradiction
  · rintro rfl
    simp [rivals]

/-- Members that stay different when they are changed keep their rivals. -/
theorem rivals_map {group : List Candidate} {f : Candidate → Candidate} {c : Candidate}
    (hinj : ∀ d ∈ group, f d = f c → d = c) :
    rivals (group.map f) (f c) = (rivals group c).map f := by
  rw [rivals, rivals, List.filter_map]
  congr 1
  refine List.filter_congr fun d hd => ?_
  have hiff : f d = f c ↔ d = c := ⟨hinj d hd, congrArg f⟩
  simp [hiff]

/-- Members that also keep their places share as much with their rivals. -/
theorem sharedDepth_map {group : List Candidate} {f : Candidate → Candidate} {c : Candidate}
    (hinj : ∀ d ∈ group, f d = f c → d = c) (hplace : ∀ d, (f d).occurrence = d.occurrence) :
    sharedDepth (group.map f) (f c) = sharedDepth group c := by
  rw [sharedDepth, sharedDepth, rivals_map hinj, List.foldr_map]
  simp only [hplace]

/-- A candidate that agrees with a rival on all it has to match has to match its
whole context. -/
theorem matchDepth_of_agreement (hnodup : candidates.Nodup) (htie : tie? candidates = none)
    {c d : Candidate} (hc : c ∈ candidates) (hd : d ∈ candidates) (hne : d ≠ c)
    (hlook : d.action.lookahead = c.action.lookahead)
    (hagree : matchDepth candidates c ≤
      agreement c.occurrence.context d.occurrence.context) :
    matchDepth candidates c = c.occurrence.context.length := by
  have hmem : d ∈ partWith candidates c.action.lookahead := mem_partWith.2 ⟨hd, hlook⟩
  have hrivals : rivals (partWith candidates c.action.lookahead) c ≠ [] :=
    List.ne_nil_of_mem (mem_rivals.2 ⟨hmem, hne⟩)
  have hdepth := matchDepth_of_rivals hnodup htie hc hrivals
  have hshared := agreement_le_sharedDepth hmem hne
  omega

/-- A candidate never has to match more than its context. -/
theorem matchDepth_le_length (hnodup : candidates.Nodup) (htie : tie? candidates = none)
    {c : Candidate} (hc : c ∈ candidates) :
    matchDepth candidates c ≤ c.occurrence.context.length := by
  by_cases hrivals : rivals (partWith candidates c.action.lookahead) c = []
  · rw [matchDepth_of_alone hnodup hrivals]
    exact Nat.zero_le _
  · rw [matchDepth_of_rivals hnodup htie hc hrivals]
    exact Nat.min_le_right _ _

/-- Where nothing is tied, candidates with one lookahead that match the same
symbols are one candidate. -/
theorem eq_of_sameConditions (hnodup : candidates.Nodup) (htie : tie? candidates = none)
    {c d : Candidate} (hc : c ∈ candidates) (hd : d ∈ candidates)
    (hlook : c.action.lookahead = d.action.lookahead)
    (hmatched : c.occurrence.context.take (matchDepth candidates c) =
      d.occurrence.context.take (matchDepth candidates d)) : c = d := by
  refine Decidable.byContradiction fun hne => ?_
  have hlec := matchDepth_le_length hnodup htie hc
  have hled := matchDepth_le_length hnodup htie hd
  have hdepth : matchDepth candidates c = matchDepth candidates d := by
    have := congrArg List.length hmatched
    rw [List.length_take, List.length_take] at this
    omega
  have hcd : matchDepth candidates c ≤ agreement c.occurrence.context d.occurrence.context := by
    rw [le_agreement_iff, hmatched]
    exact ⟨hlec, List.take_prefix _ _⟩
  have hdc : matchDepth candidates d ≤ agreement d.occurrence.context c.occurrence.context := by
    rw [le_agreement_iff, ← hmatched]
    exact ⟨hled, List.take_prefix _ _⟩
  -- each then matches its whole context, so the contexts are equal: a tie
  have hallc := matchDepth_of_agreement hnodup htie hc hd (Ne.symm hne) hlook.symm hcd
  have halld := matchDepth_of_agreement hnodup htie hd hc hne hlook hdc
  rw [hallc, halld, List.take_length, List.take_length] at hmatched
  exact hne ((tie?_eq_none_iff hnodup).1 htie c hc d hd hlook hmatched)

/-- Where nothing is tied, no two candidates told apart are chosen under the same
conditions. -/
theorem pairwise_resolve (hnodup : candidates.Nodup) (htie : tie? candidates = none) :
    (resolve candidates).Pairwise fun c d =>
      ¬ (c.action.lookahead = d.action.lookahead ∧ c.action.matched = d.action.matched) := by
  rw [resolve_eq, List.pairwise_map]
  refine List.Pairwise.imp_of_mem ?_ hnodup
  rintro c d hc hd hne ⟨hlook, hmatched⟩
  exact hne (eq_of_sameConditions hnodup htie hc hd hlook hmatched)

theorem nodup_resolve (hnodup : candidates.Nodup) (htie : tie? candidates = none) :
    (resolve candidates).Nodup :=
  (pairwise_resolve hnodup htie).imp fun hconditions heq => hconditions (by simp [heq])

/-- What a candidate told apart matches: nothing if it has no rivals, and
otherwise one symbol more than it shares with any of them, as far as its context
goes. -/
theorem matched_of_mem_resolve (hnodup : candidates.Nodup) (htie : tie? candidates = none)
    {c : Candidate} (hc : c ∈ resolve candidates) :
    c.action.matched =
      if rivals (partWith (resolve candidates) c.action.lookahead) c = [] then []
      else c.occurrence.context.take
        (min (sharedDepth (partWith (resolve candidates) c.action.lookahead) c + 1)
          c.occurrence.context.length) := by
  rw [resolve_eq, List.mem_map] at hc
  obtain ⟨d, hd, rfl⟩ := hc
  rw [Candidate.lookahead_withMatched, partWith_resolve]
  have hinj : ∀ x ∈ partWith candidates d.action.lookahead,
      x.withMatched (matchDepth candidates x) = d.withMatched (matchDepth candidates d) →
        x = d := by
    intro x hx h
    rw [mem_partWith] at hx
    exact eq_of_sameConditions hnodup htie hx.1 hd hx.2
      (congrArg (fun y => y.action.matched) h)
  have hrivals := rivals_map (f := fun c => c.withMatched (matchDepth candidates c)) hinj
  have hshared := sharedDepth_map (f := fun c => c.withMatched (matchDepth candidates c)) hinj
    fun _ => rfl
  rw [hrivals, hshared, Candidate.matched_withMatched, Candidate.occurrence_withMatched]
  split
  · next halone =>
      rw [matchDepth_of_alone hnodup (List.map_eq_nil_iff.1 halone), List.take_zero]
  · next hsome =>
      rw [matchDepth_of_rivals hnodup htie hd (mt List.map_eq_nil_iff.2 hsome)]

end Resolve

end Suffix

/-! ## ties and clashes of a grammar -/

namespace Bucket

/-- The last check finds nothing when no two candidates are chosen under the same
conditions. -/
theorem clashAmong_eq_none {seen candidates : List Candidate}
    (hpair : candidates.Pairwise fun c d =>
      ¬ (c.action.lookahead = d.action.lookahead ∧ c.action.matched = d.action.matched))
    (hseen : ∀ c ∈ candidates, ∀ e ∈ seen, sameConditions c e = false) :
    clashAmong seen candidates = none := by
  induction candidates generalizing seen with
  | nil => rfl
  | cons c rest ih =>
      obtain ⟨hc, hrest⟩ := List.pairwise_cons.1 hpair
      have hfind : seen.find? (sameConditions c) = none := by
        refine List.find?_eq_none.2 fun e he => ?_
        rw [hseen c List.mem_cons_self e he]
        exact Bool.false_ne_true
      rw [clashAmong, hfind]
      refine ih hrest fun d hd e he => ?_
      rcases List.mem_cons.1 he with rfl | he
      · have := hc d hd
        simp only [sameConditions, Bool.and_eq_false_iff, decide_eq_false_iff_not]
        exact Decidable.not_and_iff_not_or_not.1 fun h => this ⟨h.1.symm, h.2.symm⟩
      · exact hseen d (List.mem_cons_of_mem c hd) e he

end Bucket

namespace Grammar

variable {g : Grammar}

theorem nodup_of_mem_openBuckets {b : Bucket} (hb : b ∈ g.openBuckets) : b.candidates.Nodup := by
  rw [(mem_openBuckets.1 hb).2.1]
  exact nodup_candidatesOf _ _ _

/-- Nothing is tied in a grammar when nothing is tied in a bucket. -/
theorem tie?_eq_none_iff_buckets :
    g.tie? = none ↔ ∀ b ∈ g.openBuckets, Suffix.tie? b.candidates = none := by
  rw [tie?, List.findSome?_eq_none_iff]
  exact forall_congr' fun b => imp_congr_right fun _ => Option.map_eq_none_iff

/-- Nothing is tied in a grammar when lookahead and context together tell all its
places apart. -/
theorem tie?_eq_none_iff :
    g.tie? = none ↔ ∀ o o', g.HasPlace o → g.HasPlace o' → o.lookahead = o'.lookahead →
      o.context = o'.context → o = o' := by
  rw [tie?_eq_none_iff_buckets]
  constructor
  · intro h o o' ho ho' hlook hctx
    -- one context makes one symbol, so both places are in one bucket
    have hsym := Occurrence.symbol_eq_of_context_eq hctx
    have hnone := h _ (exists_openBucket ho)
    rw [Suffix.tie?_eq_none_iff (nodup_candidatesOf _ _ _)] at hnone
    have hmem : ∀ x : Occurrence, g.HasPlace x → x.symbol = o.symbol →
        (Candidate.ofOccurrence g.settings.eof x).withLookahead ∈
          candidatesOf o.symbol g.settings.eof g.productions :=
      fun x hx hs => List.mem_map_of_mem (mem_occurrencesOf.2 ⟨hx, hs⟩)
    have heq := hnone _ (hmem o ho rfl) _ (hmem o' ho' hsym.symm)
    simp only [withLookahead_ofOccurrence] at heq
    exact congrArg Candidate.occurrence (heq hlook hctx)
  · intro h b hb
    obtain ⟨-, hcands, -⟩ := mem_openBuckets.1 hb
    rw [Suffix.tie?_eq_none_iff (nodup_of_mem_openBuckets hb), hcands]
    intro c hc d hd hlook hctx
    rw [lookahead_of_mem_candidatesOf hc, lookahead_of_mem_candidatesOf hd] at hlook
    have hplace : ∀ x ∈ candidatesOf b.symbol g.settings.eof g.productions,
        g.HasPlace x.occurrence :=
      fun x hx => (mem_occurrencesOf.1 (mem_candidatesOf.1 hx).1).1
    exact eq_of_occurrence_eq hc hd (h _ _ (hplace c hc) (hplace d hd) hlook hctx)

/-- Where nothing is tied, no two candidates of a bucket are chosen under the same
conditions. -/
theorem pairwise_of_mem_buckets (h : g.tie? = none) {b : Bucket} (hb : b ∈ g.buckets) :
    b.candidates.Pairwise fun c d =>
      ¬ (c.action.lookahead = d.action.lookahead ∧ c.action.matched = d.action.matched) := by
  obtain ⟨ob, hob, rfl⟩ := List.mem_map.1 hb
  exact Suffix.pairwise_resolve (nodup_of_mem_openBuckets hob)
    (tie?_eq_none_iff_buckets.1 h ob hob)

/-- Where nothing is tied, nothing clashes. -/
theorem clash?_eq_none (h : g.tie? = none) : g.clash? = none := by
  refine List.findSome?_eq_none_iff.2 fun b hb => Option.map_eq_none_iff.2 ?_
  exact Bucket.clashAmong_eq_none (pairwise_of_mem_buckets h hb) fun _ _ e he => by contradiction

/-- A table fails by the first tie of its grammar and by nothing else. -/
theorem table_eq_error_iff {e : Error} :
    g.table = .error e ↔ ∃ symbol members, g.tie? = some (symbol, members) ∧
      e = ambiguity symbol members := by
  rw [table]
  cases htie : g.tie? with
  | none =>
      rw [clash?_eq_none htie]
      simp
  | some tie =>
      obtain ⟨symbol, members⟩ := tie
      constructor
      · intro h
        exact ⟨symbol, members, rfl, (Except.error.inj h).symm⟩
      · rintro ⟨symbol', members', htie', rfl⟩
        obtain ⟨rfl, rfl⟩ := Prod.mk.inj (Option.some.inj htie')
        rfl

/-- **A grammar is refused exactly when two of its places are tied**: different
places that look ahead at the same terminal, or both at none, and have the same
left context.  The refusal is then the ambiguity of a tie found by the suffix
search.  Where that search finds no tie, no two candidates of a bucket have both
the same lookahead and the same symbols to match, so the check for such pairs
reports nothing. -/
theorem table_fails_iff (g : Grammar) :
    ((∃ e, g.table = .error e) ↔
      ∃ o o', g.HasPlace o ∧ g.HasPlace o' ∧ o ≠ o' ∧ o.lookahead = o'.lookahead ∧
        o.production.rhs.take (o.pos + 1) = o'.production.rhs.take (o'.pos + 1)) ∧
    (∀ e, g.table = .error e → ∃ symbol members, g.tie? = some (symbol, members) ∧
      e = .ambiguous symbol (conflictOf members)
        (members.map fun c => c.occurrence.production.text)) ∧
    ((∀ b ∈ g.openBuckets, Suffix.tie? b.candidates = none) →
      (∀ b ∈ g.buckets, b.candidates.Pairwise fun c d =>
        ¬ (c.action.lookahead = d.action.lookahead ∧ c.action.matched = d.action.matched)) ∧
      g.clash? = none) := by
  refine ⟨?_, fun e he => table_eq_error_iff.1 he, fun hnone => ?_⟩
  · have hfails : (∃ e, g.table = .error e) ↔ g.tie? ≠ none := by
      simp only [table_eq_error_iff, Option.ne_none_iff_exists']
      constructor
      · rintro ⟨e, symbol, members, htie, -⟩
        exact ⟨_, htie⟩
      · rintro ⟨⟨symbol, members⟩, htie⟩
        exact ⟨_, symbol, members, htie, rfl⟩
    rw [hfails, Ne, tie?_eq_none_iff]
    constructor
    · intro h
      refine Classical.byContradiction fun hno => h fun o o' ho ho' hlook hctx => ?_
      refine Classical.byContradiction fun hne => hno ?_
      exact ⟨o, o', ho, ho', hne, hlook, Occurrence.context_eq_iff.1 hctx⟩
    · rintro ⟨o, o', ho, ho', hne, hlook, hctx⟩ h
      exact hne (h o o' ho ho' hlook (Occurrence.context_eq_iff.2 hctx))
  · have htie := tie?_eq_none_iff_buckets.2 hnone
    exact ⟨fun b hb => pairwise_of_mem_buckets htie hb, clash?_eq_none htie⟩

end Grammar

/-! ## what the candidates of a table match -/

namespace Suffix

/-- The first `depth` symbols of a candidate's context tell it from its rivals:
no rival's context begins with them. -/
def Distinguishes (group : List Candidate) (c : Candidate) (depth : Nat) : Prop :=
  ∀ d ∈ rivals group c, ¬ c.occurrence.context.take depth <+: d.occurrence.context

/-- Within the context, a suffix tells a candidate from its rivals exactly when it
is longer than what the candidate shares with any of them. -/
theorem distinguishes_iff {group : List Candidate} {c : Candidate} (depth : Nat)
    (hrivals : rivals group c ≠ []) (hdepth : depth ≤ c.occurrence.context.length) :
    Distinguishes group c depth ↔ sharedDepth group c < depth := by
  constructor
  · intro h
    refine Nat.lt_of_not_le fun hle => ?_
    rcases Nat.eq_zero_or_pos depth with rfl | hpos
    · obtain ⟨d, hd⟩ := List.exists_mem_of_ne_nil _ hrivals
      exact h d hd (by simp)
    · obtain ⟨d, hd, hne, hagree⟩ := (le_sharedDepth_iff hpos).1 hle
      exact h d (mem_rivals.2 ⟨hd, hne⟩) (le_agreement_iff.1 hagree).2
  · intro hlt d hd hpre
    obtain ⟨hd, hne⟩ := mem_rivals.1 hd
    have hagree := le_agreement_iff.2 ⟨hdepth, hpre⟩
    have hshared := agreement_le_sharedDepth hd hne
    omega

end Suffix

namespace Table

variable {g : Grammar} {t : Table}

open Suffix (partWith rivals sharedDepth matchDepth Distinguishes)

/-- **A candidate matches the shortest suffix that tells it apart.**  Among the
candidates of its bucket with its lookahead, one that is alone matches nothing,
and any other one matches one symbol more of its left context, read backwards,
than it has in common with any of them, or the whole left context where that is
not longer.  So it matches the shortest such suffix that none of the others agrees
with, or the whole left context where there is no such suffix. -/
theorem matched_eq_shortest_suffix (hg : g.table = .ok t) {b : Bucket} (hb : b ∈ t.buckets)
    {c : Candidate} (hc : c ∈ b.candidates) :
    (partWith b.candidates c.action.lookahead = [c] → c.action.matched = []) ∧
    (partWith b.candidates c.action.lookahead ≠ [c] →
      c.action.matched = c.occurrence.context.take
        (min (sharedDepth (partWith b.candidates c.action.lookahead) c + 1)
          (c.occurrence.pos + 1))) ∧
    ((∃ n ≤ c.occurrence.pos + 1, c.action.matched = c.occurrence.context.take n ∧
        Distinguishes (partWith b.candidates c.action.lookahead) c n ∧
        ∀ m < n, ¬ Distinguishes (partWith b.candidates c.action.lookahead) c m) ∨
      (c.action.matched = c.occurrence.context ∧
        ∀ n ≤ c.occurrence.pos + 1,
          ¬ Distinguishes (partWith b.candidates c.action.lookahead) c n)) := by
  obtain ⟨htie, -, rfl⟩ := Grammar.table_eq_ok_iff.1 hg
  obtain ⟨ob, hob, rfl⟩ := List.mem_map.1 hb
  have hnodup := Grammar.nodup_of_mem_openBuckets hob
  have hnone := Grammar.tie?_eq_none_iff_buckets.1 htie ob hob
  have hmatched := Suffix.matched_of_mem_resolve hnodup hnone hc
  have hpart : (partWith (Suffix.resolve ob.candidates) c.action.lookahead).Nodup :=
    Suffix.nodup_partWith (Suffix.nodup_resolve hnodup hnone) _
  have halone := Suffix.rivals_eq_nil_iff hpart (Suffix.mem_partWith.2 ⟨hc, rfl⟩)
  have hlen := c.occurrence.length_context
  rw [hlen] at hmatched
  refine ⟨fun h => ?_, fun h => ?_, ?_⟩
  · rw [hmatched, if_pos (halone.2 h)]
  · rw [hmatched, if_neg fun h' => h (halone.1 h')]
    rfl
  · by_cases hr : rivals (partWith (Suffix.resolve ob.candidates) c.action.lookahead) c = []
    · -- without rivals the empty suffix will do
      refine Or.inl ⟨0, Nat.zero_le _, by rw [hmatched, if_pos hr, List.take_zero], ?_, ?_⟩
      · intro d hd
        change d ∈ rivals (partWith (Suffix.resolve ob.candidates) c.action.lookahead) c at hd
        rw [hr] at hd
        contradiction
      · intro m hm
        contradiction
    · have hiff := fun n hn => Suffix.distinguishes_iff n hr (hlen ▸ hn)
      rw [if_neg hr] at hmatched
      rcases Nat.lt_or_ge
        (sharedDepth (partWith (Suffix.resolve ob.candidates) c.action.lookahead) c)
        (c.occurrence.pos + 1) with hlt | hge
      · refine Or.inl ⟨_, hlt, ?_, ?_, ?_⟩
        · rw [hmatched, Nat.min_eq_left hlt]
        · exact (hiff _ hlt).2 (Nat.lt_succ_self _)
        · intro m hm hdist
          have := (hiff m (Nat.le_trans (Nat.le_of_lt hm) hlt)).1 hdist
          omega
      · -- a rival begins with the whole context, so no suffix will do
        refine Or.inr ⟨?_, fun n hn hdist => ?_⟩
        · rw [hmatched, Nat.min_eq_right (by omega), ← hlen, List.take_length]
        · have := (hiff n hn).1 hdist
          omega

/-- Three rules that end alike, the end of two of them being the whole of the
third. -/
def layered : Grammar where
  settings := { start := ⟨"s"⟩ }
  symbols := .ofList [⟨"s"⟩, ⟨"a"⟩, ⟨"b"⟩, ⟨"c"⟩, ⟨"W"⟩, ⟨"X"⟩, ⟨"Y"⟩, ⟨"Z"⟩, ⟨"EOF"⟩]
  productions :=
    [⟨⟨"s"⟩, [⟨"a"⟩, ⟨"EOF"⟩]⟩, ⟨⟨"s"⟩, [⟨"b"⟩, ⟨"EOF"⟩]⟩, ⟨⟨"a"⟩, [⟨"X"⟩, ⟨"Y"⟩, ⟨"Z"⟩]⟩,
      ⟨⟨"b"⟩, [⟨"W"⟩, ⟨"Y"⟩, ⟨"Z"⟩]⟩, ⟨⟨"c"⟩, [⟨"Y"⟩, ⟨"Z"⟩]⟩]
  faultless := by decide +kernel

/-- The candidate at the end of `a -> X Y Z`. -/
def layeredEnd : Candidate where
  occurrence := ⟨⟨⟨"a"⟩, [⟨"X"⟩, ⟨"Y"⟩, ⟨"Z"⟩]⟩, 2, 2, by decide⟩
  action :=
    { move := .reduce ⟨⟨"a"⟩, [⟨"X"⟩, ⟨"Y"⟩, ⟨"Z"⟩]⟩ false
      matched := [⟨"Z"⟩, ⟨"Y"⟩, ⟨"X"⟩] }

/-- The end of `a -> X Y Z` shares two symbols with its nearest rival and matches
three. -/
theorem matched_layeredEnd :
    ∃ t, layered.table = .ok t ∧ ∃ b ∈ t.buckets, layeredEnd ∈ b.candidates ∧
      sharedDepth (partWith b.candidates none) layeredEnd = 2 ∧
      layeredEnd.action.matched = layeredEnd.occurrence.context.take (min (2 + 1) (2 + 1)) := by
  have hg : layered.table = .ok ⟨layered.settings, layered.productions, layered.buckets⟩ := rfl
  have hb : ⟨⟨"Z"⟩, Suffix.resolve (candidatesOf ⟨"Z"⟩ ⟨"EOF"⟩ layered.productions)⟩ ∈
      layered.buckets := by decide +kernel
  have hc : layeredEnd ∈ Suffix.resolve (candidatesOf ⟨"Z"⟩ ⟨"EOF"⟩ layered.productions) := by
    decide +kernel
  have hshared : sharedDepth (partWith
      (Suffix.resolve (candidatesOf ⟨"Z"⟩ ⟨"EOF"⟩ layered.productions)) none) layeredEnd = 2 := by
    decide +kernel
  have hmatched := (matched_eq_shortest_suffix hg hb hc).2.1 (by decide +kernel)
  have hnone : layeredEnd.action.lookahead = none := rfl
  rw [hnone, hshared] at hmatched
  exact ⟨_, hg, _, hb, hc, hshared, hmatched⟩

/-! ## candidates of one symbol -/

/-- Nothing is tied among the places of a symbol of a table. -/
theorem tie?_candidatesOf (hg : g.table = .ok t) (s : Symbol) :
    Suffix.tie? (candidatesOf s g.settings.eof g.productions) = none := by
  have htie := Grammar.tie?_eq_none_iff.1 (Grammar.table_eq_ok_iff.1 hg).1
  rw [Suffix.tie?_eq_none_iff (nodup_candidatesOf _ _ _)]
  intro c hc d hd hlook hctx
  have hplace : ∀ x ∈ candidatesOf s g.settings.eof g.productions, g.HasPlace x.occurrence :=
    fun x hx => (mem_occurrencesOf.1 (mem_candidatesOf.1 hx).1).1
  rw [lookahead_of_mem_candidatesOf hc, lookahead_of_mem_candidatesOf hd] at hlook
  exact eq_of_occurrence_eq hc hd (htie _ _ (hplace c hc) (hplace d hd) hlook hctx)

/-- No candidate stands in a table twice. -/
theorem nodup_lookup (hg : g.table = .ok t) (s : Symbol) : (t.lookup s).Nodup := by
  rw [lookup_eq hg]
  exact Suffix.nodup_resolve (nodup_candidatesOf _ _ _) (tie?_candidatesOf hg s)

/-- Candidates of one symbol that look ahead alike at places with one context are one
candidate. -/
theorem eq_of_context_eq (hg : g.table = .ok t) {s : Symbol} {c d : Candidate}
    (hc : c ∈ t.lookup s) (hd : d ∈ t.lookup s)
    (hlook : c.occurrence.lookahead = d.occurrence.lookahead)
    (hctx : c.occurrence.context = d.occurrence.context) : c = d := by
  rw [lookup_eq hg, Suffix.resolve_eq, List.mem_map] at hc hd
  obtain ⟨x, hx, rfl⟩ := hc
  obtain ⟨y, hy, rfl⟩ := hd
  have hxy : x.action.lookahead = y.action.lookahead := by
    rw [lookahead_of_mem_candidatesOf hx, lookahead_of_mem_candidatesOf hy]
    exact hlook
  rw [(Suffix.tie?_eq_none_iff (nodup_candidatesOf _ _ _)).1 (tie?_candidatesOf hg s) x hx y hy
    hxy hctx]

/-- A candidate reduces by the production of its place, which is the end of that. -/
theorem place_of_reduce (hg : g.table = .ok t) {s : Symbol} {c : Candidate}
    (hc : c ∈ t.lookup s) {rule : Production} {accepts : Bool}
    (hmove : c.action.move = .reduce rule accepts) :
    c.occurrence.isLast = true ∧ c.occurrence.production = rule := by
  obtain ⟨-, -, hplace, -, -⟩ := of_mem_lookup hg hc
  rw [hmove] at hplace
  cases hlast : c.occurrence.isLast with
  | false =>
      rw [Candidate.move_of_not_isLast hlast] at hplace
      contradiction
  | true =>
      rw [Candidate.move_of_isLast hlast] at hplace
      exact ⟨rfl, (Move.reduce.inj hplace).1.symm⟩

/-- Of the candidates of one symbol, at most one reduces by a production. -/
theorem eq_of_reduce (hg : g.table = .ok t) {s : Symbol} {c d : Candidate}
    (hc : c ∈ t.lookup s) (hd : d ∈ t.lookup s) {rule : Production} {accepts accepts' : Bool}
    (hmovec : c.action.move = .reduce rule accepts)
    (hmoved : d.action.move = .reduce rule accepts') : c = d := by
  obtain ⟨hlastc, hrulec⟩ := place_of_reduce hg hc hmovec
  obtain ⟨hlastd, hruled⟩ := place_of_reduce hg hd hmoved
  refine eq_of_context_eq hg hc hd ?_ (Occurrence.context_eq_iff.2 ?_)
  · rw [Occurrence.lookahead_of_isLast hlastc, Occurrence.lookahead_of_isLast hlastd]
  · rw [Occurrence.isLast, beq_iff_eq] at hlastc hlastd
    rw [hlastc, hlastd, List.take_length, List.take_length, hrulec, hruled]

end Table

end ForkParser
