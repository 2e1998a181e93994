import ForkParser.Proofs.Places

/-!
# ForkParser.Proofs.Suffix

What the walk over contexts finds out.

The walk is at a group of candidates whose contexts all begin with the same
symbols `seen`, and its depth is the number of those.  Of a verdict it reaches
there, `Verdict.Holds` says in terms of the whole group what it means: tied
members are all those with one context, and a settled member shares as much of
its context with a rival as the verdict's depth says (`holds_of_mem_distinguish`).
The other way round no member goes without a verdict (`exists_verdict`).

Together they give the two results on a part: something is tied exactly when
two members have the same context (`exists_tied_iff`), and a member that is not
tied has to match one symbol more than it shares with any rival, as far as its
context goes (`matchDepth_of_rivals`).
-/

namespace ForkParser.Suffix

/-! ## how far contexts agree -/

/-- The length of the longest common beginning of two contexts. -/
def agreement : List Symbol → List Symbol → Nat
  | x :: xs, y :: ys => if x = y then agreement xs ys + 1 else 0
  | _, _ => 0

/-- Contexts agree on `n` symbols when the first `n` symbols of the one are
there and begin the other. -/
theorem le_agreement_iff {a b : List Symbol} {n : Nat} :
    n ≤ agreement a b ↔ n ≤ a.length ∧ a.take n <+: b := by
  induction a generalizing b n with
  | nil => cases n <;> simp [agreement]
  | cons x xs ih =>
      cases b with
      | nil => cases n <;> simp [agreement]
      | cons y ys =>
          cases n with
          | zero => simp
          | succ n =>
              by_cases hxy : x = y
              · simp [agreement, hxy, ih, List.cons_prefix_cons]
              · simp [agreement, hxy, List.cons_prefix_cons]

theorem agreement_le_length (a b : List Symbol) : agreement a b ≤ a.length :=
  (le_agreement_iff.1 (Nat.le_refl _)).1

/-- A context that goes on from `seen` with `s` agrees with one that does not on
no more than `seen`. -/
theorem agreement_le_of_not_begins {seen a b : List Symbol} {s : Symbol}
    (ha : seen ++ [s] <+: a) (hb : ¬ seen ++ [s] <+: b) : agreement a b ≤ seen.length := by
  refine Nat.le_of_not_lt fun hlt => hb ?_
  have htake : a.take (seen.length + 1) = seen ++ [s] := by
    obtain ⟨rest, rfl⟩ := ha
    rw [List.take_append_of_le_length (by simp), List.take_of_length_le (by simp)]
  rw [← htake]
  exact (le_agreement_iff.1 hlt).2

/-! ## rivals -/

/-- The other members of a group. -/
def rivals (group : List Candidate) (c : Candidate) : List Candidate := group.filter (· ≠ c)

theorem mem_rivals {group : List Candidate} {c d : Candidate} :
    d ∈ rivals group c ↔ d ∈ group ∧ d ≠ c := by
  simp [rivals]

/-- How many symbols a candidate shares with the rival whose context is most
like its own. -/
def sharedDepth (group : List Candidate) (c : Candidate) : Nat :=
  (rivals group c).foldr
    (fun d n => max (agreement c.occurrence.context d.occurrence.context) n) 0

/-- A maximum over a list is at least `n` when some value is, `n` not being
zero. -/
theorem le_foldr_max_iff {f : Candidate → Nat} {l : List Candidate} {n : Nat} (hn : 0 < n) :
    n ≤ l.foldr (fun d m => max (f d) m) 0 ↔ ∃ d ∈ l, n ≤ f d := by
  induction l with
  | nil => simp; omega
  | cons d l ih =>
      rw [List.foldr_cons]
      constructor
      · intro h
        by_cases hd : n ≤ f d
        · exact ⟨d, List.mem_cons_self, hd⟩
        · obtain ⟨e, he, hle⟩ := ih.1 (by omega)
          exact ⟨e, List.mem_cons_of_mem d he, hle⟩
      · rintro ⟨e, he, hle⟩
        rcases List.mem_cons.1 he with rfl | he
        · exact Nat.le_trans hle (Nat.le_max_left _ _)
        · exact Nat.le_trans (ih.2 ⟨e, he, hle⟩) (Nat.le_max_right _ _)

theorem le_sharedDepth_iff {group : List Candidate} {c : Candidate} {n : Nat} (hn : 0 < n) :
    n ≤ sharedDepth group c ↔
      ∃ d ∈ group, d ≠ c ∧ n ≤ agreement c.occurrence.context d.occurrence.context := by
  rw [sharedDepth, le_foldr_max_iff hn]
  constructor
  · rintro ⟨d, hd, hle⟩
    exact ⟨d, (mem_rivals.1 hd).1, (mem_rivals.1 hd).2, hle⟩
  · rintro ⟨d, hd, hne, hle⟩
    exact ⟨d, mem_rivals.2 ⟨hd, hne⟩, hle⟩

theorem agreement_le_sharedDepth {group : List Candidate} {c d : Candidate} (hd : d ∈ group)
    (hne : d ≠ c) :
    agreement c.occurrence.context d.occurrence.context ≤ sharedDepth group c := by
  rcases Nat.eq_zero_or_pos (agreement c.occurrence.context d.occurrence.context) with h | h
  · rw [h]; exact Nat.zero_le _
  · exact (le_sharedDepth_iff h).2 ⟨d, hd, hne, Nat.le_refl _⟩

/-- The shared depth is reached by a rival and exceeded by none. -/
theorem sharedDepth_eq {group : List Candidate} {c : Candidate} {n : Nat}
    (hreached : ∃ d ∈ group, d ≠ c ∧ n ≤ agreement c.occurrence.context d.occurrence.context)
    (hbound : ∀ d ∈ group, d ≠ c → agreement c.occurrence.context d.occurrence.context ≤ n) :
    sharedDepth group c = n := by
  apply Nat.le_antisymm
  · refine Nat.le_of_not_lt fun hlt => ?_
    obtain ⟨d, hd, hne, hle⟩ := (le_sharedDepth_iff (Nat.succ_pos _)).1 hlt
    exact Nat.not_succ_le_self n (Nat.le_trans hle (hbound d hd hne))
  · obtain ⟨d, hd, hne, hle⟩ := hreached
    exact Nat.le_trans hle (agreement_le_sharedDepth hd hne)

/-- Of several members one is not `c`. -/
theorem exists_rival {group : List Candidate} (hnodup : group.Nodup) (hlen : 2 ≤ group.length)
    (c : Candidate) : ∃ d ∈ group, d ≠ c := by
  match group, hnodup, hlen with
  | x :: y :: rest, hnodup, _ =>
      by_cases hx : x = c
      · refine ⟨y, by simp, fun hy => ?_⟩
        have hxy : x ≠ y := (List.pairwise_cons.1 hnodup).1 y (by simp)
        exact hxy (hx.trans hy.symm)
      · exact ⟨x, by simp, hx⟩

/-- Two different members make a group of several. -/
theorem two_le_length {group : List Candidate} {c d : Candidate} (hc : c ∈ group)
    (hd : d ∈ group) (hne : c ≠ d) : 2 ≤ group.length := by
  have hpair : [c, d].Nodup := by simpa using hne
  exact hpair.length_le_of_subset (by simp [hc, hd])

/-! ## one step of the walk -/

section Step

variable {seen : List Symbol} {group : List Candidate}

/-- A context that begins with `seen` has nothing below when it is `seen`. -/
theorem symbolBefore_eq_none_of_begins {o : Occurrence} (h : seen <+: o.context) :
    o.symbolBefore seen.length = none ↔ o.context = seen := by
  obtain ⟨rest, hrest⟩ := h
  rw [Occurrence.symbolBefore, ← hrest]
  cases rest <;> simp

/-- A context that begins with `seen` has `s` below when it goes on with it. -/
theorem symbolBefore_eq_some_of_begins {o : Occurrence} {s : Symbol} (h : seen <+: o.context) :
    o.symbolBefore seen.length = some s ↔ seen ++ [s] <+: o.context := by
  obtain ⟨rest, hrest⟩ := h
  rw [Occurrence.symbolBefore, ← hrest, List.prefix_append_right_inj]
  cases rest with
  | nil => simp
  | cons x xs => simp [List.cons_prefix_cons, eq_comm]

variable (hseen : ∀ c ∈ group, seen <+: c.occurrence.context)

include hseen

theorem atStart_eq_filter :
    atStart seen.length group = group.filter (·.occurrence.context = seen) :=
  List.filter_congr fun c hc => by simp [symbolBefore_eq_none_of_begins (hseen c hc)]

theorem mem_atSymbol {s : Symbol} {c : Candidate} :
    c ∈ atSymbol seen.length s group ↔ c ∈ group ∧ seen ++ [s] <+: c.occurrence.context := by
  rw [atSymbol, List.mem_filter, decide_eq_true_eq]
  exact and_congr_right fun hc => symbolBefore_eq_some_of_begins (hseen c hc)

theorem mem_symbolsAt {s : Symbol} :
    s ∈ symbolsAt seen.length group ↔ ∃ c ∈ group, seen ++ [s] <+: c.occurrence.context := by
  rw [symbolsAt, SymbolSet.mem_ofList, List.mem_filterMap]
  exact exists_congr fun c =>
    and_congr_right fun hc => symbolBefore_eq_some_of_begins (hseen c hc)

/-- The members that go on with a symbol some member has are several, unless there is only
one. -/
theorem two_le_length_atSymbol {s : Symbol} (hs : s ∈ (symbolsAt seen.length group).toList)
    (hseveral : ∀ c, atSymbol seen.length s group ≠ [c]) :
    2 ≤ (atSymbol seen.length s group).length := by
  obtain ⟨c, hc⟩ := (mem_symbolsAt hseen).1 hs
  have hmem := (mem_atSymbol hseen).2 hc
  match h : atSymbol seen.length s group with
  | [] => rw [h] at hmem; contradiction
  | [d] => exact absurd h (hseveral d)
  | _ :: _ :: _ => simp

/-- What a candidate shares with the members that agree with it one symbol
further is what it shares with the whole group. -/
theorem sharedDepth_atSymbol {s : Symbol} {c : Candidate} {n : Nat}
    (hc : c ∈ atSymbol seen.length s group) (hn : seen.length + 1 ≤ n)
    (h : sharedDepth (atSymbol seen.length s group) c = n) : sharedDepth group c = n := by
  have hpre := ((mem_atSymbol hseen).1 hc).2
  have hpos : 0 < n := by omega
  refine sharedDepth_eq ?_ fun d hd hne => ?_
  · obtain ⟨d, hd, hne, hle⟩ := (le_sharedDepth_iff hpos).1 (Nat.le_of_eq h.symm)
    exact ⟨d, ((mem_atSymbol hseen).1 hd).1, hne, hle⟩
  · by_cases hdpre : seen ++ [s] <+: d.occurrence.context
    · rw [← h]
      exact agreement_le_sharedDepth ((mem_atSymbol hseen).2 ⟨hd, hdpre⟩) hne
    · have := agreement_le_of_not_begins hpre hdpre
      omega

/-- The members of a step that have a context going on with `s` are all those
of the group. -/
theorem filter_atSymbol {s : Symbol} {context : List Symbol} (h : seen ++ [s] <+: context) :
    (atSymbol seen.length s group).filter (·.occurrence.context = context) =
      group.filter (·.occurrence.context = context) := by
  rw [atSymbol, List.filter_filter]
  refine List.filter_congr fun c hc => ?_
  rw [Bool.and_eq_left_iff_imp, decide_eq_true_eq, decide_eq_true_eq]
  rintro rfl
  exact (symbolBefore_eq_some_of_begins (hseen c hc)).2 h

end Step

/-! ## what a verdict means -/

/-- The meaning of a verdict reached at `depth` or below, for the group the walk
was at: tied members are all that have one context, and there are several; a
settled member shares exactly `d` symbols with its rivals, and is either at its
start there, alone, or goes on. -/
def Verdict.Holds (depth : Nat) (group : List Candidate) : Verdict → Prop
  | tied members =>
    2 ≤ members.length ∧ ∃ context, members = group.filter (·.occurrence.context = context)
  | byStart c d =>
    c ∈ group ∧ depth ≤ d ∧ c.occurrence.context.length = d ∧ sharedDepth group c = d ∧
      ∀ x ∈ group, x.occurrence.context = c.occurrence.context → x = c
  | bySuffix c d =>
    c ∈ group ∧ depth ≤ d ∧ d < c.occurrence.context.length ∧ sharedDepth group c = d

section Holds

variable {seen : List Symbol} {group : List Candidate}
  (hseen : ∀ c ∈ group, seen <+: c.occurrence.context)

include hseen

/-- A verdict on the members that agree one symbol further is one on the whole
group. -/
theorem Verdict.Holds.of_atSymbol {s : Symbol} {v : Verdict}
    (h : v.Holds (seen.length + 1) (atSymbol seen.length s group)) :
    v.Holds seen.length group := by
  cases v with
  | tied members =>
      obtain ⟨hlen, context, hmembers⟩ := h
      obtain ⟨c, hc⟩ := List.exists_mem_of_length_pos (by omega : 0 < members.length)
      rw [hmembers, List.mem_filter, decide_eq_true_eq] at hc
      have hpre : seen ++ [s] <+: context := hc.2 ▸ ((mem_atSymbol hseen).1 hc.1).2
      exact ⟨hlen, context, by rw [hmembers, filter_atSymbol hseen hpre]⟩
  | byStart c d =>
      obtain ⟨hc, hdepth, hlen, hshared, halone⟩ := h
      obtain ⟨hgroup, hpre⟩ := (mem_atSymbol hseen).1 hc
      refine ⟨hgroup, by omega, hlen, sharedDepth_atSymbol hseen hc hdepth hshared, ?_⟩
      intro x hx hctx
      exact halone x ((mem_atSymbol hseen).2 ⟨hx, hctx ▸ hpre⟩) hctx
  | bySuffix c d =>
      obtain ⟨hc, hdepth, hlt, hshared⟩ := h
      exact ⟨((mem_atSymbol hseen).1 hc).1, by omega, hlt,
        sharedDepth_atSymbol hseen hc hdepth hshared⟩

/-- The verdict on the members at their start holds of the group. -/
theorem holds_of_mem_startVerdict (hnodup : group.Nodup) (hlen : 2 ≤ group.length) {v : Verdict}
    (hv : v ∈ startVerdict seen.length (atStart seen.length group)) :
    v.Holds seen.length group := by
  have hstart := atStart_eq_filter hseen
  cases h : atStart seen.length group with
  | nil => simp [h, startVerdict] at hv
  | cons c rest =>
      rw [h] at hv hstart
      cases rest with
      | nil =>
          obtain rfl := List.mem_singleton.1 hv
          have hmem : c ∈ group.filter (·.occurrence.context = seen) := by
            rw [← hstart]; exact List.mem_singleton_self c
          rw [List.mem_filter, decide_eq_true_eq] at hmem
          obtain ⟨d, hd, hne⟩ := exists_rival hnodup hlen c
          refine ⟨hmem.1, Nat.le_refl _, by rw [hmem.2], ?_, ?_⟩
          · -- every rival begins with the whole context of `c`
            refine sharedDepth_eq ⟨d, hd, hne, ?_⟩ fun x _ _ => ?_
            · rw [le_agreement_iff, hmem.2, List.take_length]
              exact ⟨Nat.le_refl _, hseen d hd⟩
            · have := agreement_le_length c.occurrence.context x.occurrence.context
              rwa [hmem.2] at this ⊢
          · intro x hx hctx
            have : x ∈ group.filter (·.occurrence.context = seen) := by
              rw [List.mem_filter, decide_eq_true_eq]
              exact ⟨hx, hctx.trans hmem.2⟩
            rw [← hstart] at this
            exact List.mem_singleton.1 this
      | cons d rest =>
          obtain rfl := List.mem_singleton.1 hv
          exact ⟨by simp, seen, hstart⟩

/-- A member whose next symbol nobody else has is settled by it. -/
theorem holds_bySuffix (hnodup : group.Nodup) (hlen : 2 ≤ group.length) {s : Symbol}
    {c : Candidate} (halone : atSymbol seen.length s group = [c]) :
    (Verdict.bySuffix c seen.length).Holds seen.length group := by
  have hc : c ∈ atSymbol seen.length s group := by rw [halone]; exact List.mem_singleton_self c
  obtain ⟨hgroup, hpre⟩ := (mem_atSymbol hseen).1 hc
  have hlt : seen.length < c.occurrence.context.length := by
    have := hpre.length_le
    rw [List.length_append, List.length_singleton] at this
    omega
  obtain ⟨d, hd, hne⟩ := exists_rival hnodup hlen c
  refine ⟨hgroup, Nat.le_refl _, hlt, sharedDepth_eq ⟨d, hd, hne, ?_⟩ fun x hx hxne => ?_⟩
  · rw [le_agreement_iff, ← List.prefix_iff_eq_take.1 (hseen c hgroup)]
    exact ⟨Nat.le_of_lt hlt, hseen d hd⟩
  · refine agreement_le_of_not_begins hpre fun hxpre => hxne ?_
    have := (mem_atSymbol hseen).2 ⟨hx, hxpre⟩
    rw [halone] at this
    exact List.mem_singleton.1 this

end Holds

/-! ## the whole walk -/

/-- Every verdict of a walk over several candidates holds. -/
theorem holds_of_mem_distinguish {height : Nat} {seen : List Symbol} {group : List Candidate}
    (hseen : ∀ c ∈ group, seen <+: c.occurrence.context) (hnodup : group.Nodup)
    (hlen : 2 ≤ group.length) {v : Verdict} (hv : v ∈ distinguish height seen.length group) :
    v.Holds seen.length group := by
  induction height generalizing seen group with
  | zero => exact holds_of_mem_startVerdict hseen hnodup hlen hv
  | succ height ih =>
      rw [distinguish, List.mem_append, List.mem_flatMap] at hv
      rcases hv with hv | ⟨s, hs, hv⟩
      · exact holds_of_mem_startVerdict hseen hnodup hlen hv
      · split at hv
        · next c halone =>
            obtain rfl := List.mem_singleton.1 hv
            exact holds_bySuffix hseen hnodup hlen halone
        · next hseveral =>
            -- the members that agree on one symbol more are a smaller group
            have hsub : ∀ c ∈ atSymbol seen.length s group,
                seen ++ [s] <+: c.occurrence.context :=
              fun c hc => ((mem_atSymbol hseen).1 hc).2
            have hlen' := two_le_length_atSymbol hseen hs hseveral
            have hdepth : (seen ++ [s]).length = seen.length + 1 := by simp
            rw [← hdepth] at hv
            have hv' := ih hsub (hnodup.sublist List.filter_sublist) hlen' hv
            rw [hdepth] at hv'
            exact Verdict.Holds.of_atSymbol hseen hv'

/-- A verdict is about a candidate when it ties or settles it. -/
def Verdict.About (c : Candidate) (v : Verdict) : Prop :=
  (∃ members, v = .tied members ∧ c ∈ members) ∨ ∃ depth, v.depthFor? c = some depth

/-- The verdict on the members at their start is about each of them. -/
theorem exists_startVerdict {depth : Nat} {members : List Candidate} {c : Candidate}
    (hc : c ∈ members) : ∃ v ∈ startVerdict depth members, v.About c := by
  match members, hc with
  | [d], hc =>
      obtain rfl := List.mem_singleton.1 hc
      exact ⟨_, List.mem_singleton_self _, Or.inr ⟨depth, if_pos rfl⟩⟩
  | x :: y :: rest, hc => exact ⟨_, List.mem_singleton_self _, Or.inl ⟨_, rfl, hc⟩⟩

/-- No member goes without a verdict, the walk being high enough for every
context. -/
theorem exists_verdict {height : Nat} {seen : List Symbol} {group : List Candidate}
    (hseen : ∀ c ∈ group, seen <+: c.occurrence.context)
    (hheight : ∀ c ∈ group, c.occurrence.context.length ≤ seen.length + height)
    {c : Candidate} (hc : c ∈ group) : ∃ v ∈ distinguish height seen.length group, v.About c := by
  induction height generalizing seen group with
  | zero =>
      have hctx : c.occurrence.context = seen :=
        ((hseen c hc).eq_of_length_le (hheight c hc)).symm
      refine exists_startVerdict ?_
      rw [atStart_eq_filter hseen, List.mem_filter, decide_eq_true_eq]
      exact ⟨hc, hctx⟩
  | succ height ih =>
      simp only [distinguish, List.mem_append, List.mem_flatMap]
      by_cases hctx : c.occurrence.context = seen
      · have hstart : c ∈ atStart seen.length group := by
          rw [atStart_eq_filter hseen, List.mem_filter, decide_eq_true_eq]
          exact ⟨hc, hctx⟩
        obtain ⟨v, hv, habout⟩ : ∃ v ∈ startVerdict seen.length (atStart seen.length group),
            v.About c := exists_startVerdict hstart
        exact ⟨v, Or.inl hv, habout⟩
      · -- the context goes on, so the verdict is among those of its next symbol
        obtain ⟨s, hs⟩ : ∃ s, c.occurrence.symbolBefore seen.length = some s := by
          rw [← Option.isSome_iff_exists, ← Option.ne_none_iff_isSome, Ne,
            symbolBefore_eq_none_of_begins (hseen c hc)]
          exact hctx
        have hpre := (symbolBefore_eq_some_of_begins (hseen c hc)).1 hs
        have hmem : c ∈ atSymbol seen.length s group := (mem_atSymbol hseen).2 ⟨hc, hpre⟩
        have hsym : s ∈ (symbolsAt seen.length group).toList :=
          (mem_symbolsAt hseen).2 ⟨c, hc, hpre⟩
        by_cases halone : ∃ d, atSymbol seen.length s group = [d]
        · obtain ⟨d, hd⟩ := halone
          obtain rfl := List.mem_singleton.1 (hd ▸ hmem)
          refine ⟨.bySuffix c seen.length, Or.inr ⟨s, hsym, ?_⟩, Or.inr ⟨_, if_pos rfl⟩⟩
          simp only [hd, List.mem_singleton]
        · have hdepth : (seen ++ [s]).length = seen.length + 1 := by simp
          have hshorter : ∀ d ∈ atSymbol seen.length s group,
              d.occurrence.context.length ≤ (seen ++ [s]).length + height := by
            intro d hd
            have := hheight d ((mem_atSymbol hseen).1 hd).1
            omega
          obtain ⟨v, hv, habout⟩ := ih (fun d hd => ((mem_atSymbol hseen).1 hd).2) hshorter hmem
          refine ⟨v, Or.inr ⟨s, hsym, ?_⟩, habout⟩
          split
          · next d hd => exact absurd ⟨d, hd⟩ halone
          · rw [← hdepth]
            exact hv

/-! ## the verdicts on a part -/

theorem length_context_le_longestContext {part : List Candidate} {c : Candidate} (hc : c ∈ part) :
    c.occurrence.context.length ≤ longestContext part := by
  rw [longestContext, le_foldr_max_iff (by simp)]
  exact ⟨c, hc, Nat.le_refl _⟩

section Part

variable {part : List Candidate}

/-- The verdicts on a part hold of it. -/
theorem holds_of_mem_verdictsOf (hnodup : part.Nodup) {v : Verdict} (hv : v ∈ verdictsOf part) :
    v.Holds 0 part := by
  rw [verdictsOf] at hv
  split at hv
  · contradiction
  · exact holds_of_mem_distinguish (fun _ _ => List.nil_prefix) hnodup (by omega) hv

/-- Every member of a part of several has a verdict. -/
theorem exists_mem_verdictsOf (hlen : 2 ≤ part.length) {c : Candidate} (hc : c ∈ part) :
    ∃ v ∈ verdictsOf part, v.About c := by
  rw [verdictsOf, if_neg (by omega)]
  have hseen : ∀ d ∈ part, [] <+: d.occurrence.context := fun _ _ => List.nil_prefix
  refine exists_verdict hseen (fun d hd => ?_) hc
  rw [List.length_nil, Nat.zero_add]
  exact length_context_le_longestContext hd

/-- A member that has the context of another one is tied. -/
theorem exists_tied_of_context_eq (hnodup : part.Nodup) {c d : Candidate} (hc : c ∈ part)
    (hd : d ∈ part) (hne : c ≠ d) (hctx : c.occurrence.context = d.occurrence.context) :
    ∃ members, Verdict.tied members ∈ verdictsOf part ∧ c ∈ members := by
  obtain ⟨v, hv, habout⟩ := exists_mem_verdictsOf (two_le_length hc hd hne) hc
  have hholds := holds_of_mem_verdictsOf hnodup hv
  rcases habout with ⟨members, rfl, hmem⟩ | ⟨depth, hdepth⟩
  · exact ⟨members, hv, hmem⟩
  · -- a settled member cannot have the context of another
    exfalso
    cases v with
    | tied members => simp [Verdict.depthFor?] at hdepth
    | byStart x k =>
        simp only [Verdict.depthFor?, Option.ite_none_right_eq_some] at hdepth
        obtain ⟨rfl, -⟩ := hdepth
        exact hne (hholds.2.2.2.2 d hd hctx.symm).symm
    | bySuffix x k =>
        simp only [Verdict.depthFor?, Option.ite_none_right_eq_some] at hdepth
        obtain ⟨rfl, -⟩ := hdepth
        obtain ⟨-, -, hlt, hshared⟩ := hholds
        have hagree : x.occurrence.context.length ≤
            agreement x.occurrence.context d.occurrence.context := by
          rw [le_agreement_iff, List.take_length, hctx]
          exact ⟨Nat.le_refl _, List.prefix_rfl⟩
        have := agreement_le_sharedDepth hd hne.symm
        omega

/-- Something is tied exactly when two members have the same context. -/
theorem exists_tied_iff (hnodup : part.Nodup) :
    (∃ members, Verdict.tied members ∈ verdictsOf part) ↔
      ∃ c ∈ part, ∃ d ∈ part, c ≠ d ∧ c.occurrence.context = d.occurrence.context := by
  constructor
  · rintro ⟨members, hv⟩
    obtain ⟨hlen, context, hmembers⟩ := holds_of_mem_verdictsOf hnodup hv
    have hmem : ∀ c ∈ members, c ∈ part ∧ c.occurrence.context = context := by
      intro c hc
      rwa [hmembers, List.mem_filter, decide_eq_true_eq] at hc
    have hnodup' : members.Nodup := hmembers ▸ hnodup.sublist List.filter_sublist
    obtain ⟨c, hc⟩ := List.exists_mem_of_length_pos (by omega : 0 < members.length)
    obtain ⟨d, hd, hne⟩ := exists_rival hnodup' hlen c
    exact ⟨c, (hmem c hc).1, d, (hmem d hd).1, hne.symm, (hmem c hc).2.trans (hmem d hd).2.symm⟩
  · rintro ⟨c, hc, d, hd, hne, hctx⟩
    obtain ⟨members, hv, -⟩ := exists_tied_of_context_eq hnodup hc hd hne hctx
    exact ⟨members, hv⟩

/-- The depth a verdict gives a member is one symbol more than the member shares
with a rival, as far as its context goes. -/
theorem eq_of_depthFor? (hnodup : part.Nodup) {v : Verdict} (hv : v ∈ verdictsOf part)
    {c : Candidate} {depth : Nat} (h : v.depthFor? c = some depth) :
    c ∈ part ∧ depth = min (sharedDepth part c + 1) c.occurrence.context.length := by
  have hholds := holds_of_mem_verdictsOf hnodup hv
  cases v with
  | tied members => simp [Verdict.depthFor?] at h
  | byStart x k =>
      simp only [Verdict.depthFor?, Option.ite_none_right_eq_some, Option.some.injEq] at h
      obtain ⟨rfl, rfl⟩ := h
      obtain ⟨hmem, -, hlen, hshared, -⟩ := hholds
      exact ⟨hmem, by omega⟩
  | bySuffix x k =>
      simp only [Verdict.depthFor?, Option.ite_none_right_eq_some, Option.some.injEq] at h
      obtain ⟨rfl, rfl⟩ := h
      obtain ⟨hmem, -, hlt, hshared⟩ := hholds
      exact ⟨hmem, by omega⟩

/-- Where no other member has its context, a member of a part of several has to
match one symbol more than it shares with a rival, as far as its context
goes. -/
theorem exists_depthFor? (hnodup : part.Nodup) {c : Candidate} (hc : c ∈ part)
    (hlen : 2 ≤ part.length)
    (halone : ∀ x ∈ part, x.occurrence.context = c.occurrence.context → x = c) :
    ∃ v ∈ verdictsOf part,
      v.depthFor? c = some (min (sharedDepth part c + 1) c.occurrence.context.length) := by
  obtain ⟨v, hv, habout⟩ := exists_mem_verdictsOf hlen hc
  rcases habout with ⟨members, rfl, hmem⟩ | ⟨depth, hdepth⟩
  · obtain ⟨htwo, context, hmembers⟩ := holds_of_mem_verdictsOf hnodup hv
    have hnodup' : members.Nodup := hmembers ▸ hnodup.sublist List.filter_sublist
    obtain ⟨d, hd, hne⟩ := exists_rival hnodup' htwo c
    rw [hmembers, List.mem_filter, decide_eq_true_eq] at hmem hd
    exact absurd (halone d hd.1 (hd.2.trans hmem.2.symm)) hne
  · exact ⟨v, hv, by rw [hdepth, (eq_of_depthFor? hnodup hv hdepth).2]⟩

end Part

/-! ## all candidates of a symbol -/

section Symbol

variable {candidates : List Candidate}

theorem mem_partWith {l : Option Symbol} {c : Candidate} :
    c ∈ partWith candidates l ↔ c ∈ candidates ∧ c.action.lookahead = l := by
  rw [partWith, List.mem_filter, decide_eq_true_eq]

theorem mem_lookaheads {l : Option Symbol} :
    l ∈ lookaheads candidates ↔ ∃ c ∈ candidates, c.action.lookahead = l := by
  cases l with
  | none => simp [lookaheads]
  | some s => simp [lookaheads]

/-- How many symbols of its context a candidate has to match. -/
def matchDepth (candidates : List Candidate) (c : Candidate) : Nat :=
  (((lookaheads candidates).flatMap fun l => verdictsOf (partWith candidates l)).findSome?
    (·.depthFor? c)).getD 0

theorem resolve_eq (candidates : List Candidate) :
    resolve candidates = candidates.map fun c => c.withMatched (matchDepth candidates c) := rfl

variable (hnodup : candidates.Nodup)

include hnodup

theorem nodup_partWith (l : Option Symbol) : (partWith candidates l).Nodup :=
  hnodup.sublist List.filter_sublist

/-- Nothing is tied exactly when lookahead and context together tell all
candidates apart. -/
theorem tie?_eq_none_iff :
    tie? candidates = none ↔
      ∀ c ∈ candidates, ∀ d ∈ candidates, c.action.lookahead = d.action.lookahead →
        c.occurrence.context = d.occurrence.context → c = d := by
  rw [tie?, List.findSome?_eq_none_iff]
  constructor
  · intro h c hc d hd hlook hctx
    refine Decidable.byContradiction fun hne => ?_
    obtain ⟨members, hmem⟩ := (exists_tied_iff (nodup_partWith hnodup c.action.lookahead)).2
      ⟨c, mem_partWith.2 ⟨hc, rfl⟩, d, mem_partWith.2 ⟨hd, hlook.symm⟩, hne, hctx⟩
    have hnone := List.findSome?_eq_none_iff.1 (h _ (mem_lookaheads.2 ⟨c, hc, rfl⟩)) _ hmem
    simp [Verdict.tie?] at hnone
  · intro h l _
    refine List.findSome?_eq_none_iff.2 fun v hv => ?_
    cases v with
    | tied members =>
        obtain ⟨c, hc, d, hd, hne, hctx⟩ :=
          (exists_tied_iff (nodup_partWith hnodup l)).1 ⟨members, hv⟩
        rw [mem_partWith] at hc hd
        exact absurd (h c hc.1 d hd.1 (hc.2.trans hd.2.symm) hctx) hne
    | byStart c k => rfl
    | bySuffix c k => rfl

/-- A candidate without rivals has nothing to match. -/
theorem matchDepth_of_alone {c : Candidate}
    (halone : rivals (partWith candidates c.action.lookahead) c = []) :
    matchDepth candidates c = 0 := by
  have hnone : ((lookaheads candidates).flatMap fun l =>
      verdictsOf (partWith candidates l)).findSome? (·.depthFor? c) = none := by
    refine List.findSome?_eq_none_iff.2 fun v hv => ?_
    obtain ⟨l, -, hv⟩ := List.mem_flatMap.1 hv
    refine Option.eq_none_iff_forall_ne_some.2 fun depth hdepth => ?_
    have hmem := (eq_of_depthFor? (nodup_partWith hnodup l) hv hdepth).1
    obtain rfl := (mem_partWith.1 hmem).2
    -- a part with a verdict has several members, so `c` has a rival there
    have hlen : 2 ≤ (partWith candidates c.action.lookahead).length := by
      rw [verdictsOf] at hv
      split at hv
      · contradiction
      · omega
    obtain ⟨d, hd, hne⟩ := exists_rival (nodup_partWith hnodup _) hlen c
    have := mem_rivals.2 ⟨hd, hne⟩
    rw [halone] at this
    contradiction
  rw [matchDepth, hnone]
  rfl

/-- A candidate with rivals has to match one symbol more than it shares with any
of them, as far as its context goes. -/
theorem matchDepth_of_rivals (htie : tie? candidates = none) {c : Candidate}
    (hc : c ∈ candidates) (hrivals : rivals (partWith candidates c.action.lookahead) c ≠ []) :
    matchDepth candidates c =
      min (sharedDepth (partWith candidates c.action.lookahead) c + 1)
        c.occurrence.context.length := by
  have hpart : c ∈ partWith candidates c.action.lookahead := mem_partWith.2 ⟨hc, rfl⟩
  have hlen : 2 ≤ (partWith candidates c.action.lookahead).length := by
    obtain ⟨d, hd⟩ := List.exists_mem_of_ne_nil _ hrivals
    obtain ⟨hd, hne⟩ := mem_rivals.1 hd
    exact two_le_length hd hpart hne
  have halone : ∀ x ∈ partWith candidates c.action.lookahead,
      x.occurrence.context = c.occurrence.context → x = c := by
    intro x hx hctx
    rw [mem_partWith] at hx
    exact (tie?_eq_none_iff hnodup).1 htie x hx.1 c hc hx.2 hctx
  obtain ⟨v, hv, hdepth⟩ := exists_depthFor? (nodup_partWith hnodup _) hpart hlen halone
  -- all verdicts about `c` agree, so the first one found is as good as `v`
  cases hfound : ((lookaheads candidates).flatMap fun l =>
      verdictsOf (partWith candidates l)).findSome? (·.depthFor? c) with
  | none =>
      have hmem : v ∈ (lookaheads candidates).flatMap fun l =>
          verdictsOf (partWith candidates l) :=
        List.mem_flatMap.2 ⟨_, mem_lookaheads.2 ⟨c, hc, rfl⟩, hv⟩
      have := List.findSome?_eq_none_iff.1 hfound v hmem
      rw [hdepth] at this
      contradiction
  | some depth =>
      obtain ⟨w, hw, hwdepth⟩ := List.exists_of_findSome?_eq_some hfound
      obtain ⟨l, -, hw⟩ := List.mem_flatMap.1 hw
      obtain ⟨hmem, hk⟩ := eq_of_depthFor? (nodup_partWith hnodup l) hw hwdepth
      obtain rfl := (mem_partWith.1 hmem).2
      rw [matchDepth, hfound, Option.getD_some, hk]

end Symbol

end ForkParser.Suffix
