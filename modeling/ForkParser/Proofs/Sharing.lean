import ForkParser.Proofs.Derivation
import ForkParser.Proofs.Failure
import ForkParser.Proofs.Invariant
import ForkParser.Token.Assembly
import Mathlib.Data.List.Nodup

/-!
# ForkParser.Proofs.Sharing

When a parse finds that a token is shared.

A token may be shared by several parents, and then several paths lead to it.  The
identities in some tokens are all different exactly when no two paths lead to one token
(`Token.reachedTwice_iff`), and a walk of a token succeeds exactly then
(`Token.nodup_of_visit`).  An accepted branch has a single token on its stack, and the
identities in it are those of the whole input and one for each reduction
(`Parser.Reaches.perm_of_accepted`).  The reductions are new tokens, so the tree of an
accepted branch shows a shared token exactly when the input has one.
-/

namespace ForkParser

namespace Token

/-! ## paths -/

/-- The token that a path leads to.  A path gives the number of the child to go to, from
one token to the next. -/
def along? (t : Token) : List Nat → Option Token
  | [] => some t
  | i :: path => t.children[i]?.bind fun c => c.along? path

/-- The token that a path leads to from a list of tokens.  The path begins with the number
of the token to start at. -/
def reach? (ts : List Token) : List Nat → Option Token
  | [] => none
  | i :: path => ts[i]?.bind fun t => t.along? path

/-- Two different paths lead to one token. -/
def ReachedTwice (ts : List Token) : Prop :=
  ∃ path path' t t', path ≠ path' ∧ reach? ts path = some t ∧ reach? ts path' = some t' ∧
    t.origin = t'.origin

theorem reach?_eq_some_iff {ts : List Token} {path : List Nat} {u : Token} :
    reach? ts path = some u ↔
      ∃ i below t, path = i :: below ∧ ts[i]? = some t ∧ t.along? below = some u := by
  cases path with
  | nil => simp [reach?]
  | cons i path => simp [reach?, Option.bind_eq_some_iff]

theorem origins_eq (t : Token) : t.origins = t.origin :: t.children.flatMap origins := by
  cases t with
  | leaf l text => rfl
  | node l cs => rw [origins, originsAll_eq]; rfl

/-- What is reached from some tokens are the identities in them, if that is so for each of
them. -/
theorem mem_flatMap_origins_of_forall {ts : List Token} {o : Origin}
    (h : ∀ t ∈ ts, o ∈ t.origins ↔ ∃ path u, t.along? path = some u ∧ u.origin = o) :
    o ∈ ts.flatMap origins ↔ ∃ path u, reach? ts path = some u ∧ u.origin = o := by
  simp only [List.mem_flatMap, reach?_eq_some_iff]
  constructor
  · rintro ⟨t, ht, ho⟩
    obtain ⟨path, u, hpath, hu⟩ := (h t ht).1 ho
    obtain ⟨i, hi⟩ := List.mem_iff_getElem?.1 ht
    exact ⟨i :: path, u, ⟨i, path, t, rfl, hi, hpath⟩, hu⟩
  · rintro ⟨_, u, ⟨i, path, t, rfl, hi, hpath⟩, hu⟩
    have ht := List.mem_of_getElem? hi
    exact ⟨t, ht, (h t ht).2 ⟨path, u, hpath, hu⟩⟩

/-- What holds of a token whenever it holds of its children holds of all tokens. -/
theorem children_induction {motive : Token → Prop}
    (step : ∀ t, (∀ c ∈ t.children, motive c) → motive t) (t : Token) : motive t :=
  Token.induction (fun l text => step (.leaf l text) nofun) (fun l cs => step (.node l cs)) t

/-- The identities in a token are those of the tokens that paths lead to. -/
theorem mem_origins_iff (t : Token) (o : Origin) :
    o ∈ t.origins ↔ ∃ path u, t.along? path = some u ∧ u.origin = o := by
  induction t using children_induction with
  | step t ih =>
      rw [origins_eq, List.mem_cons, mem_flatMap_origins_of_forall ih]
      constructor
      · rintro (rfl | ⟨path, u, hpath, hu⟩)
        · exact ⟨[], t, rfl, rfl⟩
        · obtain ⟨i, below, c, rfl, -⟩ := reach?_eq_some_iff.1 hpath
          exact ⟨i :: below, u, hpath, hu⟩
      · rintro ⟨path, u, hpath, hu⟩
        cases path with
        | nil =>
            obtain rfl := Option.some.inj hpath
            exact Or.inl hu.symm
        | cons i path => exact Or.inr ⟨i :: path, u, hpath, hu⟩

theorem mem_flatMap_origins (ts : List Token) (o : Origin) :
    o ∈ ts.flatMap origins ↔ ∃ path u, reach? ts path = some u ∧ u.origin = o :=
  mem_flatMap_origins_of_forall fun t _ => t.mem_origins_iff o

/-! ## one path to each token -/

/-- No two paths lead from the token to one token. -/
def OnePath (t : Token) : Prop :=
  ∀ path path' u u', t.along? path = some u → t.along? path' = some u' → u.origin = u'.origin →
    path = path'

/-- No two paths lead from the tokens to one token. -/
def OnePathAll (ts : List Token) : Prop :=
  ∀ path path' u u', reach? ts path = some u → reach? ts path' = some u' → u.origin = u'.origin →
    path = path'

theorem reachedTwice_iff_not (ts : List Token) : ReachedTwice ts ↔ ¬ OnePathAll ts := by
  simp only [ReachedTwice, OnePathAll, not_forall, exists_prop]
  constructor
  · rintro ⟨path, path', t, t', hne, ht, ht', horigin⟩
    exact ⟨path, path', t, t', ht, ht', horigin, hne⟩
  · rintro ⟨path, path', t, t', ht, ht', horigin, hne⟩
    exact ⟨path, path', t, t', hne, ht, ht', horigin⟩

/-- One path leads to each token from a list if one does from each of its members, and no
identity is in two of them. -/
theorem onePathAll_iff (ts : List Token) :
    OnePathAll ts ↔ (∀ t ∈ ts, t.OnePath) ∧
      ts.Pairwise fun t t' => List.Disjoint t.origins t'.origins := by
  constructor
  · intro h
    refine ⟨fun t ht path path' u u' hpath hpath' horigin => ?_, ?_⟩
    · obtain ⟨i, hi⟩ := List.mem_iff_getElem?.1 ht
      have hsame := h (i :: path) (i :: path') u u'
        (reach?_eq_some_iff.2 ⟨i, path, t, rfl, hi, hpath⟩)
        (reach?_eq_some_iff.2 ⟨i, path', t, rfl, hi, hpath'⟩) horigin
      exact (List.cons.inj hsame).2
    · rw [List.pairwise_iff_getElem]
      intro i j hi hj hlt o ho ho'
      obtain ⟨path, u, hpath, hu⟩ := (mem_origins_iff _ o).1 ho
      obtain ⟨path', u', hpath', hu'⟩ := (mem_origins_iff _ o).1 ho'
      have hsame := h (i :: path) (j :: path') u u'
        (reach?_eq_some_iff.2 ⟨i, path, _, rfl, List.getElem?_eq_getElem hi, hpath⟩)
        (reach?_eq_some_iff.2 ⟨j, path', _, rfl, List.getElem?_eq_getElem hj, hpath'⟩)
        (hu.trans hu'.symm)
      have := (List.cons.inj hsame).1
      omega
  · rintro ⟨hone, hapart⟩ _ _ u u' hreach hreach' horigin
    obtain ⟨i, path, t, rfl, hi, hpath⟩ := reach?_eq_some_iff.1 hreach
    obtain ⟨j, path', t', rfl, hj, hpath'⟩ := reach?_eq_some_iff.1 hreach'
    have hmem := (mem_origins_iff t u.origin).2 ⟨path, u, hpath, rfl⟩
    have hmem' := (mem_origins_iff t' u.origin).2 ⟨path', u', hpath', horigin.symm⟩
    obtain ⟨hlt, rfl⟩ := List.getElem?_eq_some_iff.1 hi
    obtain ⟨hlt', rfl⟩ := List.getElem?_eq_some_iff.1 hj
    rw [List.pairwise_iff_getElem] at hapart
    rcases Nat.lt_trichotomy i j with hij | rfl | hji
    · exact absurd hmem' (hapart i j hlt hlt' hij hmem)
    · rw [hone _ (List.getElem_mem hlt) path path' u u' hpath hpath' horigin]
    · exact absurd hmem (hapart j i hlt' hlt hji hmem')

/-- One path leads to each token from a token if one does from its children, and none
leads back to the token itself. -/
theorem onePath_iff (t : Token) :
    t.OnePath ↔ t.origin ∉ t.children.flatMap origins ∧ OnePathAll t.children := by
  constructor
  · intro h
    refine ⟨fun hmem => ?_, fun path path' u u' hpath hpath' horigin => ?_⟩
    · obtain ⟨path, u, hpath, hu⟩ := (mem_flatMap_origins _ _).1 hmem
      obtain ⟨i, below, -, rfl, -⟩ := reach?_eq_some_iff.1 hpath
      exact List.cons_ne_nil i below (h (i :: below) [] u t hpath rfl hu)
    · obtain ⟨i, below, -, rfl, -⟩ := reach?_eq_some_iff.1 hpath
      obtain ⟨j, below', -, rfl, -⟩ := reach?_eq_some_iff.1 hpath'
      exact h _ _ u u' hpath hpath' horigin
  · rintro ⟨hself, hone⟩ path path' u u' hpath hpath' horigin
    match path, path' with
    | [], [] => rfl
    | i :: path, j :: path' => exact hone _ _ u u' hpath hpath' horigin
    | [], j :: path' =>
        obtain rfl := Option.some.inj hpath
        exact absurd ((mem_flatMap_origins _ _).2 ⟨j :: path', u', hpath', horigin.symm⟩) hself
    | i :: path, [] =>
        obtain rfl := Option.some.inj hpath'
        exact absurd ((mem_flatMap_origins _ _).2 ⟨i :: path, u, hpath, horigin⟩) hself

theorem nodup_flatMap_origins_of_forall {ts : List Token}
    (h : ∀ t ∈ ts, t.origins.Nodup ↔ t.OnePath) : (ts.flatMap origins).Nodup ↔ OnePathAll ts := by
  rw [List.nodup_flatMap, onePathAll_iff]
  exact and_congr_left' (forall₂_congr h)

/-- The identities in a token are all different exactly when no two paths lead from it to
one token. -/
theorem nodup_origins_iff (t : Token) : t.origins.Nodup ↔ t.OnePath := by
  induction t using children_induction with
  | step t ih =>
      rw [origins_eq, List.nodup_cons, onePath_iff, nodup_flatMap_origins_of_forall ih]

/-- Some token is reached along two paths exactly when the identities are not all
different. -/
theorem reachedTwice_iff (ts : List Token) :
    ReachedTwice ts ↔ ¬ (ts.flatMap origins).Nodup := by
  rw [reachedTwice_iff_not, nodup_flatMap_origins_of_forall fun t _ => t.nodup_origins_iff]

/-! ## walks that succeed -/

mutual

/-- A walk that succeeds has met no identity twice. -/
theorem nodup_of_visit : (t : Token) → {seen seen' : List Origin} → seen.Nodup →
    t.visit seen = .ok seen' → seen' = t.origins.reverse ++ seen ∧ seen'.Nodup
  | leaf l text, seen, seen', hseen, h => by
      rw [visit] at h
      split at h
      · contradiction
      · next hnew =>
          obtain rfl := Except.ok.inj h
          exact ⟨rfl, List.nodup_cons.2 ⟨hnew, hseen⟩⟩
  | node l cs, seen, seen', hseen, h => by
      rw [visit] at h
      split at h
      · contradiction
      · next hnew =>
          obtain ⟨rfl, hnodup⟩ := nodup_of_visitAll cs (List.nodup_cons.2 ⟨hnew, hseen⟩) h
          refine ⟨?_, hnodup⟩
          rw [origins, List.reverse_cons, List.append_assoc]
          rfl

theorem nodup_of_visitAll : (ts : List Token) → {seen seen' : List Origin} → seen.Nodup →
    visitAll seen ts = .ok seen' → seen' = (originsAll ts).reverse ++ seen ∧ seen'.Nodup
  | [], seen, seen', hseen, h => by
      obtain rfl := Except.ok.inj h
      exact ⟨rfl, hseen⟩
  | t :: ts, seen, seen', hseen, h => by
      rw [visitAll] at h
      split at h
      · contradiction
      · next seen₁ hfirst =>
          obtain ⟨rfl, hnodup⟩ := nodup_of_visit t hseen hfirst
          obtain ⟨rfl, hnodup'⟩ := nodup_of_visitAll ts hnodup h
          refine ⟨?_, hnodup'⟩
          rw [originsAll, List.reverse_append, List.append_assoc]

end

/-- A token has a tree only if the identities in it are all different. -/
theorem nodup_of_tree {t : Token} {tree : Tree} (h : t.tree = .ok tree) : t.origins.Nodup := by
  unfold Token.tree at h
  split at h
  · contradiction
  · next seen hvisit =>
      obtain ⟨rfl, hnodup⟩ := t.nodup_of_visit List.nodup_nil hvisit
      rw [List.append_nil] at hnodup
      exact List.nodup_reverse.1 hnodup

end Token

/-! ## accepted branches -/

/-- An accepted branch has one token on its stack and has taken all of the input. -/
theorem Branch.Effect.whole {start : Symbol} {input : Array Token} {b b' : Branch} {move : Move}
    (h : b.Effect start input move b') (hactive : b.isActive = true)
    (haccepted : b'.isAccepted = true) :
    ∃ token, b'.stack.items = [token] ∧ b'.index = input.size := by
  have hstatus : b.status = .active := by simpa [isActive] using hactive
  cases h with
  | taken => simp [isAccepted, taking, hstatus] at haccepted
  | exhausted => contradiction
  | mismatched => contradiction
  | reduced => simp [isAccepted, reducing, hstatus] at haccepted
  | accepted hitems hsymbols hstart hend => exact ⟨_, rfl, hend⟩
  | refused => contradiction

namespace Parser

variable {p : Parser} {input : Array Token}

/-- The identities in the one token of an accepted branch are those of the input and one
for each reduction. -/
theorem Reaches.perm_of_accepted {n : Nat} {b : Branch} (h : p.Reaches input (n + 1) b)
    (haccepted : b.isAccepted = true) :
    ∃ token, b.stack.items = [token] ∧ token.origins.Perm
      (input.toList.flatMap Token.origins ++ (List.range b.reductions).map Origin.reduction) := by
  have haccounted := h.accounted
  obtain ⟨first, hfirst, hrun⟩ := h
  cases hrun with
  | step hrun hactive hstep =>
      have hcommitted := (Reaches.accounted (p := p) ⟨first, hfirst, hrun⟩).committed
      obtain ⟨token, hitems, hend⟩ : ∃ token, b.stack.items = [token] ∧ b.index = input.size := by
        rcases mem_step hstep with ⟨e, rfl⟩ | ⟨top, c, -, -, rfl⟩
        · contradiction
        · exact (effect_follow hcommitted c).whole hactive haccepted
      have hperm := haccounted.origins_perm
      rw [hitems, List.flatMap_singleton, hend, ← Array.length_toList, List.take_length] at hperm
      exact ⟨token, hitems, hperm⟩

end Parser

/-! ## hand-made inputs -/

namespace Token

/-- The tokens below the token were assembled by hand, not by a search. -/
def HandMade (t : Token) : Prop := ∀ c ∈ t.children, ∀ o ∈ c.origins, ∃ number, o = .made number

theorem origins_withLabel (t : Token) (l : Label) :
    (t.withLabel l).origins = l.origin :: t.children.flatMap origins := by
  rw [origins_eq]
  cases t <;> rfl

/-- Every identity in the token is one of a hand-made token. -/
def Made (t : Token) : Prop := ∀ o ∈ t.origins, ∃ number, o = .made number

theorem Made.handMade {t : Token} (h : t.Made) : t.HandMade := by
  intro c hc o ho
  refine h o ?_
  rw [origins_eq]
  exact List.mem_cons_of_mem _ (List.mem_flatMap.2 ⟨c, hc, ho⟩)

/-- Tokens looked up by number are among those that are there. -/
theorem mem_of_mapM_getElem? {earlier : Array Token} {numbers : List Nat} {ts : List Token}
    (h : numbers.mapM (earlier[·]?) = some ts) : ∀ t ∈ ts, t ∈ earlier := by
  induction numbers generalizing ts with
  | nil =>
      obtain rfl := Option.some.inj h
      exact nofun
  | cons n numbers ih =>
      simp only [List.mapM_cons, Option.bind_eq_bind, Option.bind_eq_some_iff] at h
      obtain ⟨first, hfirst, rest, hrest, hts⟩ := h
      obtain rfl := Option.some.inj hts
      intro t ht
      rcases List.mem_cons.1 ht with rfl | ht
      · exact Array.mem_of_getElem? hfirst
      · exact ih hrest t ht

/-- A token formed from hand-made ones is hand-made. -/
theorem made_of_toToken? {earlier : Array Token} (hearlier : ∀ t ∈ earlier, t.Made) {part : Part}
    {t : Token} (h : part.toToken? earlier = some t) : t.Made := by
  unfold Part.toToken? at h
  cases hshape : part.shape with
  | leaf l =>
      simp only [hshape] at h
      obtain rfl := Option.some.inj h
      intro o ho
      rw [origins_withLabel, List.mem_cons] at ho
      rcases ho with rfl | ho
      · exact ⟨earlier.size, rfl⟩
      · contradiction
  | node s numbers =>
      simp only [hshape, Option.bind_eq_bind, Option.bind_eq_some_iff, Option.map_eq_some_iff] at h
      obtain ⟨_, ⟨children, hchildren, rfl⟩, ht⟩ := h
      obtain rfl := Option.some.inj ht
      intro o ho
      rw [origins_withLabel, List.mem_cons] at ho
      rcases ho with rfl | ho
      · exact ⟨earlier.size, rfl⟩
      · obtain ⟨c, hc, ho⟩ := List.mem_flatMap.1 ho
        exact hearlier c (mem_of_mapM_getElem? hchildren c hc) o ho

/-- Adding tokens to hand-made ones leaves them hand-made. -/
theorem made_of_foldlM {parts : List Part} {earlier tokens : Array Token}
    (hearlier : ∀ t ∈ earlier, t.Made)
    (h : parts.foldlM (fun earlier part => (part.toToken? earlier).map earlier.push) earlier =
      some tokens) : ∀ t ∈ tokens, t.Made := by
  induction parts generalizing earlier with
  | nil =>
      obtain rfl := Option.some.inj h
      exact hearlier
  | cons part parts ih =>
      simp only [List.foldlM_cons, Option.bind_eq_bind, Option.bind_eq_some_iff,
        Option.map_eq_some_iff] at h
      obtain ⟨_, ⟨t, ht, rfl⟩, hrest⟩ := h
      refine ih (fun u hu => ?_) hrest
      rcases Array.mem_push.1 hu with hu | rfl
      · exact hearlier u hu
      · exact made_of_toToken? hearlier ht

/-- The tokens of an assembled graph are hand-made. -/
theorem handMade_of_assemble {parts : List Part} {tokens : Array Token}
    (h : assemble parts = some tokens) : ∀ t ∈ tokens, t.HandMade := by
  have hnone : ∀ t ∈ (#[] : Array Token), t.Made := by simp
  exact fun t ht => (made_of_foldlM hnone h t ht).handMade

end Token

namespace Parser

variable {p : Parser} {tokens : List Token}

/-- No identity in a hand-made input is one of a reduction. -/
theorem ne_reduction_of_mem_inputOf (hmade : ∀ t ∈ tokens, t.HandMade) {o : Origin}
    (ho : o ∈ (inputOf tokens).toList.flatMap Token.origins) (n : Nat) : o ≠ .reduction n := by
  obtain ⟨t, ht, ho⟩ := List.mem_flatMap.1 ho
  rw [inputOf, List.mem_map] at ht
  obtain ⟨⟨u, i⟩, hu, rfl⟩ := ht
  simp only [Token.withOrigin, Token.origins_withLabel, List.mem_cons, List.mem_flatMap] at ho
  rcases ho with rfl | ⟨c, hc, ho⟩
  · simp
  · obtain ⟨number, rfl⟩ := hmade u (List.fst_mem_of_mem_zipIdx hu) c hc o ho
    simp

/-- The one token of a branch that is accepted over a hand-made input has different
identities throughout exactly when the input has. -/
theorem Reaches.nodup_iff_of_accepted (hmade : ∀ t ∈ tokens, t.HandMade) {n : Nat} {b : Branch}
    (h : p.Reaches (inputOf tokens) (n + 1) b) (haccepted : b.isAccepted = true) :
    ∃ token, b.stack.items = [token] ∧
      (token.origins.Nodup ↔ ((inputOf tokens).toList.flatMap Token.origins).Nodup) := by
  obtain ⟨token, hitems, hperm⟩ := h.perm_of_accepted haccepted
  refine ⟨token, hitems, ?_⟩
  rw [hperm.nodup_iff, List.nodup_append]
  refine ⟨And.left, fun hnodup => ⟨hnodup, ?_, ?_⟩⟩
  · exact List.pairwise_map.2 (List.nodup_range.imp fun hne h => hne (Origin.reduction.inj h))
  · intro o ho o' ho'
    obtain ⟨m, -, rfl⟩ := List.mem_map.1 ho'
    exact ne_reduction_of_mem_inputOf hmade ho m

/-- A search over a hand-made input that shares no token turns into a forest. -/
theorem forest_eq_ok (hmade : ∀ t ∈ tokens, t.HandMade) {s : Search}
    (hs : p.search (inputOf tokens) = .ok s)
    (hnodup : ((inputOf tokens).toList.flatMap Token.origins).Nodup) :
    ∃ forest, s.forest = .ok forest := by
  have htrees : s.accepted.mapM Branch.trees =
      .ok (s.accepted.map fun b => b.stack.toList.map Token.shape) := by
    refine mapM_eq_ok fun b hb => ?_
    obtain ⟨k, -, hreach, haccepted⟩ := (mem_accepted_search hs).1 hb
    obtain ⟨token, hitems, hiff⟩ := hreach.nodup_iff_of_accepted hmade haccepted
    refine Branch.trees_eq_ok ?_
    rw [hitems, List.flatMap_singleton]
    exact hiff.2 hnodup
  exact ⟨_, by rw [Search.forest, htrees]⟩

/-- A branch that is accepted over a hand-made input that shares a token does not turn
into trees. -/
theorem Reaches.trees_eq_cycle (hmade : ∀ t ∈ tokens, t.HandMade) {n : Nat} {b : Branch}
    (h : p.Reaches (inputOf tokens) (n + 1) b) (haccepted : b.isAccepted = true)
    (hdup : ¬ ((inputOf tokens).toList.flatMap Token.origins).Nodup) :
    ∃ symbol position, b.trees = .error (.cycle symbol position) := by
  obtain ⟨token, hitems, hiff⟩ := h.nodup_iff_of_accepted hmade haccepted
  cases htrees : b.trees with
  | error e =>
      obtain ⟨symbol, position, rfl⟩ := Branch.exists_cycle_of_trees htrees
      exact ⟨symbol, position, rfl⟩
  | ok trees =>
      cases htree : token.tree with
      | ok tree => exact absurd (hiff.1 (Token.nodup_of_tree htree)) hdup
      | error e =>
          simp only [Branch.trees, hitems, List.mapM_cons, htree] at htrees
          contradiction

/-- A search over a hand-made input that shares a token ends with a cycle, if it accepts
anything. -/
theorem forest_eq_cycle (hmade : ∀ t ∈ tokens, t.HandMade) {s : Search}
    (hs : p.search (inputOf tokens) = .ok s) (haccepted : s.accepted ≠ [])
    (hdup : ¬ ((inputOf tokens).toList.flatMap Token.origins).Nodup) :
    ∃ symbol position, s.forest = .error (.cycle symbol position) := by
  obtain ⟨b, rest, hcons⟩ := List.exists_cons_of_ne_nil haccepted
  have hb : b ∈ s.accepted := by simp [hcons]
  obtain ⟨k, -, hreach, hb⟩ := (mem_accepted_search hs).1 hb
  obtain ⟨symbol, position, htrees⟩ := hreach.trees_eq_cycle hmade hb hdup
  refine ⟨symbol, position, ?_⟩
  rw [Search.forest, hcons, List.mapM_cons, htrees]
  rfl

/-- A parse is the outcome of its search. -/
theorem parse_eq_outcome {s : Search} (hs : p.search (inputOf tokens) = .ok s) :
    p.parse tokens = s.outcome p.settings := by
  cases tokens with
  | nil => contradiction
  | cons t rest =>
      simp only [parse, hs]
      rfl

/-- A search that has accepted nothing does not end with a cycle. -/
theorem failure_ne_cycle {s : Search} {input : Array Token} (hs : p.search input = .ok s)
    (symbol : Symbol) (position : Nat) : s.failure p.settings ≠ .cycle symbol position := by
  rw [Search.failure]
  cases hlimit : s.limit? p.settings with
  | some e =>
      obtain rfl | rfl := Search.eq_of_limit? hlimit
      · simp
      · simp
  | none =>
      cases hdeepest : s.deepest with
      | none => simp
      | some f =>
          have hplace : f.error.AtPlace := located_search hs f hdeepest
          intro h
          have hcycle : f.error = .cycle symbol position := h
          rw [hcycle] at hplace
          exact hplace

/-- **Cycles.**  Over hand-made tokens, where a search accepts anything, the parse ends with
a cycle exactly when two different paths lead from the copied tokens of the input to one
token; otherwise it returns a forest.  No other parse ends with a cycle, and from leaves
no two paths lead to one token. -/
theorem parse_cycle_iff_reachedTwice (table : Table) (limits : Settings) {tokens : List Token}
    (hmade : ∀ t ∈ tokens, t.HandMade) :
    (∀ s, (withLimits table limits).search (inputOf tokens) = .ok s → s.accepted ≠ [] →
      ((∃ symbol position,
          (withLimits table limits).parse tokens = .error (.cycle symbol position)) ↔
        Token.ReachedTwice (inputOf tokens).toList) ∧
      (¬ Token.ReachedTwice (inputOf tokens).toList →
        ∃ forest, (withLimits table limits).parse tokens = .ok forest)) ∧
    (¬ Token.ReachedTwice (inputOf tokens).toList → ∀ symbol position,
      (withLimits table limits).parse tokens ≠ .error (.cycle symbol position)) ∧
    ((∀ t ∈ tokens, t.isLeaf = true) → ¬ Token.ReachedTwice (inputOf tokens).toList) := by
  rw [Token.reachedTwice_iff, not_not]
  refine ⟨fun s hs haccepted => ?_, fun hnodup symbol position => ?_, fun hleaf => ?_⟩
  · have hparse : (withLimits table limits).parse tokens = s.forest := by
      simp [parse_eq_outcome hs, Search.outcome, haccepted]
    by_cases hnodup : ((inputOf tokens).toList.flatMap Token.origins).Nodup
    · obtain ⟨forest, hforest⟩ := forest_eq_ok hmade hs hnodup
      simp [hparse, hforest, hnodup]
    · obtain ⟨symbol, position, hcycle⟩ := forest_eq_cycle hmade hs haccepted hnodup
      simp [hparse, hcycle, hnodup]
  · by_cases hne : tokens = []
    · simp [hne, parse]
    · obtain ⟨s, hs⟩ := exists_search (p := withLimits table limits) hne
      rw [parse_eq_outcome hs, Search.outcome]
      split
      · simpa using failure_ne_cycle hs symbol position
      · obtain ⟨forest, hforest⟩ := forest_eq_ok hmade hs hnodup
        simp [hforest]
  · rw [origins_inputOf hleaf]
    exact List.pairwise_map.2 (List.nodup_range.imp fun hne h => hne (Origin.input.inj h))

/-- A word that is both children of one token, and the end of input. -/
def twinWord : List Token.Part :=
  [⟨.leaf ⟨⟨"W"⟩, "x", 0⟩, none, none⟩, ⟨.node ⟨"a"⟩ [0, 0], none, none⟩,
    ⟨.leaf ⟨⟨"EOF"⟩, "", 1⟩, none, none⟩]

/-- The word is reached by two paths, so the parse of the last two tokens ends with a
cycle although it is accepted. -/
theorem parse_cycle_twinWord :
    ∃ table made s, oneWord.table = .ok table ∧ Token.assemble twinWord = some made ∧
      (withLimits table {}).search (inputOf (made.toList.drop 1)) = .ok s ∧ s.accepted ≠ [] ∧
      Token.ReachedTwice (inputOf (made.toList.drop 1)).toList ∧
      ∃ symbol position,
        (withLimits table {}).parse (made.toList.drop 1) = .error (.cycle symbol position) := by
  have hg : oneWord.table = .ok ⟨oneWord.settings, oneWord.productions, oneWord.buckets⟩ := rfl
  obtain ⟨made, hmade, htwice, s, hs, haccepted⟩ : ∃ made, Token.assemble twinWord = some made ∧
      Token.ReachedTwice (inputOf (made.toList.drop 1)).toList ∧
      ∃ s, (withLimits ⟨oneWord.settings, oneWord.productions, oneWord.buckets⟩ {}).search
        (inputOf (made.toList.drop 1)) = .ok s ∧ s.accepted ≠ [] :=
    ⟨_, rfl, ⟨[0, 0], [0, 1], _, _, by decide, rfl, rfl, rfl⟩, _, rfl, nofun⟩
  have hhand : ∀ t ∈ made.toList.drop 1, t.HandMade := fun t ht =>
    Token.handMade_of_assemble hmade t (Array.mem_toList_iff.1 (List.mem_of_mem_drop ht))
  have hcycle := parse_cycle_iff_reachedTwice
    ⟨oneWord.settings, oneWord.productions, oneWord.buckets⟩ {} hhand
  exact ⟨_, made, s, hg, hmade, hs, haccepted, htwice, (hcycle.1 s hs haccepted).1.2 htwice⟩

end Parser

end ForkParser
