import ForkParser.Proofs.Ambiguity
import ForkParser.Proofs.Choice

/-!
# ForkParser.Proofs.Separation

Which candidates the suffixes leave together.

What a candidate matches is cut off where none of the others agrees with it any more, so
two suffixes may be cut at different lengths, and by other members of their class than
these two.  Still, the overlap of the suffixes says something about the uncut contexts: of
candidates with one lookahead, one that matches no more than a rival's context begins with
is not cut off at all (`Suffix.context_begins_of_matched`).  So two of them overlap only if
the whole context of one begins the other's, and then they do.
-/

namespace ForkParser

namespace Occurrence

/-- The left context of the place ends the left context of the other one, which is
longer. -/
def Ends (o o' : Occurrence) : Prop :=
  o.production.rhs.take (o.pos + 1) <:+ o'.production.rhs.take (o'.pos + 1) ∧
    o.production.rhs.take (o.pos + 1) ≠ o'.production.rhs.take (o'.pos + 1)

instance (o o' : Occurrence) : Decidable (o.Ends o') := inferInstanceAs (Decidable (_ ∧ _))

/-- Read backwards, the one context begins the other. -/
theorem ends_iff {o o' : Occurrence} :
    o.Ends o' ↔ o.context <+: o'.context ∧ o.context ≠ o'.context := by
  rw [Ends, Ne, Ne, context_eq_iff, context, context, List.reverse_prefix]

end Occurrence

namespace Suffix

variable {candidates : List Candidate} (hnodup : candidates.Nodup)
  (htie : tie? candidates = none) {c d : Candidate} (hc : c ∈ candidates) (hd : d ∈ candidates)

include hnodup htie hc hd

/-- A candidate that matches a beginning of a rival's context matches its own context
whole. -/
theorem context_begins_of_matched (hne : d ≠ c)
    (hlook : d.action.lookahead = c.action.lookahead)
    (h : c.occurrence.context.take (matchDepth candidates c) <+: d.occurrence.context) :
    c.occurrence.context <+: d.occurrence.context := by
  have hagree := le_agreement_iff.2 ⟨matchDepth_le_length hnodup htie hc, h⟩
  have hall := matchDepth_of_agreement hnodup htie hc hd hne hlook hagree
  rwa [hall, List.take_length] at h

/-- Candidates with one lookahead that are told apart overlap exactly when the context of one
begins the other's. -/
theorem overlaps_iff_context_begins (hne : c ≠ d)
    (hlook : c.action.lookahead = d.action.lookahead) :
    (c.withMatched (matchDepth candidates c)).overlaps
        (d.withMatched (matchDepth candidates d)) = true ↔
      c.occurrence.context <+: d.occurrence.context ∨
        d.occurrence.context <+: c.occurrence.context := by
  simp only [Candidate.overlaps_iff, Candidate.lookahead_withMatched,
    Candidate.matched_withMatched]
  constructor
  · rintro ⟨-, h | h⟩
    · exact Or.inl (context_begins_of_matched hnodup htie hc hd hne.symm hlook.symm
        (h.trans (List.take_prefix _ _)))
    · exact Or.inr (context_begins_of_matched hnodup htie hd hc hne hlook
        (h.trans (List.take_prefix _ _)))
  · intro h
    refine ⟨fun x y hx hy => ?_, ?_⟩
    · rw [hlook, hy] at hx
      exact (Option.some.inj hx).symm
    · -- both suffixes then begin the longer context
      rcases h with h | h
      · exact List.prefix_or_prefix_of_prefix ((List.take_prefix _ _).trans h)
          (List.take_prefix _ _)
      · exact List.prefix_or_prefix_of_prefix (List.take_prefix _ _)
          ((List.take_prefix _ _).trans h)

end Suffix

namespace Table

variable {g : Grammar} {t : Table}

/-- **Suffixes separate all but contexts that end one another.**  Different candidates of a
bucket with the same lookahead overlap exactly when the whole left context of one of them
ends the left context of the other, which is longer. -/
theorem overlaps_iff_ends (hg : g.table = .ok t) {b : Bucket} (hb : b ∈ t.buckets)
    {c d : Candidate} (hc : c ∈ b.candidates) (hd : d ∈ b.candidates) (hne : c ≠ d)
    (hlook : c.action.lookahead = d.action.lookahead) :
    c.overlaps d = true ↔ c.occurrence.Ends d.occurrence ∨ d.occurrence.Ends c.occurrence := by
  obtain ⟨htie, -, rfl⟩ := Grammar.table_eq_ok_iff.1 hg
  obtain ⟨ob, hob, rfl⟩ := List.mem_map.1 hb
  have hnodup := Grammar.nodup_of_mem_openBuckets hob
  have hnone := Grammar.tie?_eq_none_iff_buckets.1 htie ob hob
  rw [Bucket.resolve, Suffix.resolve_eq, List.mem_map] at hc hd
  obtain ⟨x, hx, rfl⟩ := hc
  obtain ⟨y, hy, rfl⟩ := hd
  have hxy : x ≠ y := fun h => hne (by rw [h])
  -- equal contexts would be a tie
  have hcontext : x.occurrence.context ≠ y.occurrence.context := fun h =>
    hxy ((Suffix.tie?_eq_none_iff hnodup).1 hnone x hx y hy hlook h)
  rw [Suffix.overlaps_iff_context_begins hnodup hnone hx hy hxy hlook, Occurrence.ends_iff,
    Occurrence.ends_iff, Candidate.occurrence_withMatched, Candidate.occurrence_withMatched,
    and_iff_left hcontext, and_iff_left hcontext.symm]

/-- The candidate at the end of `b -> W Y Z`. -/
def layeredTwin : Candidate where
  occurrence := ⟨⟨⟨"b"⟩, [⟨"W"⟩, ⟨"Y"⟩, ⟨"Z"⟩]⟩, 2, 3, by decide⟩
  action :=
    { move := .reduce ⟨⟨"b"⟩, [⟨"W"⟩, ⟨"Y"⟩, ⟨"Z"⟩]⟩ false
      matched := [⟨"Z"⟩, ⟨"Y"⟩, ⟨"W"⟩] }

/-- The candidate at the end of `c -> Y Z`. -/
def layeredShort : Candidate where
  occurrence := ⟨⟨⟨"c"⟩, [⟨"Y"⟩, ⟨"Z"⟩]⟩, 1, 4, by decide⟩
  action :=
    { move := .reduce ⟨⟨"c"⟩, [⟨"Y"⟩, ⟨"Z"⟩]⟩ false
      matched := [⟨"Z"⟩, ⟨"Y"⟩] }

/-- `Y Z` ends `X Y Z`, so the two overlap; `X Y Z` and `W Y Z` do not end one another and
are told apart. -/
theorem overlaps_iff_ends_layered :
    ∃ t, layered.table = .ok t ∧ ∃ b ∈ t.buckets,
      layeredEnd ∈ b.candidates ∧ layeredShort ∈ b.candidates ∧ layeredTwin ∈ b.candidates ∧
      layeredEnd.overlaps layeredShort = true ∧ layeredEnd.overlaps layeredTwin = false := by
  have hg : layered.table = .ok ⟨layered.settings, layered.productions, layered.buckets⟩ := rfl
  have hb : ⟨⟨"Z"⟩, Suffix.resolve (candidatesOf ⟨"Z"⟩ ⟨"EOF"⟩ layered.productions)⟩ ∈
      layered.buckets := by decide +kernel
  have hmem : ∀ c ∈ [layeredEnd, layeredShort, layeredTwin],
      c ∈ Suffix.resolve (candidatesOf ⟨"Z"⟩ ⟨"EOF"⟩ layered.productions) := by decide +kernel
  have hc := hmem layeredEnd (by simp)
  have hd := hmem layeredShort (by simp)
  have he := hmem layeredTwin (by simp)
  have hoverlap := (overlaps_iff_ends hg hb hc hd (by decide +kernel) rfl).2 (by decide +kernel)
  have hapart := mt (overlaps_iff_ends hg hb hc he (by decide +kernel) rfl).1 (by decide +kernel)
  exact ⟨_, hg, _, hb, hc, hd, he, hoverlap, by simpa using hapart⟩

end Table

end ForkParser
