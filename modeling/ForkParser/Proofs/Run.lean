import ForkParser.Parser.Search
import ForkParser.Proofs.Moves

/-!
# ForkParser.Proofs.Run

Runs of single branches, and how a search is made of them.

`Parser.Runs p input n b b'` says that `n` steps lead from `b` to `b'`, one
successor being taken at each; all but the last branch are active.  A search
plays rounds until it stops (`Search.run_eq_after`), and after `n` rounds it
holds exactly the branches that runs of `n` steps lead to
(`Search.mem_active_after`) and has accepted exactly those that shorter runs lead
to (`Search.mem_accepted_after`).  So a fact about all branches of a search is
proved for one step and follows for all runs by `Parser.Runs.invariant`.
-/

namespace ForkParser

namespace Parser

/-! ## runs -/

/-- `n` steps lead from one branch to the other. -/
inductive Runs (p : Parser) (input : Array Token) : Nat → Branch → Branch → Prop
  | refl (b : Branch) : Runs p input 0 b b
  | step {n : Nat} {b b' b'' : Branch} (hrun : Runs p input n b b')
      (hactive : b'.isActive = true) (hstep : b'' ∈ p.step b' input) :
      Runs p input (n + 1) b b''

/-- `n` steps lead to the branch from the first token of the input. -/
def Reaches (p : Parser) (input : Array Token) (n : Nat) (b : Branch) : Prop :=
  ∃ token, input[0]? = some token ∧ p.Runs input n (Branch.start.taking token) b

namespace Runs

variable {p : Parser} {input : Array Token} {n m : Nat} {a b : Branch}

/-- A branch that is left by a step was active; all branches before the last
are. -/
theorem exists_active (h : p.Runs input n a b) (hm : m < n) :
    ∃ b', p.Runs input m a b' ∧ b'.isActive = true := by
  induction h with
  | refl => contradiction
  | @step k a b b' hrun hactive hstep ih =>
      rcases Nat.lt_or_eq_of_le (Nat.le_of_lt_succ hm) with hlt | rfl
      · exact ih hlt
      · exact ⟨b, hrun, hactive⟩

/-- What every step preserves, every run does. -/
theorem invariant {P : Branch → Prop} (h : p.Runs input n a b)
    (hstep : ∀ {b b'}, P b → b.isActive = true → b' ∈ p.step b input → P b') (ha : P a) :
    P b := by
  induction h with
  | refl => exact ha
  | step _ hactive hmem ih => exact hstep (ih ha) hactive hmem

end Runs

theorem Reaches.step {p : Parser} {input : Array Token} {n : Nat} {b b' : Branch}
    (h : p.Reaches input n b) (hactive : b.isActive = true) (hstep : b' ∈ p.step b input) :
    p.Reaches input (n + 1) b' := by
  obtain ⟨token, htoken, hrun⟩ := h
  exact ⟨token, htoken, .step hrun hactive hstep⟩

/-- Steps that lead on from a branch that is reached lead to branches that are. -/
theorem Reaches.runs {p : Parser} {input : Array Token} {n m : Nat} {a b : Branch}
    (h : p.Reaches input n a) (hrun : p.Runs input m a b) : p.Reaches input (n + m) b := by
  induction hrun with
  | refl => exact h
  | step _ hactive hstep ih => exact (ih h).step hactive hstep

end Parser

/-! ## rounds of a search -/

namespace Search

variable {p : Parser} {input : Array Token}

/-- The search after `n` more rounds, whatever the limits. -/
def after (p : Parser) (input : Array Token) : Nat → Search → Search
  | 0, s => s
  | n + 1, s => (after p input n s).advance p input

theorem after_advance (n : Nat) (s : Search) :
    after p input n (s.advance p input) = after p input (n + 1) s := by
  induction n with
  | zero => rfl
  | succ n ih =>
      rw [after, ih]
      rfl

theorem rounds_after (n : Nat) (s : Search) : (after p input n s).rounds = s.rounds + n := by
  induction n with
  | zero => rfl
  | succ n ih =>
      rw [after, advance]
      simp only [ih]
      rfl

/-- A search plays rounds until it is over or has had all its rounds. -/
theorem run_eq_after (p : Parser) (input : Array Token) (left : Nat) (s : Search) :
    ∃ n ≤ left, s.run p input left = after p input n s ∧
      (∀ m < n, (after p input m s).isOver p.settings = false) ∧
      (n = left ∨ (after p input n s).isOver p.settings = true) := by
  induction left generalizing s with
  | zero => exact ⟨0, Nat.le_refl _, rfl, nofun, Or.inl rfl⟩
  | succ left ih =>
      rw [run]
      split
      · next hover => exact ⟨0, Nat.zero_le _, rfl, nofun, Or.inr hover⟩
      · next hgoing =>
          obtain ⟨n, hn, hrun, hbefore, hend⟩ := ih (s.advance p input)
          rw [after_advance] at hrun hend
          refine ⟨n + 1, Nat.succ_le_succ hn, hrun, fun m hm => ?_, ?_⟩
          · cases m with
            | zero => exact Bool.eq_false_iff.2 hgoing
            | succ m =>
                rw [← after_advance]
                exact hbefore m (Nat.lt_of_succ_lt_succ hm)
          · exact hend.imp (congrArg (· + 1)) id

/-- After `n` rounds the active branches are those that `n` steps lead to. -/
theorem mem_active_after {s : Search} (hs : ∀ b ∈ s.active, b.isActive = true) {n : Nat}
    {b : Branch} :
    b ∈ (after p input n s).active ↔
      ∃ a ∈ s.active, p.Runs input n a b ∧ b.isActive = true := by
  induction n generalizing b with
  | zero =>
      constructor
      · exact fun hb => ⟨b, hb, .refl b, hs b hb⟩
      · rintro ⟨a, ha, hrun, -⟩
        cases hrun
        exact ha
  | succ n ih =>
      rw [after, advance]
      simp only [successors, List.mem_filter, List.mem_flatMap]
      constructor
      · rintro ⟨⟨b', hb', hstep⟩, hactive⟩
        obtain ⟨a, ha, hrun, hactive'⟩ := ih.1 hb'
        exact ⟨a, ha, .step hrun hactive' hstep, hactive⟩
      · rintro ⟨a, ha, hrun, hactive⟩
        cases hrun with
        | step hrun hactive' hstep => exact ⟨⟨_, ih.2 ⟨a, ha, hrun, hactive'⟩, hstep⟩, hactive⟩

/-- After `n` rounds the accepted branches are those that at most `n` steps lead
to. -/
theorem mem_accepted_after {s : Search} (hs : ∀ b ∈ s.active, b.isActive = true)
    (hnone : s.accepted = []) {n : Nat} {b : Branch} :
    b ∈ (after p input n s).accepted ↔
      ∃ k < n, ∃ a ∈ s.active, p.Runs input (k + 1) a b ∧ b.isAccepted = true := by
  induction n with
  | zero =>
      rw [after, hnone]
      constructor
      · intro h; contradiction
      · rintro ⟨k, hk, -⟩; contradiction
  | succ n ih =>
      rw [after, advance]
      simp only [successors, List.mem_append, List.mem_filter, List.mem_flatMap, ih]
      constructor
      · rintro (⟨k, hk, h⟩ | ⟨⟨b', hb', hstep⟩, haccepted⟩)
        · exact ⟨k, Nat.lt_succ_of_lt hk, h⟩
        · obtain ⟨a, ha, hrun, hactive⟩ := (mem_active_after hs).1 hb'
          exact ⟨n, Nat.lt_succ_self n, a, ha, .step hrun hactive hstep, haccepted⟩
      · rintro ⟨k, hk, a, ha, hrun, haccepted⟩
        rcases Nat.lt_or_eq_of_le (Nat.le_of_lt_succ hk) with hlt | rfl
        · exact Or.inl ⟨k, hlt, a, ha, hrun, haccepted⟩
        · cases hrun with
          | step hrun hactive hstep =>
              have hb' := (mem_active_after hs).2 ⟨a, ha, hrun, hactive⟩
              exact Or.inr ⟨⟨_, hb', hstep⟩, haccepted⟩

/-- What was accepted stays, and stays in front. -/
theorem accepted_prefix (n m : Nat) (s : Search) :
    (after p input n s).accepted <+: (after p input (n + m) s).accepted := by
  induction m with
  | zero => exact List.prefix_rfl
  | succ m ih => exact ih.trans (List.prefix_append _ _)

/-- A search that no limit has stopped has no active branch left. -/
theorem active_eq_nil_of_limit? {s : Search} (settings : Settings)
    (h : s.limit? settings = none) : s.active = [] := by
  unfold limit? at h
  split at h
  · next hnone => exact List.isEmpty_iff.1 hnone
  · split at h <;> contradiction

/-- There are two limits. -/
theorem eq_of_limit? {s : Search} {settings : Settings} {e : Error}
    (h : s.limit? settings = some e) :
    e = .branchLimit settings.maxBranches ∨ e = .stepLimit settings.maxSteps := by
  unfold limit? at h
  split at h
  · contradiction
  · split at h
    · exact Or.inl (Option.some.inj h).symm
    · exact Or.inr (Option.some.inj h).symm

/-! ## from the first token on -/

/-- The search that has only taken the first token. -/
def opening (token : Token) : Search := { active := [Branch.start.taking token] }

theorem isActive_of_mem_opening {token : Token} :
    ∀ b ∈ (opening token).active, b.isActive = true := by
  intro b hb
  rw [List.mem_singleton.1 hb]
  rfl

/-- After `n` rounds those branches are active that `n` steps lead to. -/
theorem mem_active_opening {token : Token} (htoken : input[0]? = some token) {n : Nat}
    {b : Branch} :
    b ∈ (after p input n (opening token)).active ↔
      p.Reaches input n b ∧ b.isActive = true := by
  rw [mem_active_after isActive_of_mem_opening]
  constructor
  · rintro ⟨a, ha, hrun, hactive⟩
    rw [List.mem_singleton.1 ha] at hrun
    exact ⟨⟨token, htoken, hrun⟩, hactive⟩
  · rintro ⟨⟨token', htoken', hrun⟩, hactive⟩
    obtain rfl := Option.some.inj (htoken'.symm.trans htoken)
    exact ⟨_, List.mem_singleton_self _, hrun, hactive⟩

end Search

/-! ## the search over an input -/

namespace Parser

variable {p : Parser} {input : Array Token}

/-- A search over an input starts with its first token on the stack. -/
theorem seed_eq_ok {token : Token} (h : input[0]? = some token) :
    seed input = .ok (.opening token) := by
  have hshift : Branch.start.shift input = (Branch.start.taking token, .ok ()) :=
    Branch.shift_eq_ok h
  rw [seed, hshift]
  rfl

/-- How a search ends: after some number of rounds, which is the greatest there may be
unless the search is over. -/
theorem search_eq_after {s : Search} (h : p.search input = .ok s) :
    ∃ token, input[0]? = some token ∧ s.rounds ≤ p.settings.maxSteps ∧
      s = Search.after p input s.rounds (.opening token) ∧
      (s.rounds = p.settings.maxSteps ∨ s.isOver p.settings = true) := by
  rw [search] at h
  cases htoken : input[0]? with
  | none =>
      rw [seed, Branch.shift_eq_error (b := Branch.start) htoken] at h
      contradiction
  | some token =>
      rw [seed_eq_ok htoken] at h
      obtain rfl := Except.ok.inj h
      obtain ⟨n, hn, hrun, -, hend⟩ := Search.run_eq_after p input
        p.settings.maxSteps (.opening token)
      have hrounds : (Search.after p input n (.opening token)).rounds = n := by
        rw [Search.rounds_after, Search.opening, Nat.zero_add]
      rw [hrun, hrounds]
      exact ⟨token, rfl, hn, rfl, hend⟩

/-- Every stream with a token in it can be searched. -/
theorem exists_search {tokens : List Token} (hne : tokens ≠ []) :
    ∃ s, p.search (inputOf tokens) = .ok s := by
  have hsize : 0 < (inputOf tokens).size := by
    simpa [inputOf] using List.length_pos_iff.2 hne
  rw [search, seed_eq_ok (Array.getElem?_eq_getElem hsize)]
  exact ⟨_, rfl⟩

/-- The branches a search has accepted are those that as many steps lead to as it
had rounds, or fewer. -/
theorem mem_accepted_search {s : Search} (h : p.search input = .ok s) {b : Branch} :
    b ∈ s.accepted ↔
      ∃ k < s.rounds, p.Reaches input (k + 1) b ∧ b.isAccepted = true := by
  obtain ⟨token, htoken, -, hs, -⟩ := search_eq_after h
  rw [hs, Search.mem_accepted_after Search.isActive_of_mem_opening rfl, ← hs]
  refine exists_congr fun k => and_congr_right fun _ => ?_
  constructor
  · rintro ⟨a, ha, hrun, haccepted⟩
    rw [List.mem_singleton.1 ha] at hrun
    exact ⟨⟨token, htoken, hrun⟩, haccepted⟩
  · rintro ⟨⟨token', htoken', hrun⟩, haccepted⟩
    obtain rfl := Option.some.inj (htoken'.symm.trans htoken)
    exact ⟨_, List.mem_singleton_self _, hrun, haccepted⟩

/-- A search goes on for as long as a run does, unless a limit stops it. -/
theorem le_rounds_search {s : Search} (h : p.search input = .ok s) {n : Nat} {b : Branch}
    (hreach : p.Reaches input n b) (hsteps : n ≤ p.settings.maxSteps)
    (hbranches : s.limit? p.settings = some (.branchLimit p.settings.maxBranches) →
      n ≤ s.rounds) : n ≤ s.rounds := by
  obtain ⟨token, htoken, -, hs, hend⟩ := search_eq_after h
  obtain ⟨token', htoken', hrun⟩ := hreach
  obtain rfl := Option.some.inj (htoken'.symm.trans htoken)
  refine Nat.le_of_not_lt fun hlt => Nat.not_le_of_lt hlt (hbranches ?_)
  -- the run is still going after the last round, so the branch limit stopped it
  obtain ⟨b', hrun', hactive'⟩ := hrun.exists_active hlt
  have hmem : b' ∈ s.active := by
    rw [hs]
    exact (Search.mem_active_opening htoken).2 ⟨⟨token', htoken, hrun'⟩, hactive'⟩
  have hnonempty : s.active.isEmpty = false :=
    List.isEmpty_eq_false_iff.2 (List.ne_nil_of_mem hmem)
  have hover : s.isOver p.settings = true := hend.resolve_left (by omega)
  rw [Search.isOver, hnonempty, Bool.false_or, decide_eq_true_eq] at hover
  rw [Search.limit?, hnonempty, if_neg Bool.false_ne_true, if_pos hover]

end Parser

end ForkParser
