import ForkParser.Text.Quoted

/-!
# ForkParser.Proofs.Quoted

Text in quotes shows where it ends: it can be read back, whatever comes after it.

An escaped character is told from every other one by its first characters
(`escapeChar_append_inj`), and none of them comes out as a quote (`escapeChar_append_ne`), so
the first quote that is not escaped ends the text.  `SelfDelimiting` says this of any text
for values of any kind.
-/

namespace ForkParser.Text

/-- Whether the text for a value shows where it ends: it determines the value, and what
comes after it. -/
def SelfDelimiting {α : Type} (f : α → String) : Prop :=
  ∀ (a b : α) (r s : List Char), (f a).toList ++ r = (f b).toList ++ s → a = b ∧ r = s

/-! ## code points -/

/-- Hexadecimal digits are no braces. -/
theorem brace_notMem_toDigits (n : Nat) : '\x7d' ∉ Nat.toDigits 16 n := by
  induction n using Nat.strongRecOn with
  | ind n ih =>
      rw [Nat.toDigits_eq_if (by decide)]
      split
      · simp
      · have := ih (n / 16) (by omega)
        simp [this]

/-- Different digits have different characters. -/
theorem digitChar_injective {m n : Nat} (hm : m < 16) (hn : n < 16)
    (h : Nat.digitChar m = Nat.digitChar n) : m = n := by
  have hall : ∀ m < 16, ∀ n < 16, Nat.digitChar m = Nat.digitChar n → m = n := by decide
  exact hall m hm n hn h

/-- Different numbers have different digits. -/
theorem toDigits_injective {m n : Nat} (h : Nat.toDigits 16 m = Nat.toDigits 16 n) : m = n := by
  have hlast (k : Nat) (c d : Char) : Nat.toDigits 16 k ++ [c] ≠ [d] := fun h => by
    simpa [Nat.toDigits_ne_nil] using congrArg List.length h
  induction m using Nat.strongRecOn generalizing n with
  | ind m ih =>
      rw [Nat.toDigits_eq_if (by decide), Nat.toDigits_eq_if (n := n) (by decide)] at h
      split at h
      · split at h
        · exact digitChar_injective ‹_› ‹_› (by simpa using h)
        · exact absurd h.symm (hlast _ _ _)
      · split at h
        · exact absurd h (hlast _ _ _)
        · obtain ⟨hdiv, hmod⟩ := List.append_inj' h rfl
          have hdiv := ih (m / 16) (by omega) hdiv
          have hmod := digitChar_injective (Nat.mod_lt m (by decide)) (Nat.mod_lt n (by decide))
            (by simpa using hmod)
          omega

theorem codePointEscape_append_inj {c d : Char} {r s : List Char}
    (h : codePointEscape c ++ r = codePointEscape d ++ s) : c = d ∧ r = s := by
  have hdigits : Nat.toDigits 16 c.toNat ++ '\x7d' :: r =
      Nat.toDigits 16 d.toNat ++ '\x7d' :: s := by
    simpa [codePointEscape] using h
  -- the digits go on up to the first brace
  have hsame : Nat.toDigits 16 c.toNat = Nat.toDigits 16 d.toNat := by
    have htake (n : Nat) (r : List Char) :
        (Nat.toDigits 16 n ++ '\x7d' :: r).takeWhile (· ≠ '\x7d') = Nat.toDigits 16 n := by
      rw [List.takeWhile_append_of_pos]
      · simp
      · intro e he
        simpa using ne_of_mem_of_not_mem he (brace_notMem_toDigits n)
    rw [← htake c.toNat r, hdigits, htake]
  rw [hsame] at hdigits
  exact ⟨Char.toNat_inj.1 (toDigits_injective hsame), by simpa using hdigits⟩

/-! ## escapes -/

/-- The characters with a short escape, after what follows the backslash. -/
def shortEscapes : List (Char × Char) :=
  [('"', '"'), ('\\', '\\'), ('n', '\n'), ('r', '\r'), ('t', '\t'), ('0', '\x00')]

/-- How a character comes out: as itself, by a short escape or by its code point. -/
theorem escapeChar_cases (c : Char) :
    (escapeChar c = [c] ∧ c ≠ '"' ∧ c ≠ '\\') ∨
      (∃ e, (e, c) ∈ shortEscapes ∧ escapeChar c = ['\\', e]) ∨
      escapeChar c = codePointEscape c := by
  unfold escapeChar
  grind [shortEscapes]

/-- An escaped character shows where it ends. -/
theorem escapeChar_append_inj {c d : Char} {r s : List Char}
    (h : escapeChar c ++ r = escapeChar d ++ s) : c = d ∧ r = s := by
  have hshort : ∀ x ∈ shortEscapes, x.1 ≠ 'u' ∧ ∀ y ∈ shortEscapes, x.1 = y.1 → x.2 = y.2 := by
    simp [shortEscapes]
  -- the first two characters tell the kinds apart, and one short escape from another
  rcases escapeChar_cases c with ⟨hc, -, hcb⟩ | ⟨e, he, hc⟩ | hc <;>
    rcases escapeChar_cases d with ⟨hd, -, hdb⟩ | ⟨f, hf, hd⟩ | hd <;>
    rw [hc, hd] at h
  · simpa using h
  · grind
  · grind [codePointEscape]
  · grind
  · grind
  · grind [codePointEscape]
  · grind [codePointEscape]
  · grind [codePointEscape]
  · exact codePointEscape_append_inj h

/-- No character comes out as a quote. -/
theorem escapeChar_append_ne (c : Char) (r s : List Char) : escapeChar c ++ r ≠ '"' :: s := by
  rcases escapeChar_cases c with ⟨hc, hquote, -⟩ | ⟨e, -, hc⟩ | hc
  · simp [hc, hquote]
  · simp [hc]
  · simp [hc, codePointEscape]

/-- Escaped text ends with the first quote that is not escaped. -/
theorem escapeChars_append_inj {cs ds r s : List Char}
    (h : escapeChars cs ++ '"' :: r = escapeChars ds ++ '"' :: s) : cs = ds ∧ r = s := by
  have hcons (c : Char) (cs r : List Char) :
      escapeChars (c :: cs) ++ r = escapeChar c ++ (escapeChars cs ++ r) := by
    simp [escapeChars]
  induction cs generalizing ds with
  | nil =>
      cases ds with
      | nil => exact ⟨rfl, by simpa [escapeChars] using h⟩
      | cons d ds =>
          rw [hcons] at h
          exact absurd h.symm (escapeChar_append_ne d _ _)
  | cons c cs ih =>
      cases ds with
      | nil =>
          rw [hcons] at h
          exact absurd h (escapeChar_append_ne c _ _)
      | cons d ds =>
          rw [hcons, hcons] at h
          obtain ⟨rfl, hrest⟩ := escapeChar_append_inj h
          obtain ⟨rfl, hend⟩ := ih hrest
          exact ⟨rfl, hend⟩

theorem selfDelimiting_quote : SelfDelimiting quote := by
  intro text other r s h
  obtain ⟨htext, hend⟩ : text.toList = other.toList ∧ r = s :=
    escapeChars_append_inj (by simpa [quote] using h)
  exact ⟨String.toList_inj.1 htext, hend⟩

end ForkParser.Text
