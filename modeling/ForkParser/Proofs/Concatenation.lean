import ForkParser.GrammarFile
import ForkParser.Proofs.Words

/-!
# ForkParser.Proofs.Concatenation

Grammar files one above the other.

Lines are read one by one (`readLines_append`), and the number of the first one only moves the
numbers in faults (`readLines_add`).  So what a file is read as can be told from what its upper
and its lower part are read as, if they meet at the end of a line (`stacked`).  A fault is that
of the first malformed line (`readLines_eq_error_iff`).

`load_stacks` is the main statement.
-/

namespace ForkParser.GrammarFile

open Text

/-! ## reading line by line -/

theorem readLines_cons_of_error {line : List Char} {fault : LineFault}
    (h : readLine line = .error fault) (first : Nat) (rest : List (List Char)) :
    readLines first (line :: rest) = .error (.line first fault) := by
  rw [readLines, h]

theorem readLines_cons_of_ok {line : List Char} {rule? : Option Production}
    (h : readLine line = .ok rule?) (first : Nat) (rest : List (List Char)) :
    readLines first (line :: rest) = (readLines (first + 1) rest).map (rule?.toList ++ ·) := by
  rw [readLines, h]
  cases readLines (first + 1) rest <;> rfl

/-- Lines are read after those above them, if none of these is malformed. -/
theorem readLines_append (first : Nat) (upper lower : List (List Char)) :
    readLines first (upper ++ lower) =
      match readLines first upper with
      | .error fault => .error fault
      | .ok rules => (readLines (first + upper.length) lower).map (rules ++ ·) := by
  induction upper generalizing first with
  | nil =>
      show readLines first lower = (readLines first lower).map ([] ++ ·)
      cases readLines first lower <;> rfl
  | cons line upper ih =>
      rw [List.cons_append]
      cases hline : readLine line with
      | error fault => rw [readLines_cons_of_error hline, readLines_cons_of_error hline]
      | ok rule? =>
          have hnumber : first + 1 + upper.length = first + (line :: upper).length := by
            rw [List.length_cons]
            omega
          rw [readLines_cons_of_ok hline, readLines_cons_of_ok hline, ih, hnumber]
          cases readLines (first + 1) upper with
          | error fault => rfl
          | ok rules =>
              cases readLines (first + (line :: upper).length) lower <;> simp [Except.map]

/-- A fault some lines further down. -/
def Fault.moved (count : Nat) : Fault → Fault
  | .line number fault => .line (number + count) fault
  | .noRules => .noRules

/-- The number of the first line only moves the numbers in faults. -/
theorem readLines_add (first count : Nat) (ls : List (List Char)) :
    readLines (first + count) ls = (readLines first ls).mapError (Fault.moved count) := by
  induction ls generalizing first with
  | nil => rfl
  | cons line ls ih =>
      cases hline : readLine line with
      | error fault =>
          rw [readLines_cons_of_error hline, readLines_cons_of_error hline]
          rfl
      | ok rule? =>
          have hnumber : first + count + 1 = first + 1 + count := by omega
          rw [readLines_cons_of_ok hline, readLines_cons_of_ok hline, hnumber, ih]
          cases readLines (first + 1) ls <;> rfl

/-! ## the first malformed line -/

/-- Whether a line is not malformed. -/
def WellFormed (line : List Char) : Prop := ∃ rule?, readLine line = .ok rule?

theorem exists_readLines_of_wellFormed {ls : List (List Char)} (h : ∀ line ∈ ls, WellFormed line)
    (first : Nat) : ∃ rules, readLines first ls = .ok rules := by
  induction ls generalizing first with
  | nil => exact ⟨[], rfl⟩
  | cons line ls ih =>
      obtain ⟨rule?, hline⟩ := h line (by simp)
      obtain ⟨rules, hrules⟩ := ih (fun l hl => h l (by simp [hl])) (first + 1)
      exact ⟨rule?.toList ++ rules, by rw [readLines_cons_of_ok hline, hrules]; rfl⟩

/-- Reading fails at the first line that is malformed. -/
theorem readLines_eq_error_iff {first : Nat} {ls : List (List Char)} {fault : Fault} :
    readLines first ls = .error fault ↔
      ∃ before line after lineFault, ls = before ++ line :: after ∧
        (∀ l ∈ before, WellFormed l) ∧ readLine line = .error lineFault ∧
        fault = .line (first + before.length) lineFault := by
  constructor
  · intro h
    induction ls generalizing first with
    | nil => simp [readLines] at h
    | cons line ls ih =>
        cases hline : readLine line with
        | error lineFault =>
            rw [readLines_cons_of_error hline] at h
            obtain rfl := Except.error.inj h
            exact ⟨[], line, ls, lineFault, rfl, by simp, hline, rfl⟩
        | ok rule? =>
            have hrest : readLines (first + 1) ls = .error fault := by
              rw [readLines_cons_of_ok hline] at h
              cases hls : readLines (first + 1) ls <;> simp_all [Except.map]
            obtain ⟨before, l, after, lineFault, rfl, hbefore, hl, rfl⟩ := ih hrest
            refine ⟨line :: before, l, after, lineFault, rfl, ?_, hl, ?_⟩
            · exact List.forall_mem_cons.2 ⟨⟨rule?, hline⟩, hbefore⟩
            · rw [List.length_cons]
              congr 1
              omega
  · rintro ⟨before, line, after, lineFault, rfl, hbefore, hline, rfl⟩
    obtain ⟨rules, hrules⟩ := exists_readLines_of_wellFormed hbefore first
    rw [readLines_append, hrules, readLines_cons_of_error hline]
    rfl

/-- A line of this number is malformed in this way, and no line above it is malformed. -/
structure FirstMalformed (source : String) (number : Nat) (fault : LineFault) : Prop where
  malformed : ∃ line, LineAt source.toList number line ∧ readLine line = .error fault
  above : ∀ {n line}, n < number → LineAt source.toList n line → WellFormed line

theorem firstMalformed_iff {source : String} {number : Nat} {fault : LineFault} :
    FirstMalformed source number fault ↔
      ∃ before line after, lines source.toList = before ++ line :: after ∧
        (∀ l ∈ before, WellFormed l) ∧ readLine line = .error fault ∧
        number = 1 + before.length := by
  constructor
  · rintro ⟨⟨line, hat, hline⟩, habove⟩
    obtain ⟨i, rfl⟩ := hat.exists_succ
    obtain ⟨hi, hget⟩ := List.getElem?_eq_some_iff.1 (lineAt_iff.1 hat)
    refine ⟨(lines source.toList).take i, line, (lines source.toList).drop (i + 1), ?_, ?_,
      hline, ?_⟩
    · rw [← hget, ← List.drop_eq_getElem_cons hi, List.take_append_drop]
    · intro l hl
      obtain ⟨j, hj⟩ := List.mem_iff_getElem?.1 hl
      rw [List.getElem?_take] at hj
      split at hj
      · exact habove (by omega) (lineAt_iff.2 hj)
      · contradiction
    · rw [List.length_take]
      omega
  · rintro ⟨before, line, after, hlines, hbefore, hline, rfl⟩
    rw [Nat.add_comm]
    refine ⟨⟨line, lineAt_iff.2 (by simp [hlines]), hline⟩, fun {n l} hn hl => ?_⟩
    obtain ⟨i, rfl⟩ := hl.exists_succ
    have hget : before[i]? = some l := by
      rw [← lineAt_iff.1 hl, hlines, List.getElem?_append_left (by omega)]
    exact hbefore l (List.mem_of_getElem? hget)

/-- A line fault is that of the first malformed line. -/
theorem load_eq_error_line_iff {source : String} {number : Nat} {fault : LineFault} :
    load source = .error (.line number fault) ↔ FirstMalformed source number fault := by
  have hload : load source = .error (.line number fault) ↔
      readLines 1 (lines source.toList) = .error (.line number fault) := by
    rw [load]
    split <;> simp_all
  rw [hload, readLines_eq_error_iff, firstMalformed_iff]
  constructor
  · rintro ⟨before, line, after, lineFault, hlines, hbefore, hline, hfault⟩
    obtain ⟨rfl, rfl⟩ := Fault.line.inj hfault
    exact ⟨before, line, after, hlines, hbefore, hline, rfl⟩
  · rintro ⟨before, line, after, hlines, hbefore, hline, rfl⟩
    exact ⟨before, line, after, fault, hlines, hbefore, hline, rfl⟩

/-! ## files -/

/-- What a file is read as that has one file above another, from what the two are read as and
the number of lines of the upper one. -/
def stacked (count : Nat) :
    (upper lower : Except Fault (List Production)) → Except Fault (List Production)
  | .error (.line number fault), _ => .error (.line number fault)
  | _, .error (.line number fault) => .error (.line (number + count) fault)
  | .error .noRules, .error .noRules => .error .noRules
  | .error .noRules, .ok rules => .ok rules
  | .ok rules, .error .noRules => .ok rules
  | .ok rules, .ok others => .ok (rules ++ others)

/-- The lines of the lower file count on from those of the upper one. -/
theorem readLines_stacked (upper lower : List Char) :
    readLines 1 (lines (upper ++ '\n' :: lower)) =
      match readLines 1 (lines upper) with
      | .error fault => .error fault
      | .ok rules => ((readLines 1 (lines lower)).mapError
          (Fault.moved (upper.count '\n' + 1))).map (rules ++ ·) := by
  rw [lines_append, readLines_append, length_lines, readLines_add]

/-- **Files in parts.**  A file with one file above another is read as the two are, one after
the other: the upper one's malformed line is reported before any of the lower one, whose lines
count on from those above, and there are no rules only if neither has any.  So the line that is
reported is always the first malformed one. -/
theorem load_stacks :
    (∀ upper lower : String,
      load (upper ++ "\n" ++ lower) =
        stacked (upper.toList.count '\n' + 1) (load upper) (load lower)) ∧
      ∀ (source : String) (number : Nat) (fault : LineFault),
        load source = .error (.line number fault) ↔ FirstMalformed source number fault := by
  refine ⟨fun upper lower => ?_, fun _ _ _ => load_eq_error_line_iff⟩
  have htoList : (upper ++ "\n" ++ lower).toList = upper.toList ++ '\n' :: lower.toList := by simp
  rw [load, htoList, readLines_stacked, load, load]
  cases hupper : readLines 1 (lines upper.toList) with
  | error fault =>
      obtain ⟨_, _, _, _, -, -, -, rfl⟩ := readLines_eq_error_iff.1 hupper
      rfl
  | ok rules =>
      cases hlower : readLines 1 (lines lower.toList) with
      | error fault =>
          obtain ⟨_, _, _, _, -, -, -, rfl⟩ := readLines_eq_error_iff.1 hlower
          cases rules <;> rfl
      | ok others => cases rules <;> cases others <;> simp [Except.map, Except.mapError, stacked]

end ForkParser.GrammarFile
