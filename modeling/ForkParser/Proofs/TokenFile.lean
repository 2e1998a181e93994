import ForkParser.Proofs.Identity
import ForkParser.Proofs.Words
import ForkParser.TokenFile
import Mathlib.Data.List.Forall2

/-!
# ForkParser.Proofs.TokenFile

What a token file is read as.

The words of the file are its maximal runs of characters that are not blank, and each of them
becomes a leaf (`LeafOf`): a word is split at its first colon (`SplitsAtColon`), and only one
that starts with a colon is refused (`lexemeOf_eq`).  Behind the leaves stands the end of
input, unless it is there already (`EndOf`).

`load_reads_runs` is the main statement.
-/

namespace ForkParser.TokenFile

open Text

/-! ## words and leaves -/

/-- The parts of a word before and after its first colon.  A word without one is both. -/
inductive SplitsAtColon : (word symbol text : List Char) → Prop where
  | colon {symbol text : List Char} (hfirst : ':' ∉ symbol) :
      SplitsAtColon (symbol ++ ':' :: text) symbol text
  | whole {word : List Char} (hnone : ':' ∉ word) : SplitsAtColon word word word

/-- The leaf of a word: it stands where the word does, and has the word's parts as its symbol
and its text. -/
structure LeafOf (w : Word) (t : Token) : Prop where
  position : t.position = w.offset
  parts : ∃ symbol text, SplitsAtColon w.chars symbol text ∧ t.symbol = ⟨.ofList symbol⟩ ∧
    t.text? = some (.ofList text)

/-- What stands behind the leaves: nothing after an end of input, and else one leaf for the
end of input, at the end of the last leaf or at the start of an empty file. -/
inductive EndOf (eof : Symbol) : (leaves ending : List Token) → Prop where
  | present {leaves : List Token} {t : Token} (hlast : leaves.getLast? = some t)
      (hsymbol : t.symbol = eof) : EndOf eof leaves []
  | behind {leaves : List Token} {t e : Token} {text : String}
      (hlast : leaves.getLast? = some t) (hsymbol : t.symbol ≠ eof) (htext : t.text? = some text)
      (heof : e.symbol = eof) (hempty : e.text? = some "")
      (hposition : e.position = t.position + text.utf8ByteSize) : EndOf eof leaves [e]
  | alone {e : Token} (heof : e.symbol = eof) (hempty : e.text? = some "")
      (hposition : e.position = 0) : EndOf eof [] [e]

/-- The tokens of some words: their leaves in order and the end of input, each looking ahead
at the next one. -/
structure TokensOf (ws : List Word) (eof : Symbol) (tokens : List Token) : Prop where
  leaves : ∃ leaves ending, tokens = leaves ++ ending ∧ List.Forall₂ LeafOf ws leaves ∧
    EndOf eof leaves ending
  lookahead : ∀ {i : Nat} {t : Token}, tokens[i]? = some t →
    t.lookahead = if i + 1 < tokens.length then some (i + 1) else none

theorem splitsAtColon_splitColon (cs : List Char) :
    SplitsAtColon cs (splitColon cs).1 (splitColon cs).2 := by
  obtain ⟨symbol, rest, hsplit, hsymbol, hrest⟩ := exists_front (· != ':') cs
  have hnone : ':' ∉ symbol := fun h => by simpa using hsymbol ':' h
  have hdrop : cs.dropWhile (· != ':') = rest := by
    rw [hsplit, List.dropWhile_append_of_pos hsymbol]
    cases rest with
    | nil => rfl
    | cons c rest => simp [hrest c (by simp)]
  cases rest with
  | nil =>
      rw [List.append_nil] at hsplit
      subst hsplit
      simpa [splitColon, hdrop] using SplitsAtColon.whole hnone
  | cons c text =>
      obtain rfl : c = ':' := by simpa using hrest c (by simp)
      have htake : cs.takeWhile (· != ':') = symbol := by
        rw [hsplit, List.takeWhile_append_of_pos hsymbol]
        simp
      simp only [splitColon, hdrop, htake]
      exact hsplit ▸ .colon hnone

/-- Nothing stands before the first colon of a word exactly if the word starts with it. -/
theorem SplitsAtColon.symbol_eq_nil_iff {word symbol text : List Char}
    (h : SplitsAtColon word symbol text) (hne : word ≠ []) :
    symbol = [] ↔ word.head? = some ':' := by
  cases h with
  | colon hfirst =>
      cases symbol with
      | nil => simp
      | cons c symbol =>
          have hc : c ≠ ':' := fun h => hfirst (by simp [h])
          simp [hc]
  | whole hnone =>
      simp only [hne, false_iff]
      exact fun hhead => hnone (List.mem_of_head? hhead)

/-- The lexeme of a word that does not start with a colon. -/
def lexeme (w : Word) : Lexeme :=
  ⟨⟨.ofList (splitColon w.chars).1⟩, .ofList (splitColon w.chars).2, w.offset⟩

/-- A word is refused exactly if it starts with a colon. -/
theorem lexemeOf_eq {w : Word} (hne : w.chars ≠ []) :
    lexemeOf w = if w.chars.head? = some ':' then .error (.noSymbol w) else .ok (lexeme w) := by
  have hnil := (splitsAtColon_splitColon w.chars).symbol_eq_nil_iff hne
  rw [lexemeOf]
  split
  · next hsplit =>
      rw [hsplit] at hnil
      rw [if_pos (hnil.1 rfl)]
  · next hsome hsplit =>
      have hsymbol : ¬ w.chars.head? = some ':' := by
        rw [← hnil, hsplit]
        exact hsome
      simp [hsymbol, lexeme, hsplit]

theorem leafOf_toToken (w : Word) (size index : Nat) :
    LeafOf w ((lexeme w).toToken size index) :=
  ⟨rfl, _, _, splitsAtColon_splitColon w.chars, rfl, rfl⟩

/-! ## files -/

/-- Mapping a list fails at the first member that fails. -/
theorem mapM_eq_error {α β ε : Type} {f : α → Except ε β} {before after : List α} {a : α} {e : ε}
    (hbefore : ∀ b ∈ before, ∃ c, f b = .ok c) (ha : f a = .error e) :
    (before ++ a :: after).mapM f = .error e := by
  induction before with
  | nil => simp [ha, bind, Except.bind]
  | cons b before ih =>
      obtain ⟨c, hc⟩ := hbefore b (by simp)
      have hrest := ih fun b' hb' => hbefore b' (by simp [hb'])
      simp [hc, hrest, bind, Except.bind]

/-- The first word that starts with a colon. -/
structure FirstColon (ws before : List Word) (w : Word) (after : List Word) : Prop where
  split : ws = before ++ w :: after
  first : ∀ v ∈ before, v.chars.head? ≠ some ':'
  colon : w.chars.head? = some ':'

theorem ne_nil_of_mem_words {source : String} {w : Word} (h : w ∈ words source.toList) :
    w.chars ≠ [] := by
  obtain ⟨before, after, -, -, hrun⟩ := mem_words_iff.1 h
  exact hrun.ne_nil

/-- A file is refused for its first word that starts with a colon. -/
theorem load_of_firstColon {source : String} {before after : List Word} {w : Word}
    (h : FirstColon (words source.toList) before w after) (eof : Symbol) :
    load source eof = .error (.noSymbol w) := by
  have hne : ∀ v ∈ before ++ w :: after, v.chars ≠ [] := fun v hv =>
    ne_nil_of_mem_words (h.split ▸ hv)
  have hbefore : ∀ v ∈ before, ∃ l, lexemeOf v = .ok l := fun v hv =>
    ⟨lexeme v, by rw [lexemeOf_eq (hne v (by simp [hv])), if_neg (h.first v hv)]⟩
  have hw : lexemeOf w = .error (.noSymbol w) := by
    rw [lexemeOf_eq (hne w (by simp)), if_pos h.colon]
  rw [load, h.split, mapM_eq_error hbefore hw]

/-- A file without such a word is read, word by word. -/
theorem load_of_forall {source : String} (h : ∀ w ∈ words source.toList, w.chars.head? ≠ some ':')
    (eof : Symbol) : load source eof = .ok (stream ((words source.toList).map lexeme) eof) := by
  have hwords : ∀ w ∈ words source.toList, lexemeOf w = .ok (lexeme w) := fun w hw => by
    rw [lexemeOf_eq (ne_nil_of_mem_words hw), if_neg (h w hw)]
  rw [load, mapM_eq_ok hwords]

theorem forall_or_firstColon (ws : List Word) :
    (∀ w ∈ ws, w.chars.head? ≠ some ':') ∨ ∃ before w after, FirstColon ws before w after := by
  cases hfind : ws.find? fun w => w.chars.head? = some ':' with
  | none =>
      left
      simpa using hfind
  | some w =>
      right
      obtain ⟨hcolon, before, after, hsplit, hfirst⟩ := List.find?_eq_some_iff_append.1 hfind
      exact ⟨before, w, after, hsplit, by simpa using hfirst, by simpa using hcolon⟩

/-! ## the end of input -/

/-- The tokens of lexemes, at the places from `index` on of a stream of `size` tokens. -/
def tokensAt (size index : Nat) (lexemes : List Lexeme) : List Token :=
  (lexemes.zipIdx index).map fun (l, i) => l.toToken size i

theorem tokensAt_append (size index : Nat) (lexemes more : List Lexeme) :
    tokensAt size index (lexemes ++ more) =
      tokensAt size index lexemes ++ tokensAt size (index + lexemes.length) more := by
  simp [tokensAt, List.zipIdx_append]

theorem getLast?_tokensAt (size index : Nat) (lexemes : List Lexeme) :
    (tokensAt size index lexemes).getLast? =
      lexemes.getLast?.map fun l => l.toToken size (index + lexemes.length - 1) := by
  simp [tokensAt, List.getLast?_zipIdx, Function.comp_def]

theorem forall₂_leafOf (ws : List Word) (size index : Nat) :
    List.Forall₂ LeafOf ws (tokensAt size index (ws.map lexeme)) := by
  induction ws generalizing index with
  | nil => exact .nil
  | cons w ws ih => exact .cons (leafOf_toToken w size index) (ih (index + 1))

/-- The end of input that is put behind lexemes. -/
theorem endOf_withEnd (lexemes : List Lexeme) (eof : Symbol) :
    ∃ ending, withEnd lexemes eof = lexemes ++ ending ∧ ∀ size,
      EndOf eof (tokensAt size 0 lexemes) (tokensAt size lexemes.length ending) := by
  rw [withEnd]
  cases hl : lexemes.getLast? with
  | none =>
      obtain rfl := List.getLast?_eq_none_iff.1 hl
      exact ⟨[⟨eof, "", 0⟩], rfl, fun size => .alone rfl rfl rfl⟩
  | some l =>
      have hlast : ∀ size, (tokensAt size 0 lexemes).getLast? =
          some (l.toToken size (0 + lexemes.length - 1)) := fun size => by
        rw [getLast?_tokensAt, hl, Option.map_some]
      by_cases heof : l.symbol = eof
      · exact ⟨[], by simp [heof], fun size => .present (hlast size) heof⟩
      · refine ⟨[⟨eof, "", endOf lexemes⟩], by simp [heof], fun size => ?_⟩
        refine .behind (hlast size) heof rfl rfl rfl ?_
        simp [Token.position, Token.label, Lexeme.toToken, endOf, hl]

/-- The tokens of a stream look ahead, each at the next one. -/
theorem lookahead_stream {lexemes : List Lexeme} {eof : Symbol} {i : Nat} {t : Token}
    (h : (stream lexemes eof)[i]? = some t) :
    t.lookahead = if i + 1 < (stream lexemes eof).length then some (i + 1) else none := by
  simp only [stream, List.getElem?_map, List.getElem?_zipIdx, Option.map_eq_some_iff] at h
  obtain ⟨_, ⟨l, -, rfl⟩, rfl⟩ := h
  simp [stream, Lexeme.toToken, Token.lookahead, Token.label]

/-- A stream made of words is made of their leaves and an end of input. -/
theorem tokensOf_stream (ws : List Word) (eof : Symbol) :
    TokensOf ws eof (stream (ws.map lexeme) eof) := by
  obtain ⟨ending, hwithEnd, hend⟩ := endOf_withEnd (ws.map lexeme) eof
  refine ⟨⟨_, _, ?_, forall₂_leafOf ws (withEnd (ws.map lexeme) eof).length 0, hend _⟩,
    lookahead_stream⟩
  have hstream : stream (ws.map lexeme) eof =
      tokensAt (withEnd (ws.map lexeme) eof).length 0 (withEnd (ws.map lexeme) eof) := rfl
  rw [hstream]
  nth_rewrite 2 [hwithEnd]
  rw [tokensAt_append, Nat.zero_add]

/-- **Token files.**  The words of a file are the maximal runs of characters that are not
blank, each once and in order.  The offset of a word counts the bytes before it: there and
where the word ends the text can be cut between two characters, and the bytes in between are
those of the word.  The file is refused exactly if a word starts with a colon, and the fault
names the first such word and its offset.  Otherwise there is one leaf for each word, in
order, with the parts of the word before and after its first colon as its symbol and its
text, then an end of input unless the last leaf is one, and each token looks ahead at the
next. -/
theorem load_reads_runs (source : String) (eof : Symbol) :
    (∀ w, w ∈ words source.toList ↔ w.IsRunOf source) ∧
    ((words source.toList).Pairwise fun v w => v.offset < w.offset) ∧
    (∀ w ∈ words source.toList,
      String.Pos.Raw.IsValid source ⟨w.offset⟩ ∧
      String.Pos.Raw.IsValid source ⟨w.offset + w.text.utf8ByteSize⟩ ∧
      source.toByteArray.extract w.offset (w.offset + w.text.utf8ByteSize) =
        w.text.toByteArray) ∧
    ((∃ fault, load source eof = .error fault) ↔
      ∃ w : Word, w.IsRunOf source ∧ w.chars.head? = some ':') ∧
    (∀ fault, load source eof = .error fault ↔
      ∃ before w after, FirstColon (words source.toList) before w after ∧ fault = .noSymbol w ∧
        fault.message =
          "offset " ++ w.offset.repr ++ " : missing symbol in \"" ++ w.text ++ "\".") ∧
    ((∀ w ∈ words source.toList, w.chars.head? ≠ some ':') →
      ∃ tokens, load source eof = .ok tokens ∧ TokensOf (words source.toList) eof tokens) := by
  have hcases := forall_or_firstColon (words source.toList)
  refine ⟨fun w => mem_words_iff, pairwise_wordsFrom 0 _, fun w hw => (mem_words_iff.1 hw).extract,
    ⟨?_, ?_⟩, fun fault => ⟨fun hload => ?_, ?_⟩, fun hnone => ?_⟩
  · rintro ⟨fault, hload⟩
    rcases hcases with hnone | ⟨before, w, after, hfirst⟩
    · simp [load_of_forall hnone] at hload
    · exact ⟨w, mem_words_iff.1 (by simp [hfirst.split]), hfirst.colon⟩
  · rintro ⟨w, hrun, hcolon⟩
    rcases hcases with hnone | ⟨before, w', after, hfirst⟩
    · exact absurd hcolon (hnone w (mem_words_iff.2 hrun))
    · exact ⟨_, load_of_firstColon hfirst eof⟩
  · rcases hcases with hnone | ⟨before, w, after, hfirst⟩
    · simp [load_of_forall hnone] at hload
    · rw [load_of_firstColon hfirst] at hload
      obtain rfl := Except.error.inj hload
      exact ⟨before, w, after, hfirst, rfl, rfl⟩
  · rintro ⟨before, w, after, hfirst, rfl, -⟩
    exact load_of_firstColon hfirst eof
  · exact ⟨_, load_of_forall hnone eof, tokensOf_stream _ eof⟩

end ForkParser.TokenFile
