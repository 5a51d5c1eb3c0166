import Mathlib.Data.Nat.PSub
import TableParsing.Analysis
import TableParsing.Brackets
import TableParsing.Proofs.Predictive.Recognition
import TableParsing.Proofs.ShiftReduce.Recognition
import TableParsing.Proofs.Unambiguity

/-!
# Random bracket strings are sentences

Whatever the tosses are, `Brackets.generate` writes a balanced string of the length
that it is asked for, and both parsers of `Grammar.parentheses` accept it
(`generate_accepted`).  The strings of `Brackets.sample` are those for the tosses of
a xorshift generator.

The number of open brackets never exceeds the number of places that are left, and
both are even or both are odd (`Fits`).  That is what keeps the tosses from doing
harm: an opening bracket needs two places, and where only one is to spare, parity
has taken the choice away.  `exists_turn` says what one place comes to, and from it
follow the whole string (`closes_generate`) and that the count of open brackets
stays within machine words (`run?_eq_generate`).

`Closes` describes strings that close some brackets that are open already.  Where
brackets are open, a closing one and a start symbol are still to be derived for each
of them, so a derivation can be read off the string from left to right
(`Closes.derives`).
-/

namespace TableParsing.Brackets

variable {σ : Type} {toss : σ → Bool × σ} {source : σ} {places nested : Nat}

/-! ## The counts in machine words -/

/-- A count that is raised by one; none if it becomes too large for a word of 64 bits. -/
def raise? (count : Nat) : Option Nat := if count + 1 < 2 ^ 64 then some (count + 1) else none

/-- What is written at one place, when `places` places are left: the bracket, the number of brackets
that are open behind it, and the tosses that are left; none if that number leaves its range. -/
def turn? (toss : σ → Bool × σ) (places nested : Nat) (source : σ) : Option (Char × Nat × σ) :=
  if nested = places then nested.ppred.map fun fewer => (')', fewer, source)
  else if nested = 0 then some ('(', 1, source)
  else
    match toss source with
    | (true, source) => (raise? nested).map fun more => ('(', more, source)
    | (false, source) => nested.ppred.map fun fewer => (')', fewer, source)

/-- The string that the turns make for all places. -/
def run? (toss : σ → Bool × σ) : (places nested : Nat) → σ → Option (List Char)
  | 0, _, _ => some []
  | places + 1, nested, source =>
    (turn? toss (places + 1) nested source).bind fun (bracket, nested, source) =>
      (run? toss places nested source).map (bracket :: ·)

/-! ## One place -/

/-- The open brackets can be closed in the places that are left, and then pairs of places remain. -/
structure Fits (places nested : Nat) : Prop where
  nested_le : nested ≤ places
  parity : nested % 2 = places % 2

/-- A bracket that leads from one number of open brackets to another. -/
inductive Turns : (nested : Nat) → Char → Nat → Prop
  | opened (nested : Nat) : Turns nested '(' (nested + 1)
  | closed (nested : Nat) : Turns (nested + 1) ')' nested

/-- At every place a bracket is written that keeps the rest possible. -/
private theorem exists_turn (toss : σ → Bool × σ) (source : σ) (h : Fits (places + 1) nested) :
    ∃ bracket next following,
      generate toss (places + 1) nested source = bracket :: generate toss places next following ∧
      Turns nested bracket next ∧ Fits places next ∧
      (places + 1 < 2 ^ 64 →
        turn? toss (places + 1) nested source = some (bracket, next, following)) := by
  obtain ⟨hle, hparity⟩ := h
  by_cases hfull : nested = places + 1
  · subst hfull
    refine ⟨')', places, source, ?_, .closed places, ⟨Nat.le_refl _, rfl⟩, fun _ => ?_⟩
    · simp [generate]
    · simp [turn?]
  by_cases hnone : nested = 0
  · subst hnone
    refine ⟨'(', 1, source, ?_, .opened 0, ⟨by omega, by omega⟩, fun _ => ?_⟩
    · simp [generate]
    · simp [turn?]
  -- something is open, and not all places are needed to close it
  obtain ⟨fewer, rfl⟩ : ∃ fewer, nested = fewer + 1 := ⟨nested - 1, by omega⟩
  have hspare : fewer ≠ places := fun hsame => hfull (congrArg (· + 1) hsame)
  cases htoss : toss source with
  | mk outcome following =>
      cases outcome with
      | true =>
          refine ⟨'(', fewer + 2, following, ?_, .opened _, ⟨by omega, by omega⟩, fun hwords => ?_⟩
          · simp [generate, htoss, hspare]
          · have hraise : raise? (fewer + 1) = some (fewer + 2) := if_pos (by omega)
            simp [turn?, htoss, hraise, hspare]
      | false =>
          refine ⟨')', fewer, following, ?_, .closed fewer, ⟨by omega, by omega⟩, fun _ => ?_⟩
          · simp [generate, htoss, hspare]
          · simp [turn?, htoss, hspare]

/-! ## The whole string -/

/-- A string of brackets that closes all that it opens and `nested` brackets more, and none that is not
open. -/
inductive Closes : (nested : Nat) → List Char → Prop
  | nil : Closes 0 []
  | cons {nested next : Nat} {bracket : Char} {rest : List Char} (hturn : Turns nested bracket next)
      (h : Closes next rest) : Closes nested (bracket :: rest)

private theorem closes_generate (toss : σ → Bool × σ) (source : σ) (h : Fits places nested) :
    Closes nested (generate toss places nested source) := by
  induction places generalizing nested source with
  | zero =>
      obtain rfl := Nat.le_zero.mp h.nested_le
      exact .nil
  | succ places ih =>
      obtain ⟨bracket, next, following, hgenerate, hturn, hnext, _⟩ := exists_turn toss source h
      rw [hgenerate]
      exact .cons hturn (ih following hnext)

/-- The number of open brackets is never lowered from zero, nor does it overflow. -/
theorem run?_eq_generate (toss : σ → Bool × σ) (source : σ) (h : Fits places nested)
    (hwords : places < 2 ^ 64) :
    run? toss places nested source = some (generate toss places nested source) := by
  induction places generalizing nested source with
  | zero => rfl
  | succ places ih =>
      obtain ⟨bracket, next, following, hgenerate, _, hnext, hturn⟩ := exists_turn toss source h
      rw [run?, hturn hwords, hgenerate]
      exact congrArg (Option.map _) (ih following hnext (by omega))

private theorem length_generate (toss : σ → Bool × σ) (source : σ) (h : Fits places nested) :
    (generate toss places nested source).length = places := by
  induction places generalizing nested source with
  | zero => rfl
  | succ places ih =>
      obtain ⟨bracket, next, following, hgenerate, _, hnext, _⟩ := exists_turn toss source h
      rw [hgenerate, List.length_cons, ih following hnext]

/-! ## Balance -/

/-- A string of brackets in which every bracket is closed, and none before it was opened. -/
structure Balanced (text : List Char) : Prop where
  bracket : ∀ character ∈ text, character = '(' ∨ character = ')'
  count_le : ∀ front, front <+: text → front.count ')' ≤ front.count '('
  count_eq : text.count ')' = text.count '('

/-- From the front on, no more brackets are closed than were open or are opened. -/
theorem Closes.count_le {text front : List Char} (h : Closes nested text) (hfront : front <+: text) :
    front.count ')' ≤ nested + front.count '(' := by
  induction h generalizing front with
  | nil =>
      obtain rfl := List.prefix_nil.mp hfront
      exact Nat.zero_le _
  | @cons nested next bracket rest hturn _ ih =>
      cases front with
      | nil => exact Nat.zero_le _
      | cons first front =>
          obtain ⟨rfl, hrest⟩ := List.cons_prefix_cons.mp hfront
          have hcount := ih hrest
          cases hturn with
          | opened => simpa [Nat.add_assoc, Nat.add_comm 1] using hcount
          | closed => simpa [Nat.add_right_comm] using hcount

theorem Closes.count_eq {text : List Char} (h : Closes nested text) :
    text.count ')' = nested + text.count '(' := by
  induction h with
  | nil => rfl
  | cons hturn _ ih =>
      cases hturn with
      | opened => simpa [Nat.add_assoc, Nat.add_comm 1] using ih
      | closed => simpa [Nat.add_right_comm] using ih

theorem Closes.bracket {text : List Char} (h : Closes nested text) :
    ∀ character ∈ text, character = '(' ∨ character = ')' := by
  induction h with
  | nil => simp
  | cons hturn _ ih =>
      cases hturn with
      | opened => simpa using ih
      | closed => simpa using ih

theorem Closes.balanced {text : List Char} (h : Closes 0 text) : Balanced text where
  bracket := h.bracket
  count_le front hfront := by simpa using h.count_le hfront
  count_eq := by simpa using h.count_eq

/-! ## The sentences of the grammar -/

open Grammar (parentheses)

/-- What is still to be derived behind a first `S` when brackets are open. -/
def closings : (nested : Nat) → List Symbol
  | 0 => []
  | nested + 1 => .terminal ")" :: .nonterminal "S" :: closings nested

/-- The grammar derives what closes the open brackets. -/
theorem Closes.derives {text : List Char} (h : Closes nested text) :
    parentheses.Derives (.nonterminal "S" :: closings nested)
      (text.map fun character => .terminal (String.singleton character)) := by
  have hnested : (⟨.nonterminal "S", [.terminal "(", .nonterminal "S", .terminal ")",
      .nonterminal "S"]⟩ : Production) ∈ parentheses.productions := by decide
  have hempty : (⟨.nonterminal "S", [.epsilon]⟩ : Production) ∈ parentheses.productions := by decide
  induction h with
  | nil => exact Grammar.derives_body hempty [] []
  | @cons nested next bracket rest hturn _ ih =>
      cases hturn with
      | opened =>
          have hfirst : parentheses.Derives (.nonterminal "S" :: closings nested)
              (.terminal "(" :: .nonterminal "S" :: closings (nested + 1)) :=
            Grammar.derives_body hnested [] (closings nested)
          exact hfirst.trans (ih.cons (.terminal "("))
      | closed =>
          have hfirst : parentheses.Derives (.nonterminal "S" :: closings (next + 1))
              (.terminal ")" :: .nonterminal "S" :: closings next) :=
            Grammar.derives_body hempty [] (closings (next + 1))
          exact hfirst.trans (ih.cons (.terminal ")"))

theorem Closes.isSentence {text : List Char} (h : Closes 0 text) :
    parentheses.IsSentence (Word.split (String.ofList text)) := by
  have hsymbols : (Word.split (String.ofList text)).map Symbol.terminal =
      text.map fun character => .terminal (String.singleton character) := by
    simp [Word.split]
  rw [Grammar.IsSentence, hsymbols]
  exact h.derives

theorem exists_parsers : ∃ ll1 slr1, (Analysis.ofGrammar parentheses).ll1 = .ok ll1 ∧
    (Analysis.ofGrammar parentheses).slr1 = .ok slr1 := by
  have hll1 : ((Analysis.ofGrammar parentheses).ll1.toOption.map fun _ => true) = some true := by
    decide +kernel
  have hslr1 : ((Analysis.ofGrammar parentheses).slr1.toOption.map fun _ => true) = some true := by
    decide +kernel
  obtain ⟨ll1, hll1, _⟩ := exists_ok_of_toOption_map hll1
  obtain ⟨slr1, hslr1, _⟩ := exists_ok_of_toOption_map hslr1
  exact ⟨ll1, slr1, hll1, hslr1⟩

/-- For any source of tosses, and if the number of places is a machine word, then all places are
filled, the number of open brackets stays a machine word, and the string is balanced and accepted by
both parsers. -/
theorem generate_accepted (toss : σ → Bool × σ) (source : σ) {length : Nat}
    (hwords : evenLength length < 2 ^ 64) :
    ∃ text, generate toss (evenLength length) 0 source = text ∧
      run? toss (evenLength length) 0 source = some text ∧
      text.length = (length / 2 + 1) * 2 ∧ Balanced text ∧
      ∃ ll1 slr1, (Analysis.ofGrammar parentheses).ll1 = .ok ll1 ∧
        (Analysis.ofGrammar parentheses).slr1 = .ok slr1 ∧
        ll1.accepts (Word.split (String.ofList text)) = true ∧
        slr1.accepts (Word.split (String.ofList text)) = true := by
  have hfits : Fits (evenLength length) 0 := ⟨Nat.zero_le _, by simp [evenLength]⟩
  have hcloses := closes_generate toss source hfits
  obtain ⟨ll1, slr1, hll1, hslr1⟩ := exists_parsers
  exact ⟨_, rfl, run?_eq_generate toss source hfits hwords, length_generate toss source hfits,
    hcloses.balanced, ll1, slr1, hll1, hslr1,
    (Predictive.Parser.accepts_iff hll1).mpr hcloses.isSentence,
    (ShiftReduce.Parser.accepts_iff hslr1).mpr hcloses.isSentence⟩

/-- Tosses that were made before; when they are used up, brackets are closed. -/
def tossed (tosses : List Bool) : Bool × List Bool := (tosses.headD false, tosses.tail)

/-- For ten places, brackets are opened until all places that are left are needed to close them. -/
theorem generate_accepted_tossed :
    evenLength 9 < 2 ^ 64 ∧
      generate tossed (evenLength 9) 0 [true, false, true, true, true] = "(()((())))".toList ∧
      ∃ ll1 slr1, (Analysis.ofGrammar parentheses).ll1 = .ok ll1 ∧
        (Analysis.ofGrammar parentheses).slr1 = .ok slr1 ∧
        ll1.accepts (Word.split "(()((())))") = true ∧
        slr1.accepts (Word.split "(()((())))") = true := by
  have hwords : evenLength 9 < 2 ^ 64 := by decide
  have hmade : generate tossed (evenLength 9) 0 [true, false, true, true, true] =
      "(()((())))".toList := by decide
  obtain ⟨text, htext, _, _, _, ll1, slr1, hll1, hslr1, hpredicted, hreduced⟩ :=
    generate_accepted tossed [true, false, true, true, true] hwords
  rw [← htext, hmade, String.ofList_toList] at hpredicted hreduced
  exact ⟨hwords, hmade, ll1, slr1, hll1, hslr1, hpredicted, hreduced⟩

end TableParsing.Brackets
