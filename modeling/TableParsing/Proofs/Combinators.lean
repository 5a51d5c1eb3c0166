import TableParsing.Combinators.Standard

/-!
# The standard combinators do what is documented

The place of an error is all that `Combinators.reply` tells of it, and forgetting the
rest goes well with putting parsers together, so the laws of single characters and of
sequences hold by definition.  A repetition is defined by recursion on the length of
the input; that it comes to what `Repeats` and `Separated` say follows their rules,
each of which is one round (`repeated_of_repeats`, `separated_of_separated`).
-/

namespace TableParsing

namespace Reply

variable {ε ε' α β : Type} {reply : Reply ε α} {change : ε → ε'}

theorem mapError_eq_ok {committed : Bool} {value : α} {rest : List Char}
    (h : reply.mapError change = .ok committed value rest) : reply = .ok committed value rest := by
  cases reply with
  | ok =>
      cases h
      rfl
  | error => cases h

theorem exists_of_mapError_eq_error {committed : Bool} {fault : ε'}
    (h : reply.mapError change = .error committed fault) :
    ∃ own, reply = .error committed own ∧ change own = fault := by
  cases reply with
  | ok => cases h
  | error committed own =>
      cases h
      exact ⟨own, rfl, rfl⟩

theorem mapError_map (convert : α → β) :
    (reply.map convert).mapError change = (reply.mapError change).map convert := by
  cases reply <;> rfl

theorem mapError_after (committed : Bool) :
    (reply.after committed).mapError change = (reply.mapError change).after committed := by
  cases reply <;> rfl

theorem mapError_andThen (next : α → List Char → Reply ε β) :
    (reply.andThen next).mapError change =
      (reply.mapError change).andThen fun value rest => (next value rest).mapError change := by
  cases reply with
  | ok => exact mapError_after _
  | error => rfl

end Reply

namespace Standard

variable {α β : Type} {input : List Char}

/-! ## Repetitions -/

private theorem repeated_of_repeats {parser : Parser α} {all : Reply (List Char) (List α)}
    (h : Repeats (fun input => (parser input).mapError Failure.place) input all) :
    (repeated parser input).mapError Failure.place = all := by
  induction h with
  | stop h | fail h =>
      obtain ⟨failure, hreply, rfl⟩ := Reply.exists_of_mapError_eq_error h
      rw [repeated, hreply]
      rfl
  | more h hless _ ih =>
      rw [repeated, Reply.mapError_eq_ok h]
      simp only [dif_pos hless]
      rw [Reply.mapError_after, Reply.mapError_map, ih]

private theorem separated_of_separated {item : Parser α} {separator : Parser β}
    {all : Reply (List Char) (List α)}
    (h : Separated (fun input => (item input).mapError Failure.place)
      (fun input => (separator input).mapError Failure.place) input all) :
    (separated item separator input).mapError Failure.place = all := by
  induction h with
  | last h | badSeparator h =>
      obtain ⟨failure, hreply, rfl⟩ := Reply.exists_of_mapError_eq_error h
      rw [separated, hreply]
      rfl
  | closed h hitem | badItem h hitem =>
      obtain ⟨failure, hreply, rfl⟩ := Reply.exists_of_mapError_eq_error hitem
      rw [separated, Reply.mapError_eq_ok h]
      simp only [hreply]
      rfl
  | more h hitem hless _ ih =>
      rw [separated, Reply.mapError_eq_ok h]
      simp only [Reply.mapError_eq_ok hitem, dif_pos hless]
      rw [Reply.mapError_after, Reply.mapError_map, ih]

/-! ## Texts of errors -/

private theorem text_append (front : List Char) (failure : Failure) :
    failure.text (front ++ failure.place) =
      "Parse error at " ++ (Position.behind front).text ++ "\n" ++ failure.details := by
  have hfront : (front ++ failure.place).take
      ((front ++ failure.place).length - failure.place.length) = front := by
    rw [List.length_append, Nat.add_sub_cancel, List.take_left]
  unfold Failure.text
  rw [hfront]

end Standard

namespace Combinators

open Standard

theorem standard_documented : standard.Documented where
  satisfy_cons {test character} h rest := by
    show (Standard.satisfy test (character :: rest)).mapError Failure.place = _
    rw [Standard.satisfy, if_pos h]
    rfl
  satisfy_error {test input} h := by
    show (Standard.satisfy test input).mapError Failure.place = _
    cases input with
    | nil => rfl
    | cons character rest =>
        have hother : ¬ test character = true := Bool.eq_false_iff.mp (h character rfl)
        rw [Standard.satisfy, if_neg hother]
        rfl
  eof_nil := rfl
  eof_cons character rest := rfl
  map change parser input := Reply.mapError_map change
  skipThen first second input := Reply.mapError_andThen _
  pair first second input := by
    show ((first input).andThen fun a rest => (second rest).map fun b => (a, b)).mapError _ = _
    simp only [Reply.mapError_andThen, Reply.mapError_map]
    rfl
  quadruple first second third fourth input := by
    show ((first input).andThen fun a rest => (second rest).andThen fun b rest =>
      (third rest).andThen fun c rest => (fourth rest).map fun d => (a, b, c, d)).mapError _ = _
    simp only [Reply.mapError_andThen, Reply.mapError_map]
    rfl
  expected parser what input := by
    show (Standard.expected parser what input).mapError Failure.place =
      (parser input).mapError Failure.place
    unfold Standard.expected
    split
    · rename_i hreply
      rw [hreply]
      rfl
    · rfl
  many1 {parser input rest committed first later} h hlater := by
    show ((parser input).andThen fun first rest => (repeated parser rest).map _).mapError _ = _
    rw [Reply.mapError_eq_ok h, ← repeated_of_repeats hlater, ← Reply.mapError_map,
      ← Reply.mapError_after]
    rfl
  many1_error {parser input place committed} h := by
    obtain ⟨failure, hreply, rfl⟩ := Reply.exists_of_mapError_eq_error h
    show ((parser input).andThen _).mapError _ = _
    rw [hreply]
    rfl
  skipMany {α parser input all} h := by
    rw [← repeated_of_repeats h]
    exact Reply.mapError_map _
  skipMany1 {α parser input rest committed first later} h hlater := by
    show ((parser input).andThen fun _ rest => (repeated parser rest).map _).mapError _ = _
    rw [Reply.mapError_eq_ok h, ← repeated_of_repeats hlater, ← Reply.mapError_map,
      ← Reply.mapError_after]
    rfl
  skipMany1_error {α parser input place committed} h := by
    obtain ⟨failure, hreply, rfl⟩ := Reply.exists_of_mapError_eq_error h
    show ((parser input).andThen _).mapError _ = _
    rw [hreply]
    rfl
  sepEndBy1 {α β item separator input rest committed first later} h hlater := by
    show ((item input).andThen fun first rest => (separated item separator rest).map _).mapError _ = _
    rw [Reply.mapError_eq_ok h, ← separated_of_separated hlater, ← Reply.mapError_map,
      ← Reply.mapError_after]
    rfl
  sepEndBy1_error {α β item separator input place committed} h := by
    obtain ⟨failure, hreply, rfl⟩ := Reply.exists_of_mapError_eq_error h
    show ((item input).andThen _).mapError _ = _
    rw [hreply]
    rfl
  parse_ok {α parser input rest committed value} h := by
    show Standard.parse parser input = _
    unfold Standard.parse
    rw [Reply.mapError_eq_ok h]
  parse_error {α parser front place committed} h := by
    obtain ⟨failure, hreply, rfl⟩ := Reply.exists_of_mapError_eq_error h
    refine ⟨failure.details, ?_⟩
    show Standard.parse parser (front ++ failure.place) = _
    unfold Standard.parse
    rw [hreply]
    exact congrArg Except.error (text_append front failure)

end Combinators

end TableParsing
