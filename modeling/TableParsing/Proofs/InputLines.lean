import Mathlib.Data.List.Basic
import TableParsing.Text.Line
import TableParsing.Text.WhiteSpace

/-!
# Cutting an input into lines

What is cut off the end of a line is known by what stays there
(`dropWhileEnd_append`).

An input is cut after each mark.  All pieces but perhaps the last end with their only
mark (`IsClosed`), and closed pieces are what is cut off their concatenation, whatever
follows (`cutAfter_flatten_append`).

Lines of bytes keep their bytes, also when they are no text.  An encoded text is cut
into the same lines as the text itself (`linesOfBytes_toUTF8`): no character but the
line feed has the byte of the line feed in its encoding.
-/

namespace TableParsing.Text

/-! ## Ends of lines -/

/-- What is cut off at the end does not reach beyond a member that stays. -/
theorem dropWhileEnd_append {drop : Char → Bool} {front : List Char}
    (h : ∀ last ∈ front.getLast?, drop last = false) (behind : List Char) :
    dropWhileEnd drop (front ++ behind) = front ++ dropWhileEnd drop behind := by
  have hfront : front.reverse.dropWhile drop = front.reverse := by
    cases hreverse : front.reverse with
    | nil => rfl
    | cons last rest =>
        have hlast : drop last = false := h last (by rw [← List.head?_reverse, hreverse]; rfl)
        exact List.dropWhile_cons_of_neg (Bool.eq_false_iff.mp hlast)
  rw [dropWhileEnd, dropWhileEnd, List.reverse_append, List.dropWhile_append]
  split
  · rename_i hnone
    rw [List.isEmpty_iff.mp hnone, hfront, List.reverse_reverse, List.reverse_nil, List.append_nil]
  · rw [List.reverse_append, List.reverse_reverse]

variable {α : Type} [DecidableEq α] {mark : α}

/-! ## Pieces -/

/-- A piece ends with its only mark. -/
def IsClosed (mark : α) (piece : List α) : Prop := ∃ body, mark ∉ body ∧ piece = body ++ [mark]

omit [DecidableEq α] in
theorem IsClosed.cons {piece : List α} (h : IsClosed mark piece) {a : α} (ha : a ≠ mark) :
    IsClosed mark (a :: piece) := by
  obtain ⟨body, hbody, rfl⟩ := h
  refine ⟨a :: body, ?_, rfl⟩
  rw [List.mem_cons, not_or]
  exact ⟨Ne.symm ha, hbody⟩

theorem cutAfter_append {body : List α} (h : mark ∉ body) (rest : List α) :
    cutAfter mark (body ++ mark :: rest) = (body ++ [mark]) :: cutAfter mark rest := by
  induction body with
  | nil => simp [cutAfter]
  | cons first body ih =>
      obtain ⟨hfirst, hbody⟩ := not_or.mp (mt List.mem_cons.mpr h)
      rw [List.cons_append, cutAfter, if_neg (Ne.symm hfirst), ih hbody]
      rfl

/-- Closed pieces are cut off what follows them. -/
theorem cutAfter_flatten_append {pieces : List (List α)} (h : ∀ piece ∈ pieces, IsClosed mark piece)
    (rest : List α) : cutAfter mark (pieces.flatten ++ rest) = pieces ++ cutAfter mark rest := by
  induction pieces with
  | nil => rfl
  | cons piece others ih =>
      obtain ⟨body, hbody, rfl⟩ := h piece List.mem_cons_self
      have hothers := ih fun other hother => h other (List.mem_cons_of_mem _ hother)
      rw [List.flatten_cons, List.append_assoc, List.append_assoc, List.singleton_append,
        cutAfter_append hbody, hothers, List.cons_append]

theorem cutAfter_flatten {pieces : List (List α)} (h : ∀ piece ∈ pieces, IsClosed mark piece) :
    cutAfter mark pieces.flatten = pieces := by
  simpa [cutAfter] using cutAfter_flatten_append h []

theorem isClosed_of_mem_cutAfter {input piece : List α} (hpiece : piece ∈ cutAfter mark input)
    (hmark : mark ∈ piece) : IsClosed mark piece := by
  fun_induction cutAfter mark input generalizing piece with
  | case1 => cases hpiece
  | case2 rest ih =>
      rcases List.mem_cons.mp hpiece with rfl | hrest
      · exact ⟨[], List.not_mem_nil, rfl⟩
      · exact ih hrest hmark
  | case3 a rest ha pieces ih =>
      rw [List.mem_singleton.mp hpiece, List.mem_singleton] at hmark
      exact absurd hmark.symm ha
  | case4 a rest ha first others hcut ih =>
      rw [hcut] at ih
      rcases List.mem_cons.mp hpiece with rfl | hother
      · rcases List.mem_cons.mp hmark with rfl | hmark
        · exact absurd rfl ha
        · exact (ih List.mem_cons_self hmark).cons ha
      · exact ih (List.mem_cons_of_mem _ hother) hmark

/-- A piece before another one has a mark. -/
private theorem pairwise_cutAfter (mark : α) (input : List α) :
    (cutAfter mark input).Pairwise fun piece _ => mark ∈ piece := by
  fun_induction cutAfter mark input with
  | case1 => exact .nil
  | case2 rest ih => exact List.pairwise_cons.mpr ⟨fun _ _ => List.mem_singleton_self _, ih⟩
  | case3 => exact List.pairwise_singleton ..
  | case4 a rest ha first others hcut ih =>
      rw [hcut] at ih
      obtain ⟨hfirst, hothers⟩ := List.pairwise_cons.mp ih
      exact List.pairwise_cons.mpr
        ⟨fun other hother => List.mem_cons_of_mem _ (hfirst other hother), hothers⟩

/-- The pieces up to one with a mark are closed. -/
theorem isClosed_of_cutAfter_eq {input piece : List α} {front back : List (List α)}
    (h : cutAfter mark input = front ++ piece :: back) (hmark : mark ∈ piece) :
    ∀ other ∈ front ++ [piece], IsClosed mark other := by
  have hpairs := pairwise_cutAfter mark input
  rw [h] at hpairs
  intro other hother
  have hcut : other ∈ cutAfter mark input := by
    rw [h]
    exact (List.prefix_append_right_inj front |>.mpr ⟨back, rfl⟩).subset hother
  refine isClosed_of_mem_cutAfter hcut ?_
  rcases List.mem_append.mp hother with hfront | hlast
  · exact (List.pairwise_append.mp hpairs).2.2 other hfront piece List.mem_cons_self
  · rwa [List.mem_singleton.mp hlast]

/-! ## Encoded pieces -/

/-- What has no mark stands at the beginning of the first piece. -/
private theorem cutAfter_append_of_notMem {front : List α} (hmark : mark ∉ front) (hne : front ≠ [])
    (rest : List α) : cutAfter mark (front ++ rest) =
      match cutAfter mark rest with
      | [] => [front]
      | piece :: pieces => (front ++ piece) :: pieces := by
  induction front with
  | nil => exact absurd rfl hne
  | cons a front ih =>
      obtain ⟨ha, hfront⟩ := not_or.mp (mt List.mem_cons.mpr hmark)
      rw [List.cons_append, cutAfter, if_neg (Ne.symm ha)]
      cases front with
      | nil => rfl
      | cons b front =>
          rw [ih hfront (by simp)]
          cases cutAfter mark rest <;> rfl

/-- Where only one sign is encoded with the mark, and by the mark alone, the code of signs is cut
where the signs are. -/
theorem cutAfter_flatMap {β : Type} [DecidableEq β] {sign : β} {encode : β → List α}
    (hsign : encode sign = [mark]) (hother : ∀ other, other ≠ sign → mark ∉ encode other)
    (hne : ∀ other, encode other ≠ []) (input : List β) :
    cutAfter mark (input.flatMap encode) = (cutAfter sign input).map (List.flatMap encode) := by
  fun_induction cutAfter sign input with
  | case1 => rfl
  | case2 rest ih =>
      rw [List.flatMap_cons, hsign, List.singleton_append, cutAfter, if_pos rfl, ih]
      simp [hsign]
  | case3 other rest h pieces ih =>
      rw [List.flatMap_cons, cutAfter_append_of_notMem (hother other h) (hne other), ih]
      simp_all
  | case4 other rest h piece pieces hcut ih =>
      rw [List.flatMap_cons, cutAfter_append_of_notMem (hother other h) (hne other), ih, hcut]
      simp

/-! ## Lines -/

theorem Line.bytes_ofBytes (bytes : List UInt8) : (Line.ofBytes bytes).bytes = bytes := by
  unfold Line.ofBytes
  split
  · rename_i content hcontent
    unfold String.fromUTF8? at hcontent
    split at hcontent
    · cases hcontent
      simp [Line.bytes, String.fromUTF8]
    · cases hcontent
  · rfl

theorem bytesOfLines_map_ofBytes (pieces : List (List UInt8)) :
    bytesOfLines (pieces.map Line.ofBytes) = pieces.flatten := by
  rw [bytesOfLines, List.flatMap_def, List.map_map]
  congr 1
  exact List.map_id'' Line.bytes_ofBytes pieces

theorem bytesOfLines_linesOfBytes (input : List UInt8) :
    bytesOfLines (linesOfBytes input) = input := by
  rw [linesOfBytes, bytesOfLines_map_ofBytes, flatten_cutAfter]

/-- Only the line feed is encoded with its byte. -/
private theorem notMem_utf8EncodeChar {character : Char} (h : character ≠ '\n') :
    10 ∉ String.utf8EncodeChar character := by
  have hcode : character.val.toNat ≠ 10 := fun hsame => h (Char.ext (UInt32.toNat_inj.mp hsame))
  have hbyte : ∀ code, 10 = UInt8.ofNat code ↔ 10 = code % 256 := fun code => UInt8.toNat_inj.symm
  -- in a code of more than one byte none of them is below 128
  simp only [String.utf8EncodeChar]
  split
  · simp only [List.mem_singleton, hbyte]
    omega
  · repeat' split
    all_goals
      simp only [List.mem_cons, List.not_mem_nil, or_false, hbyte]
      omega

theorem Line.ofBytes_utf8Encode (characters : List Char) :
    Line.ofBytes (characters.flatMap String.utf8EncodeChar) = .text (String.ofList characters) := by
  have hbytes : (⟨(characters.flatMap String.utf8EncodeChar).toArray⟩ : ByteArray) =
      (String.ofList characters).toByteArray := by
    rw [String.toByteArray_ofList]
    exact ByteArray.ext List.data_toByteArray.symm
  rw [Line.ofBytes, hbytes, String.fromUTF8?, dif_pos (String.ofList characters).isValidUTF8]
  rfl

/-- A text is cut into the same lines as its encoding. -/
theorem linesOfBytes_toUTF8 (input : String) :
    linesOfBytes input.toUTF8.data.toList = linesOfText input := by
  have hbytes : input.toUTF8.data.toList = input.toList.flatMap String.utf8EncodeChar := by
    rw [String.toUTF8, ← String.utf8Encode_toList, List.utf8Encode, List.data_toByteArray]
  have hnewline : String.utf8EncodeChar '\n' = [10] := rfl
  rw [linesOfBytes, hbytes, cutAfter_flatMap hnewline (fun _ => notMem_utf8EncodeChar)
    (fun _ => String.utf8EncodeChar_ne_nil), List.map_map, linesOfText]
  exact List.map_congr_left fun characters _ => Line.ofBytes_utf8Encode characters

/-- The lines of a text, as texts. -/
def contentsOfText (input : String) : List String :=
  (cutAfter '\n' input.toList).map String.ofList

theorem linesOfText_eq (input : String) : linesOfText input = (contentsOfText input).map .text := by
  rw [linesOfText, contentsOfText, List.map_map]
  rfl

theorem bytesOfLines_map_text (contents : List String) :
    bytesOfLines (contents.map .text) = (String.join contents).toUTF8.data.toList := by
  induction contents with
  | nil => rfl
  | cons content rest ih =>
      rw [bytesOfLines] at ih
      rw [List.map_cons, bytesOfLines, List.flatMap_cons, ih, String.join_cons]
      simp [Line.bytes, String.toUTF8]

end TableParsing.Text
