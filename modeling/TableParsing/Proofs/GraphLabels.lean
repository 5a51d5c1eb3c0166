import Mathlib.Data.List.Basic
import Mathlib.Logic.Function.Basic
import TableParsing.Proofs.Lists
import TableParsing.Report.StateGraph

/-!
# Texts in the labels of the graph

Texts of items and symbols are escaped before they are put into a label.  A reader
of the graph can undo this, whatever characters the texts hold, and finds each
label closed where the graph closes it (`labels_faithful`).

Escaping is described in two ways.  Character by character it is a map, which
makes it compatible with concatenation and lets every property be proved along the
text.  As a chain of replacements, each of them made in the whole text, it depends
on the order of the chain: what one replacement brings in must not be hit by a
later one (`replaceEach_eq_flatMap`).

The readers are `unescapeHtml` for the entities and `unescapeLabel` for the
backslashes, both in one pass from left to right.  Of what stands around them,
`characterData` reads a text with tags, `behindLabel?` looks for the bracket that
closes an HTML-like label, and `quoted?` for the quote that closes a quoted one.
-/

namespace TableParsing.Report

/-! ## Replacing characters in a whole text -/

/-- Replaces every occurrence of a character by a text. -/
def substitute (old : Char) (new : String) (text : List Char) : List Char :=
  text.flatMap fun character => if character = old then new.toList else [character]

/-- Makes replacements one after the other, each in what the earlier ones have left. -/
def replaceEach (rules : List (Char × String)) (text : List Char) : List Char :=
  rules.foldl (fun text (old, new) => substitute old new text) text

/-- What the first rule for a character puts in its place. -/
def replacement : List (Char × String) → Char → List Char
  | [], character => [character]
  | (old, new) :: rules, character =>
    if character = old then new.toList else replacement rules character

theorem flatMap_replacement_eq_self {rules : List (Char × String)} {text : List Char}
    (h : ∀ rule ∈ rules, rule.1 ∉ text) : text.flatMap (replacement rules) = text := by
  have hsingle : ∀ character ∈ text, replacement rules character = [character] := by
    intro character hcharacter
    induction rules with
    | nil => rfl
    | cons rule rules ih =>
        have hother : character ≠ rule.1 := by
          rintro rfl
          exact h rule List.mem_cons_self hcharacter
        rw [replacement, if_neg hother]
        exact ih fun other hmem => h other (List.mem_cons_of_mem _ hmem)
  calc text.flatMap (replacement rules)
      = text.flatMap fun character => [character] := List.flatMap_congr hsingle
    _ = text := List.flatMap_singleton' text

/-- If no replacement brings in a character that a later one replaces, then all of them can be made
at once. -/
theorem replaceEach_eq_flatMap {rules : List (Char × String)}
    (h : rules.Pairwise fun earlier later => later.1 ∉ earlier.2.toList) (text : List Char) :
    replaceEach rules text = text.flatMap (replacement rules) := by
  induction rules generalizing text with
  | nil => exact (List.flatMap_singleton' text).symm
  | cons rule rules ih =>
      obtain ⟨hlater, hrules⟩ := List.pairwise_cons.mp h
      calc replaceEach (rule :: rules) text
          = (substitute rule.1 rule.2 text).flatMap (replacement rules) := ih hrules _
        _ = text.flatMap (replacement (rule :: rules)) := by
            rw [substitute, List.flatMap_assoc]
            refine List.flatMap_congr fun character _ => ?_
            rw [replacement]
            split
            · exact flatMap_replacement_eq_self hlater
            · exact List.flatMap_singleton _ _

/-- The replacements for an HTML-like label. -/
def htmlRules : List (Char × String) := [('&', "&amp;"), ('<', "&lt;"), ('>', "&gt;")]

/-- The replacements for a quoted label. -/
def labelRules : List (Char × String) := [('\\', "\\\\"), ('"', "\\\"")]

private theorem escapeHtmlChar_eq (character : Char) :
    escapeHtmlChar character = replacement htmlRules character := by
  unfold escapeHtmlChar
  split
  · rfl
  · rfl
  · rfl
  · rename_i hamp hless hmore
    simp only [htmlRules, replacement, if_neg hamp, if_neg hless, if_neg hmore]

private theorem escapeLabelChar_eq (character : Char) :
    escapeLabelChar character = replacement labelRules character := by
  unfold escapeLabelChar
  split
  · rfl
  · rfl
  · rename_i hbackslash hquote
    simp only [labelRules, replacement, if_neg hbackslash, if_neg hquote]

theorem toList_escapeHtml (text : String) :
    (escapeHtml text).toList = text.toList.flatMap escapeHtmlChar := String.toList_ofList

theorem toList_escapeLabel (text : String) :
    (escapeLabel text).toList = text.toList.flatMap escapeLabelChar := String.toList_ofList

/-- The escape is a chain of replacements: the one of the ampersand comes first. -/
theorem escapeHtml_eq_replaceEach (text : String) :
    (escapeHtml text).toList = replaceEach htmlRules text.toList := by
  rw [toList_escapeHtml, replaceEach_eq_flatMap (by decide)]
  exact List.flatMap_congr fun character _ => escapeHtmlChar_eq character

/-- The escape is a chain of replacements: the one of the backslash comes first. -/
theorem escapeLabel_eq_replaceEach (text : String) :
    (escapeLabel text).toList = replaceEach labelRules text.toList := by
  rw [toList_escapeLabel, replaceEach_eq_flatMap (by decide)]
  exact List.flatMap_congr fun character _ => escapeLabelChar_eq character

/-! ## Escapes that can be undone -/

/-- A decoder undoes an escape, so that no two texts are escaped to the same one; and a text may be
escaped in parts. -/
structure Undoes (decode : List Char → List Char) (escape : String → String) : Prop where
  decode_escape : ∀ text, decode (escape text).toList = text.toList
  injective : Function.Injective escape
  append : ∀ first second, escape (first ++ second) = escape first ++ escape second

/-- An escape character by character is undone if each escaped character is, before any text. -/
private theorem undoes_of_cons {decode : List Char → List Char} {escape : String → String}
    {escapeChar : Char → List Char}
    (hescape : ∀ text, escape text = String.ofList (text.toList.flatMap escapeChar))
    (hnil : decode [] = [])
    (hcons : ∀ character rest, decode (escapeChar character ++ rest) = character :: decode rest) :
    Undoes decode escape := by
  have hlist : ∀ text : List Char, decode (text.flatMap escapeChar) = text := by
    intro text
    induction text with
    | nil => exact hnil
    | cons character rest ih => rw [List.flatMap_cons, hcons, ih]
  have hdecode : ∀ text, decode (escape text).toList = text.toList := by
    intro text
    rw [hescape, String.toList_ofList, hlist]
  constructor
  case decode_escape => exact hdecode
  case injective =>
    intro first second hsame
    rw [← String.toList_inj, ← hdecode first, hsame, hdecode second]
  case append =>
    intro first second
    simp only [hescape, String.toList_append, List.flatMap_append, String.ofList_append]

/-! ### Entities -/

/-- Decodes the entities from left to right; any other ampersand stands for itself. -/
def unescapeHtml : List Char → List Char
  | '&' :: 'a' :: 'm' :: 'p' :: ';' :: rest => '&' :: unescapeHtml rest
  | '&' :: 'l' :: 't' :: ';' :: rest => '<' :: unescapeHtml rest
  | '&' :: 'g' :: 't' :: ';' :: rest => '>' :: unescapeHtml rest
  | character :: rest => character :: unescapeHtml rest
  | [] => []

theorem unescapeHtml_cons {character : Char} (h : character ≠ '&') (rest : List Char) :
    unescapeHtml (character :: rest) = character :: unescapeHtml rest := by
  rw [unescapeHtml]
  all_goals exact fun _ hamp _ => h hamp

private theorem unescapeHtml_escapeHtmlChar (character : Char) (rest : List Char) :
    unescapeHtml (escapeHtmlChar character ++ rest) = character :: unescapeHtml rest := by
  unfold escapeHtmlChar
  split
  · rfl
  · rfl
  · rfl
  · rename_i hamp _ _
    exact unescapeHtml_cons hamp rest

theorem undoes_unescapeHtml : Undoes unescapeHtml escapeHtml :=
  undoes_of_cons (fun _ => rfl) rfl unescapeHtml_escapeHtmlChar

def entities : List String := ["&amp;", "&lt;", "&gt;"]

/-- A text without brackets in which every ampersand begins an entity. -/
structure IsCharacterData (text : List Char) : Prop where
  less_not_mem : '<' ∉ text
  greater_not_mem : '>' ∉ text
  entity : ∀ before behind, text = before ++ '&' :: behind →
    ∃ entity ∈ entities, entity.toList <+: '&' :: behind

theorem escapeHtmlChar_cases (character : Char) :
    (character ≠ '&' ∧ character ≠ '<' ∧ character ≠ '>' ∧ escapeHtmlChar character = [character]) ∨
      ∃ entity ∈ entities, escapeHtmlChar character = entity.toList := by
  unfold escapeHtmlChar
  split
  · exact .inr ⟨"&amp;", by decide, rfl⟩
  · exact .inr ⟨"&lt;", by decide, rfl⟩
  · exact .inr ⟨"&gt;", by decide, rfl⟩
  · rename_i hamp hless hmore
    exact .inl ⟨hamp, hless, hmore, rfl⟩

/-- What is not in a text stands behind it. -/
private theorem exists_behind_of_append_eq {front rest before behind : List Char} {mark : Char}
    (hmark : mark ∉ front) (h : front ++ rest = before ++ mark :: behind) :
    ∃ between, rest = between ++ mark :: behind := by
  rcases append_eq_append_cons_iff.mp h with ⟨between, rfl, _⟩ | ⟨between, _, hrest⟩
  · exact absurd (List.mem_append_right before List.mem_cons_self) hmark
  · exact ⟨between, hrest⟩

private theorem isCharacterData_nil : IsCharacterData [] where
  less_not_mem := List.not_mem_nil
  greater_not_mem := List.not_mem_nil
  entity before behind h := by simp at h

theorem IsCharacterData.plain {character : Char} {rest : List Char} (h : IsCharacterData rest)
    (hamp : character ≠ '&') (hless : character ≠ '<') (hmore : character ≠ '>') :
    IsCharacterData (character :: rest) := by
  constructor
  case less_not_mem => simpa [hless.symm] using h.less_not_mem
  case greater_not_mem => simpa [hmore.symm] using h.greater_not_mem
  case entity =>
    intro before behind hsplit
    have hfront : '&' ∉ [character] := by simpa using hamp.symm
    rw [← List.singleton_append] at hsplit
    obtain ⟨between, hrest⟩ := exists_behind_of_append_eq hfront hsplit
    exact h.entity between behind hrest

private theorem exists_name_of_mem_entities : ∀ entity ∈ entities, ∃ name, entity.toList = '&' :: name ∧
    '&' ∉ name ∧ '<' ∉ name ∧ '>' ∉ name := by
  intro entity hentity
  simp only [entities, List.mem_cons, List.not_mem_nil, or_false] at hentity
  rcases hentity with rfl | rfl | rfl
  · exact ⟨"amp;".toList, by decide⟩
  · exact ⟨"lt;".toList, by decide⟩
  · exact ⟨"gt;".toList, by decide⟩

theorem IsCharacterData.entity_append {entity : String} {rest : List Char} (h : IsCharacterData rest)
    (hentity : entity ∈ entities) : IsCharacterData (entity.toList ++ rest) := by
  obtain ⟨name, hname, hamp, hless, hmore⟩ := exists_name_of_mem_entities entity hentity
  constructor
  case less_not_mem => simp [hname, hless, h.less_not_mem]
  case greater_not_mem => simp [hname, hmore, h.greater_not_mem]
  case entity =>
    intro before behind hsplit
    cases before with
    | nil => exact ⟨entity, hentity, rest, hsplit⟩
    | cons first before =>
        rw [hname] at hsplit
        obtain ⟨_, hbehind⟩ := List.cons.inj hsplit
        obtain ⟨between, hrest⟩ := exists_behind_of_append_eq hamp hbehind
        exact h.entity between behind hrest

theorem isCharacterData_escapeHtml (text : String) : IsCharacterData (escapeHtml text).toList := by
  rw [toList_escapeHtml]
  induction text.toList with
  | nil => exact isCharacterData_nil
  | cons character rest ih =>
      rw [List.flatMap_cons]
      rcases escapeHtmlChar_cases character with
        ⟨hamp, hless, hmore, hsame⟩ | ⟨entity, hentity, hsame⟩
      · exact hsame ▸ ih.plain hamp hless hmore
      · exact hsame ▸ ih.entity_append hentity

/-! ### Backslashes -/

/-- Decodes the backslashes from left to right: each stands before a character that is meant. -/
def unescapeLabel : List Char → List Char
  | '\\' :: character :: rest => character :: unescapeLabel rest
  | character :: rest => character :: unescapeLabel rest
  | [] => []

theorem unescapeLabel_cons {character : Char} (h : character ≠ '\\') (rest : List Char) :
    unescapeLabel (character :: rest) = character :: unescapeLabel rest := by
  rw [unescapeLabel]
  exact fun _ _ hbackslash _ => h hbackslash

private theorem unescapeLabel_escapeLabelChar (character : Char) (rest : List Char) :
    unescapeLabel (escapeLabelChar character ++ rest) = character :: unescapeLabel rest := by
  unfold escapeLabelChar
  split
  · rfl
  · rfl
  · rename_i hbackslash _
    exact unescapeLabel_cons hbackslash rest

theorem undoes_unescapeLabel : Undoes unescapeLabel escapeLabel :=
  undoes_of_cons (fun _ => rfl) rfl unescapeLabel_escapeLabelChar

/-- A text of complete escapes and of other characters, with no quote among these. -/
inductive IsQuotable : List Char → Prop
  | nil : IsQuotable []
  | plain {character : Char} {rest : List Char} (hquote : character ≠ '"')
      (hbackslash : character ≠ '\\') (h : IsQuotable rest) : IsQuotable (character :: rest)
  | escape (character : Char) {rest : List Char} (h : IsQuotable rest) :
      IsQuotable ('\\' :: character :: rest)

theorem isQuotable_escapeLabel (text : String) : IsQuotable (escapeLabel text).toList := by
  rw [toList_escapeLabel]
  induction text.toList with
  | nil => exact .nil
  | cons character rest ih =>
      rw [List.flatMap_cons]
      unfold escapeLabelChar
      split
      · exact .escape _ ih
      · exact .escape _ ih
      · rename_i hbackslash hquote
        exact .plain hquote hbackslash ih

/-! ## Reading the graph -/

/-- The characters of a text outside its tags; `inside` says whether it begins within one. -/
def characterData : (inside : Bool) → List Char → List Char
  | _, [] => []
  | _, '<' :: rest => characterData true rest
  | true, '>' :: rest => characterData false rest
  | true, _ :: rest => characterData true rest
  | false, character :: rest => character :: characterData false rest

/-- Reads a label in angle brackets, when `depth` further ones are open within it, up to the bracket
that closes it; the result is what stands behind it. -/
def behindLabel? : (depth : Nat) → List Char → Option (List Char)
  | _, [] => none
  | 0, '>' :: behind => some behind
  | depth + 1, '>' :: rest => behindLabel? depth rest
  | depth, '<' :: rest => behindLabel? (depth + 1) rest
  | depth, _ :: rest => behindLabel? depth rest

/-- Reads the first label in angle brackets. -/
def behindFirstLabel? (text : List Char) : Option (List Char) :=
  behindLabel? 0 (text.dropWhile fun character => character ≠ '<').tail

/-- Reads a quoted text, behind the quote that opens it, up to the quote that closes it: its meaning,
and what stands behind it. -/
def quoted? : List Char → Option (List Char × List Char)
  | [] => none
  | '"' :: behind => some ([], behind)
  | '\\' :: [] => none
  | '\\' :: character :: rest =>
    (quoted? rest).map fun (text, behind) => (character :: text, behind)
  | character :: rest => (quoted? rest).map fun (text, behind) => (character :: text, behind)

/-- Reads the first quoted text of a line. -/
def firstQuoted? (line : List Char) : Option (List Char × List Char) :=
  quoted? (line.dropWhile fun character => character ≠ '"').tail

theorem characterData_append {text : List Char} (h : '<' ∉ text) (rest : List Char) :
    characterData false (text ++ rest) = text ++ characterData false rest := by
  induction text with
  | nil => rfl
  | cons character text ih =>
      obtain ⟨hless, htext⟩ := not_or.mp (mt List.mem_cons.mpr h)
      rw [List.cons_append, characterData, ih htext, List.cons_append]
      exact fun hsame => hless hsame.symm

/-- A mark that does not occur before is found where it stands. -/
private theorem dropWhile_append_cons {front : List Char} {mark : Char} (h : mark ∉ front)
    (rest : List Char) :
    (front ++ mark :: rest).dropWhile (fun character => character ≠ mark) = mark :: rest := by
  have hfront : ∀ character ∈ front, decide (character ≠ mark) = true := fun character hmem =>
    decide_eq_true fun hsame => h (hsame ▸ hmem)
  rw [List.dropWhile_append_of_pos hfront, List.dropWhile_cons_of_neg (by simp)]

private theorem not_mem_toDigits {character : Char} (h : character.isDigit = false) (number : Nat) :
    character ∉ Nat.toDigits 10 number := fun hmem => by
  rw [Nat.isDigit_of_mem_toDigits (by decide) (by decide) hmem] at h
  cases h

/-! ### Nodes -/

/-- Behind a text the same brackets are open as before it. -/
def IsNested (text : List Char) : Prop :=
  ∀ depth rest, behindLabel? depth (text ++ rest) = behindLabel? depth rest

theorem IsNested.append {first second : List Char} (h : IsNested first) (h' : IsNested second) :
    IsNested (first ++ second) := by
  intro depth rest
  rw [List.append_assoc, h, h']

theorem isNested_of_not_mem {text : List Char} (hless : '<' ∉ text) (hmore : '>' ∉ text) :
    IsNested text := by
  intro depth rest
  induction text with
  | nil => rfl
  | cons character text ih =>
      obtain ⟨hless, hlessText⟩ := not_or.mp (mt List.mem_cons.mpr hless)
      obtain ⟨hmore, hmoreText⟩ := not_or.mp (mt List.mem_cons.mpr hmore)
      rw [List.cons_append, behindLabel?, ih hlessText hmoreText]
      · exact fun hsame => hless hsame.symm
      · exact fun _ hsame => hmore hsame.symm
      · exact fun _ _ hsame => hmore hsame.symm

theorem IsNested.intercalate {separator : List Char} {parts : List (List Char)}
    (hseparator : IsNested separator) (h : ∀ part ∈ parts, IsNested part) :
    IsNested (separator.intercalate parts) := by
  induction parts with
  | nil => exact isNested_of_not_mem List.not_mem_nil List.not_mem_nil
  | cons part parts ih =>
      have hpart := h part List.mem_cons_self
      cases parts with
      | nil => simpa using hpart
      | cons next parts =>
          rw [List.intercalate_cons_cons]
          exact (hpart.append hseparator).append
            (ih fun other hother => h other (List.mem_cons_of_mem _ hother))

theorem isNested_itemRow (grammar : Grammar) (item : ShiftReduce.Item) :
    IsNested (itemRow grammar item).toList := by
  have hdata := isCharacterData_escapeHtml (item.text grammar)
  have htext := isNested_of_not_mem hdata.less_not_mem hdata.greater_not_mem
  intro depth rest
  unfold itemRow
  split
  · simp [behindLabel?, htext depth]
  · simp [behindLabel?, htext depth]

theorem isNested_rows (grammar : Grammar) (items : List ShiftReduce.Item) :
    IsNested ("\n".intercalate (items.map (itemRow grammar))).toList := by
  rw [String.toList_intercalate]
  refine IsNested.intercalate (isNested_of_not_mem (by decide) (by decide)) ?_
  simp only [List.mem_map]
  rintro _ ⟨_, ⟨item, _, rfl⟩, rfl⟩
  exact isNested_itemRow grammar item

/-- What stands within the angle brackets of a node's label. -/
def nodeLabel (state : Nat) (rows : String) : String :=
  "\n    <TABLE BORDER=\"0\" CELLBORDER=\"1\" CELLSPACING=\"0\">\n      <TR><TD><B>State #" ++
    toString state ++ "</B></TD></TR>\n" ++ rows ++ "\n    </TABLE>\n  "

theorem toList_stateNode (grammar : Grammar) (items : ShiftReduce.ItemSet) (state : Nat) :
    (stateNode grammar items state).toList =
      ("  State" ++ toString state ++ " [shape=plain label=").toList ++ '<' ::
        ((nodeLabel state ("\n".intercalate (items.toList.map (itemRow grammar)))).toList ++
          '>' :: "];".toList) := by
  unfold stateNode nodeLabel
  generalize "\n".intercalate (items.toList.map (itemRow grammar)) = rows
  simp

theorem isNested_nodeLabel (state : Nat) {rows : String} (h : IsNested rows.toList) :
    IsNested (nodeLabel state rows).toList := by
  have hnumber : IsNested (Nat.toDigits 10 state) :=
    isNested_of_not_mem (not_mem_toDigits (by decide) state) (not_mem_toDigits (by decide) state)
  unfold nodeLabel
  intro depth rest
  simp [behindLabel?, hnumber _, h _]

/-- The first angle bracket of a node opens its label, and the last one closes it. -/
theorem behindFirstLabel?_stateNode (grammar : Grammar) (items : ShiftReduce.ItemSet) (state : Nat) :
    behindFirstLabel? (stateNode grammar items state).toList = some "];".toList := by
  have hfront : '<' ∉ ("  State" ++ toString state ++ " [shape=plain label=").toList := by
    have hnumber : '<' ∉ Nat.toDigits 10 state := not_mem_toDigits (by decide) state
    simp [hnumber]
  rw [behindFirstLabel?, toList_stateNode, dropWhile_append_cons hfront, List.tail_cons,
    isNested_nodeLabel state (isNested_rows grammar items.toList)]
  rfl

/-- The data of a row is the text of its item, which opens and closes no tag. -/
theorem characterData_itemRow (grammar : Grammar) (item : ShiftReduce.Item) :
    characterData false (itemRow grammar item).toList =
      "      ".toList ++ (escapeHtml (item.text grammar)).toList := by
  have htext := (isCharacterData_escapeHtml (item.text grammar)).less_not_mem
  unfold itemRow
  split
  · simp [characterData, characterData_append htext]
  · simp [characterData, characterData_append htext]

/-! ### Edges -/

/-- The quote behind a quotable text is the one that closes it. -/
theorem quoted?_append {text : List Char} (h : IsQuotable text) (behind : List Char) :
    quoted? (text ++ '"' :: behind) = some (unescapeLabel text, behind) := by
  induction h with
  | nil => rfl
  | @plain character rest hquote hbackslash _ ih =>
      rw [List.cons_append, unescapeLabel_cons hbackslash, quoted?, ih]
      · rfl
      · exact hquote
      · exact fun hsame _ => hbackslash hsame
      · exact fun _ _ hsame _ => hbackslash hsame
  | escape character _ ih =>
      rw [List.cons_append, List.cons_append, unescapeLabel, quoted?, ih]
      rfl

/-- The first quote of an edge opens its label, and the last one closes it. -/
theorem firstQuoted?_transitionEdge (transition : Cell Nat × Nat) :
    firstQuoted? (transitionEdge transition).toList =
      some (transition.1.column.text.toList, "];".toList) := by
  obtain ⟨⟨row, column⟩, target⟩ := transition
  have hfront : '"' ∉ ("  State" ++ toString row ++ " -> State" ++ toString target ++
      " [label=").toList := by
    have hnumber : ∀ number, '"' ∉ Nat.toDigits 10 number := not_mem_toDigits (by decide)
    simp [hnumber]
  have hedge : (transitionEdge (⟨row, column⟩, target)).toList =
      ("  State" ++ toString row ++ " -> State" ++ toString target ++ " [label=").toList ++
        '"' :: ((escapeLabel column.text).toList ++ '"' :: "];".toList) := by
    simp [transitionEdge]
  rw [firstQuoted?, hedge, dropWhile_append_cons hfront, List.tail_cons,
    quoted?_append (isQuotable_escapeLabel column.text), undoes_unescapeLabel.decode_escape]

/-- Either escape makes its replacements one after the other, is undone by a pass from left to right,
and thus confuses no two texts; and texts can be escaped in parts.  What is put into an HTML-like
label holds no brackets, and ampersands only at the beginning of entities.  What is put into a quoted
label holds no quote outside an escape of two characters, and does not end inside one.

Therefore the label of a node and the label of an edge end where the graph closes them: the data of
the rows in the one are the escaped texts of the items, and the other one means the symbol. -/
theorem labels_faithful :
    (Undoes unescapeHtml escapeHtml ∧ ∀ text,
      (escapeHtml text).toList = replaceEach htmlRules text.toList ∧
        IsCharacterData (escapeHtml text).toList) ∧
    (Undoes unescapeLabel escapeLabel ∧ ∀ text,
      (escapeLabel text).toList = replaceEach labelRules text.toList ∧
        IsQuotable (escapeLabel text).toList) ∧
    (∀ grammar items state,
      behindFirstLabel? (stateNode grammar items state).toList = some "];".toList ∧
        ∀ item, characterData false (itemRow grammar item).toList =
          "      ".toList ++ (escapeHtml (item.text grammar)).toList) ∧
    ∀ transition, firstQuoted? (transitionEdge transition).toList =
      some (transition.1.column.text.toList, "];".toList) := by
  refine ⟨⟨undoes_unescapeHtml, fun text => ?_⟩, ⟨undoes_unescapeLabel, fun text => ?_⟩,
    fun grammar items state => ?_, firstQuoted?_transitionEdge⟩
  · exact ⟨escapeHtml_eq_replaceEach text, isCharacterData_escapeHtml text⟩
  · exact ⟨escapeLabel_eq_replaceEach text, isQuotable_escapeLabel text⟩
  · exact ⟨behindFirstLabel?_stateNode grammar items state, characterData_itemRow grammar⟩

/-- A text that looks escaped is escaped once more. -/
example : escapeHtml "&lt;" = "&amp;lt;" ∧ escapeLabel "\\\"" = "\\\\\\\"" := by decide

end TableParsing.Report
