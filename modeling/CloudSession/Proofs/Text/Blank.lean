import CloudSession.Text.Blank
import Mathlib.Data.List.DropRight
import Mathlib.Tactic.Common

/-!
# Trimmed text, lines and marks

What trimming leaves begins and ends with characters that are no white space, and such text is left
as it is. Cutting a text at a mark loses nothing but the marks, so the lines of lines joined are the
lines again.
-/

namespace CloudSession.Text

variable {text before after tail piece : List Char} {c mark : Char}

/-- Neither the first nor the last character is white space. -/
structure IsTrimmed (text : List Char) : Prop where
  first : ∀ c rest, text = c :: rest → isBlank c = false
  last : ∀ front c, text = front ++ [c] → isBlank c = false

/-- What precedes the trailing white space does not end with white space. -/
theorem isBlank_of_trimEnd_eq {front : List Char} (h : trimEnd text = front ++ [c]) :
    isBlank c = false := by
  have hne : text.rdropWhile isBlank ≠ [] := by
    intro hnil
    rw [trimEnd, ← List.rdropWhile, hnil] at h
    simp at h
  have hlast := List.rdropWhile_last_not isBlank text hne
  have heq : text.rdropWhile isBlank = front ++ [c] := h
  simpa [heq] using hlast

/-- White space alone is trimmed off at the end. -/
theorem exists_append_trimEnd (text : List Char) :
    ∃ tail, text = trimEnd text ++ tail ∧ ∀ b ∈ tail, isBlank b = true :=
  ⟨text.rtakeWhile isBlank, (List.rdropWhile_append_rtakeWhile (p := isBlank)).symm,
    fun _ hb => List.mem_rtakeWhile_imp hb⟩

/-- White space alone is trimmed off at the beginning. -/
theorem exists_append_trimStart (text : List Char) :
    ∃ indent, text = indent ++ trimStart text ∧ ∀ b ∈ indent, isBlank b = true :=
  ⟨text.takeWhile isBlank, List.takeWhile_append_dropWhile.symm,
    fun _ hb => List.mem_takeWhile_imp hb⟩

/-- What follows the leading white space does not begin with white space. -/
theorem isBlank_of_trimStart_eq {rest : List Char} (h : trimStart text = c :: rest) :
    isBlank c = false := by
  have hhead := List.head?_dropWhile_not isBlank text
  rw [← trimStart, h] at hhead
  simpa using hhead

/-- Blanks in front are trimmed. -/
theorem trimStart_append_of_blank {indent : List Char} (hindent : ∀ b ∈ indent, isBlank b = true)
    (text : List Char) : trimStart (indent ++ text) = trimStart text := by
  have hnil : indent.dropWhile isBlank = [] := List.dropWhile_eq_nil_iff.mpr hindent
  simp [trimStart, List.dropWhile_append, hnil]

/-- Blanks at the end are trimmed. -/
theorem trimEnd_append_of_blank (text : List Char) (htail : ∀ b ∈ tail, isBlank b = true) :
    trimEnd (text ++ tail) = trimEnd text := by
  have hnil : tail.reverse.dropWhile isBlank = [] := by
    apply List.dropWhile_eq_nil_iff.mpr
    intro b hb
    exact htail b (List.mem_reverse.mp hb)
  simp [trimEnd, List.dropWhile_append, hnil]

/-- Nothing is trimmed in front of a character that is not blank. -/
theorem trimStart_cons_of_not_blank (hc : isBlank c = false) (rest : List Char) :
    trimStart (c :: rest) = c :: rest := by
  simp [trimStart, hc]

/-- A character that is not blank is kept, whatever is trimmed behind it. -/
theorem trimEnd_cons_of_not_blank (hc : isBlank c = false) (rest : List Char) :
    trimEnd (c :: rest) = c :: trimEnd rest := by
  unfold trimEnd
  rw [List.reverse_cons, List.dropWhile_append]
  split
  · next hempty =>
    rw [List.isEmpty_iff] at hempty
    simp [hempty, hc]
  · simp

/-- Nothing is left of a text of blanks only. -/
theorem trimEnd_eq_nil_iff : trimEnd text = [] ↔ ∀ c ∈ text, isBlank c = true :=
  List.rdropWhile_eq_nil_iff

/-- A text that is trimmed at its end is not trimmed again. -/
theorem trimEnd_trimEnd (text : List Char) : trimEnd (trimEnd text) = trimEnd text :=
  List.rdropWhile_idempotent isBlank text

/-- A text that is trimmed has no blanks around it. -/
theorem isTrimmed_trim (text : List Char) : IsTrimmed (trim text) where
  first c rest h := by
    obtain ⟨tail, htail, -⟩ := exists_append_trimEnd (trimStart text)
    rw [trim] at h
    rw [h] at htail
    exact isBlank_of_trimStart_eq htail
  last front c h := isBlank_of_trimEnd_eq h

/-- Trimmed text is left as it is. -/
theorem IsTrimmed.trimEnd_eq (trimmed : IsTrimmed text) : trimEnd text = text := by
  refine List.rdropWhile_eq_self_iff.mpr fun hne => ?_
  have hlast := trimmed.last _ _ (List.dropLast_append_getLast hne).symm
  simp [hlast]

/-- A text without blanks around it stays as it is when it is trimmed. -/
theorem IsTrimmed.trim_eq (trimmed : IsTrimmed text) : trim text = text := by
  have hstart : trimStart text = text := by
    cases text with
    | nil => rfl
    | cons c rest => exact trimStart_cons_of_not_blank (trimmed.first c rest rfl) rest
  rw [trim, hstart, trimmed.trimEnd_eq]

/-- White space at the end is trimmed off. -/
theorem trim_append_of_blank (text : List Char) (htail : ∀ b ∈ tail, isBlank b = true) :
    trim (text ++ tail) = trim text := by
  obtain ⟨indent, htext, hindent⟩ := exists_append_trimStart text
  cases hstart : trimStart text with
  | nil =>
    have hall : ∀ b ∈ text ++ tail, isBlank b = true := by
      rw [htext, hstart, List.append_nil]
      intro b hb
      exact (List.mem_append.mp hb).elim (hindent b) (htail b)
    have hnil : trimStart (text ++ tail) = [] := List.dropWhile_eq_nil_iff.mpr hall
    rw [trim, trim, hstart, hnil]
  | cons c rest =>
    have hc := isBlank_of_trimStart_eq hstart
    have hboth : trimStart (text ++ tail) = c :: rest ++ tail := by
      rw [htext, hstart, List.append_assoc, trimStart_append_of_blank hindent, List.cons_append,
        trimStart_cons_of_not_blank hc]
    rw [trim, trim, hstart, hboth, trimEnd_append_of_blank _ htail]

/-- White space around trimmed text is trimmed off. -/
theorem IsTrimmed.trim_append {indent : List Char} (trimmed : IsTrimmed text)
    (hindent : ∀ b ∈ indent, isBlank b = true) (htail : ∀ b ∈ tail, isBlank b = true) :
    trim (indent ++ text ++ tail) = text := by
  rw [trim_append_of_blank _ htail, trim, trimStart_append_of_blank hindent, ← trim, trimmed.trim_eq]

/-- Every piece of a text is free of the mark. -/
theorem not_mem_of_mem_pieces (h : piece ∈ pieces mark text) : mark ∉ piece := by
  induction text generalizing piece with
  | nil =>
    rw [pieces, List.mem_singleton] at h
    simp [h]
  | cons c rest ih =>
    rw [pieces] at h
    split at h
    · rcases List.mem_cons.mp h with rfl | hrest
      · exact List.not_mem_nil
      · exact ih hrest
    · next hne =>
      have hcons {front : List Char} (hfront : mark ∉ front) : mark ∉ c :: front := by
        simp [hfront, Ne.symm hne]
      split at h
      · rw [List.mem_singleton] at h
        exact h ▸ hcons List.not_mem_nil
      · next first others hpieces =>
        rcases List.mem_cons.mp h with rfl | hothers
        · exact hcons (ih (hpieces ▸ List.mem_cons_self))
        · exact ih (hpieces ▸ List.mem_cons_of_mem _ hothers)

/-- Cutting at a mark is splitting on it. -/
theorem pieces_eq_splitOn (mark : Char) (text : List Char) : pieces mark text = text.splitOn mark := by
  unfold List.splitOn
  induction text with
  | nil => rfl
  | cons c rest ih =>
    rw [pieces, List.splitOnP_cons_eq_if_modifyHead, ih]
    cases h : rest.splitOnP (· == mark) with
    | nil => exact absurd h (List.splitOnP_ne_nil _ _)
    | cons first others => by_cases heq : c = mark <;> simp [heq]

/-- Cutting a text at a mark loses nothing but the marks. -/
theorem intercalate_pieces (mark : Char) (text : List Char) :
    [mark].intercalate (pieces mark text) = text := by
  rw [pieces_eq_splitOn, List.intercalate_splitOn]

/-- Texts without the mark are the pieces of what they are joined to. -/
theorem pieces_intercalate {texts : List (List Char)} (hne : texts ≠ [])
    (hfree : ∀ text ∈ texts, mark ∉ text) : pieces mark ([mark].intercalate texts) = texts := by
  rw [pieces_eq_splitOn, List.splitOn_intercalate mark hfree hne]

/-- One more text is joined by one more mark. -/
theorem intercalate_concat (first : List Char) (rest : List (List Char)) (text : List Char) :
    [mark].intercalate (first :: (rest ++ [text])) =
      [mark].intercalate (first :: rest) ++ mark :: text := by
  induction rest generalizing first with
  | nil => simp [List.intercalate_cons_cons]
  | cons next more ih =>
    rw [List.cons_append, List.intercalate_cons_cons, ih, List.intercalate_cons_cons]
    simp

/-- A text is not split just where it does not have the mark. -/
theorem splitFirst_eq_none_iff : splitFirst mark text = none ↔ mark ∉ text := by
  induction text with
  | nil => simp [splitFirst]
  | cons c rest ih =>
    rw [splitFirst]
    split
    · next heq => simp [heq]
    · next hne => simp [ih, Ne.symm hne]

/-- A text is split at the first mark. -/
theorem splitFirst_eq_some_iff :
    splitFirst mark text = some (before, after) ↔ text = before ++ mark :: after ∧ mark ∉ before := by
  induction text generalizing before with
  | nil => simp [splitFirst]
  | cons c rest ih =>
    rw [splitFirst]
    split
    · next heq =>
      subst heq
      cases before with
      | nil => simp [eq_comm]
      | cons b front =>
        simp only [Option.some.injEq, Prod.mk.injEq, List.cons_append, List.cons.injEq, List.mem_cons]
        grind
    · next hne =>
      cases before with
      | nil => simp [hne]
      | cons b front =>
        simp only [Option.map_eq_some_iff, Prod.exists, Prod.mk.injEq, List.cons.injEq,
          List.cons_append, List.mem_cons, not_or]
        grind

end CloudSession.Text
