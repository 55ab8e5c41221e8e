import CloudSession.Text.Replace
import Mathlib.Data.List.Infix
import Mathlib.Tactic.Common

/-!
# What a replacement leaves alone

A replacement goes through a text from left to right: it skips a character, or puts something in the
place of an occurrence of the pattern. A character that the pattern lacks is therefore skipped, and
what precedes and what follows it are dealt with on their own. A text stays as it is exactly if the
pattern does not occur in it, or is replaced by itself.
-/

namespace CloudSession.Text

variable {pattern replacement text before after rest : List Char} {c : Char}

/-- Where the pattern does not stand, a character is kept. -/
theorem replaceAll_skip (hskip : ¬ pattern <+: c :: rest) :
    replaceAll pattern replacement (c :: rest) = c :: replaceAll pattern replacement rest := by
  rw [replaceAll, if_neg]
  rwa [List.isPrefixOf_iff_prefix]

/-- Where the pattern stands, it is replaced, and the scan goes on behind it. -/
theorem replaceAll_occurrence (hne : pattern ≠ []) (rest : List Char) :
    replaceAll pattern replacement (pattern ++ rest) =
      replacement ++ replaceAll pattern replacement rest := by
  obtain ⟨d, others, rfl⟩ := List.exists_cons_of_ne_nil hne
  have hprefix : (d :: others).isPrefixOf (d :: (others ++ rest)) = true :=
    List.isPrefixOf_iff_prefix.mpr (List.prefix_append (d :: others) rest)
  rw [List.cons_append, replaceAll, if_pos hprefix]
  simp

/-- Induction along a replacement. -/
theorem replacement_induction {motive : List Char → Prop} (hne : pattern ≠ []) (nil : motive [])
    (occurrence : ∀ rest, motive rest → motive (pattern ++ rest))
    (skip : ∀ c rest, ¬ pattern <+: c :: rest → motive rest → motive (c :: rest))
    (text : List Char) : motive text := by
  induction hlength : text.length using Nat.strong_induction_on generalizing text with
  | _ length ih =>
    subst hlength
    by_cases hprefix : pattern <+: text
    · obtain ⟨rest, rfl⟩ := hprefix
      have hshorter : rest.length < (pattern ++ rest).length := by
        have hpos := List.length_pos_iff.mpr hne
        simp only [List.length_append]
        omega
      exact occurrence rest (ih _ hshorter rest rfl)
    · cases text with
      | nil => exact nil
      | cons c rest => exact skip c rest hprefix (ih _ (Nat.lt_succ_self _) rest rfl)

/-- A pattern without a character does not reach beyond it. -/
theorem prefix_of_prefix_append_cons (hc : c ∉ pattern) (h : pattern <+: before ++ c :: after) :
    pattern <+: before := by
  rcases List.prefix_or_prefix_of_prefix h (List.prefix_append before (c :: after)) with
    hshort | ⟨tail, rfl⟩
  · exact hshort
  · rw [List.prefix_append_right_inj] at h
    cases tail with
    | nil => simp
    | cons d tail =>
      obtain rfl : d = c := (List.cons_prefix_cons.mp h).1
      simp at hc

/-- What precedes and what follows a character that the pattern lacks are dealt with on their own. -/
theorem replaceAll_append_cons (hne : pattern ≠ []) (hc : c ∉ pattern) :
    replaceAll pattern replacement (before ++ c :: after) =
      replaceAll pattern replacement before ++ c :: replaceAll pattern replacement after := by
  induction before using replacement_induction hne with
  | nil =>
    have hskip : ¬ pattern <+: [] ++ c :: after := fun h =>
      hne (List.prefix_nil.mp (prefix_of_prefix_append_cons hc h))
    rw [List.nil_append] at hskip ⊢
    rw [replaceAll_skip hskip, replaceAll, List.nil_append]
  | occurrence rest ih =>
    rw [List.append_assoc, replaceAll_occurrence hne, ih, replaceAll_occurrence hne,
      List.append_assoc]
  | skip d rest hskip ih =>
    have hstill : ¬ pattern <+: d :: (rest ++ c :: after) := fun h =>
      hskip (prefix_of_prefix_append_cons hc h)
    rw [List.cons_append, replaceAll_skip hstill, ih, replaceAll_skip hskip, List.cons_append]

/-- A text in which the pattern cannot begin is skipped. -/
theorem replaceAll_append_of_not_mem {first : Char} {others : List Char} (hfirst : first ∉ before) :
    replaceAll (first :: others) replacement (before ++ after) =
      before ++ replaceAll (first :: others) replacement after := by
  induction before with
  | nil => rfl
  | cons d before ih =>
    obtain ⟨hd, hbefore⟩ := not_or.mp (List.mem_cons.not.mp hfirst)
    have hskip : ¬ first :: others <+: d :: (before ++ after) := fun h =>
      hd (List.cons_prefix_cons.mp h).1
    rw [List.cons_append, replaceAll_skip hskip, ih hbefore, List.cons_append]

/-- A character that the pattern lacks is not lost. -/
theorem count_le_count_replaceAll (hne : pattern ≠ []) (hc : c ∉ pattern) (text : List Char) :
    text.count c ≤ (replaceAll pattern replacement text).count c := by
  induction text using replacement_induction hne with
  | nil => simp [replaceAll]
  | occurrence rest ih =>
    rw [replaceAll_occurrence hne, List.count_append, List.count_append,
      List.count_eq_zero_of_not_mem hc]
    omega
  | skip d rest hskip ih =>
    rw [replaceAll_skip hskip, List.count_cons, List.count_cons]
    omega

/-! ## Texts that stay as they are -/

/-- A pattern that is replaced by itself leaves the text as it is. -/
theorem replaceAll_self (hne : pattern ≠ []) (text : List Char) :
    replaceAll pattern pattern text = text := by
  induction text using replacement_induction hne with
  | nil => simp [replaceAll]
  | occurrence rest ih => rw [replaceAll_occurrence hne, ih]
  | skip c rest hskip ih => rw [replaceAll_skip hskip, ih]

/-- A text without the pattern stays as it is. -/
theorem replaceAll_of_not_infix (hne : pattern ≠ []) (habsent : ¬ pattern <:+: text) :
    replaceAll pattern replacement text = text := by
  induction text using replacement_induction hne with
  | nil => simp [replaceAll]
  | occurrence rest ih => exact absurd (List.prefix_append pattern rest).isInfix habsent
  | skip c rest hskip ih =>
    rw [replaceAll_skip hskip, ih fun h => habsent (List.infix_cons h)]

/-- Every occurrence changes the length of a text by the same difference. -/
theorem exists_length_replaceAll (hne : pattern ≠ []) (replacement text : List Char) :
    ∃ occurrences, (replaceAll pattern replacement text).length + occurrences * pattern.length =
      text.length + occurrences * replacement.length := by
  induction text using replacement_induction hne with
  | nil => exact ⟨0, by simp [replaceAll]⟩
  | occurrence rest ih =>
    obtain ⟨occurrences, ih⟩ := ih
    refine ⟨occurrences + 1, ?_⟩
    rw [replaceAll_occurrence hne, List.length_append, List.length_append, Nat.succ_mul,
      Nat.succ_mul]
    omega
  | skip c rest hskip ih =>
    obtain ⟨occurrences, ih⟩ := ih
    refine ⟨occurrences, ?_⟩
    rw [replaceAll_skip hskip, List.length_cons, List.length_cons]
    omega

/-- A text with an occurrence at its beginning stays as it is only if the pattern is replaced by
itself: what follows cannot make up for a difference in length. -/
theorem replacement_eq_of_occurrence (hne : pattern ≠ [])
    (hsame : replaceAll pattern replacement (pattern ++ rest) = pattern ++ rest) :
    replacement = pattern := by
  rw [replaceAll_occurrence hne] at hsame
  have htotal := congrArg List.length hsame
  rw [List.length_append, List.length_append] at htotal
  obtain ⟨occurrences, hrest⟩ := exists_length_replaceAll hne replacement rest
  have hlength : replacement.length = pattern.length := by
    rcases Nat.le_total pattern.length replacement.length with hle | hle
    · have hmul := Nat.mul_le_mul_left occurrences hle
      omega
    · have hmul := Nat.mul_le_mul_left occurrences hle
      omega
  exact (List.append_inj hsame hlength).1

/-- A text stays as it is exactly if the pattern does not occur in it, or is replaced by itself. -/
theorem replaceAll_eq_self_iff (hne : pattern ≠ []) :
    replaceAll pattern replacement text = text ↔ replacement = pattern ∨ ¬ pattern <:+: text := by
  constructor
  · intro hsame
    induction text using replacement_induction hne with
    | nil => exact .inr fun h => hne (List.infix_nil.mp h)
    | occurrence rest ih => exact .inl (replacement_eq_of_occurrence hne hsame)
    | skip c rest hskip ih =>
      rw [replaceAll_skip hskip] at hsame
      refine (ih (List.cons.inj hsame).2).imp_right fun habsent h => ?_
      exact (List.infix_cons_iff.mp h).elim hskip habsent
  · rintro (rfl | habsent)
    · exact replaceAll_self hne text
    · exact replaceAll_of_not_infix hne habsent

end CloudSession.Text
