import CloudSession.Certificate.Bundle
import Mathlib.Data.List.Infix
import Mathlib.Tactic.Common

/-!
# Where a pattern occurs

A pattern may occur in some bytes at several positions, and its occurrences may overlap. What
precedes the bytes moves them, what follows the bytes leaves them where they are. `position?` gives
the first of them.
-/

namespace CloudSession.Certificate

variable {pattern bytes before others : List UInt8} {b : UInt8} {start i : Nat}

/-- A pattern stands in some bytes from a position on. -/
def OccursAt (pattern bytes : List UInt8) (start : Nat) : Prop :=
  pattern <+: bytes.drop start

/-- Whether a pattern occurs at a position can be computed. -/
instance (pattern bytes : List UInt8) (start : Nat) : Decidable (OccursAt pattern bytes start) :=
  inferInstanceAs (Decidable (pattern <+: bytes.drop start))

/-- A pattern occurs at the start if the bytes begin with it. -/
theorem occursAt_zero_iff : OccursAt pattern bytes 0 ↔ pattern <+: bytes :=
  Iff.rfl

/-- What stands before the bytes moves every occurrence by its length. -/
theorem occursAt_append_iff :
    OccursAt pattern (before ++ bytes) (before.length + start) ↔ OccursAt pattern bytes start := by
  rw [OccursAt, List.drop_length_add_append, OccursAt]

/-- Behind some first bytes, a pattern occurs where it does in the whole, counted from there. -/
theorem occursAt_drop_iff (stop : Nat) :
    OccursAt pattern (bytes.drop start) stop ↔ OccursAt pattern bytes (start + stop) := by
  rw [OccursAt, List.drop_drop, OccursAt]

namespace OccursAt

/-- An occurrence stays one when more bytes follow. -/
theorem append (h : OccursAt pattern bytes start) (after : List UInt8) :
    OccursAt pattern (bytes ++ after) start := by
  rw [OccursAt, List.drop_append]
  exact h.trans (List.prefix_append _ _)

/-- An occurrence ends within the bytes. -/
theorem add_length_le (hne : pattern ≠ []) (h : OccursAt pattern bytes start) :
    start + pattern.length ≤ bytes.length := by
  have hle := h.length_le
  have hpos := List.length_pos_iff.mpr hne
  rw [List.length_drop] at hle
  omega

/-- An occurrence that fits into the bytes does not depend on what follows them. -/
theorem of_append {after : List UInt8} (hfits : start + pattern.length ≤ bytes.length)
    (h : OccursAt pattern (bytes ++ after) start) : OccursAt pattern bytes start := by
  rw [OccursAt, List.drop_append_of_le_length (by omega)] at h
  refine List.prefix_of_prefix_length_le h (List.prefix_append _ _) ?_
  rw [List.length_drop]
  omega

/-- At an occurrence, the bytes are those of the pattern. -/
theorem getElem? (h : OccursAt pattern bytes start) (hi : i < pattern.length) :
    bytes[start + i]? = pattern[i]? := by
  obtain ⟨after, hafter⟩ := h
  rw [← List.getElem?_drop, ← hafter, List.getElem?_append_left hi]

/-- A pattern does not begin among bytes that lack its first one. -/
theorem length_le_of_not_mem (hb : b ∉ before)
    (h : OccursAt (b :: others) (before ++ bytes) start) : before.length ≤ start := by
  by_contra hlt
  have hbyte := h.getElem? (List.length_pos_of_mem List.mem_cons_self)
  rw [Nat.add_zero, List.getElem?_append_left (by omega), List.getElem?_cons_zero] at hbyte
  exact hb (List.mem_of_getElem? hbyte)

end OccursAt

/-- Where a pattern occurs at the beginning, that is where it occurs first. -/
theorem eq_zero_iff_of_occursAt_zero (hbegins : OccursAt pattern bytes 0) :
    0 = start ↔ OccursAt pattern bytes start ∧ ∀ earlier < start, ¬ OccursAt pattern bytes earlier := by
  constructor
  · rintro rfl
    exact ⟨hbegins, fun earlier hearlier => absurd hearlier (Nat.not_lt_zero earlier)⟩
  · rintro ⟨-, hfirst⟩
    by_contra hlate
    exact hfirst 0 (by omega) hbegins

/-- `position?` gives the first position at which the pattern occurs. -/
theorem position?_eq_some_iff : position? pattern bytes = some start ↔
    OccursAt pattern bytes start ∧ ∀ earlier < start, ¬ OccursAt pattern bytes earlier := by
  induction bytes generalizing start with
  | nil =>
    by_cases hempty : pattern = []
    · rw [position?, if_pos hempty, Option.some_inj]
      exact eq_zero_iff_of_occursAt_zero (hempty ▸ List.nil_prefix)
    · simp [position?, hempty, OccursAt]
  | cons b rest ih =>
    by_cases hbegins : pattern <+: b :: rest
    · rw [position?, if_pos (List.isPrefixOf_iff_prefix.mpr hbegins), Option.some_inj]
      exact eq_zero_iff_of_occursAt_zero hbegins
    · rw [position?, if_neg (by rwa [List.isPrefixOf_iff_prefix]), Option.map_eq_some_iff]
      constructor
      · rintro ⟨inner, hinner, rfl⟩
        obtain ⟨hoccurs, hfirst⟩ := ih.mp hinner
        refine ⟨hoccurs, fun earlier hearlier => ?_⟩
        cases earlier with
        | zero => exact hbegins
        | succ earlier => exact hfirst earlier (by omega)
      · rintro ⟨hoccurs, hfirst⟩
        cases start with
        | zero => exact absurd hoccurs hbegins
        | succ inner =>
          exact ⟨inner, ih.mpr ⟨hoccurs, fun earlier hearlier => hfirst (earlier + 1) (by omega)⟩, rfl⟩

/-- No first position is found if and only if the pattern does not occur. -/
theorem position?_eq_none_iff :
    position? pattern bytes = none ↔ ∀ start, ¬ OccursAt pattern bytes start := by
  induction bytes with
  | nil => by_cases hempty : pattern = [] <;> simp [position?, hempty, OccursAt]
  | cons b rest ih =>
    by_cases hbegins : pattern <+: b :: rest
    · rw [position?, if_pos (List.isPrefixOf_iff_prefix.mpr hbegins)]
      exact iff_of_false (Option.some_ne_none 0) fun habsent => habsent 0 hbegins
    · rw [position?, if_neg (by rwa [List.isPrefixOf_iff_prefix]), Option.map_eq_none_iff, ih]
      refine ⟨fun habsent start => ?_, fun habsent start => habsent (start + 1)⟩
      cases start with
      | zero => exact hbegins
      | succ start => exact habsent start

end CloudSession.Certificate
