import CloudSession.Endpoint.Scheme
import Mathlib.Tactic.Common

/-!
# Endpoints with and without a scheme

An endpoint carries a scheme if it can be written as a nonempty text without a colon, `://` and the
rest. One look at the first `://` tells: a text without a colon cannot have an earlier one. An endpoint
that lacks a scheme gets one put in front, and has it from then on. So two endpoints become one by it
exactly if they are the same, or one of them is the other with that scheme in front.
-/

namespace CloudSession.Text

variable {text before others after : List Char} {first : Char}

/-- What precedes the first occurrence of a pattern is followed by the pattern. -/
theorem exists_eq_append_of_before? {pattern : List Char} (h : before? pattern text = some before) :
    ∃ after, text = before ++ (pattern ++ after) := by
  induction text generalizing before with
  | nil =>
    rw [before?] at h
    split at h
    case isTrue hempty => exact ⟨[], by simp_all⟩
    case isFalse => cases h
  | cons c rest ih =>
    rw [before?] at h
    split at h
    case isTrue hprefix =>
      obtain ⟨after, hafter⟩ := List.isPrefixOf_iff_prefix.mp hprefix
      cases h
      exact ⟨after, hafter.symm⟩
    case isFalse =>
      obtain ⟨inner, hinner, rfl⟩ := Option.map_eq_some_iff.mp h
      obtain ⟨after, hafter⟩ := ih hinner
      exact ⟨after, by rw [hafter, List.cons_append]⟩

/-- A text in which a pattern cannot begin precedes its first occurrence. -/
theorem before?_append_of_not_mem (hfirst : first ∉ before) :
    before? (first :: others) (before ++ (first :: others ++ after)) = some before := by
  induction before with
  | nil =>
    have hprefix : (first :: others).isPrefixOf (first :: (others ++ after)) = true :=
      List.isPrefixOf_iff_prefix.mpr (List.prefix_append (first :: others) after)
    rw [List.nil_append, List.cons_append, before?, if_pos hprefix]
  | cons c before ih =>
    obtain ⟨hc, hbefore⟩ := not_or.mp (List.mem_cons.not.mp hfirst)
    have hskip :
        ¬ (first :: others).isPrefixOf (c :: (before ++ (first :: others ++ after))) = true := by
      rw [List.isPrefixOf_iff_prefix, List.cons_prefix_cons]
      exact fun h => hc h.1
    rw [List.cons_append, before?, if_neg hskip, ih hbefore, Option.map_some]

end CloudSession.Text


namespace CloudSession.Endpoint

variable {endpoint other : String} {disableSsl : Bool}

/-- What is put in front of an endpoint that lacks a scheme. -/
def opening (disableSsl : Bool) : String :=
  (if disableSsl then "http" else "https") ++ "://"

/-- An endpoint that has a scheme is left alone. -/
theorem addScheme_of_hasScheme (h : hasScheme endpoint = true) :
    addScheme endpoint disableSsl = endpoint := by
  rw [addScheme, if_pos h]

/-- An endpoint that has no scheme is given one. -/
theorem addScheme_of_not_hasScheme (h : hasScheme endpoint = false) :
    addScheme endpoint disableSsl = opening disableSsl ++ endpoint := by
  rw [addScheme, if_neg (by simp [h]), opening]

/-- An endpoint carries a scheme: what precedes some `://` in it is not empty and has no colon. -/
def CarriesScheme (endpoint : String) : Prop :=
  ∃ scheme rest : String, endpoint = scheme ++ "://" ++ rest ∧ scheme ≠ "" ∧ ':' ∉ scheme.toList

/-- The first `://` of an endpoint tells whether it carries a scheme. -/
theorem hasScheme_iff : hasScheme endpoint = true ↔ CarriesScheme endpoint := by
  constructor
  · intro h
    rw [hasScheme] at h
    split at h
    case h_1 => cases h
    case h_2 scheme hscheme =>
      obtain ⟨hne, hcolon⟩ : scheme ≠ [] ∧ ':' ∉ scheme := by simpa using h
      obtain ⟨after, hafter⟩ := Text.exists_eq_append_of_before? hscheme
      refine ⟨String.ofList scheme, String.ofList after, ?_, by simpa using hne, by simpa using hcolon⟩
      rw [← String.toList_inj, hafter]
      simp [schemeMark]
  · rintro ⟨scheme, rest, rfl, hne, hcolon⟩
    have htext : (scheme ++ "://" ++ rest).toList = scheme.toList ++ (schemeMark ++ rest.toList) := by
      simp [schemeMark]
    have hsome : scheme.toList ≠ [] := by simpa using hne
    rw [hasScheme, htext, schemeMark, Text.before?_append_of_not_mem hcolon]
    simp [hsome, hcolon]

/-- Once an endpoint has been given a scheme, it has one. -/
theorem hasScheme_opening_append (disableSsl : Bool) (endpoint : String) :
    hasScheme (opening disableSsl ++ endpoint) = true := by
  cases disableSsl <;> simp [hasScheme, opening, schemeMark, Text.before?]

/-- Two endpoints become the same when they get a scheme where they lack one. -/
theorem addScheme_eq_addScheme_iff : addScheme endpoint disableSsl = addScheme other disableSsl ↔
    endpoint = other ∨ (endpoint = opening disableSsl ++ other ∧ hasScheme other = false) ∨
      (other = opening disableSsl ++ endpoint ∧ hasScheme endpoint = false) := by
  have hopened {one two : String} (hone : hasScheme one = false) :
      one ≠ opening disableSsl ++ two := by
    rintro rfl
    rw [hasScheme_opening_append] at hone
    cases hone
  cases hleft : hasScheme endpoint <;> cases hright : hasScheme other
  · rw [addScheme_of_not_hasScheme hleft, addScheme_of_not_hasScheme hright, String.append_right_inj]
    simp [hopened hleft, hopened hright]
  · rw [addScheme_of_not_hasScheme hleft, addScheme_of_hasScheme hright]
    have hne : endpoint ≠ other := by
      rintro rfl
      simp [hleft] at hright
    simp [hne, eq_comm]
  · rw [addScheme_of_hasScheme hleft, addScheme_of_not_hasScheme hright]
    have hne : endpoint ≠ other := by
      rintro rfl
      simp [hleft] at hright
    simp [hne]
  · rw [addScheme_of_hasScheme hleft, addScheme_of_hasScheme hright]
    simp

/-- An endpoint that carries a scheme stays as it is, and any other gets `http` or `https` put in front;
no scheme is put in front of it after that. -/
theorem addScheme_settles (endpoint : String) (disableSsl disableSslThen : Bool) :
    (addScheme endpoint disableSsl = endpoint ↔ CarriesScheme endpoint) ∧
      (addScheme endpoint disableSsl = (if disableSsl then "http://" else "https://") ++ endpoint ↔
        ¬ CarriesScheme endpoint) ∧
      addScheme (addScheme endpoint disableSsl) disableSslThen = addScheme endpoint disableSsl := by
  have hopening : opening disableSsl = if disableSsl then "http://" else "https://" := by
    cases disableSsl <;> decide
  have hlonger : opening disableSsl ++ endpoint ≠ endpoint := by
    intro hsame
    have hlength := congrArg String.length hsame
    have hsome : 0 < (opening disableSsl).length := by cases disableSsl <;> decide
    rw [String.length_append] at hlength
    omega
  rw [← hasScheme_iff, ← hopening]
  cases hscheme : hasScheme endpoint with
  | true =>
    rw [addScheme_of_hasScheme hscheme, addScheme_of_hasScheme hscheme]
    exact ⟨by simp, by simpa using hlonger.symm, rfl⟩
  | false =>
    rw [addScheme_of_not_hasScheme hscheme,
      addScheme_of_hasScheme (hasScheme_opening_append disableSsl endpoint)]
    exact ⟨by simpa using hlonger, by simp, rfl⟩

end CloudSession.Endpoint
