/-!
# Certificate bundles

A bundle of certificates is text in which each certificate stands between two markers. Whatever
stands between the certificates is ignored, and so is a certificate without its closing marker.
-/

namespace CloudSession.Certificate

/-- The bytes of an ASCII text. -/
def ascii (s : String) : List UInt8 :=
  s.toList.map fun c => UInt8.ofNat c.toNat

/-- The marker that opens a certificate. -/
def beginMarker : List UInt8 := ascii "-----BEGIN CERTIFICATE-----"

/-- The marker that closes a certificate. -/
def endMarker : List UInt8 := ascii "-----END CERTIFICATE-----"

/-- The first position at which `pattern` occurs. -/
def position? (pattern : List UInt8) : List UInt8 → Option Nat
  | [] => if pattern = [] then some 0 else none
  | b :: rest =>
    if pattern.isPrefixOf (b :: rest) then some 0 else (position? pattern rest).map (· + 1)

/-- An occurrence fits into the bytes. -/
theorem position?_add_length_le {pattern bytes : List UInt8} {start : Nat}
    (h : position? pattern bytes = some start) : start + pattern.length ≤ bytes.length := by
  induction bytes generalizing start with
  | nil =>
    by_cases hp : pattern = []
    · simp [position?, hp] at h
      simp [← h, hp]
    · simp [position?, hp] at h
  | cons b rest ih =>
    by_cases hp : pattern.isPrefixOf (b :: rest) = true
    · simp only [position?, hp, if_true, Option.some.injEq] at h
      have := (List.isPrefixOf_iff_prefix.mp hp).length_le
      omega
    · simp only [position?, hp] at h
      obtain ⟨inner, hinner, rfl⟩ := Option.map_eq_some_iff.mp h
      have := ih hinner
      simp only [List.length_cons]
      omega

/-- The certificates of a bundle with their markers, from the first to the last. -/
def blocks (bundle : List UInt8) : List (List UInt8) :=
  match _hstart : position? beginMarker bundle with
  | none => []
  | some start =>
    match position? endMarker (bundle.drop start) with
    | none => []
    | some stop =>
      let size := stop + endMarker.length
      (bundle.drop start).take size :: blocks ((bundle.drop start).drop size)
termination_by bundle.length
decreasing_by
  have hfits := position?_add_length_le _hstart
  have hbegin : beginMarker.length = 27 := by decide
  have hend : endMarker.length = 25 := by decide
  simp only [List.length_drop]
  omega

end CloudSession.Certificate
