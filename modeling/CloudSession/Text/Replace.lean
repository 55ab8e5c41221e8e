/-!
# Finding and replacing

The first place of a pattern in a text, and the replacement of a pattern throughout a text.
-/

namespace CloudSession.Text

/-- What precedes the first occurrence of `pattern`, if there is one. -/
def before? (pattern : List Char) : List Char → Option (List Char)
  | [] => if pattern = [] then some [] else none
  | c :: rest =>
    if pattern.isPrefixOf (c :: rest) then some [] else (before? pattern rest).map (c :: ·)

/-- The text with every occurrence of `pattern` replaced, from left to right; what has been put in is
not searched again. -/
def replaceAll (pattern replacement : List Char) : List Char → List Char
  | [] => []
  | c :: rest =>
    if pattern.isPrefixOf (c :: rest) then
      replacement ++ replaceAll pattern replacement (rest.drop (pattern.length - 1))
    else
      c :: replaceAll pattern replacement rest
termination_by text => text.length
decreasing_by all_goals simp only [List.length_drop, List.length_cons]; omega

end CloudSession.Text
