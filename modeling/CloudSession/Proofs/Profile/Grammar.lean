import CloudSession.Profile.Load
import CloudSession.Proofs.Text.Blank

/-!
# The grammar of profile files

Which lines have a place in a profile file depends on the lines before them: a property needs a
header, and a continuation needs a property that it continues. A file is read just when every line
that counts has its place, and an error names the first line that has none.
-/

namespace CloudSession

namespace Text

variable {text tail before after : List Char} {mark : Char}

/-- White space at the end is behind the first mark. -/
theorem splitFirst_append_of_blank (hmark : isBlank mark = false)
    (htail : ∀ c ∈ tail, isBlank c = true) :
    splitFirst mark (text ++ tail) =
      (splitFirst mark text).map fun (before, after) => (before, after ++ tail) := by
  have hfree : mark ∉ tail := by
    intro hmem
    rw [htail mark hmem] at hmark
    cases hmark
  cases h : splitFirst mark text with
  | none =>
    have htext := splitFirst_eq_none_iff.mp h
    exact splitFirst_eq_none_iff.mpr (by simp [htext, hfree])
  | some parts =>
    obtain ⟨before, after⟩ := parts
    obtain ⟨rfl, hbefore⟩ := splitFirst_eq_some_iff.mp h
    exact splitFirst_eq_some_iff.mpr ⟨by simp, hbefore⟩

/-- Trimming the end of a text does not move its first mark. -/
theorem exists_splitFirst_trimEnd (mark : Char) (hmark : isBlank mark = false) (text : List Char) :
    ∃ tail, (∀ c ∈ tail, isBlank c = true) ∧
      splitFirst mark text =
        (splitFirst mark (trimEnd text)).map fun (before, after) => (before, after ++ tail) := by
  obtain ⟨tail, htext, htail⟩ := exists_append_trimEnd text
  refine ⟨tail, htail, ?_⟩
  rw [← splitFirst_append_of_blank hmark htail, ← htext]

end Text

namespace Profile

open Text

/-- Nothing but white space, or a comment after white space. -/
def IsIgnored (text : List Char) : Prop :=
  (∀ c ∈ text, isBlank c = true) ∨
    ∃ indent mark comment, text = indent ++ mark :: comment ∧ (∀ c ∈ indent, isBlank c = true) ∧
      (mark = '#' ∨ mark = ';')

/-- A line counts if it is neither blank nor a comment. -/
def IsSignificant (line : List Char) : Prop :=
  ¬ IsIgnored line

/-- A line starts with white space. -/
def IsIndented (line : List Char) : Prop :=
  ∃ c rest, line = c :: rest ∧ isBlank c = true

/-- A line starts with `[`, and what follows the first `]` is blank or a comment. -/
def IsHeader (line : List Char) : Prop :=
  ∃ name rest, line = '[' :: (name ++ ']' :: rest) ∧ ']' ∉ name ∧ IsIgnored rest

/-- A line starts neither with white space nor with `[`, and has text before the first `=`. -/
structure IsDefinition (line : List Char) : Prop where
  parts : ∃ key value, line = key ++ '=' :: value ∧ '=' ∉ key ∧ ∃ c ∈ key, isBlank c = false
  atMargin : ¬ IsIndented line
  unbracketed : line.head? ≠ some '['

/-- A line, after others, defines a property: some header precedes it. -/
def IsProperty (before : List (List Char)) (line : List Char) : Prop :=
  IsDefinition line ∧ ∃ header ∈ before, IsHeader header

/-- The last of some lines that counts and is not indented defines a property. -/
def EndsInProperty (lines : List (List Char)) : Prop :=
  ∃ before property after, lines = before ++ property :: after ∧ IsSignificant property ∧
    IsProperty before property ∧ ∀ line ∈ after, IsSignificant line → IsIndented line

/-- A line has a place after others. -/
inductive HasPlace (before : List (List Char)) (line : List Char) : Prop
  | header : IsHeader line → HasPlace before line
  | property : IsProperty before line → HasPlace before line
  | continuation : IsIndented line → EndsInProperty before → HasPlace before line

/-- Line `k` counts and has no place after the lines before it. -/
def IsMisplaced (lines : List (List Char)) (k : Nat) : Prop :=
  ∃ line, lines[k]? = some line ∧ IsSignificant line ∧ ¬ HasPlace (lines.take k) line

variable {text line rest : List Char} {c : Char}

/-- Comments begin with one of two marks. -/
theorem isCommentMark_iff : isCommentMark c = true ↔ c = '#' ∨ c = ';' := by
  simp [isCommentMark]

/-- What counts for a text is the first character that is no white space. -/
theorem isIgnored_iff :
    IsIgnored text ↔ ∀ c rest, trimStart text = c :: rest → c = '#' ∨ c = ';' := by
  obtain ⟨indent, htext, hindent⟩ := exists_append_trimStart text
  constructor
  · rintro (hblank | ⟨indent', mark, comment, rfl, hindent', hmark⟩) c rest h
    · have hc := hblank c (by rw [htext, h]; simp)
      rw [isBlank_of_trimStart_eq h] at hc
      cases hc
    · have hnot : isBlank mark = false := by
        rcases hmark with rfl | rfl <;> rfl
      rw [trimStart_append_of_blank hindent', trimStart_cons_of_not_blank hnot] at h
      obtain ⟨rfl, -⟩ := List.cons.inj h
      exact hmark
  · intro hfirst
    cases h : trimStart text with
    | nil =>
      left
      rw [htext, h, List.append_nil]
      exact hindent
    | cons c rest =>
      right
      exact ⟨indent, c, rest, by rw [← h, ← htext], hindent, hfirst c rest h⟩

/-- A line is significant if its first character that is not blank is no mark of a comment. -/
theorem isSignificant_iff :
    IsSignificant text ↔ ∃ c rest, trimStart text = c :: rest ∧ c ≠ '#' ∧ c ≠ ';' := by
  rw [IsSignificant, isIgnored_iff]
  push Not
  rfl

/-- Lines that are blank or comments are those that are ignored. -/
theorem isComment_or_isAllBlank_iff :
    (isAllBlank text || isComment text) = true ↔ IsIgnored text := by
  rw [Bool.or_eq_true, isIgnored_iff]
  cases h : trimStart text with
  | nil =>
    have hall : isAllBlank text = true := by
      simpa [isAllBlank, trimStart] using h
    simp [hall]
  | cons c rest =>
    have hnot : isAllBlank text = false := by
      obtain ⟨indent, htext, -⟩ := exists_append_trimStart text
      rw [isAllBlank, htext, h, List.all_append, List.all_cons, isBlank_of_trimStart_eq h]
      simp
    simp [hnot, isComment, h, isCommentMark_iff]

/-- Blanks at the end do not count when a line is ignored. -/
theorem isIgnored_append_of_blank {tail : List Char} (htail : ∀ c ∈ tail, isBlank c = true) :
    IsIgnored (text ++ tail) ↔ IsIgnored text := by
  have htrim : trimStart (text ++ tail) = [] ∧ trimStart text = [] ∨
      trimStart (text ++ tail) = trimStart text ++ tail ∧ trimStart text ≠ [] := by
    unfold trimStart
    rw [List.dropWhile_append]
    cases h : text.dropWhile isBlank with
    | nil =>
      left
      simpa using htail
    | cons c rest =>
      right
      simp
  rw [isIgnored_iff, isIgnored_iff]
  rcases htrim with ⟨htext, hnil⟩ | ⟨htext, hne⟩
  · simp [htext, hnil]
  · obtain ⟨c, rest, hcons⟩ := List.exists_cons_of_ne_nil hne
    simp [htext, hcons]

/-- A line without the blanks at its end is ignored just if the line is. -/
theorem isIgnored_trimEnd : IsIgnored (trimEnd text) ↔ IsIgnored text := by
  obtain ⟨tail, htext, htail⟩ := exists_append_trimEnd text
  conv_rhs => rw [htext]
  exact (isIgnored_append_of_blank htail).symm

/-- A line is ignored if it does not count. -/
theorem read_of_isIgnored (h : IsIgnored line) : Line.read line = .ignored := by
  have hignored := isComment_or_isAllBlank_iff.mpr (isIgnored_trimEnd.mpr h)
  unfold Line.read
  dsimp only
  split
  · rfl
  · next hcomment =>
    have hblank : isAllBlank (trimEnd line) = true := by simpa [hcomment] using hignored
    have hnil : trimEnd line = [] := by
      rw [← trimEnd_trimEnd]
      exact trimEnd_eq_nil_iff.mpr (by simpa [isAllBlank] using hblank)
    rw [hnil]

/-- The first character of a line that counts is not trimmed off at the end. -/
theorem exists_trimEnd_eq_cons (h : IsSignificant (c :: rest)) :
    ∃ front, trimEnd (c :: rest) = c :: front := by
  obtain ⟨tail, htext, -⟩ := exists_append_trimEnd (c :: rest)
  cases hfront : trimEnd (c :: rest) with
  | nil => exact absurd (.inl (trimEnd_eq_nil_iff.mp hfront)) h
  | cons d front =>
    rw [hfront] at htext
    rw [(List.cons.inj htext).1]
    exact ⟨front, rfl⟩

/-- A line that counts is read by its first character. -/
theorem read_of_isSignificant (h : IsSignificant (c :: rest)) :
    Line.read (c :: rest) =
      if c = '[' then .header (readHeader (trimEnd rest))
      else if isBlank c then .continuation (valueText (trimEnd (c :: rest)))
      else .property (readProperty (trimEnd (c :: rest))) := by
  obtain ⟨front, hfront⟩ := exists_trimEnd_eq_cons h
  have hcomment : isComment (c :: front) = false := by
    have hsignificant := mt isIgnored_trimEnd.mp h
    rw [hfront, ← isComment_or_isAllBlank_iff] at hsignificant
    simp at hsignificant
    exact hsignificant.2
  unfold Line.read
  simp only [hfront, hcomment, Bool.false_eq_true, if_false]
  by_cases hopen : c = '['
  · subst hopen
    rw [trimEnd_cons_of_not_blank rfl] at hfront
    simp [(List.cons.inj hfront).2]
  · rw [if_neg hopen]
    split
    · next heq => simp at heq
    · next heq => exact absurd (List.cons.inj heq).1 hopen
    · next heq =>
      obtain ⟨rfl, rfl⟩ := List.cons.inj heq
      rfl

/-- The header that a line spells is read. -/
theorem readHeader_trimEnd_iff :
    (∃ name, readHeader (trimEnd rest) = .ok name) ↔ IsHeader ('[' :: rest) := by
  obtain ⟨tail, htail, hsplit⟩ := exists_splitFirst_trimEnd ']' rfl rest
  have hheader : IsHeader ('[' :: rest) ↔
      ∃ name after, splitFirst ']' rest = some (name, after) ∧ IsIgnored after := by
    simp [IsHeader, splitFirst_eq_some_iff, and_assoc]
  rw [hheader, hsplit, readHeader]
  cases splitFirst ']' (trimEnd rest) with
  | none => simp
  | some parts =>
    obtain ⟨name, after⟩ := parts
    have hafter : (isAllBlank after || isComment after) = true ↔ IsIgnored (after ++ tail) := by
      rw [isComment_or_isAllBlank_iff, isIgnored_append_of_blank htail]
    by_cases h : (isAllBlank after || isComment after) = true
    · simp [h, ← hafter]
    · simp [h, ← hafter]

/-- The definition that a line spells is read. -/
theorem readProperty_trimEnd_iff (hmargin : ¬ IsIndented line) (hopen : line.head? ≠ some '[') :
    (∃ definition, readProperty (trimEnd line) = .ok definition) ↔ IsDefinition line := by
  obtain ⟨tail, -, hsplit⟩ := exists_splitFirst_trimEnd '=' rfl line
  have hdefinition : IsDefinition line ↔
      ∃ key value, splitFirst '=' line = some (key, value) ∧ isAllBlank key = false := by
    constructor
    · rintro ⟨⟨key, value, hline, hkey, c, hc, hblank⟩, -, -⟩
      exact ⟨key, value, splitFirst_eq_some_iff.mpr ⟨hline, hkey⟩,
        List.all_eq_false.mpr ⟨c, hc, by simp [hblank]⟩⟩
    · rintro ⟨key, value, hsplit, hblank⟩
      obtain ⟨hline, hkey⟩ := splitFirst_eq_some_iff.mp hsplit
      obtain ⟨c, hc, hblank⟩ := List.all_eq_false.mp hblank
      exact ⟨⟨key, value, hline, hkey, c, hc, by simpa using hblank⟩, hmargin, hopen⟩
  rw [hdefinition, hsplit, readProperty]
  cases splitFirst '=' (trimEnd line) with
  | none => simp
  | some parts =>
    obtain ⟨key, value⟩ := parts
    cases h : isAllBlank key <;> simp [h]

/-! ## The place of the next line -/

/-- Where the next line stands, by the lines before it. -/
structure Stands (before : List (List Char)) (place : Place) : Prop where
  inSection : place.section?.isSome = true ↔ ∃ header ∈ before, IsHeader header
  inProperty : (∃ name key, place = .inProperty name key) ↔ EndsInProperty before

/-- A header is significant. -/
theorem IsHeader.isSignificant (header : IsHeader line) : IsSignificant line := by
  obtain ⟨name, rest, rfl, -, -⟩ := header
  intro hignored
  have hopen := isIgnored_iff.mp hignored _ _ (trimStart_cons_of_not_blank rfl _)
  simp at hopen

/-- A header is not indented. -/
theorem IsHeader.not_isIndented (header : IsHeader line) : ¬ IsIndented line := by
  rintro ⟨c, rest, rfl, hblank⟩
  obtain ⟨name, after, hline, -, -⟩ := header
  rw [(List.cons.inj hline).1] at hblank
  cases hblank

/-- A header is no definition. -/
theorem IsHeader.not_isDefinition (header : IsHeader line) : ¬ IsDefinition line := by
  obtain ⟨name, rest, rfl, -, -⟩ := header
  exact fun definition => definition.unbracketed rfl

/-- A line that does not count, or is indented, leaves the property to which the lines belong. -/
theorem endsInProperty_append_iff {lines : List (List Char)}
    (h : IsSignificant line → IsIndented line) :
    EndsInProperty (lines ++ [line]) ↔ EndsInProperty lines := by
  constructor
  · rintro ⟨before, property, after, heq, hsignificant, hproperty, hafter⟩
    rcases List.eq_nil_or_concat' after with rfl | ⟨front, last, rfl⟩
    · obtain ⟨rfl, hlast⟩ := List.append_inj' heq rfl
      obtain rfl : line = property := by simpa using hlast
      exact absurd (h hsignificant) hproperty.1.atMargin
    · have hcut : lines ++ [line] = (before ++ property :: front) ++ [last] := by simpa using heq
      obtain ⟨rfl, -⟩ := List.append_inj' hcut rfl
      exact ⟨before, property, front, rfl, hsignificant, hproperty,
        fun other hother => hafter other (by simp [hother])⟩
  · rintro ⟨before, property, after, rfl, hsignificant, hproperty, hafter⟩
    refine ⟨before, property, after ++ [line], by simp, hsignificant, hproperty, ?_⟩
    intro other hother
    rcases List.mem_append.mp hother with hmem | hlast
    · exact hafter other hmem
    · rw [List.mem_singleton.mp hlast]
      exact h

/-- A line that counts and is not indented decides about the property itself. -/
theorem endsInProperty_append_of_atMargin {lines : List (List Char)} (hsignificant : IsSignificant line)
    (hmargin : ¬ IsIndented line) :
    EndsInProperty (lines ++ [line]) ↔ IsProperty lines line := by
  constructor
  · rintro ⟨before, property, after, heq, -, hproperty, hafter⟩
    rcases List.eq_nil_or_concat' after with rfl | ⟨front, last, rfl⟩
    · obtain ⟨rfl, hlast⟩ := List.append_inj' heq rfl
      obtain rfl : line = property := by simpa using hlast
      exact hproperty
    · have hcut : lines ++ [line] = (before ++ property :: front) ++ [last] := by simpa using heq
      obtain ⟨-, hlast⟩ := List.append_inj' hcut rfl
      obtain rfl : line = last := by simpa using hlast
      exact absurd (hafter line (by simp) hsignificant) hmargin
  · intro hproperty
    exact ⟨lines, line, [], rfl, hsignificant, hproperty, by simp⟩

/-- Whether the next line is inside a section changes with headers alone. -/
private theorem exists_header_append_iff {before : List (List Char)} (h : ¬ IsHeader line) :
    (∃ header ∈ before ++ [line], IsHeader header) ↔ ∃ header ∈ before, IsHeader header := by
  constructor
  · rintro ⟨header, hmem, hheader⟩
    rcases List.mem_append.mp hmem with hbefore | hlast
    · exact ⟨header, hbefore, hheader⟩
    · exact absurd (List.mem_singleton.mp hlast ▸ hheader) h
  · rintro ⟨header, hmem, hheader⟩
    exact ⟨header, List.mem_append_left _ hmem, hheader⟩

namespace Stands

variable {before : List (List Char)} {place : Place} {name key : String}

/-- A line that is ignored leaves the place as it is. -/
theorem ignored (stands : Stands before place) (h : IsIgnored line) :
    Stands (before ++ [line]) place where
  inSection := by
    rw [exists_header_append_iff fun header => header.isSignificant h]
    exact stands.inSection
  inProperty := by
    rw [endsInProperty_append_iff fun significant => absurd h significant]
    exact stands.inProperty

/-- After a header, the place is in its section. -/
theorem header (header : IsHeader line) : Stands (before ++ [line]) (.inSection name) where
  inSection := by simp [Place.section?, header]
  inProperty := by
    rw [endsInProperty_append_of_atMargin header.isSignificant header.not_isIndented]
    simp [IsProperty, header.not_isDefinition]

/-- After a property, the place is at that property. -/
theorem property (significant : IsSignificant line) (property : IsProperty before line) :
    Stands (before ++ [line]) (.inProperty name key) where
  inSection := by
    obtain ⟨header, hmem, hheader⟩ := property.2
    simp only [Place.section?, Option.isSome_some, true_iff]
    exact ⟨header, List.mem_append_left _ hmem, hheader⟩
  inProperty := by
    rw [endsInProperty_append_of_atMargin significant property.1.atMargin]
    simp [property]

/-- After a continuation, the place is at the same property. -/
theorem continuation (stands : Stands before place) (indented : IsIndented line) :
    Stands (before ++ [line]) place where
  inSection := by
    rw [exists_header_append_iff fun header => header.not_isIndented indented]
    exact stands.inSection
  inProperty := by
    rw [endsInProperty_append_iff fun _ => indented]
    exact stands.inProperty

end Stands

variable {before : List (List Char)} {reading : Reading}

/-- A line that starts with a bracket is read if it is a header. -/
private theorem step_bracket (significant : IsSignificant ('[' :: rest)) :
    (∃ next, reading.step (Line.read ('[' :: rest)) = .ok next ∧
        Stands (before ++ ['[' :: rest]) next.place ∧ HasPlace before ('[' :: rest)) ∨
      ∃ fault, reading.step (Line.read ('[' :: rest)) = .error fault ∧
        ¬ HasPlace before ('[' :: rest) := by
  rw [read_of_isSignificant significant, if_pos rfl, Reading.step]
  cases h : readHeader (trimEnd rest) with
  | ok name =>
    left
    have header : IsHeader ('[' :: rest) := readHeader_trimEnd_iff.mp ⟨name, h⟩
    exact ⟨reading.openSection name, rfl, .header header, .header header⟩
  | error fault =>
    right
    refine ⟨fault, rfl, ?_⟩
    rintro (header | property | ⟨⟨c, after, heq, hblank⟩, -⟩)
    · obtain ⟨name, hname⟩ := readHeader_trimEnd_iff.mpr header
      rw [h] at hname
      cases hname
    · exact property.1.unbracketed rfl
    · rw [← (List.cons.inj heq).1] at hblank
      cases hblank

/-- An indented line is read if there is a property that it continues. -/
private theorem step_indented (stands : Stands before reading.place) (hblank : isBlank c = true)
    (significant : IsSignificant (c :: rest)) :
    (∃ next, reading.step (Line.read (c :: rest)) = .ok next ∧
        Stands (before ++ [c :: rest]) next.place ∧ HasPlace before (c :: rest)) ∨
      ∃ fault, reading.step (Line.read (c :: rest)) = .error fault ∧
        ¬ HasPlace before (c :: rest) := by
  have hopen : c ≠ '[' := by
    rintro rfl
    cases hblank
  have indented : IsIndented (c :: rest) := ⟨c, rest, rfl, hblank⟩
  rw [read_of_isSignificant significant, if_neg hopen, if_pos hblank, Reading.step]
  have hmisplaced (hnot : ¬ EndsInProperty before) : ¬ HasPlace before (c :: rest) := by
    rintro (header | property | ⟨-, hproperty⟩)
    · exact header.not_isIndented indented
    · exact property.1.atMargin indented
    · exact hnot hproperty
  cases hplace : reading.place with
  | inProperty name key =>
    left
    have hproperty : EndsInProperty before := stands.inProperty.mp ⟨name, key, hplace⟩
    have hstands := stands.continuation indented
    rw [hplace] at hstands
    exact ⟨_, rfl, hstands, .continuation indented hproperty⟩
  | start =>
    right
    refine ⟨_, rfl, hmisplaced ?_⟩
    simp [← stands.inProperty, hplace]
  | inSection name =>
    right
    refine ⟨_, rfl, hmisplaced ?_⟩
    simp [← stands.inProperty, hplace]

/-- Any other line is read if it defines a property of a section. -/
private theorem step_atMargin (stands : Stands before reading.place) (hblank : isBlank c = false)
    (hopen : c ≠ '[') (significant : IsSignificant (c :: rest)) :
    (∃ next, reading.step (Line.read (c :: rest)) = .ok next ∧
        Stands (before ++ [c :: rest]) next.place ∧ HasPlace before (c :: rest)) ∨
      ∃ fault, reading.step (Line.read (c :: rest)) = .error fault ∧
        ¬ HasPlace before (c :: rest) := by
  have hmargin : ¬ IsIndented (c :: rest) := by
    rintro ⟨d, after, heq, hd⟩
    rw [← (List.cons.inj heq).1, hblank] at hd
    cases hd
  have hread := readProperty_trimEnd_iff hmargin (by simpa using hopen)
  have hmisplaced (hnot : ¬ IsProperty before (c :: rest)) : ¬ HasPlace before (c :: rest) := by
    rintro (⟨name, after, heq, -, -⟩ | property | ⟨indented, -⟩)
    · exact hopen (List.cons.inj heq).1
    · exact hnot property
    · exact hmargin indented
  rw [read_of_isSignificant significant, if_neg hopen, if_neg (by simp [hblank]), Reading.step]
  cases hsection : reading.place.section? with
  | none =>
    right
    refine ⟨_, rfl, hmisplaced fun property => ?_⟩
    have hinside := stands.inSection.mpr property.2
    simp [hsection] at hinside
  | some name =>
    cases hdefinition : readProperty (trimEnd (c :: rest)) with
    | ok definition =>
      left
      have property : IsProperty before (c :: rest) :=
        ⟨hread.mp ⟨definition, hdefinition⟩, stands.inSection.mp (by simp [hsection])⟩
      exact ⟨_, rfl, .property significant property, .property property⟩
    | error fault =>
      right
      refine ⟨fault, rfl, hmisplaced fun property => ?_⟩
      obtain ⟨definition, hok⟩ := hread.mpr property.1
      rw [hdefinition] at hok
      cases hok

/-- A line is read if it does not count or has a place. -/
theorem step_cases (stands : Stands before reading.place) (line : List Char) :
    (∃ next, reading.step (Line.read line) = .ok next ∧ Stands (before ++ [line]) next.place ∧
        (IsSignificant line → HasPlace before line)) ∨
      ∃ fault, reading.step (Line.read line) = .error fault ∧ IsSignificant line ∧
        ¬ HasPlace before line := by
  by_cases hignored : IsIgnored line
  · left
    rw [read_of_isIgnored hignored]
    exact ⟨reading, rfl, stands.ignored hignored, fun significant => absurd hignored significant⟩
  · cases line with
    | nil => exact absurd (.inl (by simp)) hignored
    | cons c rest =>
      have hcases : (∃ next, reading.step (Line.read (c :: rest)) = .ok next ∧
            Stands (before ++ [c :: rest]) next.place ∧ HasPlace before (c :: rest)) ∨
          ∃ fault, reading.step (Line.read (c :: rest)) = .error fault ∧
            ¬ HasPlace before (c :: rest) := by
        by_cases hopen : c = '['
        · subst hopen
          exact step_bracket hignored
        · cases hblank : isBlank c with
          | true => exact step_indented stands hblank hignored
          | false => exact step_atMargin stands hblank hopen hignored
      rcases hcases with ⟨next, hnext, hstands, hplace⟩ | ⟨fault, hfault, hmisplaced⟩
      · exact .inl ⟨next, hnext, hstands, fun _ => hplace⟩
      · exact .inr ⟨fault, hfault, hignored, hmisplaced⟩

/-- In the middle of other lines, a line is misplaced if it is significant and has no place after
those before it. -/
theorem isMisplaced_append_iff {after : List (List Char)} :
    IsMisplaced (before ++ line :: after) before.length ↔
      IsSignificant line ∧ ¬ HasPlace before line := by
  simp [IsMisplaced]

/-- Lines are read to the end if none of them is misplaced, else up to the first that is. -/
theorem run_cases {lines : List (List Char)} (stands : Stands before reading.place)
    (hbefore : ∀ j < before.length, ¬ IsMisplaced (before ++ lines) j) :
    ((∃ last, reading.run (before.length + 1) lines = .ok last) ∧
        ∀ j, ¬ IsMisplaced (before ++ lines) j) ∨
      ∃ k fault, reading.run (before.length + 1) lines = .error (k + 1, fault) ∧
        IsMisplaced (before ++ lines) k ∧ ∀ j < k, ¬ IsMisplaced (before ++ lines) j := by
  induction lines generalizing before reading with
  | nil =>
    refine .inl ⟨⟨reading, rfl⟩, fun j hj => ?_⟩
    obtain ⟨line, hline, -⟩ := id hj
    have hlt := (List.getElem?_eq_some_iff.mp hline).1
    exact hbefore j (by simpa using hlt) hj
  | cons line rest ih =>
    have hcons : before ++ line :: rest = (before ++ [line]) ++ rest := by simp
    rw [Reading.run]
    rcases step_cases stands line with ⟨next, hnext, hstands, hplace⟩ | ⟨fault, hfault, hmisplaced⟩
    · rw [hnext]
      have hlength : (before ++ [line]).length = before.length + 1 := by simp
      have hall : ∀ j < (before ++ [line]).length, ¬ IsMisplaced ((before ++ [line]) ++ rest) j := by
        intro j hj hjmisplaced
        rw [hlength] at hj
        rw [← hcons] at hjmisplaced
        rcases Nat.lt_succ_iff_lt_or_eq.mp hj with hlt | rfl
        · exact hbefore j hlt hjmisplaced
        · obtain ⟨hsignificant, hnot⟩ := isMisplaced_append_iff.mp hjmisplaced
          exact hnot (hplace hsignificant)
      have hrest := ih hstands hall
      rw [hlength, ← hcons] at hrest
      exact hrest
    · rw [hfault]
      exact .inr ⟨before.length, fault, rfl, isMisplaced_append_iff.mpr hmisplaced, hbefore⟩

/-- A profile file is read just when no line is misplaced. Otherwise the error has the number of
the first line that is, counted from one. -/
theorem parse_accepts_grammar (file : File) :
    ((∃ sections, file.parse = .ok sections) ↔
        ∀ k, ¬ IsMisplaced (lines file.contents.toList) k) ∧
      ∀ error, file.parse = .error error → ∃ k, error.line = k + 1 ∧
        IsMisplaced (lines file.contents.toList) k ∧
        ∀ j < k, ¬ IsMisplaced (lines file.contents.toList) j := by
  have stands : Stands [] ({} : Reading).place := by
    constructor
    · simp [Place.section?]
    · simp [EndsInProperty]
  have hbefore : ∀ j < ([] : List (List Char)).length,
      ¬ IsMisplaced ([] ++ lines file.contents.toList) j := by simp
  have hrun := run_cases stands hbefore
  rw [List.nil_append, List.length_nil, Nat.zero_add] at hrun
  unfold File.parse Sections.parse
  rcases hrun with ⟨⟨last, hlast⟩, hall⟩ | ⟨k, fault, hfault, hmisplaced, hfirst⟩
  · rw [hlast]
    exact ⟨⟨fun _ => hall, fun _ => ⟨_, rfl⟩⟩, by simp [Except.map]⟩
  · rw [hfault]
    constructor
    · constructor
      · rintro ⟨sections, hsections⟩
        cases hsections
      · intro hall
        exact absurd hmisplaced (hall k)
    · rintro error herror
      rw [← Except.error.inj herror]
      exact ⟨k, rfl, hmisplaced, hfirst⟩

end Profile

end CloudSession
