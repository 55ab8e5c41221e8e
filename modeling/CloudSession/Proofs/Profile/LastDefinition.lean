import CloudSession.Proofs.Profile.Written
import Mathlib.Data.Nat.Find

/-!
# The last definition of a property

Sections of a profile file may be opened again, and properties defined again. A property has the
value that its last definition gives it, with the lines that continue this definition, and nothing
else of the file contributes to it. The nearest header above a line says to which section the line
belongs.
-/

namespace CloudSession.Profile

open Text

/-- A header that has this name between its brackets. -/
def IsHeaderOf (name : String) (line : List Char) : Prop :=
  ∃ text rest, line = '[' :: (text ++ ']' :: rest) ∧ ']' ∉ text ∧ IsIgnored rest ∧
    name = String.ofList (trim text)

/-- The last header among some lines has this name. -/
def EndsInSection (name : String) (lines : List (List Char)) : Prop :=
  ∃ before header after, lines = before ++ header :: after ∧ IsHeaderOf name header ∧
    ∀ line ∈ after, ¬ IsHeader line

/-- A line that defines a property with this key; `text` follows its first `=`. -/
structure IsDefinitionOf (key : String) (text line : List Char) : Prop where
  significant : IsSignificant line
  definition : IsDefinition line
  parts : ∃ front, line = front ++ '=' :: text ∧ '=' ∉ front ∧ key = String.ofList (trim front)

/-- Line `k` defines the property `key` of the section `name`. -/
structure IsDefinedAt (lines : List (List Char)) (k : Nat) (name key : String) (text : List Char) :
    Prop where
  line : ∃ line, lines[k]? = some line ∧ IsDefinitionOf key text line
  inSection : EndsInSection name (lines.take k)

/-- What counts of a text. A comment is left out, which starts at the first comment mark that
directly follows white space, and so is the white space around the rest. -/
def Counts (text : List Char) (value : String) : Prop :=
  ∃ indent tail comment, text = (indent ++ value.toList ++ tail) ++ comment ∧
    (∀ c ∈ indent, isBlank c = true) ∧ (∀ c ∈ tail, isBlank c = true) ∧ IsTrimmed value.toList ∧
    (indent ++ value.toList ++ tail).IsChain (fun b c => isBlank b = true → c ≠ '#' ∧ c ≠ ';') ∧
    (comment = [] ∨ ∃ front b mark rest, indent ++ value.toList ++ tail = front ++ [b] ∧
      isBlank b = true ∧ comment = mark :: rest ∧ (mark = '#' ∨ mark = ';'))

/-- What the lines below the definition of a property add to it: the indented lines do, up to the
next line that counts and is not indented. -/
inductive Continues : List (List Char) → List String → Prop
  | nil : Continues [] []
  | stop {line : List Char} {rest : List (List Char)} : IsSignificant line → ¬ IsIndented line →
      Continues (line :: rest) []
  | skip {line : List Char} {rest : List (List Char)} {added : List String} : IsIgnored line →
      Continues rest added → Continues (line :: rest) added
  | add {line : List Char} {rest : List (List Char)} {value : String} {added : List String} :
      IsSignificant line → IsIndented line → Counts line value → Continues rest added →
        Continues (line :: rest) (value :: added)

/-- The lines of a value joined; a first line that is empty does not count. -/
def joined (first : String) (added : List String) : String :=
  "\n".intercalate (if first = "" then added else first :: added)

/-- The last definition of the property `key` of the section `name` gives it this value. -/
def Gives (lines : List (List Char)) (name key value : String) : Prop :=
  ∃ k text first added, IsDefinedAt lines k name key text ∧
    (∀ j > k, ∀ other, ¬ IsDefinedAt lines j name key other) ∧ Counts text first ∧
    Continues (lines.drop (k + 1)) added ∧ value = joined first added

variable {line text rest : List Char} {name key value : String} {before after more : List (List Char)}

/-! ## What counts of a text -/

/-- What precedes a comment is left as it is. -/
theorem dropComment_append {kept comment : List Char} {afterBlank : Bool}
    (hchain : kept.IsChain fun b c => isBlank b = true → c ≠ '#' ∧ c ≠ ';')
    (hfirst : afterBlank = true → IsUnmarked kept)
    (hcomment : comment = [] ∨ ∃ front b mark rest, kept = front ++ [b] ∧ isBlank b = true ∧
      comment = mark :: rest ∧ (mark = '#' ∨ mark = ';')) :
    dropComment afterBlank (kept ++ comment) = kept := by
  rcases hcomment with rfl | ⟨front, b, mark, rest, rfl, hb, rfl, hmark⟩
  · rw [List.append_nil]
    exact dropComment_eq_self hchain hfirst
  · have hcut : isCommentMark mark = true := isCommentMark_iff.mpr hmark
    induction front generalizing afterBlank with
    | nil =>
      have hnot : (isCommentMark b && afterBlank) = false := by
        cases h : isCommentMark b with
        | false => rfl
        | true => rcases isCommentMark_iff.mp h with rfl | rfl <;> cases hb
      simp [dropComment, hnot, hb, hcut]
    | cons c more ih =>
      have hnot : (isCommentMark c && afterBlank) = false := by
        cases afterBlank with
        | false => simp
        | true =>
          obtain ⟨hhash, hsemicolon⟩ := hfirst rfl c (more ++ [b]) rfl
          simp [isCommentMark, hhash, hsemicolon]
      have hmore : dropComment (isBlank c) (more ++ [b] ++ mark :: rest) = more ++ [b] := by
        apply ih hchain.tail
        intro hblank d others heq
        rw [List.cons_append, heq] at hchain
        exact (List.isChain_cons_cons.mp hchain).1 hblank
      rw [List.cons_append, List.cons_append, dropComment, hnot, hmore]
      rfl

/-- What is dropped from a text starts at a comment mark that follows white space. -/
theorem exists_append_dropComment (afterBlank : Bool) (text : List Char) :
    ∃ comment, text = dropComment afterBlank text ++ comment ∧
      (comment = [] ∨ ∃ mark rest, comment = mark :: rest ∧ (mark = '#' ∨ mark = ';') ∧
        (dropComment afterBlank text = [] ∧ afterBlank = true ∨
          ∃ front b, dropComment afterBlank text = front ++ [b] ∧ isBlank b = true)) := by
  induction text generalizing afterBlank with
  | nil => exact ⟨[], rfl, .inl rfl⟩
  | cons c more ih =>
    rw [dropComment]
    split
    · next hmark =>
      rw [Bool.and_eq_true, isCommentMark_iff] at hmark
      exact ⟨c :: more, rfl, .inr ⟨c, more, rfl, hmark.1, .inl ⟨rfl, hmark.2⟩⟩⟩
    · obtain ⟨comment, hmore, hcomment⟩ := ih (isBlank c)
      refine ⟨comment, by rw [List.cons_append, ← hmore], hcomment.imp id ?_⟩
      rintro ⟨mark, rest, rfl, hmark, ⟨hnil, hblank⟩ | ⟨front, b, hfront, hb⟩⟩
      · exact ⟨mark, rest, rfl, hmark, .inr ⟨[], c, by rw [hnil]; rfl, hblank⟩⟩
      · exact ⟨mark, rest, rfl, hmark, .inr ⟨c :: front, b, by rw [hfront]; rfl, hb⟩⟩

/-- A text counts for its value, without blanks and comments. -/
theorem counts_valueText (text : List Char) : Counts text (valueText text) := by
  obtain ⟨comment, htext, hcomment⟩ := exists_append_dropComment false text
  obtain ⟨indent, hstart, hindent⟩ := exists_append_trimStart (dropComment false text)
  obtain ⟨tail, hend, htail⟩ := exists_append_trimEnd (trimStart (dropComment false text))
  have hkept : indent ++ (valueText text).toList ++ tail = dropComment false text := by
    rw [valueText, String.toList_ofList, List.append_assoc, trim, ← hend, ← hstart]
  refine ⟨indent, tail, comment, by rw [hkept, ← htext], hindent, htail, ?_, ?_, ?_⟩
  · rw [valueText, String.toList_ofList]
    exact isTrimmed_trim _
  · rw [hkept]
    exact (isChain_dropComment false text).1
  · rw [hkept]
    refine hcomment.imp id ?_
    rintro ⟨mark, rest, rfl, hmark, ⟨-, hfalse⟩ | ⟨front, b, hfront, hb⟩⟩
    · cases hfalse
    · exact ⟨front, b, mark, rest, hfront, hb, rfl, hmark⟩

/-- What counts of a text is the value that is read. -/
theorem counts_iff : Counts text value ↔ value = valueText text := by
  constructor
  · rintro ⟨indent, tail, comment, rfl, hindent, htail, trimmed, hchain, hcomment⟩
    rw [valueText, dropComment_append hchain (by simp) hcomment,
      trimmed.trim_append hindent htail, String.ofList_toList]
  · rintro rfl
    exact counts_valueText text

/-- White space at the end of a text does not count. -/
theorem valueText_append_of_blank {tail : List Char} (htail : ∀ c ∈ tail, isBlank c = true) :
    valueText (text ++ tail) = valueText text := by
  have hdrop (afterBlank : Bool) (text : List Char) :
      ∃ more, dropComment afterBlank (text ++ tail) = dropComment afterBlank text ++ more ∧
        ∀ c ∈ more, isBlank c = true := by
    induction text generalizing afterBlank with
    | nil =>
      refine ⟨dropComment afterBlank tail, rfl, fun c hc => htail c ?_⟩
      exact (prefix_dropComment afterBlank tail).subset hc
    | cons c rest ih =>
      rw [List.cons_append, dropComment, dropComment]
      split
      · exact ⟨[], rfl, by simp⟩
      · obtain ⟨more, hrest, hmore⟩ := ih (isBlank c)
        exact ⟨more, by rw [hrest, List.cons_append], hmore⟩
  obtain ⟨more, htext, hmore⟩ := hdrop false text
  rw [valueText, htext, trim_append_of_blank _ hmore, valueText]

/-! ## Lines that define and lines that continue -/

/-- A header is the header of some section. -/
theorem isHeader_iff : IsHeader line ↔ ∃ name, IsHeaderOf name line := by
  constructor
  · rintro ⟨text, rest, hline, hfree, hrest⟩
    exact ⟨_, text, rest, hline, hfree, hrest, rfl⟩
  · rintro ⟨name, text, rest, hline, hfree, hrest, -⟩
    exact ⟨text, rest, hline, hfree, hrest⟩

/-- The header of a section is a header. -/
theorem IsHeaderOf.isHeader (header : IsHeaderOf name line) : IsHeader line :=
  isHeader_iff.mpr ⟨name, header⟩

/-- A header names one section. -/
theorem IsHeaderOf.name_eq {other : String} (header : IsHeaderOf name line)
    (again : IsHeaderOf other line) : other = name := by
  obtain ⟨text, rest, rfl, hfree, -, rfl⟩ := header
  obtain ⟨text', rest', heq, hfree', -, rfl⟩ := again
  have hsplit : splitFirst ']' (text ++ ']' :: rest) = some (text, rest) :=
    splitFirst_eq_some_iff.mpr ⟨rfl, hfree⟩
  rw [(List.cons.inj heq).2, splitFirst_eq_some_iff.mpr ⟨rfl, hfree'⟩] at hsplit
  rw [(Prod.mk.inj (Option.some.inj hsplit)).1]

/-- A definition has one key and one text. -/
theorem IsDefinitionOf.eq {other : String} {text' : List Char}
    (definition : IsDefinitionOf key text line)
    (again : IsDefinitionOf other text' line) : other = key ∧ text' = text := by
  obtain ⟨front, rfl, hfree, rfl⟩ := definition.parts
  obtain ⟨front', heq, hfree', rfl⟩ := again.parts
  have hsplit : splitFirst '=' (front ++ '=' :: text) = some (front, text) :=
    splitFirst_eq_some_iff.mpr ⟨rfl, hfree⟩
  rw [heq, splitFirst_eq_some_iff.mpr ⟨rfl, hfree'⟩] at hsplit
  obtain ⟨rfl, rfl⟩ := Prod.mk.inj (Option.some.inj hsplit)
  exact ⟨rfl, rfl⟩

/-- Lines end in one section at most. -/
theorem EndsInSection.name_eq {other : String} (ends : EndsInSection name before)
    (again : EndsInSection other before) : other = name := by
  obtain ⟨front, header, after, rfl, isHeader, hafter⟩ := ends
  obtain ⟨front', header', after', heq, isHeader', hafter'⟩ := again
  rcases List.append_eq_append_iff.mp heq with ⟨more, rfl, hmore⟩ | ⟨more, rfl, hmore⟩
  · cases more with
    | nil =>
      obtain ⟨rfl, -⟩ := List.cons.inj hmore
      exact isHeader.name_eq isHeader'
    | cons first others =>
      rw [List.cons_append] at hmore
      obtain ⟨rfl, rfl⟩ := List.cons.inj hmore
      exact absurd isHeader'.isHeader (hafter header' (by simp))
  · cases more with
    | nil =>
      obtain ⟨rfl, -⟩ := List.cons.inj hmore
      exact isHeader.name_eq isHeader'
    | cons first others =>
      rw [List.cons_append] at hmore
      obtain ⟨rfl, rfl⟩ := List.cons.inj hmore
      exact absurd isHeader.isHeader (hafter' header (by simp))

/-- A line that is no header leaves the section as it is. -/
theorem endsInSection_append_of_not_isHeader (h : ¬ IsHeader line) :
    EndsInSection name (before ++ [line]) ↔ EndsInSection name before := by
  constructor
  · rintro ⟨front, header, after, heq, isHeader, hafter⟩
    rcases List.eq_nil_or_concat' after with rfl | ⟨init, last, rfl⟩
    · obtain ⟨-, hlast⟩ := List.append_inj' heq rfl
      obtain rfl : line = header := by simpa using hlast
      exact absurd isHeader.isHeader h
    · have hcut : before ++ [line] = (front ++ header :: init) ++ [last] := by simpa using heq
      obtain ⟨rfl, -⟩ := List.append_inj' hcut rfl
      exact ⟨front, header, init, rfl, isHeader, fun other hother => hafter other (by simp [hother])⟩
  · rintro ⟨front, header, after, rfl, isHeader, hafter⟩
    refine ⟨front, header, after ++ [line], by simp, isHeader, ?_⟩
    intro other hother
    rcases List.mem_append.mp hother with hmem | hlast
    · exact hafter other hmem
    · rwa [List.mem_singleton.mp hlast]

/-- After a header, the section is the one that it names. -/
theorem endsInSection_append_of_isHeaderOf {other : String} (header : IsHeaderOf other line) :
    EndsInSection name (before ++ [line]) ↔ name = other := by
  have hends : EndsInSection other (before ++ [line]) := ⟨before, line, [], rfl, header, by simp⟩
  constructor
  · exact hends.name_eq
  · rintro rfl
    exact hends

/-- A definition is among the lines before the last, or is the last line. -/
theorem isDefinedAt_append_iff {k : Nat} :
    IsDefinedAt (before ++ [line]) k name key text ↔
      IsDefinedAt before k name key text ∨
        k = before.length ∧ EndsInSection name before ∧ IsDefinitionOf key text line := by
  constructor
  · rintro ⟨⟨found, hfound, definition⟩, inSection⟩
    rcases Nat.lt_trichotomy k before.length with hlt | rfl | hgt
    · left
      rw [List.getElem?_append_left hlt] at hfound
      rw [List.take_append_of_le_length hlt.le] at inSection
      exact ⟨⟨found, hfound, definition⟩, inSection⟩
    · right
      obtain rfl : line = found := by simpa using hfound
      exact ⟨rfl, by simpa using inSection, definition⟩
    · have hlast := (List.getElem?_eq_some_iff.mp hfound).1
      simp only [List.length_append, List.length_singleton] at hlast
      omega
  · rintro (⟨⟨found, hfound, definition⟩, inSection⟩ | ⟨rfl, inSection, definition⟩)
    · have hlt := (List.getElem?_eq_some_iff.mp hfound).1
      refine ⟨⟨found, ?_, definition⟩, ?_⟩
      · rw [List.getElem?_append_left hlt, hfound]
      · rwa [List.take_append_of_le_length hlt.le]
    · refine ⟨⟨line, by simp, definition⟩, by simpa using inSection⟩

/-- What is defined at a line is defined at one of the lines. -/
theorem IsDefinedAt.lt_length {k : Nat} (defined : IsDefinedAt before k name key text) :
    k < before.length := by
  obtain ⟨⟨found, hfound, -⟩, -⟩ := defined
  exact (List.getElem?_eq_some_iff.mp hfound).1

/-- A line that defines a property is not among those that continue one. -/
theorem IsDefinedAt.mem_drop {j k : Nat} (defined : IsDefinedAt before k name key text)
    (hjk : j < k) : ∃ line ∈ before.drop (j + 1), IsSignificant line ∧ ¬ IsIndented line := by
  obtain ⟨⟨found, hfound, definition⟩, -⟩ := defined
  refine ⟨found, ?_, definition.significant, definition.definition.atMargin⟩
  apply List.mem_of_getElem? (i := k - (j + 1))
  rw [List.getElem?_drop, ← hfound]
  congr 1
  omega

/-! ## One line more -/

/-- A header is read as the name of its section. -/
theorem readHeader_of_isHeaderOf (header : IsHeaderOf name ('[' :: rest)) :
    readHeader (trimEnd rest) = .ok name := by
  obtain ⟨text, after, heq, hfree, hafter, rfl⟩ := header
  obtain ⟨tail, htail, hsplit⟩ := exists_splitFirst_trimEnd ']' rfl rest
  have hrest : splitFirst ']' rest = some (text, after) :=
    splitFirst_eq_some_iff.mpr ⟨(List.cons.inj heq).2, hfree⟩
  rw [hrest] at hsplit
  cases hcut : splitFirst ']' (trimEnd rest) with
  | none =>
    rw [hcut] at hsplit
    cases hsplit
  | some parts =>
    rw [hcut] at hsplit
    obtain ⟨rfl, rfl⟩ := Prod.mk.inj (Option.some.inj hsplit)
    have hignored := isComment_or_isAllBlank_iff.mpr ((isIgnored_append_of_blank htail).mp hafter)
    rw [readHeader, hcut]
    simp only [hignored, if_true]

/-- A definition is read as its key and the text of its value. -/
theorem readProperty_of_isDefinitionOf (definition : IsDefinitionOf key text line) :
    readProperty (trimEnd line) = .ok (key, valueText text) := by
  obtain ⟨front, heq, hfree, rfl⟩ := definition.parts
  obtain ⟨tail, htail, hsplit⟩ := exists_splitFirst_trimEnd '=' rfl line
  have hline : splitFirst '=' line = some (front, text) := splitFirst_eq_some_iff.mpr ⟨heq, hfree⟩
  have hblank : isAllBlank front = false := by
    obtain ⟨key, value, hparts, hkey, c, hc, hnot⟩ := definition.definition.parts
    rw [splitFirst_eq_some_iff.mpr ⟨hparts, hkey⟩] at hline
    obtain ⟨rfl, -⟩ := Prod.mk.inj (Option.some.inj hline)
    exact List.all_eq_false.mpr ⟨c, hc, by simp [hnot]⟩
  rw [hline] at hsplit
  cases hcut : splitFirst '=' (trimEnd line) with
  | none =>
    rw [hcut] at hsplit
    cases hsplit
  | some parts =>
    rw [hcut] at hsplit
    obtain ⟨rfl, rfl⟩ := Prod.mk.inj (Option.some.inj hsplit)
    rw [readProperty, hcut]
    simp only [hblank, Bool.false_eq_true, if_false, valueText_append_of_blank htail]

variable {reading next : Reading}

/-- A header opens the section that it names. -/
theorem step_of_isHeaderOf (header : IsHeaderOf name line) :
    reading.step (Line.read line) = .ok (reading.openSection name) := by
  have significant := header.isHeader.isSignificant
  obtain ⟨text, after, rfl, -⟩ := id header
  rw [read_of_isSignificant significant, if_pos rfl, readHeader_of_isHeaderOf header]
  rfl

/-- A definition in a section defines the key there. -/
theorem step_of_isDefinitionOf (definition : IsDefinitionOf key text line)
    (hplace : reading.place.section? = some name) :
    reading.step (Line.read line) = .ok (reading.define name key (valueText text)) := by
  obtain ⟨c, rest, rfl⟩ : ∃ c rest, line = c :: rest := by
    refine List.exists_cons_of_ne_nil fun hnil => definition.significant (.inl ?_)
    simp [hnil]
  have hopen : c ≠ '[' := fun h => definition.definition.unbracketed (by simp [h])
  have hblank : ¬ isBlank c = true := fun h => definition.definition.atMargin ⟨c, rest, rfl, h⟩
  rw [read_of_isSignificant definition.significant, if_neg hopen, if_neg hblank,
    readProperty_of_isDefinitionOf definition, Reading.step, hplace]
  rfl

/-- An indented line extends the value before it. -/
theorem step_of_isIndented (significant : IsSignificant line) (indented : IsIndented line)
    (hplace : reading.place = .inProperty name key) :
    reading.step (Line.read line) = .ok (reading.extend name key (valueText line)) := by
  obtain ⟨c, rest, rfl, hblank⟩ := indented
  have hopen : c ≠ '[' := by
    rintro rfl
    cases hblank
  obtain ⟨tail, htext, htail⟩ := exists_append_trimEnd (c :: rest)
  have hvalue : valueText (trimEnd (c :: rest)) = valueText (c :: rest) := by
    conv_rhs => rw [htext]
    exact (valueText_append_of_blank htail).symm
  rw [read_of_isSignificant significant, if_neg hopen, if_pos hblank, Reading.step, hplace, hvalue]

/-- What an accepted line is. -/
theorem step_ok_cases (stands : Stands before reading.place)
    (hstep : reading.step (Line.read line) = .ok next) :
    IsIgnored line ∨ (∃ name, IsHeaderOf name line) ∨
      (∃ name key text, reading.place.section? = some name ∧ IsDefinitionOf key text line) ∨
      (∃ name key, reading.place = .inProperty name key ∧ IsSignificant line ∧ IsIndented line) := by
  by_cases hignored : IsIgnored line
  · exact .inl hignored
  · right
    rcases step_cases stands line with ⟨-, -, -, hplace⟩ | ⟨fault, hfault, -⟩
    · rcases hplace hignored with header | ⟨definition, header⟩ | ⟨indented, ends⟩
      · exact .inl (isHeader_iff.mp header)
      · obtain ⟨name, hname⟩ := Option.isSome_iff_exists.mp (stands.inSection.mpr header)
        obtain ⟨front, text, hline, hfree, -⟩ := definition.parts
        exact .inr (.inl ⟨name, _, text, hname, hignored, definition, front, hline, hfree, rfl⟩)
      · obtain ⟨name, key, hplace⟩ := stands.inProperty.mpr ends
        exact .inr (.inr ⟨name, key, hplace, hignored, indented⟩)
    · rw [hstep] at hfault
      cases hfault

/-! ## What the lines below a definition add -/

/-- Lines that continue what is above them. -/
def AllContinue (lines : List (List Char)) : Prop :=
  ∀ line ∈ lines, IsSignificant line → IsIndented line

/-- The lines after a definition continue it with something, if only with nothing. -/
theorem exists_continues (after : List (List Char)) : ∃ added, Continues after added := by
  induction after with
  | nil => exact ⟨[], .nil⟩
  | cons line rest ih =>
    obtain ⟨added, hadded⟩ := ih
    by_cases hignored : IsIgnored line
    · exact ⟨added, .skip hignored hadded⟩
    · by_cases indented : IsIndented line
      · exact ⟨valueText line :: added, .add hignored indented (counts_valueText line) hadded⟩
      · exact ⟨[], .stop hignored indented⟩

/-- Where no line follows, nothing is added. -/
theorem continues_nil_iff {added : List String} : Continues [] added ↔ added = [] := by
  constructor
  · rintro ⟨⟩
    rfl
  · rintro rfl
    exact .nil

/-- Below lines that continue a definition, its lines go on. -/
theorem continues_append {added : List String} (h : AllContinue after) :
    Continues (after ++ more) added ↔
      ∃ front back, added = front ++ back ∧ Continues after front ∧ Continues more back := by
  constructor
  · intro continues
    induction after generalizing added with
    | nil => exact ⟨[], added, rfl, .nil, continues⟩
    | cons first others ih =>
      have hothers : AllContinue others := fun line hline => h line (List.mem_cons_of_mem _ hline)
      cases continues with
      | stop significant atMargin => exact absurd (h first List.mem_cons_self significant) atMargin
      | skip ignored below =>
        obtain ⟨front, back, rfl, hfront, hback⟩ := ih hothers below
        exact ⟨front, back, rfl, .skip ignored hfront, hback⟩
      | @add _ _ value _ significant indented counts below =>
        obtain ⟨front, back, rfl, hfront, hback⟩ := ih hothers below
        exact ⟨value :: front, back, rfl, .add significant indented counts hfront, hback⟩
  · rintro ⟨front, back, rfl, hfront, hback⟩
    induction hfront with
    | nil => exact hback
    | stop significant atMargin => exact absurd (h _ List.mem_cons_self significant) atMargin
    | skip ignored _ ih =>
      exact .skip ignored (ih fun line hline => h line (List.mem_cons_of_mem _ hline))
    | add significant indented counts _ ih =>
      exact .add significant indented counts
        (ih fun line hline => h line (List.mem_cons_of_mem _ hline))

/-- A definition has ended with the first line that does not continue it. -/
theorem continues_append_of_ended {added : List String} (h : ¬ AllContinue after) :
    Continues (after ++ more) added ↔ Continues after added := by
  constructor
  · intro continues
    induction after generalizing added with
    | nil => exact absurd (fun _ hline => absurd hline List.not_mem_nil) h
    | cons first others ih =>
      have hothers (hfirst : IsSignificant first → IsIndented first) : ¬ AllContinue others :=
        fun hall => h (List.forall_mem_cons.mpr ⟨hfirst, hall⟩)
      cases continues with
      | stop significant atMargin => exact .stop significant atMargin
      | skip ignored below => exact .skip ignored (ih (hothers fun hs => absurd ignored hs) below)
      | add significant indented counts below =>
        exact .add significant indented counts (ih (hothers fun _ => indented) below)
  · intro continues
    induction continues with
    | nil => exact absurd (fun _ hline => absurd hline List.not_mem_nil) h
    | stop significant atMargin => exact .stop significant atMargin
    | @skip first _ _ ignored _ ih =>
      exact .skip ignored (ih fun hall => h (List.forall_mem_cons.mpr
        ⟨fun significant => absurd ignored significant, hall⟩))
    | add significant indented counts _ ih =>
      exact .add significant indented counts (ih fun hall => h (List.forall_mem_cons.mpr
        ⟨fun _ => indented, hall⟩))

/-- A line that does not count, or is not indented, adds nothing. -/
theorem continues_append_of_not_indented {added : List String}
    (h : IsSignificant line → ¬ IsIndented line) :
    Continues (after ++ [line]) added ↔ Continues after added := by
  by_cases hall : AllContinue after
  · have hline {back : List String} : Continues [line] back ↔ back = [] := by
      constructor
      · intro continues
        cases continues with
        | stop => rfl
        | skip _ below => exact continues_nil_iff.mp below
        | add significant indented => exact absurd indented (h significant)
      · rintro rfl
        by_cases hignored : IsIgnored line
        · exact .skip hignored .nil
        · exact .stop hignored (h hignored)
    simp only [continues_append hall, hline]
    simp
  · exact continues_append_of_ended hall

/-- An indented line adds its value to those before it. -/
theorem continues_append_of_isIndented {added : List String} (hall : AllContinue after)
    (significant : IsSignificant line) (indented : IsIndented line) :
    Continues (after ++ [line]) added ↔
      ∃ front, Continues after front ∧ added = front ++ [valueText line] := by
  rw [continues_append hall]
  constructor
  · rintro ⟨front, back, rfl, hfront, hback⟩
    refine ⟨front, hfront, ?_⟩
    cases hback with
    | stop _ atMargin => exact absurd indented atMargin
    | skip ignored _ => exact absurd ignored significant
    | add _ _ counts below => rw [counts_iff.mp counts, continues_nil_iff.mp below]
  · rintro ⟨front, hfront, rfl⟩
    exact ⟨front, _, rfl, hfront, .add significant indented (counts_valueText line) .nil⟩

/-- What continues a value is not empty. -/
theorem Continues.ne_empty {added : List String} (continues : Continues after added) :
    ∀ value ∈ added, value ≠ "" := by
  induction continues with
  | nil => simp
  | stop => simp
  | skip _ _ ih => exact ih
  | @add line _ value _ significant indented counts _ ih =>
    refine List.forall_mem_cons.mpr ⟨?_, ih⟩
    obtain ⟨c, rest, rfl, -⟩ := indented
    obtain ⟨tail, htext, htail⟩ := exists_append_trimEnd (c :: rest)
    rw [counts_iff.mp counts, htext, valueText_append_of_blank htail]
    intro hempty
    apply (isValueLine_of_indented significant).1.nonempty
    rw [hempty]
    rfl

/-! ## Values of several lines -/

/-- With nothing to add, a value stays as it is. -/
theorem joined_nil (first : String) : joined first [] = first := by
  unfold joined
  split
  · next h => simp [h]
  · simp

/-- Lines are not empty if the first of them is not. -/
theorem intercalate_ne_empty {first : String} {rest : List String} (h : first ≠ "") :
    "\n".intercalate (first :: rest) ≠ "" := by
  intro hempty
  have hlist := congrArg String.toList hempty
  rw [String.toList_intercalate, List.map_cons] at hlist
  cases rest with
  | nil => simp [h] at hlist
  | cons next others => simp [List.intercalate_cons_cons, h] at hlist

/-- To add one more value joins it to the others. -/
theorem joined_concat {first value : String} {added : List String}
    (hadded : ∀ other ∈ added, other ≠ "") :
    joined first (added ++ [value]) = Reading.joinLines (joined first added) value := by
  have hconcat (start : String) (rest : List String) : "\n".intercalate (start :: (rest ++ [value])) =
      "\n".intercalate (start :: rest) ++ "\n" ++ value := by
    rw [← String.toList_inj]
    have hfeed : "\n".toList = ['\n'] := rfl
    simp only [String.toList_intercalate, String.toList_append, List.map_cons, List.map_append,
      List.map_nil, hfeed, intercalate_concat]
    simp
  unfold joined Reading.joinLines
  by_cases hfirst : first = ""
  · cases added with
    | nil => simp [hfirst]
    | cons start rest =>
      rw [if_pos hfirst, if_pos hfirst, List.cons_append, hconcat,
        if_neg (intercalate_ne_empty (hadded start List.mem_cons_self))]
  · rw [if_neg hfirst, if_neg hfirst, hconcat, if_neg (intercalate_ne_empty hfirst)]

/-! ## The last definition among more lines -/

/-- A line that neither defines the key nor continues its value leaves the value as it was. -/
theorem gives_append_of_not_defined {line : List Char}
    (hnot : EndsInSection name before → ∀ text, ¬ IsDefinitionOf key text line)
    (hsame : ∀ k text added, IsDefinedAt before k name key text →
      (Continues (before.drop (k + 1) ++ [line]) added ↔ Continues (before.drop (k + 1)) added)) :
    Gives (before ++ [line]) name key value ↔ Gives before name key value := by
  have hdefined (k : Nat) (text : List Char) :
      IsDefinedAt (before ++ [line]) k name key text ↔ IsDefinedAt before k name key text := by
    rw [isDefinedAt_append_iff]
    constructor
    · rintro (defined | ⟨-, ends, definition⟩)
      · exact defined
      · exact absurd definition (hnot ends text)
    · exact .inl
  have hdrop {k : Nat} {text : List Char} (defined : IsDefinedAt before k name key text) :
      (before ++ [line]).drop (k + 1) = before.drop (k + 1) ++ [line] :=
    List.drop_append_of_le_length defined.lt_length
  unfold Gives
  simp only [hdefined]
  constructor
  · rintro ⟨k, text, first, added, defined, hlast, hfirst, hadded, rfl⟩
    rw [hdrop defined, hsame k text added defined] at hadded
    exact ⟨k, text, first, added, defined, hlast, hfirst, hadded, rfl⟩
  · rintro ⟨k, text, first, added, defined, hlast, hfirst, hadded, rfl⟩
    rw [← hsame k text added defined, ← hdrop defined] at hadded
    exact ⟨k, text, first, added, defined, hlast, hfirst, hadded, rfl⟩

/-- A definition gives its value, whatever was before. -/
theorem gives_append_of_isDefinitionOf (ends : EndsInSection name before)
    (definition : IsDefinitionOf key text line) :
    Gives (before ++ [line]) name key value ↔ value = valueText text := by
  have hhere : IsDefinedAt (before ++ [line]) before.length name key text :=
    isDefinedAt_append_iff.mpr (.inr ⟨rfl, ends, definition⟩)
  have hdrop : (before ++ [line]).drop (before.length + 1) = [] := by simp
  constructor
  · rintro ⟨k, other, first, added, defined, hlast, hfirst, hadded, rfl⟩
    rcases isDefinedAt_append_iff.mp defined with earlier | ⟨rfl, -, again⟩
    · exact absurd hhere (hlast _ earlier.lt_length text)
    · obtain ⟨-, rfl⟩ := definition.eq again
      rw [hdrop, continues_nil_iff] at hadded
      rw [hadded, joined_nil, counts_iff.mp hfirst]
  · rintro rfl
    refine ⟨before.length, text, valueText text, [], hhere, ?_, counts_valueText text, ?_,
      (joined_nil _).symm⟩
    · intro j hj other defined
      have hlt := defined.lt_length
      rw [List.length_append, List.length_singleton] at hlt
      omega
    · rw [hdrop]
      exact .nil

/-- The definition that the lines at the end continue is the last of its property. -/
theorem IsDefinedAt.not_later {j k : Nat} {other : List Char} {name' key' : String}
    (hall : AllContinue (before.drop (k + 1))) (hkj : k < j) :
    ¬ IsDefinedAt before j name' key' other := by
  intro later
  obtain ⟨line, hline, significant, atMargin⟩ := later.mem_drop hkj
  exact atMargin (hall line hline significant)

/-- Where only continuations follow a definition, its value is joined from them. -/
theorem gives_of_allContinue {k : Nat} (defined : IsDefinedAt before k name key text)
    (hall : AllContinue (before.drop (k + 1))) : Gives before name key value ↔
      ∃ added, Continues (before.drop (k + 1)) added ∧ value = joined (valueText text) added := by
  constructor
  · rintro ⟨j, other, first, added, definedAt, hlast, hfirst, hadded, rfl⟩
    obtain rfl : j = k := by
      rcases Nat.lt_trichotomy j k with hlt | rfl | hgt
      · exact absurd defined (hlast k hlt text)
      · rfl
      · exact absurd definedAt (IsDefinedAt.not_later hall hgt)
    obtain ⟨line, hline, definition⟩ := defined.line
    obtain ⟨again, hagain, definition'⟩ := definedAt.line
    obtain rfl : line = again := Option.some.inj (hline.symm.trans hagain)
    obtain ⟨-, rfl⟩ := definition.eq definition'
    exact ⟨added, hadded, by rw [counts_iff.mp hfirst]⟩
  · rintro ⟨added, hadded, rfl⟩
    exact ⟨k, text, _, added, defined, fun j hkj other => IsDefinedAt.not_later hall hkj,
      counts_valueText text, hadded, rfl⟩

/-- A line that continues another definition adds nothing to those before it. -/
theorem continues_append_of_later {j k : Nat} {other : List Char} {name' key' : String}
    {added : List String} (defined : IsDefinedAt before k name key text)
    (hall : AllContinue (before.drop (k + 1))) (definedAt : IsDefinedAt before j name' key' other)
    (hne : ¬ (name' = name ∧ key' = key)) :
    Continues (before.drop (j + 1) ++ [line]) added ↔ Continues (before.drop (j + 1)) added := by
  apply continues_append_of_ended
  intro hopen
  rcases Nat.lt_trichotomy j k with hlt | rfl | hgt
  · exact IsDefinedAt.not_later hopen hlt defined
  · apply hne
    obtain ⟨found, hfound, definition⟩ := defined.line
    obtain ⟨again, hagain, definition'⟩ := definedAt.line
    obtain rfl : found = again := Option.some.inj (hfound.symm.trans hagain)
    exact ⟨defined.inSection.name_eq definedAt.inSection, (definition.eq definition').1⟩
  · exact IsDefinedAt.not_later hall hgt definedAt

/-- A line that continues a definition gives the value one more line. -/
theorem gives_append_of_isIndented {k : Nat} (defined : IsDefinedAt before k name key text)
    (hall : AllContinue (before.drop (k + 1))) (significant : IsSignificant line)
    (indented : IsIndented line) :
    Gives (before ++ [line]) name key value ↔
      ∃ old, Gives before name key old ∧ value = Reading.joinLines old (valueText line) := by
  have hstill : IsDefinedAt (before ++ [line]) k name key text :=
    isDefinedAt_append_iff.mpr (.inl defined)
  have hdrop : (before ++ [line]).drop (k + 1) = before.drop (k + 1) ++ [line] :=
    List.drop_append_of_le_length defined.lt_length
  have hall' : AllContinue ((before ++ [line]).drop (k + 1)) := by
    rw [hdrop]
    intro other hother
    rcases List.mem_append.mp hother with hmem | hlast
    · exact hall other hmem
    · rw [List.mem_singleton.mp hlast]
      exact fun _ => indented
  rw [gives_of_allContinue hstill hall', hdrop]
  simp only [gives_of_allContinue defined hall,
    continues_append_of_isIndented hall significant indented]
  constructor
  · rintro ⟨added, ⟨front, hfront, rfl⟩, rfl⟩
    exact ⟨_, ⟨front, hfront, rfl⟩, joined_concat hfront.ne_empty⟩
  · rintro ⟨old, ⟨front, hfront, rfl⟩, rfl⟩
    exact ⟨_, ⟨front, hfront, rfl⟩, (joined_concat hfront.ne_empty).symm⟩

/-- A property that is defined anywhere has a last definition. -/
theorem IsDefinedAt.exists_gives {k : Nat} (defined : IsDefinedAt before k name key text) :
    ∃ value, Gives before name key value := by
  classical
  let isDefined (j : Nat) : Prop := ∃ text, IsDefinedAt before j name key text
  obtain ⟨last, hlast⟩ : isDefined (Nat.findGreatest isDefined before.length) :=
    Nat.findGreatest_spec defined.lt_length.le ⟨text, defined⟩
  obtain ⟨added, hadded⟩ := exists_continues (before.drop (Nat.findGreatest isDefined before.length + 1))
  refine ⟨_, _, last, _, added, hlast, ?_, counts_valueText last, hadded, rfl⟩
  intro j hj other later
  exact Nat.findGreatest_is_greatest hj later.lt_length.le ⟨other, later⟩

/-! ## Reading -/

section Sections

variable {sections : Sections}

/-- A section is there if it was, or is the one that is altered. -/
theorem contains_alter {f : Option (Table String) → Table String} {other : String} :
    (Table.alter sections name f).contains other = true ↔
      other = name ∨ Table.contains sections other = true := by
  rw [Table.contains, Table.get?_alter, Table.contains]
  by_cases h : other = name <;> simp [h]

/-- A property that is written has the new value, and all others have theirs. -/
theorem value?_alter {f : Option String → String} {other otherKey : String} :
    Sections.value? (Table.alter sections name fun properties => (properties.getD ∅).alter key f)
        other otherKey =
      if other = name ∧ otherKey = key then some (f (sections.value? name key))
      else sections.value? other otherKey := by
  unfold Sections.value?
  rw [Table.get?_alter]
  by_cases hname : other = name
  · subst hname
    have hold : (Table.get? sections other).bind (fun properties => properties.get? key) =
        ((Table.get? sections other).getD ∅).get? key := by
      cases Table.get? sections other <;> rfl
    have hother : (Table.get? sections other).bind (fun properties => properties.get? otherKey) =
        ((Table.get? sections other).getD ∅).get? otherKey := by
      cases Table.get? sections other <;> rfl
    rw [if_pos rfl, Option.bind_some, Table.get?_alter, hold, hother]
    simp
  · simp [hname]

/-- A section that is opened keeps its properties. -/
theorem value?_open {other otherKey : String} :
    Sections.value? (Table.alter sections name fun properties => properties.getD ∅) other otherKey =
      sections.value? other otherKey := by
  unfold Sections.value?
  rw [Table.get?_alter]
  by_cases hname : other = name
  · subst hname
    rw [if_pos rfl]
    cases Table.get? sections other <;> rfl
  · rw [if_neg hname]

end Sections

/-- What has been read is what the lines so far say. -/
structure Describes (before : List (List Char)) (reading : Reading) : Prop where
  stands : Stands before reading.place
  inSection : ∀ name, reading.place.section? = some name ↔ EndsInSection name before
  inProperty : ∀ name key, reading.place = .inProperty name key →
    ∃ k text, IsDefinedAt before k name key text ∧ AllContinue (before.drop (k + 1))
  names : ∀ name, reading.sections.contains name = true ↔ ∃ line ∈ before, IsHeaderOf name line
  values : ∀ name key value,
    reading.sections.value? name key = some value ↔ Gives before name key value

namespace Describes

/-- Before the first line, nothing is described. -/
theorem start : Describes [] {} where
  stands := by
    constructor
    · simp [Place.section?]
    · simp [EndsInProperty]
  inSection name := by
    constructor
    · intro h
      cases h
    · rintro ⟨front, header, rest, heq, -⟩
      simp at heq
  inProperty name key h := by cases h
  names name := by
    constructor
    · intro h
      cases h
    · rintro ⟨line, hline, -⟩
      cases hline
  values name key value := by
    constructor
    · intro h
      cases h
    · rintro ⟨k, text, first, added, defined, -⟩
      exact absurd defined.lt_length (Nat.not_lt_zero k)

/-- The section of the line above has been opened. -/
theorem contains_of_inSection (describes : Describes before reading)
    (h : reading.place.section? = some name) : reading.sections.contains name = true := by
  obtain ⟨front, header, rest, rfl, isHeader, -⟩ := (describes.inSection name).mp h
  exact (describes.names name).mpr ⟨header, by simp, isHeader⟩

/-- A line that is no header adds no section. -/
private theorem names_append (hline : ¬ IsHeader line) :
    (∃ header ∈ before ++ [line], IsHeaderOf name header) ↔
      ∃ header ∈ before, IsHeaderOf name header := by
  constructor
  · rintro ⟨header, hmem, isHeader⟩
    rcases List.mem_append.mp hmem with hbefore | hlast
    · exact ⟨header, hbefore, isHeader⟩
    · exact absurd (List.mem_singleton.mp hlast ▸ isHeader.isHeader) hline
  · rintro ⟨header, hmem, isHeader⟩
    exact ⟨header, List.mem_append_left _ hmem, isHeader⟩

/-- The definition that the lines at the end continue goes on with one more such line. -/
private theorem allContinue_append {k : Nat} (defined : IsDefinedAt before k name key text)
    (hall : AllContinue (before.drop (k + 1))) (hline : IsSignificant line → IsIndented line) :
    IsDefinedAt (before ++ [line]) k name key text ∧
      AllContinue ((before ++ [line]).drop (k + 1)) := by
  refine ⟨isDefinedAt_append_iff.mpr (.inl defined), ?_⟩
  rw [List.drop_append_of_le_length defined.lt_length]
  intro other hother
  rcases List.mem_append.mp hother with hmem | hlast
  · exact hall other hmem
  · rwa [List.mem_singleton.mp hlast]

/-- A line that is ignored describes nothing new. -/
theorem ignored (describes : Describes before reading) (hignored : IsIgnored line) :
    Describes (before ++ [line]) reading where
  stands := describes.stands.ignored hignored
  inSection name := by
    rw [endsInSection_append_of_not_isHeader fun header => header.isSignificant hignored]
    exact describes.inSection name
  inProperty name key hplace := by
    obtain ⟨k, text, defined, hall⟩ := describes.inProperty name key hplace
    exact ⟨k, text, allContinue_append defined hall fun significant => absurd hignored significant⟩
  names name := by
    rw [names_append fun header => header.isSignificant hignored]
    exact describes.names name
  values name key value := by
    rw [describes.values, gives_append_of_not_defined]
    · exact fun _ _ definition => definition.significant hignored
    · exact fun _ _ _ _ =>
        continues_append_of_not_indented fun significant => absurd hignored significant

/-- A header opens its section, in the lines as in the reading. -/
theorem header (describes : Describes before reading) (isHeader : IsHeaderOf name line) :
    Describes (before ++ [line]) (reading.openSection name) where
  stands := .header isHeader.isHeader
  inSection other := by
    rw [endsInSection_append_of_isHeaderOf isHeader]
    constructor
    · intro h
      exact (Option.some.inj h).symm
    · rintro rfl
      rfl
  inProperty other key hplace := by cases hplace
  names other := by
    rw [Reading.openSection, contains_alter, describes.names]
    constructor
    · rintro (rfl | ⟨found, hmem, hfound⟩)
      · exact ⟨line, by simp, isHeader⟩
      · exact ⟨found, List.mem_append_left _ hmem, hfound⟩
    · rintro ⟨found, hmem, hfound⟩
      rcases List.mem_append.mp hmem with hbefore | hlast
      · exact .inr ⟨found, hbefore, hfound⟩
      · rw [List.mem_singleton.mp hlast] at hfound
        exact .inl (isHeader.name_eq hfound)
  values other key value := by
    rw [Reading.openSection, value?_open, describes.values, gives_append_of_not_defined]
    · exact fun _ _ definition => isHeader.isHeader.not_isDefinition definition.definition
    · exact fun _ _ _ _ => continues_append_of_not_indented fun _ => isHeader.isHeader.not_isIndented

/-- A definition defines its key, in the lines as in the reading. -/
theorem define (describes : Describes before reading) (hplace : reading.place.section? = some name)
    (definition : IsDefinitionOf key text line) :
    Describes (before ++ [line]) (reading.define name key (valueText text)) := by
  have ends := (describes.inSection name).mp hplace
  have hheader : ¬ IsHeader line := fun header => header.not_isDefinition definition.definition
  constructor
  case stands =>
    refine .property definition.significant ⟨definition.definition, ?_⟩
    exact describes.stands.inSection.mp (by rw [hplace]; rfl)
  case inSection =>
    intro other
    rw [endsInSection_append_of_not_isHeader hheader, ← describes.inSection, hplace]
    rfl
  case inProperty =>
    intro other otherKey hother
    obtain ⟨rfl, rfl⟩ := Place.inProperty.inj hother
    refine ⟨before.length, text, isDefinedAt_append_iff.mpr (.inr ⟨rfl, ends, definition⟩), ?_⟩
    simp [AllContinue]
  case names =>
    intro other
    rw [Reading.define, contains_alter, names_append hheader, ← describes.names]
    constructor
    · rintro (rfl | h)
      · exact describes.contains_of_inSection hplace
      · exact h
    · exact .inr
  case values =>
    intro other otherKey value
    rw [Reading.define]
    simp only [Table.insert]
    rw [value?_alter]
    by_cases hsame : other = name ∧ otherKey = key
    · obtain ⟨rfl, rfl⟩ := hsame
      rw [if_pos ⟨rfl, rfl⟩, gives_append_of_isDefinitionOf ends definition, Option.some.injEq, eq_comm]
    · rw [if_neg hsame, describes.values, gives_append_of_not_defined]
      · intro endsOther other' again
        exact hsame ⟨ends.name_eq endsOther, (definition.eq again).1⟩
      · exact fun _ _ _ _ => continues_append_of_not_indented fun _ => definition.definition.atMargin

/-- A continuation extends the value, in the lines as in the reading. -/
theorem extend (describes : Describes before reading) (hplace : reading.place = .inProperty name key)
    (significant : IsSignificant line) (indented : IsIndented line) :
    Describes (before ++ [line]) (reading.extend name key (valueText line)) := by
  obtain ⟨k, text, defined, hall⟩ := describes.inProperty name key hplace
  have hsection : reading.place.section? = some name := by rw [hplace]; rfl
  have hheader : ¬ IsHeader line := fun header => header.not_isIndented indented
  have hplace' : (reading.extend name key (valueText line)).place = reading.place := hplace.symm
  constructor
  case stands =>
    rw [hplace']
    exact describes.stands.continuation indented
  case inSection =>
    intro other
    rw [hplace', endsInSection_append_of_not_isHeader hheader, describes.inSection]
  case inProperty =>
    intro other otherKey hother
    obtain ⟨rfl, rfl⟩ := Place.inProperty.inj hother
    exact ⟨k, text, allContinue_append defined hall fun _ => indented⟩
  case names =>
    intro other
    rw [Reading.extend, contains_alter, names_append hheader, ← describes.names]
    constructor
    · rintro (rfl | h)
      · exact describes.contains_of_inSection hsection
      · exact h
    · exact .inr
  case values =>
    intro other otherKey value
    rw [Reading.extend, value?_alter]
    by_cases hsame : other = name ∧ otherKey = key
    · obtain ⟨rfl, rfl⟩ := hsame
      obtain ⟨old, hold⟩ := defined.exists_gives
      have hvalue := (describes.values _ _ _).mpr hold
      rw [if_pos ⟨rfl, rfl⟩, gives_append_of_isIndented defined hall significant indented, hvalue]
      simp only [Option.getD_some, Option.some.injEq, ← describes.values, hvalue]
      constructor
      · rintro rfl
        exact ⟨old, rfl, rfl⟩
      · rintro ⟨_, rfl, rfl⟩
        rfl
    · rw [if_neg hsame, describes.values, gives_append_of_not_defined]
      · exact fun _ _ definition => definition.definition.atMargin indented
      · exact fun _ _ _ definedAt => continues_append_of_later defined hall definedAt hsame

/-- One more line that is read is described. -/
theorem step (describes : Describes before reading)
    (hstep : reading.step (Line.read line) = .ok next) : Describes (before ++ [line]) next := by
  rcases step_ok_cases describes.stands hstep with hignored | ⟨name, isHeader⟩ |
      ⟨name, key, text, hplace, definition⟩ | ⟨name, key, hplace, significant, indented⟩
  · rw [read_of_isIgnored hignored] at hstep
    rw [← Except.ok.inj hstep]
    exact describes.ignored hignored
  · rw [step_of_isHeaderOf isHeader] at hstep
    rw [← Except.ok.inj hstep]
    exact describes.header isHeader
  · rw [step_of_isDefinitionOf definition hplace] at hstep
    rw [← Except.ok.inj hstep]
    exact describes.define hplace definition
  · rw [step_of_isIndented significant indented hplace] at hstep
    rw [← Except.ok.inj hstep]
    exact describes.extend hplace significant indented

/-- All lines that are read are described. -/
theorem run {number : Nat} {last : Reading} (describes : Describes before reading)
    (hrun : reading.run number more = .ok last) : Describes (before ++ more) last := by
  induction more generalizing before reading number with
  | nil =>
    rw [List.append_nil, ← Except.ok.inj hrun]
    exact describes
  | cons line rest ih =>
    rw [Reading.run] at hrun
    split at hrun
    · cases hrun
    · next next hstep =>
      have hcons : before ++ line :: rest = (before ++ [line]) ++ rest := by simp
      rw [hcons]
      exact ih (describes.step hstep) hrun

end Describes

/-- A file that is read has just the sections that its headers name, and a property just where a line
below the header of its section defines it. The value is what the last of these lines gives it. -/
theorem parse_lastDefinition (file : File) (sections : Sections) (h : file.parse = .ok sections)
    (name : String) :
    (Table.contains sections name = true ↔
        ∃ line ∈ lines file.contents.toList, IsHeaderOf name line) ∧
      ∀ key, ((sections.value? name key).isSome = true ↔
          ∃ k text, IsDefinedAt (lines file.contents.toList) k name key text) ∧
        ∀ value, sections.value? name key = some value ↔
          Gives (lines file.contents.toList) name key value := by
  have describes : ∃ place, Describes (lines file.contents.toList) ⟨sections, place⟩ := by
    unfold File.parse Sections.parse at h
    cases hrun : Reading.run {} 1 (lines file.contents.toList) with
    | error fault =>
      rw [hrun] at h
      cases h
    | ok last =>
      rw [hrun] at h
      rw [← Except.ok.inj h]
      exact ⟨last.place, Describes.start.run hrun⟩
  obtain ⟨place, describes⟩ := describes
  refine ⟨describes.names name, fun key => ⟨?_, describes.values name key⟩⟩
  constructor
  · intro hsome
    obtain ⟨value, hvalue⟩ := Option.isSome_iff_exists.mp hsome
    obtain ⟨k, text, first, added, defined, -⟩ := (describes.values name key value).mp hvalue
    exact ⟨k, text, defined⟩
  · rintro ⟨k, text, defined⟩
    obtain ⟨value, gives⟩ := defined.exists_gives
    exact Option.isSome_iff_exists.mpr ⟨value, (describes.values name key value).mpr gives⟩

/-- A file in which a section is opened again and one of its properties defined again. -/
def reopened : File where
  kind := .credentials
  path := none
  contents := "[a]\nk = 1\n more\n[b]\nk=2\n[ a ] ; again\n#k=3\nk = # none\n\n  4 ;5\n ; 6\n\t7\n[b]\n"

/-- A section that is opened again goes on, and its last definition counts with its continuation. -/
theorem reopened_lastDefinition :
    reopened.parse = .ok ⟨[("a", ⟨[("k", "4\n7")]⟩), ("b", ⟨[("k", "2")]⟩)]⟩ ∧
      (∃ line ∈ lines reopened.contents.toList, IsHeaderOf "a" line) ∧
      Gives (lines reopened.contents.toList) "a" "k" "4\n7" ∧
      ¬ Gives (lines reopened.contents.toList) "a" "k" "1\nmore" := by
  have h : reopened.parse = .ok ⟨[("a", ⟨[("k", "4\n7")]⟩), ("b", ⟨[("k", "2")]⟩)]⟩ := by rfl
  obtain ⟨hnames, hvalues⟩ := parse_lastDefinition _ _ h "a"
  obtain ⟨-, hgives⟩ := hvalues "k"
  refine ⟨h, hnames.mp rfl, (hgives _).mp rfl, fun gives => ?_⟩
  have hvalue := (hgives _).mpr gives
  revert hvalue
  decide

end CloudSession.Profile
