import CloudSession.Proofs.Profile.Grammar
import CloudSession.Proofs.Table
import Mathlib.Data.List.Chain

/-!
# What profile files can hold

The names, keys and values that some line of a profile file can give. Whatever is read from a file is
of this kind: a name of a section is trimmed and has no closing bracket, a key has no equals sign,
and in a value no comment mark directly follows white space.
-/

namespace CloudSession.Profile

open Text

/-- A name that a header can give to a section. -/
structure IsSectionName (name : String) : Prop where
  trimmed : IsTrimmed name.toList
  unclosed : ']' ∉ name.toList
  oneLine : '\n' ∉ name.toList

/-- A key that a line can give to a property. -/
structure IsKey (key : String) : Prop where
  nonempty : key ≠ ""
  trimmed : IsTrimmed key.toList
  unequal : '=' ∉ key.toList
  oneLine : '\n' ∉ key.toList
  unmarked : ∀ c rest, key.toList = c :: rest → c ≠ '[' ∧ c ≠ '#' ∧ c ≠ ';'

/-- A line of a value: not empty, trimmed, and no comment mark directly follows white space. -/
structure IsValueLine (line : List Char) : Prop where
  nonempty : line ≠ []
  trimmed : IsTrimmed line
  uncommented : line.IsChain fun b c => isBlank b = true → c ≠ '#' ∧ c ≠ ';'

/-- A text does not start with a comment mark. -/
def IsUnmarked (text : List Char) : Prop :=
  ∀ c rest, text = c :: rest → c ≠ '#' ∧ c ≠ ';'

/-- A value that lines can give to a property: empty, or lines of which only the first may start with
a comment mark. -/
def IsValue (value : String) : Prop :=
  value = "" ∨ ∃ first rest, value.toList = ['\n'].intercalate (first :: rest) ∧
    (∀ line ∈ first :: rest, IsValueLine line ∧ '\n' ∉ line) ∧ ∀ line ∈ rest, IsUnmarked line

/-- Properties that a section of a profile file can have. -/
structure AreProperties (properties : Table String) : Prop where
  distinct : properties.names.Nodup
  each : ∀ key value, (key, value) ∈ properties.entries → IsKey key ∧ IsValue value

/-- Sections that a profile file can have. -/
structure Sections.IsWritable (sections : Sections) : Prop where
  distinct : sections.names.Nodup
  each : ∀ name properties, (name, properties) ∈ sections.entries →
    IsSectionName name ∧ AreProperties properties

/-- The value of a property in some sections. -/
def Sections.value? (sections : Sections) (name key : String) : Option String :=
  (Table.get? sections name).bind fun properties => properties.get? key

variable {text line indent rest : List Char} {c : Char} {name key value : String}

/-! ## Comments in values -/

/-- A text without its comment is a beginning of it. -/
theorem prefix_dropComment (afterBlank : Bool) (text : List Char) :
    dropComment afterBlank text <+: text := by
  induction text generalizing afterBlank with
  | nil => exact List.prefix_refl _
  | cons c rest ih =>
    rw [dropComment]
    split
    · exact List.nil_prefix
    · exact (List.prefix_cons_inj c).mpr (ih _)

/-- No comment mark directly follows white space once the comment is gone. -/
theorem isChain_dropComment (afterBlank : Bool) (text : List Char) :
    (dropComment afterBlank text).IsChain (fun b c => isBlank b = true → c ≠ '#' ∧ c ≠ ';') ∧
      (afterBlank = true → IsUnmarked (dropComment afterBlank text)) := by
  induction text generalizing afterBlank with
  | nil => exact ⟨.nil, fun _ c rest h => by cases h⟩
  | cons c rest ih =>
    rw [dropComment]
    split
    · exact ⟨.nil, fun _ c rest h => by cases h⟩
    · next hmark =>
      obtain ⟨hchain, hfirst⟩ := ih (isBlank c)
      constructor
      · cases hnext : dropComment (isBlank c) rest with
        | nil => exact .singleton c
        | cons d more =>
          rw [hnext] at hchain hfirst
          exact List.isChain_cons_cons.mpr ⟨fun hblank => hfirst hblank d more rfl, hchain⟩
      · rintro rfl d more heq
        obtain ⟨rfl, -⟩ := List.cons.inj heq
        simpa [isCommentMark] using hmark

/-- A text without a comment is left as it is. -/
theorem dropComment_eq_self {afterBlank : Bool}
    (hchain : text.IsChain fun b c => isBlank b = true → c ≠ '#' ∧ c ≠ ';')
    (hfirst : afterBlank = true → IsUnmarked text) : dropComment afterBlank text = text := by
  induction text generalizing afterBlank with
  | nil => rfl
  | cons c rest ih =>
    have hmark : (isCommentMark c && afterBlank) = false := by
      cases afterBlank with
      | false => simp
      | true =>
        obtain ⟨hhash, hsemicolon⟩ := hfirst rfl c rest rfl
        simp [isCommentMark, hhash, hsemicolon]
    rw [dropComment, hmark]
    have hrest : dropComment (isBlank c) rest = rest := by
      refine ih hchain.tail fun hblank d more heq => ?_
      rw [heq] at hchain
      exact (List.isChain_cons_cons.mp hchain).1 hblank
    rw [hrest]
    rfl

/-- White space and the first other character stay, unless that is a comment mark. -/
theorem dropComment_indent (hindent : ∀ b ∈ indent, isBlank b = true) (hc : isBlank c = false)
    (hmark : isCommentMark c = false) (afterBlank : Bool) (rest : List Char) :
    dropComment afterBlank (indent ++ c :: rest) = indent ++ c :: dropComment false rest := by
  induction indent generalizing afterBlank with
  | nil => simp [dropComment, hmark, hc]
  | cons b front ih =>
    have hb := hindent b List.mem_cons_self
    have hfront := ih fun d hd => hindent d (List.mem_cons_of_mem _ hd)
    have hnot : isCommentMark b = false := by
      cases h : isCommentMark b with
      | false => rfl
      | true =>
        rcases isCommentMark_iff.mp h with rfl | rfl <;> cases hb
    simp [dropComment, hnot, hfront]

/-- A text without the blanks around it is a part of it. -/
theorem infix_trim (text : List Char) : trim text <:+: text :=
  have hend : trim text <+: trimStart text := List.rdropWhile_prefix isBlank (trimStart text)
  hend.isInfix.trans (List.dropWhile_suffix isBlank).isInfix

/-- The characters of a value are those of its text. -/
theorem mem_of_mem_valueText (h : c ∈ (valueText text).toList) : c ∈ text := by
  rw [valueText, String.toList_ofList] at h
  exact (prefix_dropComment false text).subset ((infix_trim _).subset h)

/-- What is left without the blanks at the end is characters of the text. -/
theorem mem_of_mem_trimEnd (h : c ∈ trimEnd text) : c ∈ text :=
  have hprefix : trimEnd text <+: text := List.rdropWhile_prefix isBlank text
  hprefix.subset h

/-- What counts of a value is a line of a value, unless it is empty. -/
theorem isValueLine_valueText (h : valueText text ≠ "") : IsValueLine (valueText text).toList where
  nonempty := mt String.toList_eq_nil_iff.mp h
  trimmed := by
    rw [valueText, String.toList_ofList]
    exact isTrimmed_trim _
  uncommented := by
    rw [valueText, String.toList_ofList]
    exact List.IsChain.infix (isChain_dropComment false text).1 (infix_trim _)

/-! ## What is read -/

/-- The name in a header can be the name of a section. -/
theorem isSectionName_of_readHeader (h : readHeader text = .ok name) (hfeed : '\n' ∉ text) :
    IsSectionName name := by
  unfold readHeader at h
  split at h
  · cases h
  · next front after hsplit =>
    split at h
    · obtain ⟨rfl, hfree⟩ := splitFirst_eq_some_iff.mp hsplit
      rw [← Except.ok.inj h]
      have hmem {c : Char} (hc : c ∈ (String.ofList (trim front)).toList) : c ∈ front := by
        rw [String.toList_ofList] at hc
        exact (infix_trim front).subset hc
      refine ⟨?_, fun hc => hfree (hmem hc), fun hc => hfeed (by simp [hmem hc])⟩
      rw [String.toList_ofList]
      exact isTrimmed_trim front
    · cases h

/-- A value on one line. -/
theorem isValue_valueText (hfeed : '\n' ∉ text) : IsValue (valueText text) := by
  by_cases h : valueText text = ""
  · exact .inl h
  · refine .inr ⟨(valueText text).toList, [], by simp, ?_, by simp⟩
    intro line hline
    rw [List.mem_singleton.mp hline]
    exact ⟨isValueLine_valueText h, fun hc => hfeed (mem_of_mem_valueText hc)⟩

/-- The key and the value that a line gives can be those of a property. -/
theorem isKey_of_readProperty (h : readProperty (c :: rest) = .ok (key, value))
    (hc : isBlank c = false) (hmark : c ≠ '[' ∧ c ≠ '#' ∧ c ≠ ';') (hfeed : '\n' ∉ c :: rest) :
    IsKey key ∧ IsValue value := by
  unfold readProperty at h
  split at h
  · cases h
  · next front after hsplit =>
    split at h
    · cases h
    · next hblank =>
      obtain ⟨hline, hfree⟩ := splitFirst_eq_some_iff.mp hsplit
      obtain ⟨rfl, rfl⟩ := Prod.mk.inj (Except.ok.inj h)
      rw [hline] at hfeed
      cases front with
      | nil => simp [isAllBlank] at hblank
      | cons d more =>
        obtain rfl : c = d := (List.cons.inj hline).1
        -- the key starts at the margin
        have htrim : trim (c :: more) = c :: trimEnd more := by
          rw [trim, trimStart_cons_of_not_blank hc, trimEnd_cons_of_not_blank hc]
        have hmem {d : Char} (hd : d ∈ trim (c :: more)) : d ∈ c :: more := (infix_trim _).subset hd
        refine ⟨?_, isValue_valueText fun hmem => hfeed (by simp [hmem])⟩
        constructor
        · simp [htrim]
        · rw [String.toList_ofList]
          exact isTrimmed_trim _
        · rw [String.toList_ofList]
          exact fun hd => hfree (hmem hd)
        · rw [String.toList_ofList]
          exact fun hd => hfeed (List.mem_append_left _ (hmem hd))
        · rw [String.toList_ofList, htrim]
          intro d others heq
          rw [← (List.cons.inj heq).1]
          exact hmark

/-- What an indented line adds to a value is a line of a value and starts with no comment mark. -/
theorem isValueLine_of_indented (significant : IsSignificant (c :: rest)) :
    IsValueLine (valueText (trimEnd (c :: rest))).toList ∧
      IsUnmarked (valueText (trimEnd (c :: rest))).toList := by
  have hline : IsSignificant (trimEnd (c :: rest)) := mt isIgnored_trimEnd.mp significant
  obtain ⟨indent, htext, hindent⟩ := exists_append_trimStart (trimEnd (c :: rest))
  obtain ⟨d, after, hstart, hmark⟩ := isSignificant_iff.mp hline
  have hd := isBlank_of_trimStart_eq hstart
  have hnot : isCommentMark d = false := by simpa [isCommentMark] using hmark
  have hvalue : (valueText (trimEnd (c :: rest))).toList = d :: trimEnd (dropComment false after) := by
    rw [valueText, String.toList_ofList, htext, hstart, dropComment_indent hindent hd hnot, trim,
      trimStart_append_of_blank hindent, trimStart_cons_of_not_blank hd,
      trimEnd_cons_of_not_blank hd]
  constructor
  · refine isValueLine_valueText fun hempty => ?_
    rw [hempty] at hvalue
    simp at hvalue
  · rw [hvalue]
    intro e more heq
    rw [← (List.cons.inj heq).1]
    exact hmark

/-- A value stays a value with one more line. -/
theorem IsValue.joinLines (isValue : IsValue value) {added : String}
    (hline : IsValueLine added.toList) (hfeed : '\n' ∉ added.toList)
    (hmark : IsUnmarked added.toList) : IsValue (Reading.joinLines value added) := by
  unfold Reading.joinLines
  split
  · refine .inr ⟨added.toList, [], by simp, ?_, by simp⟩
    intro line hmem
    rw [List.mem_singleton.mp hmem]
    exact ⟨hline, hfeed⟩
  · next hne =>
    obtain ⟨first, rest, hvalue, hlines, hrest⟩ := isValue.resolve_left hne
    refine .inr ⟨first, rest ++ [added.toList], ?_, ?_, ?_⟩
    · simp [hvalue, intercalate_concat]
    · intro line hmem
      rcases List.mem_append.mp (List.cons_append ▸ hmem) with hold | hnew
      · exact hlines line hold
      · rw [List.mem_singleton.mp hnew]
        exact ⟨hline, hfeed⟩
    · intro line hmem
      rcases List.mem_append.mp hmem with hold | hnew
      · exact hrest line hold
      · rw [List.mem_singleton.mp hnew]
        exact hmark

/-! ## What a whole file gives -/

/-- No properties are properties that can be written. -/
theorem areProperties_empty : AreProperties ∅ where
  distinct := List.nodup_nil
  each := by simp [EmptyCollection.emptyCollection, Table.empty]

/-- Properties stay what they are if a value of one of them is written. -/
theorem AreProperties.alter {properties : Table String} (areProperties : AreProperties properties)
    {f : Option String → String} (isKey : IsKey key) (hnew : IsValue (f none))
    (hold : ∀ old, IsValue old → IsValue (f (some old))) :
    AreProperties (properties.alter key f) where
  distinct := Table.nodup_names_alter areProperties.distinct
  each := Table.forall_alter areProperties.each ⟨isKey, hnew⟩
    fun old hvalue => ⟨isKey, hold old hvalue.2⟩

/-- Sections stay writable if the properties of one of them are changed. -/
theorem Sections.IsWritable.alter {sections : Sections} (writable : sections.IsWritable)
    (isName : IsSectionName name) {f : Table String → Table String}
    (h : ∀ properties, AreProperties properties → AreProperties (f properties)) :
    Sections.IsWritable (Table.alter sections name fun properties => f (properties.getD ∅)) where
  distinct := Table.nodup_names_alter writable.distinct
  each := Table.forall_alter writable.each ⟨isName, h ∅ areProperties_empty⟩
    fun old hold => ⟨isName, h old hold.2⟩

/-- What has been read so far is writable, and so is what the next line may add. -/
structure Reading.IsWritable (reading : Reading) : Prop where
  sections : reading.sections.IsWritable
  name : ∀ name, reading.place.section? = some name → IsSectionName name
  key : ∀ name key, reading.place = .inProperty name key → IsKey key

namespace Reading.IsWritable

variable {reading : Reading}

/-- A section with a proper name can be opened. -/
theorem openSection (writable : reading.IsWritable) (isName : IsSectionName name) :
    (reading.openSection name).IsWritable where
  sections := writable.sections.alter isName fun _ h => h
  name other hother := by
    rw [← Option.some.inj hother]
    exact isName
  key other key hplace := by cases hplace

/-- A property with a proper key and value can be defined. -/
theorem define (writable : reading.IsWritable) (isName : IsSectionName name) (isKey : IsKey key)
    (isValue : IsValue value) : (reading.define name key value).IsWritable where
  sections := writable.sections.alter isName fun _ h => h.alter isKey isValue fun _ _ => isValue
  name other hother := by
    rw [← Option.some.inj hother]
    exact isName
  key other key hplace := by
    obtain ⟨-, rfl⟩ := Place.inProperty.inj hplace
    exact isKey

/-- A value can be extended by a proper line. -/
theorem extend (writable : reading.IsWritable) (isName : IsSectionName name) (isKey : IsKey key)
    {added : String} (hline : IsValueLine added.toList) (hfeed : '\n' ∉ added.toList)
    (hmark : IsUnmarked added.toList) : (reading.extend name key added).IsWritable where
  sections := writable.sections.alter isName fun _ h =>
    h.alter isKey (IsValue.joinLines (.inl rfl) hline hfeed hmark)
      fun _ hold => hold.joinLines hline hfeed hmark
  name other hother := by
    rw [← Option.some.inj hother]
    exact isName
  key other key hplace := by
    obtain ⟨-, rfl⟩ := Place.inProperty.inj hplace
    exact isKey

variable {next : Reading}

/-- A header opens a section that could be written. -/
theorem step_header (writable : reading.IsWritable) (hfeed : '\n' ∉ text)
    (hstep : reading.step (.header (readHeader text)) = .ok next) : next.IsWritable := by
  cases hname : readHeader text with
  | error fault => simp [Reading.step, hname, Except.map] at hstep
  | ok name =>
    rw [hname] at hstep
    rw [← Except.ok.inj hstep]
    exact writable.openSection (isSectionName_of_readHeader hname hfeed)

/-- An indented line extends a value to one that could be written. -/
theorem step_indented (writable : reading.IsWritable) (significant : IsSignificant (c :: rest))
    (hfeed : '\n' ∉ trimEnd (c :: rest))
    (hstep : reading.step (.continuation (valueText (trimEnd (c :: rest)))) = .ok next) :
    next.IsWritable := by
  cases hplace : reading.place with
  | inProperty name key =>
    simp only [Reading.step, hplace] at hstep
    rw [← Except.ok.inj hstep]
    obtain ⟨hline, hmark⟩ := isValueLine_of_indented significant
    exact writable.extend (writable.name name (by simp [hplace, Place.section?]))
      (writable.key name key hplace) hline (fun hmem => hfeed (mem_of_mem_valueText hmem)) hmark
  | _ => simp [Reading.step, hplace] at hstep

/-- A line at the margin defines a property that could be written. -/
theorem step_atMargin (writable : reading.IsWritable) (significant : IsSignificant (c :: rest))
    (hopen : c ≠ '[') (hblank : isBlank c = false) (hfeed : '\n' ∉ trimEnd (c :: rest))
    (hstep : reading.step (.property (readProperty (trimEnd (c :: rest)))) = .ok next) :
    next.IsWritable := by
  have hmark : c ≠ '#' ∧ c ≠ ';' := by
    obtain ⟨d, after, hstart, hd⟩ := isSignificant_iff.mp significant
    rw [trimStart_cons_of_not_blank hblank] at hstart
    rw [(List.cons.inj hstart).1]
    exact hd
  cases hsection : reading.place.section? with
  | none => simp [Reading.step, hsection] at hstep
  | some name =>
    cases hdefinition : readProperty (trimEnd (c :: rest)) with
    | error fault => simp [Reading.step, hsection, hdefinition, Except.map] at hstep
    | ok definition =>
      obtain ⟨key, value⟩ := definition
      simp only [Reading.step, hsection, hdefinition] at hstep
      rw [← Except.ok.inj hstep]
      rw [trimEnd_cons_of_not_blank hblank] at hdefinition hfeed
      obtain ⟨isKey, isValue⟩ :=
        isKey_of_readProperty hdefinition hblank ⟨hopen, hmark.1, hmark.2⟩ hfeed
      exact writable.define (writable.name name hsection) isKey isValue

/-- A line adds nothing that could not be written. -/
theorem step (writable : reading.IsWritable) (hfeed : '\n' ∉ line)
    (hstep : reading.step (Line.read line) = .ok next) : next.IsWritable := by
  by_cases hignored : IsIgnored line
  · rw [read_of_isIgnored hignored] at hstep
    rw [← Except.ok.inj hstep]
    exact writable
  · obtain ⟨c, rest, rfl⟩ : ∃ c rest, line = c :: rest := by
      refine List.exists_cons_of_ne_nil fun hnil => hignored (.inl ?_)
      simp [hnil]
    have hrest : '\n' ∉ trimEnd rest := fun hmem => hfeed (.tail c (mem_of_mem_trimEnd hmem))
    have hwhole : '\n' ∉ trimEnd (c :: rest) := fun hmem => hfeed (mem_of_mem_trimEnd hmem)
    rw [read_of_isSignificant hignored] at hstep
    split at hstep
    · exact writable.step_header hrest hstep
    · next hopen =>
      split at hstep
      · exact writable.step_indented hignored hwhole hstep
      · next hblank =>
        exact writable.step_atMargin hignored hopen (by simpa using hblank) hwhole hstep

/-- Lines add nothing that could not be written. -/
theorem run {lines : List (List Char)} {number : Nat} {last : Reading}
    (writable : reading.IsWritable) (hfeed : ∀ line ∈ lines, '\n' ∉ line)
    (hrun : reading.run number lines = .ok last) : last.IsWritable := by
  induction lines generalizing reading number with
  | nil =>
    rw [← Except.ok.inj hrun]
    exact writable
  | cons line rest ih =>
    rw [Reading.run] at hrun
    split at hrun
    · cases hrun
    · next next hstep =>
      exact ih (writable.step (hfeed line List.mem_cons_self) hstep)
        (fun other hother => hfeed other (List.mem_cons_of_mem _ hother)) hrun

end Reading.IsWritable

/-- Whatever is read from a file could have been written. -/
theorem isWritable_of_parse {text : String} {sections : Sections}
    (h : Sections.parse text = .ok sections) : sections.IsWritable := by
  obtain ⟨last, hrun, rfl⟩ : ∃ last, Reading.run {} 1 (lines text.toList) = .ok last ∧
      last.sections = sections := by
    unfold Sections.parse at h
    cases hrun : Reading.run {} 1 (lines text.toList) with
    | error fault => simp [hrun, Except.map] at h
    | ok last => exact ⟨last, rfl, by simpa [hrun, Except.map] using h⟩
  have hstart : Reading.IsWritable {} := by
    refine ⟨⟨List.nodup_nil, ?_⟩, by simp [Place.section?], by simp⟩
    simp [EmptyCollection.emptyCollection, Table.empty]
  exact (hstart.run (fun line hline => not_mem_of_mem_pieces hline) hrun).sections

end CloudSession.Profile
