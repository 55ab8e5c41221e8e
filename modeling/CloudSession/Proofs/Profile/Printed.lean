import CloudSession.Proofs.Profile.Written

/-!
# Printed profile files

Sections are printed with a line for every header and for every property, and an indented line for
each further line of a value. Blank lines and comments may be put in anywhere. What is printed is read
back, so the sections that files can have are just those that are writable.
-/

namespace CloudSession.Profile

open Text

/-- The lines of a property: the first has the key and the first line of the value, and each of the
others a further line of the value. -/
def propertyLines (key value : String) : List (List Char) :=
  (key.toList ++ '=' :: (lines value.toList).headD []) ::
    (lines value.toList).tail.map (' ' :: ·)

/-- The lines of a section: its header, and those of its properties. -/
def sectionLines (name : String) (properties : Table String) : List (List Char) :=
  ('[' :: (name.toList ++ [']'])) ::
    properties.entries.flatMap fun (key, value) => propertyLines key value

/-- The lines of sections. -/
def Sections.toLines (sections : Sections) : List (List Char) :=
  sections.entries.flatMap fun (name, properties) => sectionLines name properties

/-- Lines with blank lines and comments put in anywhere. -/
inductive Pads : List (List Char) → List (List Char) → Prop
  | nil : Pads [] []
  | keep (line : List Char) {lines padded : List (List Char)} :
      Pads lines padded → Pads (line :: lines) (line :: padded)
  | fill {line : List Char} {lines padded : List (List Char)} :
      IsIgnored line → '\n' ∉ line → Pads lines padded → Pads lines (line :: padded)

variable {line first : List Char} {rest padded : List (List Char)} {name key value : String}

/-! ## Single lines -/

/-- A line that starts with a character that is neither white space nor a comment mark counts. -/
theorem isSignificant_of_not_blank {c : Char} {text : List Char} (hc : isBlank c = false)
    (hmark : c ≠ '#' ∧ c ≠ ';') : IsSignificant (c :: text) :=
  isSignificant_iff.mpr ⟨c, text, trimStart_cons_of_not_blank hc text, hmark⟩

/-- A text that ends with a character that is not blank is not shortened. -/
theorem trimEnd_concat_of_not_blank {c : Char} (hc : isBlank c = false) (text : List Char) :
    trimEnd (text ++ [c]) = text ++ [c] :=
  List.rdropWhile_concat_neg isBlank text c (by simp [hc])

/-- A text of which the end is trimmed is not trimmed at the end. -/
theorem trimEnd_append_of_isTrimmed {text : List Char} (trimmed : IsTrimmed text) (hne : text ≠ [])
    (front : List Char) : trimEnd (front ++ text) = front ++ text := by
  obtain ⟨init, c, rfl⟩ := (List.eq_nil_or_concat' text).resolve_left hne
  rw [← List.append_assoc]
  exact trimEnd_concat_of_not_blank (trimmed.last init c rfl) (front ++ init)

/-- The line of a header is read as that. -/
theorem read_headerLine (isName : IsSectionName name) :
    Line.read ('[' :: (name.toList ++ [']'])) = .header (.ok name) := by
  have hsplit : splitFirst ']' (name.toList ++ [']']) = some (name.toList, []) :=
    splitFirst_eq_some_iff.mpr ⟨rfl, isName.unclosed⟩
  rw [read_of_isSignificant (isSignificant_of_not_blank rfl (by decide)), if_pos rfl,
    trimEnd_concat_of_not_blank rfl, readHeader, hsplit]
  simp [isAllBlank, isName.trimmed.trim_eq]

/-- A line of a value, or nothing, is read as the value. -/
theorem valueText_of_isValueLine (h : first = [] ∨ IsValueLine first) :
    valueText first = String.ofList first := by
  rcases h with rfl | hline
  · rfl
  · rw [valueText, dropComment_eq_self hline.uncommented (by simp), hline.trimmed.trim_eq]

/-- The first line of a property is read as that. -/
theorem read_definitionLine (isKey : IsKey key) (h : first = [] ∨ IsValueLine first) :
    Line.read (key.toList ++ '=' :: first) = .property (.ok (key, String.ofList first)) := by
  obtain ⟨c, more, hkey⟩ :=
    List.exists_cons_of_ne_nil (mt String.toList_eq_nil_iff.mp isKey.nonempty)
  have hc := isKey.trimmed.first c more hkey
  obtain ⟨hopen, hmark⟩ := isKey.unmarked c more hkey
  have htrim : trimEnd (key.toList ++ '=' :: first) = key.toList ++ '=' :: first := by
    rcases h with rfl | hline
    · exact trimEnd_concat_of_not_blank rfl key.toList
    · have happend := trimEnd_append_of_isTrimmed hline.trimmed hline.nonempty (key.toList ++ ['='])
      simpa using happend
  have hsplit : splitFirst '=' (key.toList ++ '=' :: first) = some (key.toList, first) :=
    splitFirst_eq_some_iff.mpr ⟨rfl, isKey.unequal⟩
  have hblank : isAllBlank key.toList = false := by simp [isAllBlank, hkey, hc]
  have hread : readProperty (key.toList ++ '=' :: first) = .ok (key, String.ofList first) := by
    rw [readProperty, hsplit]
    simp [hblank, isKey.trimmed.trim_eq, valueText_of_isValueLine h]
  have hcons : key.toList ++ '=' :: first = c :: (more ++ '=' :: first) := by simp [hkey]
  rw [hcons] at htrim hread ⊢
  rw [read_of_isSignificant (isSignificant_of_not_blank hc hmark), if_neg hopen,
    if_neg (by simp [hc]), htrim, hread]

/-- A further line of a value is read as that. -/
theorem read_continuationLine (hline : IsValueLine line) (hmark : IsUnmarked line) :
    Line.read (' ' :: line) = .continuation (String.ofList line) := by
  obtain ⟨c, more, rfl⟩ := List.exists_cons_of_ne_nil hline.nonempty
  have hc := hline.trimmed.first c more rfl
  have hindent : ∀ b ∈ [' '], isBlank b = true := List.forall_mem_singleton.mpr rfl
  have hstart : trimStart (' ' :: c :: more) = c :: more :=
    (trimStart_append_of_blank hindent _).trans (trimStart_cons_of_not_blank hc more)
  have hsignificant : IsSignificant (' ' :: c :: more) :=
    isSignificant_iff.mpr ⟨c, more, hstart, hmark c more rfl⟩
  have htrim : trimEnd (' ' :: c :: more) = ' ' :: c :: more :=
    trimEnd_append_of_isTrimmed hline.trimmed hline.nonempty [' ']
  have hdrop : dropComment false (' ' :: c :: more) = ' ' :: c :: more := by
    have hrest : dropComment (isBlank ' ') (c :: more) = c :: more :=
      dropComment_eq_self hline.uncommented fun _ => hmark
    rw [dropComment, hrest]
    rfl
  rw [read_of_isSignificant hsignificant, if_neg (by decide), if_pos (by decide), htrim, valueText,
    hdrop, trim, hstart, hline.trimmed.trimEnd_eq]

/-! ## Whole files -/

/-- Lines are read to the end. -/
inductive Reading.Reads : Reading → List (List Char) → Reading → Prop
  | nil (reading : Reading) : Reads reading [] reading
  | cons {reading next last : Reading} {line : List Char} {rest : List (List Char)} :
      reading.step (Line.read line) = .ok next → Reads next rest last →
        Reads reading (line :: rest) last

namespace Reading.Reads

variable {reading middle last : Reading} {more : List (List Char)}

/-- What is read line by line is what a run from there comes to, whatever the number of the first
line. -/
theorem run_eq (reads : reading.Reads rest last) (number : Nat) :
    reading.run number rest = .ok last := by
  induction reads generalizing number with
  | nil => rfl
  | cons hstep _ ih =>
    rw [Reading.run, hstep]
    exact ih (number + 1)

/-- Lines are read one block after the other. -/
theorem append (hfirst : reading.Reads rest middle) (hmore : middle.Reads more last) :
    reading.Reads (rest ++ more) last := by
  induction hfirst with
  | nil => exact hmore
  | cons hstep _ ih => exact .cons hstep (ih hmore)

/-- Blank lines and comments make no difference. -/
theorem of_pads (pads : Pads rest padded) (reads : reading.Reads rest last) :
    reading.Reads padded last := by
  induction pads generalizing reading with
  | nil => exact reads
  | keep line _ ih =>
    cases reads with
    | cons hstep hrest => exact .cons hstep (ih hrest)
  | fill hignored _ _ ih =>
    refine .cons ?_ (ih reads)
    rw [read_of_isIgnored hignored]
    rfl

end Reading.Reads

/-- The lines of a value put together again. -/
theorem foldl_joinLines {rest : List (List Char)} (h : first ≠ [] ∨ rest = []) :
    rest.foldl (fun value line => Reading.joinLines value (String.ofList line))
      (String.ofList first) = String.ofList (['\n'].intercalate (first :: rest)) := by
  induction rest generalizing first with
  | nil => simp
  | cons next more ih =>
    have hfirst : first ≠ [] := h.resolve_right (by simp)
    have hjoin : Reading.joinLines (String.ofList first) (String.ofList next) =
        String.ofList (first ++ '\n' :: next) := by
      rw [Reading.joinLines, if_neg (by simpa using hfirst), ← String.toList_inj]
      simp
    rw [List.foldl_cons, hjoin, ih (.inl (by simp)), List.intercalate_cons_cons]
    cases more with
    | nil => simp
    | cons other others => simp [List.intercalate_cons_cons]

section Reads

variable {sections : List (String × Table String)} {properties : List (String × String)}
  {place : Place}

/-- What has been read when `properties` are the properties of the last section so far. -/
def Reading.below (sections : List (String × Table String)) (name : String)
    (properties : List (String × String)) (place : Place) : Reading where
  sections := ⟨sections ++ [(name, ⟨properties⟩)]⟩
  place := place

/-- The header of a new section is read. -/
theorem step_header (hnew : name ∉ sections.map Prod.fst) :
    Reading.step ⟨⟨sections⟩, place⟩ (.header (.ok name)) =
      .ok (Reading.below sections name [] (.inSection name)) := by
  rw [Reading.step, Except.map, Reading.openSection, Table.alter_of_not_mem hnew]
  rfl

/-- A new property of the last section is read. -/
theorem step_definition (hname : name ∉ sections.map Prod.fst)
    (hkey : key ∉ properties.map Prod.fst) (hplace : place.section? = some name) :
    Reading.step (.below sections name properties place) (.property (.ok (key, value))) =
      .ok (.below sections name (properties ++ [(key, value)]) (.inProperty name key)) := by
  rw [Reading.step, Reading.below, hplace]
  simp only [Except.map, Reading.define]
  rw [Table.alter_concat hname, Option.getD_some, Table.insert, Table.alter_of_not_mem hkey]
  rfl

/-- A further line of the last property is read. -/
theorem step_continuation (hname : name ∉ sections.map Prod.fst)
    (hkey : key ∉ properties.map Prod.fst) (added : String) :
    Reading.step (.below sections name (properties ++ [(key, value)]) (.inProperty name key))
        (.continuation added) =
      .ok (.below sections name (properties ++ [(key, Reading.joinLines value added)])
        (.inProperty name key)) := by
  simp only [Reading.step, Reading.below, Reading.extend]
  rw [Table.alter_concat hname, Option.getD_some, Table.alter_concat hkey, Option.getD_some]

/-- The further lines of the last property are read. -/
theorem reads_continuationLines (hname : name ∉ sections.map Prod.fst)
    (hkey : key ∉ properties.map Prod.fst)
    (hlines : ∀ line ∈ rest, IsValueLine line ∧ IsUnmarked line) :
    (Reading.below sections name (properties ++ [(key, value)]) (.inProperty name key)).Reads
      (rest.map (' ' :: ·))
      (.below sections name (properties ++ [(key, rest.foldl (fun value line =>
        Reading.joinLines value (String.ofList line)) value)]) (.inProperty name key)) := by
  induction rest generalizing value with
  | nil => exact .nil _
  | cons line more ih =>
    obtain ⟨hline, hmark⟩ := hlines line List.mem_cons_self
    refine .cons ?_ (ih fun other hother => hlines other (List.mem_cons_of_mem _ hother))
    rw [read_continuationLine hline hmark]
    exact step_continuation hname hkey _

/-- The lines of a value: the first may be empty if it is the only one. -/
theorem exists_lines_eq (isValue : IsValue value) : ∃ first rest, lines value.toList = first :: rest ∧
    (first = [] ∨ IsValueLine first) ∧ (first ≠ [] ∨ rest = []) ∧
    ∀ line ∈ rest, IsValueLine line ∧ IsUnmarked line := by
  rcases isValue with rfl | ⟨first, rest, hvalue, hlines, hrest⟩
  · exact ⟨[], [], rfl, .inl rfl, .inr rfl, by simp⟩
  · have hfirst := (hlines first List.mem_cons_self).1
    refine ⟨first, rest, ?_, .inr hfirst, .inl hfirst.nonempty, fun line hline => ?_⟩
    · rw [lines, hvalue]
      exact pieces_intercalate (by simp) fun line hline => (hlines line hline).2
    · exact ⟨(hlines line (List.mem_cons_of_mem _ hline)).1, hrest line hline⟩

/-- The lines of a new property of the last section are read. -/
theorem reads_propertyLines (hname : name ∉ sections.map Prod.fst)
    (hkey : key ∉ properties.map Prod.fst) (hplace : place.section? = some name)
    (isKey : IsKey key) (isValue : IsValue value) :
    (Reading.below sections name properties place).Reads (propertyLines key value)
      (.below sections name (properties ++ [(key, value)]) (.inProperty name key)) := by
  obtain ⟨first, rest, hlines, hfirst, hjoin, hrest⟩ := exists_lines_eq isValue
  have hvalue : rest.foldl (fun value line => Reading.joinLines value (String.ofList line))
      (String.ofList first) = value := by
    rw [foldl_joinLines hjoin, ← hlines, lines, intercalate_pieces, String.ofList_toList]
  rw [propertyLines, hlines, List.headD_cons, List.tail_cons]
  rw [← hvalue]
  refine .cons ?_ (reads_continuationLines hname hkey hrest)
  rw [read_definitionLine isKey hfirst]
  exact step_definition hname hkey hplace

/-- The lines of further properties of the last section are read. -/
theorem reads_properties {more : List (String × String)} (hname : name ∉ sections.map Prod.fst)
    (hplace : place.section? = some name) (hdistinct : ((properties ++ more).map Prod.fst).Nodup)
    (hmore : ∀ key value, (key, value) ∈ more → IsKey key ∧ IsValue value) :
    ∃ last, (Reading.below sections name properties place).Reads
      (more.flatMap fun (key, value) => propertyLines key value)
      (.below sections name (properties ++ more) last) := by
  induction more generalizing properties place with
  | nil =>
    rw [List.append_nil]
    exact ⟨place, .nil _⟩
  | cons property rest ih =>
    obtain ⟨key, value⟩ := property
    obtain ⟨isKey, isValue⟩ := hmore key value List.mem_cons_self
    have hcons : properties ++ (key, value) :: rest = (properties ++ [(key, value)]) ++ rest := by
      simp
    have hkey : key ∉ properties.map Prod.fst := by
      intro hmem
      rw [List.map_append, List.map_cons] at hdistinct
      exact (List.nodup_append.mp hdistinct).2.2 key hmem key List.mem_cons_self rfl
    rw [hcons] at hdistinct ⊢
    have hplace' : Place.section? (.inProperty name key) = some name := rfl
    obtain ⟨last, hlast⟩ := ih hplace' hdistinct
      fun other more hmem => hmore other more (List.mem_cons_of_mem _ hmem)
    exact ⟨last, (reads_propertyLines hname hkey hplace isKey isValue).append hlast⟩

/-- The lines of further sections are read. -/
theorem reads_sections {more : List (String × Table String)}
    (hdistinct : ((sections ++ more).map Prod.fst).Nodup)
    (hmore : ∀ name properties, (name, properties) ∈ more →
      IsSectionName name ∧ AreProperties properties) :
    ∃ last, (Reading.mk ⟨sections⟩ place).Reads
      (more.flatMap fun (name, properties) => sectionLines name properties)
      ⟨⟨sections ++ more⟩, last⟩ := by
  induction more generalizing sections place with
  | nil =>
    rw [List.append_nil]
    exact ⟨place, .nil _⟩
  | cons entry rest ih =>
    obtain ⟨name, properties⟩ := entry
    obtain ⟨isName, areProperties⟩ := hmore name properties List.mem_cons_self
    have hcons :
        sections ++ (name, properties) :: rest = (sections ++ [(name, properties)]) ++ rest := by
      simp
    have hname : name ∉ sections.map Prod.fst := by
      intro hmem
      rw [List.map_append, List.map_cons] at hdistinct
      exact (List.nodup_append.mp hdistinct).2.2 name hmem name List.mem_cons_self rfl
    obtain ⟨middle, hmiddle⟩ := @reads_properties name sections [] (.inSection name)
      properties.entries hname rfl areProperties.distinct areProperties.each
    rw [hcons] at hdistinct ⊢
    obtain ⟨last, hlast⟩ := @ih _ middle hdistinct
      fun other more hmem => hmore other more (List.mem_cons_of_mem _ hmem)
    refine ⟨last, ?_⟩
    have hsection : (Reading.mk ⟨sections⟩ place).Reads (sectionLines name properties)
        ⟨⟨sections ++ [(name, properties)]⟩, middle⟩ := by
      refine .cons ?_ hmiddle
      rw [read_headerLine isName]
      exact step_header hname
    exact hsection.append hlast

end Reads

/-- No line of writable sections has a line feed in it. -/
theorem Sections.IsWritable.oneLine {sections : Sections} (writable : sections.IsWritable) :
    ∀ line ∈ sections.toLines, '\n' ∉ line := by
  intro line hline
  obtain ⟨⟨name, properties⟩, hentry, hline⟩ := List.mem_flatMap.mp hline
  obtain ⟨isName, areProperties⟩ := writable.each name properties hentry
  rcases List.mem_cons.mp hline with rfl | hline
  · simp [isName.oneLine]
  · obtain ⟨⟨key, value⟩, hproperty, hline⟩ := List.mem_flatMap.mp hline
    obtain ⟨isKey, -⟩ := areProperties.each key value hproperty
    have hpieces {piece : List Char} (hpiece : piece ∈ lines value.toList) : '\n' ∉ piece :=
      not_mem_of_mem_pieces hpiece
    rcases List.mem_cons.mp hline with rfl | hfurther
    · cases hvalue : lines value.toList with
      | nil => simp [isKey.oneLine]
      | cons first rest => simp [isKey.oneLine, hpieces (hvalue ▸ List.mem_cons_self)]
    · obtain ⟨piece, hpiece, rfl⟩ := List.mem_map.mp hfurther
      simp [hpieces (List.mem_of_mem_tail hpiece)]

/-- The lines of a text that was joined of lines; there is always one. -/
theorem Pads.lines {lines : List (List Char)} (pads : Pads lines padded)
    (hlines : ∀ line ∈ lines, '\n' ∉ line) :
    Pads lines (Text.lines (['\n'].intercalate padded)) := by
  have hpadded : ∀ line ∈ padded, '\n' ∉ line := by
    induction pads with
    | nil => simp
    | keep line _ ih =>
      rw [List.forall_mem_cons] at hlines ⊢
      exact ⟨hlines.1, ih hlines.2⟩
    | fill _ hfeed _ ih =>
      rw [List.forall_mem_cons]
      exact ⟨hfeed, ih hlines⟩
  by_cases hne : padded = []
  · subst hne
    cases pads
    exact .fill (.inl (by simp)) List.not_mem_nil .nil
  · rw [Text.lines, pieces_intercalate hne hpadded]
    exact pads

/-- A text spells sections: it consists of their lines, with blank lines and comments put in
anywhere. -/
def Spells (text : String) (sections : Sections) : Prop :=
  ∃ padded, Pads sections.toLines padded ∧ text = String.ofList (['\n'].intercalate padded)

/-- Writable sections are read from every text that spells them. -/
theorem parse_of_spells {sections : Sections} {text : String} (writable : sections.IsWritable)
    (spells : Spells text sections) : Sections.parse text = .ok sections := by
  obtain ⟨padded, hpads, rfl⟩ := spells
  obtain ⟨last, hreads⟩ := @reads_sections [] .start sections.entries writable.distinct
    writable.each
  have hrun := (hreads.of_pads (hpads.lines writable.oneLine)).run_eq 1
  rw [List.nil_append] at hrun
  rw [Sections.parse, String.toList_ofList]
  have hempty : ({} : Reading) = ⟨⟨[]⟩, .start⟩ := rfl
  rw [hempty, hrun]
  rfl

/-- Whatever a profile file has is writable, and writable sections are read from every file that
spells them. So the sections that files can have are the writable ones. -/
theorem parse_roundTrip :
    (∀ (file : File) (sections : Sections), file.parse = .ok sections → sections.IsWritable) ∧
      ∀ (file : File) (sections : Sections), sections.IsWritable → Spells file.contents sections →
        file.parse = .ok sections := by
  constructor
  · intro file sections h
    unfold File.parse at h
    split at h
    · next parsed hparse => exact Except.ok.inj h ▸ isWritable_of_parse hparse
    · cases h
  · intro file sections writable spells
    rw [File.parse, parse_of_spells writable spells]

example : Sections.parse "; keys\n[ a ]\nk=#1\n\n # not here\n  2;3 ; there\nl =\n[a\n" =
    .error (8, .headerNotClosed) := by decide +kernel

example : (Sections.parse "; keys\n[ a ]\nk=#1\n\n # not here\n  2;3 ; there\nl =\n").toOption =
    some ⟨[("a", ⟨[("k", "#1\n2;3"), ("l", "")]⟩)]⟩ := by decide +kernel

end CloudSession.Profile
