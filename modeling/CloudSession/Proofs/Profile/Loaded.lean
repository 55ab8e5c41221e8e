import CloudSession.Proofs.Profile.Merged

/-!
# What loading several files yields

Files are merged one after the other, so that a property has the value which the last file gives it
that defines it. What a file defines is what it yields when it is loaded alone. Files that cannot be
read define nothing; the first that can be read and not parsed makes loading fail.
-/

namespace CloudSession.Profile

variable {kind : Kind} {shadowed : Bool} {name profile key : String} {sections : Sections}
  {set next : ProfileSet} {error : ParseError} {source : Source × Enumeration}
  {sources : List (Source × Enumeration)}

/-! ## How profiles are stored -/

/-- A name of letters, digits and `_ - / . % @ : +`, with at least one of these characters. -/
def IsIdentifier (name : String) : Prop :=
  name ≠ "" ∧ ∀ c ∈ name.toList, ('A' ≤ c ∧ c ≤ 'Z') ∨ ('a' ≤ c ∧ c ≤ 'z') ∨ ('0' ≤ c ∧ c ≤ '9') ∨
    c ∈ ['_', '-', '/', '.', '%', '@', ':', '+']

/-- Properties are kept under their own keys. -/
def AreStored (stored : Table Property) : Prop :=
  ∀ key property, (key, property) ∈ stored.entries → property.key = key ∧ IsIdentifier key

/-- A profile is kept under its own name. -/
structure IsStored (name : String) (entry : Entry) : Prop where
  isIdentifier : IsIdentifier name
  name : entry.name = name
  properties : AreStored entry.stored

/-- All profiles of a set are kept under their own names. -/
def ProfileSet.IsStored (set : ProfileSet) : Prop :=
  ∀ name entry, (name, entry) ∈ set.profiles.entries → Profile.IsStored name entry

/-- The test for identifiers tells what an identifier is. -/
theorem isIdentifier_iff : isIdentifier name = true ↔ IsIdentifier name := by
  have hchar (c : Char) : isIdentifierChar c = true ↔
      ('A' ≤ c ∧ c ≤ 'Z') ∨ ('a' ≤ c ∧ c ≤ 'z') ∨ ('0' ≤ c ∧ c ≤ '9') ∨
        c ∈ ['_', '-', '/', '.', '%', '@', ':', '+'] := by
    have hupper : c.isUpper = decide ('A' ≤ c ∧ c ≤ 'Z') := rfl
    have hlower : c.isLower = (decide ('a' ≤ c) && decide (c ≤ 'z')) := rfl
    have halpha : c.isAlpha = (c.isUpper || c.isLower) := rfl
    have hdigit : c.isDigit = (decide ('0' ≤ c) && decide (c ≤ '9')) := rfl
    simp only [isIdentifierChar, Char.isAlphanum, halpha, hupper, hlower, hdigit,
      Bool.or_eq_true, Bool.and_eq_true, decide_eq_true_eq, or_assoc]
  simp only [isIdentifier, IsIdentifier, Bool.and_eq_true, decide_eq_true_eq, List.all_eq_true,
    hchar]

/-- In an empty table, all properties are stored as they should be. -/
theorem areStored_empty : AreStored ∅ :=
  fun _ _ hmem => nomatch hmem

/-- Properties that are merged into stored ones are stored. -/
theorem AreStored.merge {stored : Table Property} (areStored : AreStored stored)
    (definitions : List (String × String)) :
    AreStored (ProfileSet.mergeProperties stored definitions) := by
  unfold ProfileSet.mergeProperties
  induction definitions generalizing stored with
  | nil => exact areStored
  | cons definition rest ih =>
    obtain ⟨key, value⟩ := definition
    apply ih
    dsimp only
    split
    · next hkey =>
      have hnew := isIdentifier_iff.mp hkey
      exact Table.forall_alter areStored ⟨rfl, hnew⟩ fun _ _ => ⟨rfl, hnew⟩
    · exact areStored

/-- The name of a profile is an identifier. -/
theorem isIdentifier_of_profileOf (h : profileOf kind shadowed name = .ok profile) :
    IsIdentifier profile := by
  unfold profileOf at h
  split at h
  · cases h
  · split at h
    · next hprofile =>
      rw [← Except.ok.inj h]
      exact isIdentifier_iff.mp hprofile
    · cases h

/-- A section that is merged into a stored set is stored. -/
theorem ProfileSet.IsStored.mergeSection (isStored : set.IsStored) (properties : Table String) :
    (set.mergeSection kind shadowed name properties).IsStored := by
  unfold ProfileSet.mergeSection
  split
  · exact isStored
  · next hprofile =>
    have hidentifier := isIdentifier_of_profileOf hprofile
    apply Table.forall_alter isStored
    · exact ⟨hidentifier, rfl, areStored_empty.merge _⟩
    · intro old hold
      exact ⟨hidentifier, hold.name, hold.properties.merge _⟩

/-- Sections that are merged into a stored set are stored. -/
theorem ProfileSet.IsStored.merge (isStored : set.IsStored) (kind : Kind) (sections : Sections) :
    (set.merge kind sections).IsStored := by
  unfold ProfileSet.merge
  generalize hasPrefixedDefault kind sections = shadowed
  induction sections.entries generalizing set with
  | nil => exact isStored
  | cons entry rest ih => exact ih (isStored.mergeSection _)

/-! ## One more file -/

section

variable (env : Environment) (files : FileStore) (explicit : Option String)

/-- What a file yields when it is loaded alone. -/
def alone (source : Source × Enumeration) : Except LoadError ProfileSet :=
  (loadRequired env files source.1 explicit source.2).value

/-- A file can be read, and not parsed. -/
def IsMalformed (source : Source) (error : ParseError) : Prop :=
  ∃ file, (source.readRequired env files).value = .ok file ∧ file.parse = .error error

/-- What a file yields alone for one profile or property. -/
def found? {α : Type} (look : ProfileSet → Option α) (source : Source × Enumeration) : Option α :=
  (alone env files explicit source).toOption.bind look

/-- The file of a source, with the order of its sections. -/
def fileOf (source : Source × Enumeration) : File × Enumeration :=
  ((source.1.readLenient env files).value, source.2)

/-- One set is another one with some files merged into it. -/
structure Extends (sources : List (Source × Enumeration)) (set next : ProfileSet) : Prop where
  selected : next.selected = set.selected
  names : ∀ profile, next.name? profile =
    (set.name? profile).or (sources.findSome? (found? env files explicit (·.name? profile)))
  properties : ∀ profile key, next.property? profile key =
    (sources.reverse.findSome? (found? env files explicit (·.property? profile key))).or
      (set.property? profile key)
  stored : set.IsStored → next.IsStored

end

variable {env : Environment} {files : FileStore} {explicit : Option String}

/-- A file that can be read is read leniently all the same. -/
theorem readLenient_of_ok {file : File} (h : (source.1.readRequired env files).value = .ok file) :
    (source.1.readLenient env files).value = file := by
  unfold Source.readLenient
  rw [Logged.value_bind, h]
  rfl

/-- A file that cannot be read counts as empty where that is allowed. -/
theorem readLenient_of_error {fault : ReadError}
    (h : (source.1.readRequired env files).value = .error fault) :
    (source.1.readLenient env files).value.contents = "" := by
  unfold Source.readLenient
  rw [Logged.value_bind, h]
  cases fault <;> rfl

/-- An empty file has no sections. -/
theorem parse_of_empty {file : File} (h : file.contents = "") : file.parse = .ok ∅ := by
  unfold File.parse
  rw [h]
  rfl

/-- A file without sections changes nothing. -/
theorem merge_list_empty (set : ProfileSet) (kind : Kind) (order : Enumeration) :
    set.merge kind (order.list ∅) = set := by
  have hnames : (order.list ∅).names = [] := (order.isOrder ∅).names.eq_nil
  have hentries : (order.list ∅).entries = [] := List.map_eq_nil_iff.mp hnames
  unfold ProfileSet.merge
  rw [hentries]
  rfl

/-- To add a file is to parse it and to merge its sections in the order that they are gone
through. -/
theorem value_addFile (set : ProfileSet) (file : File) (order : Enumeration) :
    (set.addFile file order).value =
      file.parse.map fun sections => set.merge file.kind (order.list sections) := by
  unfold ProfileSet.addFile
  cases file.parse <;> rfl

/-- A file that can be read says alone what its sections say. -/
theorem alone_of_ok {file : File} (h : (source.1.readRequired env files).value = .ok file) :
    (alone env files explicit source).toOption = file.parse.toOption.map fun sections =>
      ProfileSet.merge { selected := selectedProfile env explicit } file.kind
        (source.2.list sections) := by
  unfold alone loadRequired
  rw [Logged.value_bind, h]
  dsimp only
  rw [Logged.value_bind, value_addFile]
  cases file.parse <;> rfl

/-- A file that cannot be read says nothing alone. -/
theorem alone_of_error {fault : ReadError}
    (h : (source.1.readRequired env files).value = .error fault) :
    (alone env files explicit source).toOption = none := by
  unfold alone loadRequired
  rw [Logged.value_bind, h]
  rfl

/-- What a file yields alone is what its sections yield. -/
theorem found?_of_ok {file : File} {α : Type} (look : ProfileSet → Option α)
    (hread : (source.1.readRequired env files).value = .ok file) (hparse : file.parse = .ok sections) :
    found? env files explicit look source =
      look (ProfileSet.merge { selected := selectedProfile env explicit } file.kind
        (source.2.list sections)) := by
  rw [found?, alone_of_ok hread, hparse]
  rfl

/-- In a file that cannot be read, nothing is found. -/
theorem found?_of_error {fault : ReadError} {α : Type} (look : ProfileSet → Option α)
    (hread : (source.1.readRequired env files).value = .error fault) :
    found? env files explicit look source = none := by
  rw [found?, alone_of_error hread, Option.bind_none]

/-- In a file that is malformed, nothing is found. -/
theorem found?_of_malformed {file : File} {α : Type} (look : ProfileSet → Option α)
    (hread : (source.1.readRequired env files).value = .ok file)
    (hparse : file.parse = .error error) : found? env files explicit look source = none := by
  rw [found?, alone_of_ok hread, hparse]
  rfl

/-- Adding a file fails exactly if the file can be read and not parsed. -/
theorem addFile_eq_error_iff :
    (set.addFile (fileOf env files source).1 (fileOf env files source).2).value = .error error ↔
      IsMalformed env files source.1 error := by
  rw [value_addFile, fileOf]
  cases hread : (source.1.readRequired env files).value with
  | error fault =>
    rw [parse_of_empty (readLenient_of_error hread)]
    constructor
    · intro h
      cases h
    · rintro ⟨file, hfile, -⟩
      cases hread.symm.trans hfile
  | ok file =>
    rw [readLenient_of_ok hread]
    constructor
    · intro h
      refine ⟨file, hread, ?_⟩
      cases hparse : file.parse with
      | error other =>
        rw [hparse] at h
        rw [Except.error.inj h]
      | ok sections =>
        rw [hparse] at h
        cases h
    · rintro ⟨other, hother, hparse⟩
      obtain rfl := Except.ok.inj (hread.symm.trans hother)
      rw [hparse]
      rfl

/-- What is parsed has distinct sections. -/
theorem isDistinct_of_parse {file : File} (h : file.parse = .ok sections) : sections.IsDistinct := by
  unfold File.parse at h
  split at h
  · next hparse =>
    rw [← Except.ok.inj h]
    exact (isWritable_of_parse hparse).isDistinct
  · cases h

namespace Extends

/-- Without sources, a set is extended by nothing. -/
theorem nil (set : ProfileSet) : Extends env files explicit [] set set where
  selected := rfl
  names profile := by simp
  properties profile key := by simp
  stored := id

/-- To extend a set by several sources is to extend it by the first of them, and then by the
others. -/
theorem cons {last : ProfileSet} (first : Extends env files explicit [source] set next)
    (rest : Extends env files explicit sources next last) :
    Extends env files explicit (source :: sources) set last where
  selected := rest.selected.trans first.selected
  names profile := by
    rw [rest.names, first.names, Option.or_assoc, List.findSome?_cons, List.findSome?_cons]
    cases found? env files explicit (·.name? profile) source <;> rfl
  properties profile key := by
    rw [rest.properties, first.properties, List.reverse_singleton, List.reverse_cons,
      List.findSome?_append, Option.or_assoc]
  stored h := rest.stored (first.stored h)

/-- A file that has been added adds what it yields alone. -/
theorem of_addFile
    (h : (set.addFile (fileOf env files source).1 (fileOf env files source).2).value = .ok next) :
    Extends env files explicit [source] set next := by
  rw [value_addFile, fileOf] at h
  cases hread : (source.1.readRequired env files).value with
  | error fault =>
    rw [parse_of_empty (readLenient_of_error hread)] at h
    obtain rfl : set = next := (merge_list_empty set _ _).symm.trans (Except.ok.inj h)
    refine ⟨rfl, ?_, ?_, id⟩
    · intro profile
      simp [found?_of_error _ hread]
    · intro profile key
      simp [found?_of_error _ hread]
  | ok file =>
    rw [readLenient_of_ok hread] at h
    cases hparse : file.parse with
    | error other =>
      rw [hparse] at h
      cases h
    | ok sections =>
      rw [hparse] at h
      obtain rfl := Except.ok.inj h
      have hdistinct := (source.2.isOrder sections).isDistinct (isDistinct_of_parse hparse)
      refine ⟨ProfileSet.merge_selected _ _ _, ?_, ?_, ?_⟩
      · intro profile
        rw [ProfileSet.name?_merge, List.findSome?_singleton, found?_of_ok _ hread hparse,
          ProfileSet.name?_merge]
        rfl
      · intro profile key
        rw [ProfileSet.property?_merge _ hdistinct, List.reverse_singleton,
          List.findSome?_singleton, found?_of_ok _ hread hparse,
          ProfileSet.property?_merge _ hdistinct]
        have hempty : ProfileSet.property? { selected := selectedProfile env explicit } profile key =
          none := rfl
        rw [hempty, Option.or_none]
      · intro hstored
        exact hstored.merge _ _

/-- Files that have been added one after the other add what they yield alone. -/
theorem of_addFiles (h : (set.addFiles (sources.map (fileOf env files))).value = .ok next) :
    Extends env files explicit sources set next := by
  induction sources generalizing set with
  | nil =>
    obtain rfl := Except.ok.inj h
    exact .nil set
  | cons source rest ih =>
    rw [List.map_cons, ProfileSet.addFiles, Logged.value_bind] at h
    cases hadd : (set.addFile (fileOf env files source).1 (fileOf env files source).2).value with
    | error error =>
      rw [hadd] at h
      cases h
    | ok middle =>
      rw [hadd] at h
      exact (of_addFile hadd).cons (ih h)

end Extends

/-- Adding files fails exactly if one of them can be read and not parsed. -/
theorem addFiles_eq_error_iff :
    (set.addFiles (sources.map (fileOf env files))).value = .error error ↔
      ∃ before source after, sources.map Prod.fst = before ++ source :: after ∧
        IsMalformed env files source error ∧
        ∀ earlier ∈ before, ∀ other, ¬ IsMalformed env files earlier other := by
  induction sources generalizing set with
  | nil =>
    constructor
    · intro h
      cases h
    · rintro ⟨before, source, after, heq, -⟩
      simp at heq
  | cons source rest ih =>
    rw [List.map_cons, List.map_cons, ProfileSet.addFiles, Logged.value_bind]
    cases hadd : (set.addFile (fileOf env files source).1 (fileOf env files source).2).value with
    | error first =>
      have hfirst := addFile_eq_error_iff.mp hadd
      constructor
      · intro h
        obtain rfl : first = error := Except.error.inj h
        exact ⟨[], source.1, rest.map Prod.fst, rfl, hfirst, by simp⟩
      · rintro ⟨before, malformed, after, heq, hmalformed, hbefore⟩
        cases before with
        | nil =>
          obtain ⟨rfl, -⟩ := List.cons.inj heq
          exact hadd.symm.trans (addFile_eq_error_iff.mpr hmalformed)
        | cons earlier others =>
          obtain ⟨rfl, -⟩ := List.cons.inj heq
          exact absurd hfirst (hbefore source.1 List.mem_cons_self first)
    | ok next =>
      have hfine (other : ParseError) : ¬ IsMalformed env files source.1 other := by
        intro hmalformed
        cases hadd.symm.trans (addFile_eq_error_iff.mpr hmalformed)
      dsimp only
      rw [ih]
      constructor
      · rintro ⟨before, malformed, after, heq, hmalformed, hbefore⟩
        refine ⟨source.1 :: before, malformed, after, by rw [heq]; rfl, hmalformed, ?_⟩
        intro earlier hearlier
        rcases List.mem_cons.mp hearlier with rfl | hmem
        · exact hfine
        · exact hbefore earlier hmem
      · rintro ⟨before, malformed, after, heq, hmalformed, hbefore⟩
        cases before with
        | nil =>
          obtain ⟨rfl, -⟩ := List.cons.inj heq
          exact absurd hmalformed (hfine error)
        | cons earlier others =>
          obtain ⟨-, hrest⟩ := List.cons.inj heq
          exact ⟨others, malformed, after, hrest, hmalformed,
            fun other hother => hbefore other (List.mem_cons_of_mem _ hother)⟩

/-- Among files that have been added, none can be read and not parsed. -/
theorem not_isMalformed_of_addFiles
    (h : (set.addFiles (sources.map (fileOf env files))).value = .ok next) :
    ∀ source ∈ sources, ∀ error, ¬ IsMalformed env files source.1 error := by
  induction sources generalizing set with
  | nil => simp
  | cons source rest ih =>
    intro other hother error hmalformed
    rw [List.map_cons, ProfileSet.addFiles, Logged.value_bind] at h
    cases hadd : (set.addFile (fileOf env files source).1 (fileOf env files source).2).value with
    | error first =>
      rw [hadd] at h
      cases h
    | ok middle =>
      rw [hadd] at h
      rcases List.mem_cons.mp hother with rfl | hmem
      · cases hadd.symm.trans (addFile_eq_error_iff.mpr hmalformed)
      · exact ih h other hmem error hmalformed

/-- Files that can all be parsed, if they can be read, are added. -/
theorem exists_addFiles_eq_ok
    (hfine : ∀ source ∈ sources, ∀ error, ¬ IsMalformed env files source.1 error) :
    ∃ next, (set.addFiles (sources.map (fileOf env files))).value = .ok next := by
  cases hadd : (set.addFiles (sources.map (fileOf env files))).value with
  | error error =>
    obtain ⟨before, malformed, after, heq, hmalformed, -⟩ := addFiles_eq_error_iff.mp hadd
    have hmem : malformed ∈ sources.map Prod.fst := by simp [heq]
    obtain ⟨source, hsource, rfl⟩ := List.mem_map.mp hmem
    exact absurd hmalformed (hfine source hsource error)
  | ok next => exact ⟨next, rfl⟩

/-! ## All files -/

/-- What is loaded comes from adding the files to the empty set. -/
theorem value_loadIn (env : Environment) (files : FileStore) (explicit : Option String)
    (sources : List (Source × Enumeration)) :
    (loadIn env files sources explicit).value =
      (ProfileSet.addFiles { selected := selectedProfile env explicit }
        (sources.map (fileOf env files))).value := by
  have hread (listed : List Source) : (readAll env files listed).value =
      listed.map fun source => (source.readLenient env files).value := by
    induction listed with
    | nil => rfl
    | cons source rest ih => simp [readAll, ih]
  unfold loadIn
  rw [Logged.value_bind, hread, List.map_map, List.zip_map']
  rfl

/-- The value of a property of a profile. -/
def ProfileSet.value? (set : ProfileSet) (profile key : String) : Option String :=
  (set.profile? profile).bind fun entry => entry.get? key

/-- Loaded alone, a file gives a property of a profile this value. -/
def GivesAlone (env : Environment) (files : FileStore) (explicit : Option String)
    (source : Source × Enumeration) (profile key value : String) : Prop :=
  ∃ own, alone env files explicit source = .ok own ∧ own.value? profile key = some value

/-- A set has what the files of a list have, and of each property the value that is given last. -/
structure IsLastWins (env : Environment) (files : FileStore) (explicit : Option String)
    (sources : List (Source × Enumeration)) (set : ProfileSet) : Prop where
  value_iff : ∀ profile key value, set.value? profile key = some value ↔
    ∃ before source after, sources = before ++ source :: after ∧
      GivesAlone env files explicit source profile key value ∧
      ∀ later ∈ after, ∀ other, ¬ GivesAlone env files explicit later profile key other
  present_iff : ∀ profile, (set.profile? profile).isSome = true ↔
    ∃ source ∈ sources, ∃ own, alone env files explicit source = .ok own ∧
      (own.profile? profile).isSome = true
  selected : set.selected = selectedProfile env explicit ∧
    ∀ source ∈ sources, ∀ own, alone env files explicit source = .ok own →
      own.selected = set.selected
  stored : set.IsStored

/-- Something is found in a source if the source says it alone. -/
theorem found?_eq_some_iff {α : Type} {look : ProfileSet → Option α} {a : α} :
    found? env files explicit look source = some a ↔
      ∃ own, alone env files explicit source = .ok own ∧ look own = some a := by
  unfold found?
  cases alone env files explicit source <;> simp [Except.toOption]

/-- The value of a property is that of the last definition. -/
theorem ProfileSet.value?_eq (set : ProfileSet) (profile key : String) :
    set.value? profile key = (set.property? profile key).map Property.value := by
  unfold value? property?
  cases set.profile? profile <;> rfl

/-- The last item that gives a result gives it. -/
theorem findSome?_reverse_eq_some_iff {α β : Type} {f : α → Option β} {items : List α} {b : β} :
    items.reverse.findSome? f = some b ↔ ∃ before a after, items = before ++ a :: after ∧
      f a = some b ∧ ∀ later ∈ after, f later = none := by
  rw [List.findSome?_eq_some_iff]
  constructor
  · rintro ⟨front, a, back, heq, ha, hfront⟩
    refine ⟨back.reverse, a, front.reverse, ?_, ha, fun later hlater => ?_⟩
    · rw [← List.reverse_reverse items, heq]
      simp
    · exact hfront later (List.mem_reverse.mp hlater)
  · rintro ⟨before, a, after, rfl, ha, hafter⟩
    refine ⟨after.reverse, a, before.reverse, by simp, ha, fun later hlater => ?_⟩
    exact hafter later (List.mem_reverse.mp hlater)

/-- A profile that is loaded alone has the profile selected that is always selected. -/
theorem selected_of_alone {own : ProfileSet} (h : alone env files explicit source = .ok own) :
    own.selected = selectedProfile env explicit := by
  cases hread : (source.1.readRequired env files).value with
  | error fault =>
    have hnone : (alone env files explicit source).toOption = none := alone_of_error hread
    rw [h] at hnone
    cases hnone
  | ok file =>
    have hsome : (alone env files explicit source).toOption = _ := alone_of_ok hread
    rw [h] at hsome
    obtain ⟨sections, -, rfl⟩ := Option.map_eq_some_iff.mp hsome.symm
    exact ProfileSet.merge_selected _ _ _

/-- What extends the empty set by sources is such that the last of them win. -/
theorem Extends.isLastWins
    (extension : Extends env files explicit sources { selected := selectedProfile env explicit } set) :
    IsLastWins env files explicit sources set where
  value_iff profile key value := by
    have hvalue : set.value? profile key =
        sources.reverse.findSome? (found? env files explicit (·.value? profile key)) := by
      have hlook : found? env files explicit (·.value? profile key) =
          Option.map Property.value ∘ found? env files explicit (·.property? profile key) := by
        funext source
        unfold found?
        simp only [ProfileSet.value?_eq]
        exact Option.map_bind.symm
      have hempty : ProfileSet.property? { selected := selectedProfile env explicit } profile key =
        none := rfl
      rw [ProfileSet.value?_eq, extension.properties, hempty, Option.or_none, List.map_findSome?,
        hlook]
    rw [hvalue, findSome?_reverse_eq_some_iff]
    simp only [Option.eq_none_iff_forall_ne_some, ne_eq, found?_eq_some_iff]
    rfl
  present_iff profile := by
    have hempty : ProfileSet.name? { selected := selectedProfile env explicit } profile = none := rfl
    have hname (own : ProfileSet) : (own.profile? profile).isSome = (own.name? profile).isSome := by
      rw [ProfileSet.name?, Option.isSome_map]
    rw [hname, extension.names, hempty, Option.none_or, List.findSome?_isSome_iff]
    simp only [Option.isSome_iff_exists, found?_eq_some_iff, hname]
    constructor
    · rintro ⟨source, hmem, name, own, hown, hsome⟩
      exact ⟨source, hmem, own, hown, name, hsome⟩
    · rintro ⟨source, hmem, own, hown, name, hsome⟩
      exact ⟨source, hmem, name, own, hown, hsome⟩
  selected := by
    refine ⟨extension.selected, fun source _ own hown => ?_⟩
    rw [selected_of_alone hown, extension.selected]
  stored := extension.stored fun _ _ hmem => nomatch hmem

/-- Loading several files fails with the first parse error among the files that can be read, if there
is one. Else every property has the value which the last file gives it that defines it when it is
loaded alone, whatever the kinds of the files and whatever the orders of their sections. -/
theorem loadIn_lastWins (env : Environment) (files : FileStore) (explicit : Option String)
    (sources : List (Source × Enumeration)) :
    (∀ error, (loadIn env files sources explicit).value = .error error ↔
      ∃ before source after, sources.map Prod.fst = before ++ source :: after ∧
        IsMalformed env files source error ∧
        ∀ earlier ∈ before, ∀ other, ¬ IsMalformed env files earlier other) ∧
      ((∀ source ∈ sources, ∀ error, ¬ IsMalformed env files source.1 error) →
        ∃ set, (loadIn env files sources explicit).value = .ok set ∧
          IsLastWins env files explicit sources set) := by
  rw [value_loadIn]
  refine ⟨fun error => addFiles_eq_error_iff, fun hfine => ?_⟩
  obtain ⟨set, hload⟩ := exists_addFiles_eq_ok hfine
  exact ⟨set, hload, (Extends.of_addFiles hload).isLastWins⟩

/-- A config file, a file that does not exist, and a credentials file. -/
def threeFiles : List (Source × Enumeration) :=
  [(.contents .config "[profile a]\nregion = us-south\nx = 1\n[default]\n[profile default]\ny = 2\n",
      .asWritten),
    (.file .config "/missing", .asWritten),
    (.contents .credentials "[a]\nregion = jp-tok\n", .asWritten)]

/-- Of three files, the last that has a property wins, and the others count where it has none. -/
theorem threeFiles_lastWins : ∃ set, (loadIn {} {} threeFiles none).value = .ok set ∧
    IsLastWins {} {} none threeFiles set ∧ set.value? "a" "region" = some "jp-tok" ∧
    set.value? "a" "x" = some "1" ∧ set.value? "default" "y" = some "2" := by
  have hfine : ∀ source ∈ threeFiles, ∀ error, ¬ IsMalformed {} {} source.1 error := by
    intro source hmem error
    simp only [threeFiles, List.mem_cons, List.not_mem_nil, or_false] at hmem
    rintro ⟨file, hread, hparse⟩
    rcases hmem with rfl | rfl | rfl
    · obtain rfl := Except.ok.inj hread
      cases hparse
    · cases hread
    · obtain rfl := Except.ok.inj hread
      cases hparse
  obtain ⟨set, hload, lastWins⟩ := (loadIn_lastWins {} {} none threeFiles).2 hfine
  refine ⟨set, hload, lastWins, ?_⟩
  obtain rfl : _ = set := Except.ok.inj hload
  decide

end CloudSession.Profile
