import CloudSession.Proofs.Profile.Loaded

/-!
# Files that may be gone through in any order

The white space between `profile` and the name of a profile does not count, so several sections of a
config file can speak about one profile. If two of them give a property different values, the file
is ambiguous there, and the order in which its sections are gone through decides which value counts.
Loading is independent of all orders exactly if a later file settles whatever a file leaves open.
-/

namespace CloudSession.Profile

/-- Two sections of a file give a property of a profile different values. -/
def Sections.IsAmbiguous (sections : Sections) (kind : Kind) (profile key : String) : Prop :=
  ∃ name other value otherValue, sections.Defines kind profile key name value ∧
    sections.Defines kind profile key other otherValue ∧ value ≠ otherValue

/-- The same profile is selected, and there are the same profiles with the same properties. -/
structure ProfileSet.IsSame (set other : ProfileSet) : Prop where
  selected : set.selected = other.selected
  names : ∀ profile, set.name? profile = other.name? profile
  properties : ∀ profile key, set.property? profile key = other.property? profile key

/-- The sections can be merged into any set in any order, with the same outcome. -/
def Sections.MergesAlike (sections : Sections) (kind : Kind) : Prop :=
  ∀ (set : ProfileSet) (listed other : Sections), listed.IsOrderOf sections →
    other.IsOrderOf sections → (set.merge kind listed).IsSame (set.merge kind other)

/-- Two outcomes of loading say the same. -/
def SameOutcome : Except ParseError ProfileSet → Except ParseError ProfileSet → Prop
  | .ok set, .ok other => set.IsSame other
  | .error error, .error other => error = other
  | _, _ => False

section

variable (env : Environment) (files : FileStore)

/-- The files can be loaded with their sections in any orders, with the same outcome. -/
def LoadsAlike (explicit : Option String) (sources : List Source) : Prop :=
  ∀ listed other : List (Source × Enumeration), listed.map Prod.fst = sources →
    other.map Prod.fst = sources →
      SameOutcome (loadIn env files listed explicit).value (loadIn env files other explicit).value

/-- A file can be read and has these sections. -/
def Holds (source : Source) (sections : Sections) : Prop :=
  ∃ file, (source.readRequired env files).value = .ok file ∧ file.parse = .ok sections

/-- A file gives a property of a profile some value. -/
def IsGivenBy (source : Source) (profile key : String) : Prop :=
  ∃ sections name value, Holds env files source sections ∧
    sections.Defines source.kind profile key name value

/-- Where a file is ambiguous, a later file gives the value. -/
def IsSettled (sources : List Source) : Prop :=
  ∀ before source after, sources = before ++ source :: after →
    ∀ sections profile key, Holds env files source sections →
      sections.IsAmbiguous source.kind profile key →
        ∃ later ∈ after, IsGivenBy env files later profile key

end

variable {env : Environment} {files : FileStore} {explicit : Option String} {kind : Kind}
  {profile key name value : String} {sections listed other : Sections} {order : Enumeration}

/-! ## What the order of sections can change -/

/-- The last of some items is the one that all of them are. -/
theorem getLast?_eq_some_of_forall {α : Type} {items : List α} {a : α} (hmem : a ∈ items)
    (hall : ∀ item ∈ items, item = a) : items.getLast? = some a := by
  cases hlast : items.getLast? with
  | none =>
    rw [List.getLast?_eq_none_iff.mp hlast] at hmem
    cases hmem
  | some last => rw [hall last (List.mem_of_getLast? hlast)]

/-- The sections whose name is not `name`, and then the one that has it. -/
def Enumeration.lastly (name : String) : Enumeration where
  list sections := ⟨sections.entries.filter (·.1 ≠ name) ++ sections.entries.filter (·.1 = name)⟩
  isOrder sections := by
    have hperm : (sections.entries.filter (·.1 ≠ name) ++
        sections.entries.filter (·.1 = name)).Perm sections.entries := by
      simpa using List.filter_append_perm (fun entry => decide (entry.1 ≠ name)) sections.entries
    refine ⟨hperm.map Prod.fst, fun other properties hmem => ?_⟩
    exact ⟨properties, hperm.mem_iff.mp hmem, .refl _⟩

namespace Sections

/-- In every order, the definitions are those of the sections. -/
theorem IsOrderOf.mem_definitions_iff (order : listed.IsOrderOf sections)
    (distinct : sections.IsDistinct) : value ∈ listed.definitions kind profile key ↔
      ∃ name, sections.Defines kind profile key name value := by
  rw [Sections.mem_definitions_iff (order.isDistinct distinct)]
  simp only [order.defines_iff distinct]

/-- In every order, the same sections count. -/
theorem IsOrderOf.adds_eq (order : listed.IsOrderOf sections) :
    listed.adds kind profile = sections.adds kind profile := by
  unfold adds
  rw [order.hasPrefixedDefault_eq, order.names.any_eq]

/-- The section that comes last gives the value. -/
theorem getLast?_definitions_lastly (distinct : sections.IsDistinct)
    (defines : sections.Defines kind profile key name value) :
    (((Enumeration.lastly name).list sections).definitions kind profile key).getLast? =
      some value := by
  obtain ⟨properties, hmem, hvalue⟩ := (value?_eq_some_iff distinct).mp defines.value
  have hlast : ((sections.entries.filter (·.1 = name)).filterMap
      (sectionValue? kind (hasPrefixedDefault kind sections) profile key)).getLast? =
        some value := by
    apply getLast?_eq_some_of_forall
    · refine List.mem_filterMap.mpr ⟨(name, properties), by simp [hmem], ?_⟩
      rw [sectionValue?, if_pos ⟨defines.speaks.2, defines.isIdentifier⟩, hvalue]
    · intro item hitem
      obtain ⟨⟨other, others⟩, hother, hgives⟩ := List.mem_filterMap.mp hitem
      obtain ⟨hentry, heq⟩ : (other, others) ∈ sections.entries ∧ other = name := by
        simpa using hother
      subst heq
      rw [sectionValue?, if_pos ⟨defines.speaks.2, defines.isIdentifier⟩] at hgives
      have hagain := (value?_eq_some_iff distinct).mpr ⟨others, hentry, hgives⟩
      exact Option.some.inj (hagain.symm.trans defines.value)
  unfold definitions
  rw [((Enumeration.lastly name).isOrder sections).hasPrefixedDefault_eq]
  rw [Enumeration.lastly, List.filterMap_append, List.getLast?_append, hlast, Option.some_or]

/-- Where sections are not ambiguous, their order does not matter. -/
theorem getLast?_definitions_eq (distinct : sections.IsDistinct)
    (clear : ¬ sections.IsAmbiguous kind profile key) (order : listed.IsOrderOf sections)
    (again : other.IsOrderOf sections) :
    (listed.definitions kind profile key).getLast? =
      (other.definitions kind profile key).getLast? := by
  cases hother : (other.definitions kind profile key).getLast? with
  | none =>
    rw [List.getLast?_eq_none_iff, List.eq_nil_iff_forall_not_mem]
    intro value hvalue
    have hmem := (again.mem_definitions_iff distinct).mpr
      ((order.mem_definitions_iff distinct).mp hvalue)
    rw [List.getLast?_eq_none_iff.mp hother] at hmem
    cases hmem
  | some value =>
    have hdefines := (again.mem_definitions_iff distinct).mp (List.mem_of_getLast? hother)
    apply getLast?_eq_some_of_forall
    · exact (order.mem_definitions_iff distinct).mpr hdefines
    · intro item hitem
      obtain ⟨first, hfirst⟩ := hdefines
      obtain ⟨second, hsecond⟩ := (order.mem_definitions_iff distinct).mp hitem
      by_contra hne
      exact clear ⟨second, first, item, value, hsecond, hfirst, hne⟩

/-- The sections of a credentials file speak about profiles of their own. -/
theorem not_isAmbiguous_credentials : ¬ sections.IsAmbiguous .credentials profile key := by
  rintro ⟨name, other, value, otherValue, defines, otherDefines, hne⟩
  have hname {name : String} (h : profileOf .credentials (hasPrefixedDefault .credentials sections)
      name = .ok profile) : name = profile := by
    unfold profileOf candidateOf at h
    dsimp only at h
    split at h
    · exact Except.ok.inj h
    · cases h
  have heq : name = other := (hname defines.speaks.2).trans (hname otherDefines.speaks.2).symm
  subst heq
  exact hne (Option.some.inj (defines.value.symm.trans otherDefines.value))

/-- Sections can be merged in any order exactly if they are nowhere ambiguous. -/
theorem mergesAlike_iff (distinct : sections.IsDistinct) :
    sections.MergesAlike kind ↔ ∀ profile key, ¬ sections.IsAmbiguous kind profile key := by
  constructor
  · rintro alike profile key ⟨name, other, value, otherValue, defines, otherDefines, hne⟩
    have order := (Enumeration.lastly name).isOrder sections
    have otherOrder := (Enumeration.lastly other).isOrder sections
    have hsame := (alike {} _ _ order otherOrder).properties profile key
    rw [ProfileSet.property?_merge _ (order.isDistinct distinct),
      ProfileSet.property?_merge _ (otherOrder.isDistinct distinct),
      getLast?_definitions_lastly distinct defines,
      getLast?_definitions_lastly distinct otherDefines] at hsame
    injection hsame with hproperty
    injection hproperty with _ hvalue
    exact hne hvalue
  · intro clear set listed other order again
    refine ⟨?_, ?_, ?_⟩
    · rw [ProfileSet.merge_selected, ProfileSet.merge_selected]
    · intro profile
      rw [ProfileSet.name?_merge, ProfileSet.name?_merge, order.adds_eq, again.adds_eq]
    · intro profile key
      rw [ProfileSet.property?_merge _ (order.isDistinct distinct),
        ProfileSet.property?_merge _ (again.isDistinct distinct),
        getLast?_definitions_eq distinct (clear profile key) order again]

end Sections

/-! ## What the orders of files can change -/

section

variable {source : Source} {sources : List Source}

/-- A file that can be read has the kind of its source. -/
theorem kind_of_readRequired {file : File} (h : (source.readRequired env files).value = .ok file) :
    file.kind = source.kind := by
  have hpath {kind : Kind} {path : String} (h : (readPath env files kind path).value = .ok file) :
      file.kind = kind := by
    unfold readPath at h
    rw [Logged.value_bind] at h
    split at h
    · rw [← Except.ok.inj h]
    · cases h
    · cases h
  cases source with
  | default kind => exact hpath h
  | file kind path => exact hpath h
  | contents kind text => rw [← Except.ok.inj h]; rfl

/-- A file yields nothing alone unless it can be read and parsed. -/
theorem found?_cases {α : Type} (env : Environment) (files : FileStore) (explicit : Option String)
    (look : ProfileSet → Option α) (source : Source) :
    ((∀ sections, ¬ Holds env files source sections) ∧
      ∀ order, found? env files explicit look (source, order) = none) ∨
    ∃ sections, sections.IsDistinct ∧ (∀ others, Holds env files source others ↔ others = sections) ∧
      ∀ order, found? env files explicit look (source, order) =
        look (ProfileSet.merge { selected := selectedProfile env explicit } source.kind
          (order.list sections)) := by
  cases hread : (source.readRequired env files).value with
  | error fault =>
    left
    refine ⟨?_, fun order => found?_of_error look hread⟩
    rintro sections ⟨file, hfile, -⟩
    cases hread.symm.trans hfile
  | ok file =>
    cases hparse : file.parse with
    | error error =>
      left
      refine ⟨?_, fun order => found?_of_malformed look hread hparse⟩
      rintro sections ⟨other, hother, hsections⟩
      obtain rfl := Except.ok.inj (hread.symm.trans hother)
      cases hparse.symm.trans hsections
    | ok sections =>
      right
      refine ⟨sections, isDistinct_of_parse hparse, ?_, fun order => ?_⟩
      · intro others
        constructor
        · rintro ⟨other, hother, hothers⟩
          obtain rfl := Except.ok.inj (hread.symm.trans hother)
          exact Except.ok.inj (hothers.symm.trans hparse)
        · rintro rfl
          exact ⟨file, hread, hparse⟩
      · rw [← kind_of_readRequired hread]
        exact found?_of_ok look hread hparse

/-- Which profiles a file has does not depend on an order. -/
theorem found?_name?_eq (source : Source) (order again : Enumeration) :
    found? env files explicit (·.name? profile) (source, order) =
      found? env files explicit (·.name? profile) (source, again) := by
  rcases found?_cases env files explicit (·.name? profile) source with
    ⟨-, hnone⟩ | ⟨sections, -, -, hfound⟩
  · rw [hnone, hnone]
  · rw [hfound, hfound, ProfileSet.name?_merge, ProfileSet.name?_merge,
      (order.isOrder sections).adds_eq, (again.isOrder sections).adds_eq]

/-- What a file that can be parsed yields for a property. -/
theorem found?_property?_cases (env : Environment) (files : FileStore) (explicit : Option String)
    (profile key : String) (source : Source) :
    ((∀ sections, ¬ Holds env files source sections) ∧
      ∀ order, found? env files explicit (·.property? profile key) (source, order) = none) ∨
    ∃ sections, sections.IsDistinct ∧ (∀ others, Holds env files source others ↔ others = sections) ∧
      ∀ order, found? env files explicit (·.property? profile key) (source, order) =
        ((order.list sections).definitions source.kind profile key).getLast?.map (Property.mk key) := by
  rcases found?_cases env files explicit (·.property? profile key) source with
    hnone | ⟨sections, distinct, holds, hfound⟩
  · exact .inl hnone
  · refine .inr ⟨sections, distinct, holds, fun order => ?_⟩
    have hempty : ProfileSet.property? { selected := selectedProfile env explicit } profile key =
      none := rfl
    rw [hfound, ProfileSet.property?_merge _ ((order.isOrder sections).isDistinct distinct), hempty,
      Option.or_none]

/-- Whether a file defines a property does not depend on an order. -/
theorem isSome_found?_iff (order : Enumeration) :
    (found? env files explicit (·.property? profile key) (source, order)).isSome = true ↔
      IsGivenBy env files source profile key := by
  rcases found?_property?_cases env files explicit profile key source with
    ⟨hnone, hfound⟩ | ⟨sections, distinct, holds, hfound⟩
  · rw [hfound]
    constructor
    · intro h
      cases h
    · rintro ⟨sections, name, value, hholds, -⟩
      exact absurd hholds (hnone sections)
  · rw [hfound, Option.isSome_map, List.getLast?_isSome]
    constructor
    · intro hne
      obtain ⟨value, hvalue⟩ := List.exists_mem_of_ne_nil _ hne
      obtain ⟨name, defines⟩ := ((order.isOrder sections).mem_definitions_iff distinct).mp hvalue
      exact ⟨sections, name, value, (holds sections).mpr rfl, defines⟩
    · rintro ⟨others, name, value, hholds, defines⟩
      obtain rfl := (holds others).mp hholds
      exact List.ne_nil_of_mem
        (((order.isOrder others).mem_definitions_iff distinct).mpr ⟨name, defines⟩)

/-- Where a file is not ambiguous, what it yields does not depend on an order. -/
theorem found?_property?_eq (clear : ∀ sections, Holds env files source sections →
      ¬ sections.IsAmbiguous source.kind profile key) (order again : Enumeration) :
    found? env files explicit (·.property? profile key) (source, order) =
      found? env files explicit (·.property? profile key) (source, again) := by
  rcases found?_property?_cases env files explicit profile key source with
    ⟨-, hnone⟩ | ⟨sections, distinct, holds, hfound⟩
  · rw [hnone, hnone]
  · rw [hfound, hfound, Sections.getLast?_definitions_eq distinct
      (clear sections ((holds sections).mpr rfl)) (order.isOrder sections) (again.isOrder sections)]

/-- A section that is gone through last gives the value. -/
theorem found?_lastly (holds : Holds env files source sections)
    (defines : sections.Defines source.kind profile key name value) :
    found? env files explicit (·.property? profile key) (source, .lastly name) =
      some ⟨key, value⟩ := by
  rcases found?_property?_cases env files explicit profile key source with
    ⟨hnone, -⟩ | ⟨others, distinct, hothers, hfound⟩
  · exact absurd holds (hnone sections)
  · obtain rfl := (hothers sections).mp holds
    rw [hfound, Sections.getLast?_definitions_lastly distinct defines, Option.map_some]

/-! ## Settled files -/

/-- Without its first source, a settled list is settled. -/
theorem IsSettled.tail (settled : IsSettled env files (source :: sources)) :
    IsSettled env files sources :=
  fun before other after heq => settled (source :: before) other after (by rw [heq]; rfl)

/-- A list of sources and orders begins with the first source and some order. -/
theorem exists_cons_of_map_fst {listed : List (Source × Enumeration)}
    (h : listed.map Prod.fst = source :: sources) :
    ∃ order rest, listed = (source, order) :: rest ∧ rest.map Prod.fst = sources := by
  obtain ⟨⟨first, order⟩, rest, rfl, rfl, hrest⟩ := List.map_eq_cons_iff.mp h
  exact ⟨order, rest, rfl, hrest⟩

/-- If all is settled, the value that is given last does not depend on orders. -/
theorem IsSettled.findSome?_reverse_eq (settled : IsSettled env files sources)
    {listed again : List (Source × Enumeration)} (hlisted : listed.map Prod.fst = sources)
    (hagain : again.map Prod.fst = sources) :
    listed.reverse.findSome? (found? env files explicit (·.property? profile key)) =
      again.reverse.findSome? (found? env files explicit (·.property? profile key)) := by
  induction sources generalizing listed again with
  | nil =>
    rw [List.map_eq_nil_iff.mp hlisted, List.map_eq_nil_iff.mp hagain]
  | cons source sources ih =>
    obtain ⟨order, rest, rfl, hrest⟩ := exists_cons_of_map_fst hlisted
    obtain ⟨order', rest', rfl, hrest'⟩ := exists_cons_of_map_fst hagain
    have htail := ih settled.tail hrest hrest'
    rw [List.reverse_cons, List.reverse_cons, List.findSome?_append, List.findSome?_append, ← htail,
      List.findSome?_singleton, List.findSome?_singleton]
    cases hlater : rest.reverse.findSome? (found? env files explicit (·.property? profile key)) with
    | some property => rfl
    | none =>
      -- no later file defines the property, so this one is not ambiguous about it
      rw [Option.none_or, Option.none_or]
      apply found?_property?_eq
      intro sections holds ambiguous
      obtain ⟨later, hmem, given⟩ :=
        settled [] source sources rfl sections profile key holds ambiguous
      rw [← hrest] at hmem
      obtain ⟨⟨first, order⟩, hlisted, rfl⟩ := List.mem_map.mp hmem
      have hnone := List.findSome?_eq_none_iff.mp hlater _ (List.mem_reverse.mpr hlisted)
      have hsome : (found? env files explicit (·.property? profile key) (first, order)).isSome = true :=
        (isSome_found?_iff order).mpr given
      rw [hnone] at hsome
      cases hsome

/-- The name that is found does not depend on the orders. -/
theorem findSome?_name?_eq {listed again : List (Source × Enumeration)}
    (hlisted : listed.map Prod.fst = sources) (hagain : again.map Prod.fst = sources) :
    listed.findSome? (found? env files explicit (·.name? profile)) =
      again.findSome? (found? env files explicit (·.name? profile)) := by
  induction sources generalizing listed again with
  | nil =>
    rw [List.map_eq_nil_iff.mp hlisted, List.map_eq_nil_iff.mp hagain]
  | cons source sources ih =>
    obtain ⟨order, rest, rfl, hrest⟩ := exists_cons_of_map_fst hlisted
    obtain ⟨order', rest', rfl, hrest'⟩ := exists_cons_of_map_fst hagain
    rw [List.findSome?_cons, List.findSome?_cons, found?_name?_eq source order order',
      ih hrest hrest']

/-- What two lists of the same files are merged into is the same if all is settled. -/
theorem IsSettled.isSame (settled : IsSettled env files sources)
    {listed again : List (Source × Enumeration)} (hlisted : listed.map Prod.fst = sources)
    (hagain : again.map Prod.fst = sources) {start set other : ProfileSet}
    (extension : Extends env files explicit listed start set)
    (extension' : Extends env files explicit again start other) : set.IsSame other where
  selected := extension.selected.trans extension'.selected.symm
  names profile := by
    rw [extension.names, extension'.names, findSome?_name?_eq hlisted hagain]
  properties profile key := by
    rw [extension.properties, extension'.properties, settled.findSome?_reverse_eq hlisted hagain]

/-- Files of which one is malformed fail to load with the same error in any orders. -/
theorem loadIn_eq_error_congr {error : ParseError} {listed again : List (Source × Enumeration)}
    (hlisted : listed.map Prod.fst = sources) (hagain : again.map Prod.fst = sources)
    (h : (loadIn env files listed explicit).value = .error error) :
    (loadIn env files again explicit).value = .error error := by
  rw [value_loadIn] at h ⊢
  rw [addFiles_eq_error_iff] at h ⊢
  rwa [hagain, ← hlisted]

/-- Some files, the section `name` of one of them last and all others as they were written. -/
def withLastly (before : List Source) (source : Source) (name : String) (after : List Source) :
    List (Source × Enumeration) :=
  before.map (·, .asWritten) ++ (source, .lastly name) :: after.map (·, .asWritten)

/-- The orders that let a section come last are for the same sources. -/
theorem map_fst_withLastly (before : List Source) (source : Source) (name : String)
    (after : List Source) :
    (withLastly before source name after).map Prod.fst = before ++ source :: after := by
  simp [withLastly, Function.comp_def]

/-- If no later file defines a property, the section that is gone through last gives the value. -/
theorem property?_withLastly {before after : List Source} {start set : ProfileSet}
    (holds : Holds env files source sections)
    (defines : sections.Defines source.kind profile key name value)
    (unsettled : ∀ later ∈ after, ¬ IsGivenBy env files later profile key)
    (extension : Extends env files explicit (withLastly before source name after) start set) :
    set.property? profile key = some ⟨key, value⟩ := by
  have hafter : (after.map (·, Enumeration.asWritten)).reverse.findSome?
      (found? env files explicit (·.property? profile key)) = none := by
    rw [List.findSome?_eq_none_iff]
    intro listed hlisted
    obtain ⟨later, hlater, rfl⟩ := List.mem_map.mp (List.mem_reverse.mp hlisted)
    rw [← Option.not_isSome_iff_eq_none, isSome_found?_iff]
    exact unsettled later hlater
  rw [extension.properties, withLastly, List.reverse_append, List.reverse_cons, List.append_assoc,
    List.findSome?_append, hafter, Option.none_or, List.singleton_append, List.findSome?_cons,
    found?_lastly holds defines]
  rfl

/-- Unless some file is malformed, loading is independent of all orders exactly if all is settled. -/
theorem loadsAlike_iff (env : Environment) (files : FileStore) (explicit : Option String)
    (sources : List Source) :
    LoadsAlike env files explicit sources ↔
      (∃ source ∈ sources, ∃ error, IsMalformed env files source error) ∨
        IsSettled env files sources := by
  constructor
  · intro alike
    by_cases hmalformed : ∃ source ∈ sources, ∃ error, IsMalformed env files source error
    · exact .inl hmalformed
    right
    rintro before source after rfl sections profile key holds
      ⟨name, other, value, otherValue, defines, otherDefines, hne⟩
    by_contra hsettled
    have unsettled (later : Source) (hlater : later ∈ after) :
        ¬ IsGivenBy env files later profile key :=
      fun given => hsettled ⟨later, hlater, given⟩
    have hload (name : String) : ∃ set,
        (loadIn env files (withLastly before source name after) explicit).value = .ok set ∧
          Extends env files explicit (withLastly before source name after)
            { selected := selectedProfile env explicit } set := by
      rw [value_loadIn]
      have hfine : ∀ listed ∈ withLastly before source name after, ∀ error,
          ¬ IsMalformed env files listed.1 error := by
        intro listed hlisted error hbad
        have hmem : listed.1 ∈ (withLastly before source name after).map Prod.fst :=
          List.mem_map.mpr ⟨listed, hlisted, rfl⟩
        rw [map_fst_withLastly] at hmem
        exact hmalformed ⟨listed.1, hmem, error, hbad⟩
      obtain ⟨set, hset⟩ := exists_addFiles_eq_ok hfine
      exact ⟨set, hset, Extends.of_addFiles hset⟩
    obtain ⟨set, hset, extension⟩ := hload name
    obtain ⟨set', hset', extension'⟩ := hload other
    have hsame := alike _ _ (map_fst_withLastly before source name after)
      (map_fst_withLastly before source other after)
    rw [hset, hset'] at hsame
    have hproperty := hsame.properties profile key
    rw [property?_withLastly holds defines unsettled extension,
      property?_withLastly holds otherDefines unsettled extension'] at hproperty
    injection hproperty with hproperty
    injection hproperty with _ hvalue
    exact hne hvalue
  · intro h listed again hlisted hagain
    cases hload : (loadIn env files listed explicit).value with
    | error error =>
      rw [loadIn_eq_error_congr hlisted hagain hload]
      rfl
    | ok set =>
      cases hload' : (loadIn env files again explicit).value with
      | error error =>
        rw [loadIn_eq_error_congr hagain hlisted hload'] at hload
        cases hload
      | ok other =>
        rw [value_loadIn] at hload hload'
        rcases h with ⟨source, hmem, error, hmalformed⟩ | settled
        · rw [← hlisted] at hmem
          obtain ⟨entry, hentry, rfl⟩ := List.mem_map.mp hmem
          exact absurd hmalformed (not_isMalformed_of_addFiles hload entry hentry error)
        · have extension : Extends env files explicit listed _ set := .of_addFiles hload
          exact settled.isSame hlisted hagain extension (.of_addFiles hload')

/-- Merging a file is independent of orders exactly if the file is nowhere ambiguous, which no
credentials file is. Loading several files is, exactly if one of them is malformed or every ambiguity
of one is settled by a later one. -/
theorem anyOrder_iff {text : String} {sections : Sections}
    (hparse : Sections.parse text = .ok sections) (kind : Kind) (env : Environment)
    (files : FileStore) (explicit : Option String) (sources : List Source) :
    (sections.MergesAlike kind ↔ ∀ profile key, ¬ sections.IsAmbiguous kind profile key) ∧
      (∀ profile key, ¬ sections.IsAmbiguous .credentials profile key) ∧
      (LoadsAlike env files explicit sources ↔
        (∃ source ∈ sources, ∃ error, IsMalformed env files source error) ∨
          IsSettled env files sources) := by
  have distinct := (isWritable_of_parse hparse).isDistinct
  refine ⟨Sections.mergesAlike_iff distinct, fun profile key => ?_, loadsAlike_iff env files _ _⟩
  exact Sections.not_isAmbiguous_credentials

/-- A file with two sections that speak about the same profile. -/
def twoSpellings : String :=
  "[profile  a]\nk = y\n[profile a]\nk = x\n"

/-- In this file the order of the sections counts. -/
theorem twoSpellings_orderMatters : ∃ sections, Sections.parse twoSpellings = .ok sections ∧
    ¬ sections.MergesAlike .config ∧ ¬ LoadsAlike {} {} none [.contents .config twoSpellings] := by
  let sections : Sections := ⟨[("profile  a", ⟨[("k", "y")]⟩), ("profile a", ⟨[("k", "x")]⟩)]⟩
  have hparse : Sections.parse twoSpellings = .ok sections := by rfl
  have ambiguous : sections.IsAmbiguous .config "a" "k" := by
    refine ⟨"profile  a", "profile a", "y", "x", ⟨⟨?_, ?_⟩, ?_, ?_⟩, ⟨⟨?_, ?_⟩, ?_, ?_⟩, ?_⟩ <;> decide
  have holds : Holds {} {} (.contents .config twoSpellings) sections := ⟨_, rfl, by rfl⟩
  obtain ⟨merging, -, loading⟩ :=
    anyOrder_iff hparse .config {} {} none [.contents .config twoSpellings]
  refine ⟨sections, hparse, fun alike => merging.mp alike "a" "k" ambiguous, fun alike => ?_⟩
  rcases loading.mp alike with ⟨source, hmem, error, file, hread, hfault⟩ | settled
  · rw [List.mem_singleton.mp hmem] at hread
    obtain rfl := Except.ok.inj hread
    cases hfault
  · obtain ⟨later, hlater, -⟩ := settled [] _ [] rfl sections "a" "k" holds ambiguous
    cases hlater

end

end CloudSession.Profile
