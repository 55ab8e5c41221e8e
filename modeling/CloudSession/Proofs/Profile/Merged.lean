import CloudSession.Profile.Load
import CloudSession.Proofs.Profile.Written

/-!
# What merging a file changes

A file that is merged into a set of profiles adds the profiles that its sections speak about, and
gives their properties the values that these sections define. Of two sections that define the same
property of the same profile, the one counts that is gone through last.
-/

namespace CloudSession.Profile

/-- No two sections have the same name, and no two properties of a section have the same key. -/
structure Sections.IsDistinct (sections : Sections) : Prop where
  names : (Table.names sections).Nodup
  keys : ∀ name properties, (name, properties) ∈ sections.entries → properties.names.Nodup

/-- The section `name` speaks about a profile. -/
def Sections.SpeaksOf (sections : Sections) (kind : Kind) (profile name : String) : Prop :=
  name ∈ Table.names sections ∧
    profileOf kind (hasPrefixedDefault kind sections) name = .ok profile

/-- The section `name` gives a property of a profile this value. -/
structure Sections.Defines (sections : Sections) (kind : Kind) (profile key name value : String) :
    Prop where
  speaks : sections.SpeaksOf kind profile name
  isIdentifier : isIdentifier key = true
  value : sections.value? name key = some value

/-- The value that a section gives a property of a profile, if it does. -/
def sectionValue? (kind : Kind) (shadowed : Bool) (profile key : String)
    (entry : String × Table String) : Option String :=
  if profileOf kind shadowed entry.1 = .ok profile ∧ isIdentifier key = true then entry.2.get? key
  else none

/-- The values that the sections of a file give a property of a profile, in order. -/
def Sections.definitions (sections : Sections) (kind : Kind) (profile key : String) : List String :=
  sections.entries.filterMap (sectionValue? kind (hasPrefixedDefault kind sections) profile key)

/-- Whether some section of a file speaks about a profile. -/
def Sections.adds (sections : Sections) (kind : Kind) (profile : String) : Bool :=
  (Table.names sections).any fun name =>
    profileOf kind (hasPrefixedDefault kind sections) name = .ok profile

namespace ProfileSet

/-- A property of a profile. -/
def property? (set : ProfileSet) (profile key : String) : Option Property :=
  (set.profile? profile).bind fun entry => entry.stored.get? key

/-- The name that a profile has, if there is one. -/
def name? (set : ProfileSet) (profile : String) : Option String :=
  (set.profile? profile).map Entry.name

end ProfileSet

variable {kind : Kind} {shadowed : Bool} {name profile key value : String} {sections listed : Sections}

/-! ## Orders -/

/-- Sections that can be written have distinct names and keys. -/
theorem Sections.IsWritable.isDistinct (writable : sections.IsWritable) : sections.IsDistinct where
  names := writable.distinct
  keys name properties hmem := (writable.each name properties hmem).2.distinct

namespace Sections

/-- A section has a value if one of its entries says so. -/
theorem value?_eq_some_iff (distinct : sections.IsDistinct) :
    sections.value? name key = some value ↔
      ∃ properties, (name, properties) ∈ sections.entries ∧ properties.get? key = some value := by
  have hmem (properties : Table String) :
      Table.get? sections name = some properties ↔ (name, properties) ∈ sections.entries :=
    Table.lookup_eq_some_iff distinct.names
  simp only [value?, Option.bind_eq_some_iff, hmem]

/-- A value is among the definitions of a key if some section defines the key as that. -/
theorem mem_definitions_iff (distinct : sections.IsDistinct) :
    value ∈ sections.definitions kind profile key ↔
      ∃ name, sections.Defines kind profile key name value := by
  simp only [definitions, List.mem_filterMap, sectionValue?, Option.ite_none_right_eq_some]
  constructor
  · rintro ⟨⟨name, properties⟩, hmem, ⟨hprofile, hkey⟩, hvalue⟩
    refine ⟨name, ⟨List.mem_map_of_mem hmem, hprofile⟩, hkey, ?_⟩
    exact (value?_eq_some_iff distinct).mpr ⟨properties, hmem, hvalue⟩
  · rintro ⟨name, ⟨-, hprofile⟩, hkey, hvalue⟩
    obtain ⟨properties, hmem, hget⟩ := (value?_eq_some_iff distinct).mp hvalue
    exact ⟨(name, properties), hmem, ⟨hprofile, hkey⟩, hget⟩

namespace IsOrderOf

/-- An order of distinct sections is distinct. -/
theorem isDistinct (order : listed.IsOrderOf sections) (distinct : sections.IsDistinct) :
    listed.IsDistinct where
  names := order.names.nodup_iff.mpr distinct.names
  keys name properties hmem := by
    obtain ⟨written, hwritten, hperm⟩ := order.properties name properties hmem
    exact (hperm.map Prod.fst).nodup_iff.mpr (distinct.keys name written hwritten)

/-- In every order, there is a default profile with a prefix or none. -/
theorem hasPrefixedDefault_eq (order : listed.IsOrderOf sections) :
    hasPrefixedDefault kind listed = hasPrefixedDefault kind sections := by
  unfold hasPrefixedDefault
  rw [order.names.any_eq]

/-- In any order, a property of a section has the same value. -/
theorem value?_eq (order : listed.IsOrderOf sections) (distinct : sections.IsDistinct) :
    listed.value? name key = sections.value? name key := by
  cases hlisted : Table.get? listed name with
  | none =>
    have hname : name ∉ Table.names sections := by
      rw [← order.names.mem_iff]
      exact Table.lookup_eq_none_iff.mp hlisted
    have hsections : Table.get? sections name = none := Table.lookup_eq_none_iff.mpr hname
    rw [value?, value?, hlisted, hsections]
  | some properties =>
    have hmem := (Table.lookup_eq_some_iff (order.isDistinct distinct).names).mp hlisted
    obtain ⟨written, hwritten, hperm⟩ := order.properties name properties hmem
    have hsections : Table.get? sections name = some written :=
      (Table.lookup_eq_some_iff distinct.names).mpr hwritten
    rw [value?, value?, hlisted, hsections]
    exact Table.lookup_perm hperm (distinct.keys name written hwritten)

/-- In every order, the same sections speak of a profile. -/
theorem speaksOf_iff (order : listed.IsOrderOf sections) :
    listed.SpeaksOf kind profile name ↔ sections.SpeaksOf kind profile name := by
  rw [SpeaksOf, SpeaksOf, order.hasPrefixedDefault_eq, order.names.mem_iff]

/-- In every order, the same sections define the same. -/
theorem defines_iff (order : listed.IsOrderOf sections) (distinct : sections.IsDistinct) :
    listed.Defines kind profile key name value ↔ sections.Defines kind profile key name value := by
  constructor
  · rintro ⟨speaks, hkey, hvalue⟩
    exact ⟨order.speaksOf_iff.mp speaks, hkey, order.value?_eq distinct ▸ hvalue⟩
  · rintro ⟨speaks, hkey, hvalue⟩
    exact ⟨order.speaksOf_iff.mpr speaks, hkey, (order.value?_eq distinct).symm ▸ hvalue⟩

end IsOrderOf

end Sections

/-! ## One section -/

namespace ProfileSet

/-- What is merged into the properties of a profile counts instead of what is there. -/
theorem get?_mergeProperties (stored : Table Property) {definitions : List (String × String)}
    (distinct : (definitions.map Prod.fst).Nodup) :
    (mergeProperties stored definitions).get? key =
      ((if isIdentifier key then Table.lookup key definitions else none).map (Property.mk key)).or
        (stored.get? key) := by
  induction definitions generalizing stored with
  | nil => simp [mergeProperties, Table.lookup]
  | cons definition rest ih =>
    obtain ⟨other, value⟩ := definition
    rw [List.map_cons, List.nodup_cons] at distinct
    have hrest := ih (if isIdentifier other then stored.insert other ⟨other, value⟩ else stored)
      distinct.2
    rw [mergeProperties, List.foldl_cons]
    rw [mergeProperties] at hrest
    rw [hrest, Table.lookup]
    by_cases heq : other = key
    · subst heq
      have hnone : Table.lookup other rest = none := Table.lookup_eq_none_iff.mpr distinct.1
      by_cases hkey : isIdentifier other = true <;> simp [hnone, hkey, Table.get?_insert]
    · by_cases hother : isIdentifier other = true <;>
        simp [heq, hother, Table.get?_insert, Ne.symm heq]

/-- A section that is merged gives its own value for a property, and leaves the earlier one where it
has none. -/
theorem property?_mergeSection (set : ProfileSet) {properties : Table String}
    (distinct : properties.names.Nodup) :
    (set.mergeSection kind shadowed name properties).property? profile key =
      ((sectionValue? kind shadowed profile key (name, properties)).map (Property.mk key)).or
        (set.property? profile key) := by
  unfold mergeSection sectionValue?
  cases hprofile : profileOf kind shadowed name with
  | error warning => simp
  | ok other =>
    simp only [property?, profile?, Table.get?_alter, Except.ok.injEq]
    by_cases heq : profile = other
    · subst heq
      have hold : ((set.profiles.get? profile).getD { name := profile }).stored.get? key =
          (set.profiles.get? profile).bind fun entry => entry.stored.get? key := by
        cases set.profiles.get? profile <;> rfl
      rw [if_pos rfl, Option.bind_some, get?_mergeProperties _ distinct, hold]
      simp [Table.get?]
    · simp [heq, Ne.symm heq]

/-- A section that is merged names its profile, if it was not named already. -/
theorem name?_mergeSection (set : ProfileSet) (properties : Table String) :
    (set.mergeSection kind shadowed name properties).name? profile =
      (set.name? profile).or
        (if profileOf kind shadowed name = .ok profile then some profile else none) := by
  unfold mergeSection
  cases hprofile : profileOf kind shadowed name with
  | error warning => simp
  | ok other =>
    simp only [name?, profile?, Table.get?_alter, Except.ok.injEq]
    by_cases heq : profile = other
    · subst heq
      cases set.profiles.get? profile <;> simp
    · simp [heq, Ne.symm heq]

/-- A section that is merged does not change which profile is selected. -/
theorem mergeSection_selected (set : ProfileSet) (kind : Kind) (shadowed : Bool) (name : String)
    (properties : Table String) :
    (set.mergeSection kind shadowed name properties).selected = set.selected := by
  unfold mergeSection
  split <;> rfl

/-! ## One file -/

/-- Sections that are merged do not change which profile is selected. -/
theorem merge_selected (set : ProfileSet) (kind : Kind) (sections : Sections) :
    (set.merge kind sections).selected = set.selected := by
  unfold merge
  generalize hasPrefixedDefault kind sections = shadowed
  induction sections.entries generalizing set with
  | nil => rfl
  | cons entry rest ih => rw [List.foldl_cons, ih, mergeSection_selected]

/-- What a file gives to a property counts instead of what is there, and its last section counts
most. -/
theorem property?_merge (set : ProfileSet) (distinct : sections.IsDistinct) :
    (set.merge kind sections).property? profile key =
      ((sections.definitions kind profile key).getLast?.map (Property.mk key)).or
        (set.property? profile key) := by
  have hkeys := distinct.keys
  unfold merge Sections.definitions
  generalize hasPrefixedDefault kind sections = shadowed
  generalize sections.entries = entries at hkeys
  induction entries generalizing set with
  | nil => simp
  | cons entry rest ih =>
    obtain ⟨name, properties⟩ := entry
    have hrest := ih (set.mergeSection kind shadowed name properties)
      fun other others hmem => hkeys other others (List.mem_cons_of_mem _ hmem)
    rw [List.foldl_cons, hrest, property?_mergeSection _ (hkeys name properties List.mem_cons_self)]
    cases hvalue : sectionValue? kind shadowed profile key (name, properties) with
    | none => rw [List.filterMap_cons_none hvalue, Option.map_none, Option.none_or]
    | some value =>
      rw [List.filterMap_cons_some hvalue, List.getLast?_cons, ← Option.or_assoc]
      cases (rest.filterMap _).getLast? <;> rfl

/-- The profiles that the sections of a file speak about are added. -/
theorem name?_merge (set : ProfileSet) (kind : Kind) (sections : Sections) (profile : String) :
    (set.merge kind sections).name? profile =
      (set.name? profile).or (if sections.adds kind profile then some profile else none) := by
  unfold merge Sections.adds Table.names
  generalize hasPrefixedDefault kind sections = shadowed
  induction sections.entries generalizing set with
  | nil => simp
  | cons entry rest ih =>
    obtain ⟨name, properties⟩ := entry
    rw [List.foldl_cons, ih, name?_mergeSection, List.map_cons, List.any_cons]
    by_cases hname : profileOf kind shadowed name = .ok profile
    · rw [if_pos hname, decide_eq_true hname, Bool.true_or, if_pos rfl]
      cases set.name? profile <;> simp
    · rw [if_neg hname, decide_eq_false hname, Bool.false_or, Option.or_none]

end ProfileSet

end CloudSession.Profile
