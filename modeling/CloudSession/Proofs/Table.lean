import CloudSession.Table
import Mathlib.Data.List.Nodup

/-!
# Entries of tables

Which entries a table has after a write. No name is given two values, and a name that is new comes
after the others.
-/

namespace CloudSession.Table

variable {α : Type} {name : String} {f : Option α → α} {entries : List (String × α)}
  {entry : String × α}

/-- Without repeated names, the value of a name is that of its one entry. -/
theorem lookup_eq_some_iff {value : α} (distinct : (entries.map Prod.fst).Nodup) :
    lookup name entries = some value ↔ (name, value) ∈ entries := by
  induction entries with
  | nil => simp [lookup]
  | cons first rest ih =>
    obtain ⟨key, other⟩ := first
    rw [List.map_cons, List.nodup_cons] at distinct
    rw [lookup, List.mem_cons, Prod.mk.injEq]
    split
    · next heq =>
      subst heq
      have hnot : (key, value) ∉ rest := fun hmem => distinct.1 (List.mem_map.mpr ⟨_, hmem, rfl⟩)
      simp [hnot, eq_comm]
    · next hne =>
      rw [ih distinct.2]
      simp [Ne.symm hne]

/-- Nothing is looked up just where no entry has the name. -/
theorem lookup_eq_none_iff : lookup name entries = none ↔ name ∉ entries.map Prod.fst := by
  induction entries with
  | nil => simp [lookup]
  | cons first rest ih =>
    obtain ⟨key, other⟩ := first
    rw [lookup, List.map_cons, List.mem_cons, not_or]
    split
    · next heq => simp [heq]
    · next hne => rw [ih, and_iff_right (Ne.symm hne)]

/-- Entries in front count first. -/
theorem lookup_append (name : String) (entries others : List (String × α)) :
    lookup name (entries ++ others) = (lookup name entries).or (lookup name others) := by
  induction entries with
  | nil => rfl
  | cons first rest ih =>
    obtain ⟨key, value⟩ := first
    rw [List.cons_append, lookup, lookup, ih]
    split <;> rfl

/-- The order of the entries does not matter to the value of a name. -/
theorem lookup_perm {others : List (String × α)} (perm : others.Perm entries)
    (distinct : (entries.map Prod.fst).Nodup) : lookup name others = lookup name entries := by
  have distinct' : (others.map Prod.fst).Nodup := (perm.map Prod.fst).nodup_iff.mpr distinct
  apply Option.ext
  intro value
  rw [lookup_eq_some_iff distinct', lookup_eq_some_iff distinct, perm.mem_iff]

/-- What a write leaves: the entries of other names, and one of its own. -/
theorem mem_alterEntries (h : entry ∈ alterEntries name f entries) :
    entry ∈ entries ∨ entry = (name, f none) ∨ ∃ old, (name, old) ∈ entries ∧
      entry = (name, f (some old)) := by
  induction entries with
  | nil => exact .inr (.inl (List.mem_singleton.mp h))
  | cons first rest ih =>
    obtain ⟨key, value⟩ := first
    rw [alterEntries] at h
    split at h
    · next heq =>
      subst heq
      rcases List.mem_cons.mp h with rfl | hrest
      · exact .inr (.inr ⟨value, List.mem_cons_self, rfl⟩)
      · exact .inl (List.mem_cons_of_mem _ hrest)
    · rcases List.mem_cons.mp h with rfl | hrest
      · exact .inl List.mem_cons_self
      · rcases ih hrest with hold | hnew | ⟨old, hmem, heq⟩
        · exact .inl (List.mem_cons_of_mem _ hold)
        · exact .inr (.inl hnew)
        · exact .inr (.inr ⟨old, List.mem_cons_of_mem _ hmem, heq⟩)

/-- What holds of every entry holds after a write that keeps it. -/
theorem forall_alter {table : Table α} {P : String → α → Prop}
    (h : ∀ key value, (key, value) ∈ table.entries → P key value) (hnew : P name (f none))
    (hold : ∀ old, P name old → P name (f (some old))) :
    ∀ key value, (key, value) ∈ (table.alter name f).entries → P key value := by
  intro key value hmem
  rcases mem_alterEntries hmem with hkept | heq | ⟨old, hmemOld, heq⟩
  · exact h key value hkept
  · obtain ⟨rfl, rfl⟩ := Prod.mk.inj heq
    exact hnew
  · obtain ⟨rfl, rfl⟩ := Prod.mk.inj heq
    exact hold old (h key old hmemOld)

/-- A write adds no second value for a name. -/
theorem names_alterEntries (name : String) (f : Option α → α) (entries : List (String × α)) :
    (alterEntries name f entries).map Prod.fst =
      if name ∈ entries.map Prod.fst then entries.map Prod.fst else entries.map Prod.fst ++ [name] := by
  induction entries with
  | nil => rfl
  | cons first rest ih =>
    obtain ⟨key, value⟩ := first
    rw [alterEntries]
    by_cases heq : key = name
    · simp [heq]
    · rw [if_neg heq, List.map_cons, ih]
      by_cases hmem : name ∈ rest.map Prod.fst
      · simp [hmem]
      · simp [hmem, Ne.symm heq]

/-- To alter an entry keeps the names distinct. -/
theorem nodup_names_alter {table : Table α} (h : table.names.Nodup) :
    (table.alter name f).names.Nodup := by
  unfold names alter
  rw [names_alterEntries]
  split
  · exact h
  · next hnew => exact List.nodup_append_comm.mp (List.nodup_cons.mpr ⟨hnew, h⟩)

/-- A write passes over other names. -/
theorem alterEntries_append (h : name ∉ entries.map Prod.fst) (rest : List (String × α)) :
    alterEntries name f (entries ++ rest) = entries ++ alterEntries name f rest := by
  induction entries with
  | nil => rfl
  | cons first others ih =>
    obtain ⟨key, value⟩ := first
    rw [List.map_cons, List.mem_cons, not_or] at h
    simp [alterEntries, Ne.symm h.1, ih h.2]

/-- A name that is new comes last. -/
theorem alter_of_not_mem (h : name ∉ entries.map Prod.fst) :
    (⟨entries⟩ : Table α).alter name f = ⟨entries ++ [(name, f none)]⟩ := by
  have happend := alterEntries_append (f := f) h []
  rw [List.append_nil] at happend
  rw [alter, happend, alterEntries]

/-- The last value is changed in place. -/
theorem alter_concat (h : name ∉ entries.map Prod.fst) (old : α) :
    (⟨entries ++ [(name, old)]⟩ : Table α).alter name f = ⟨entries ++ [(name, f (some old))]⟩ := by
  rw [alter, alterEntries_append h, alterEntries, if_pos rfl]

end CloudSession.Table
