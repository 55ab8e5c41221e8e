/-!
# Tables

A table gives values to names. Names keep the order in which they were first written, and writing a
name again replaces its value in place.
-/

namespace CloudSession

/-- Values by name, in the order in which the names were first written. -/
structure Table (α : Type) where
  entries : List (String × α) := []
  deriving Repr, DecidableEq

namespace Table

variable {α : Type}

/-- The table without names. -/
def empty : Table α := {}

/-- The empty table. -/
instance : EmptyCollection (Table α) := ⟨empty⟩

/-- A table is inhabited by the empty one. -/
instance : Inhabited (Table α) := ⟨empty⟩

/-- The value of `name` in a list of entries. -/
def lookup (name : String) : List (String × α) → Option α
  | [] => none
  | (key, value) :: rest => if key = name then some value else lookup name rest

/-- The value of `name`. -/
def get? (table : Table α) (name : String) : Option α :=
  lookup name table.entries

/-- Whether the table gives a value to `name`. -/
def contains (table : Table α) (name : String) : Bool :=
  (table.get? name).isSome

/-- Changes the value of `name` by `f`, which sees the value that is there, if any. -/
def alterEntries (name : String) (f : Option α → α) : List (String × α) → List (String × α)
  | [] => [(name, f none)]
  | (key, value) :: rest =>
    if key = name then (key, f (some value)) :: rest else (key, value) :: alterEntries name f rest

/-- The table with the value of `name` changed by `f`, which sees the value that is there, if any. -/
def alter (table : Table α) (name : String) (f : Option α → α) : Table α :=
  ⟨alterEntries name f table.entries⟩

/-- The table with `value` as the value of `name`. -/
def insert (table : Table α) (name : String) (value : α) : Table α :=
  table.alter name fun _ => value

/-- Whether the table has no name. -/
def isEmpty (table : Table α) : Bool :=
  table.entries.isEmpty

/-- The names, in order. -/
def names (table : Table α) : List String :=
  table.entries.map Prod.fst

/-- In an empty table, nothing is found. -/
@[simp] theorem get?_empty (name : String) : (empty : Table α).get? name = none := rfl

/-- Changing one name shows in its own value alone. -/
theorem lookup_alterEntries (name other : String) (f : Option α → α) (entries : List (String × α)) :
    lookup other (alterEntries name f entries) =
      if other = name then some (f (lookup name entries)) else lookup other entries := by
  induction entries with
  | nil => grind [alterEntries, lookup]
  | cons entry rest ih => grind [alterEntries, lookup]

/-- To alter an entry changes what is found under its name, and nothing else. -/
theorem get?_alter (table : Table α) (name other : String) (f : Option α → α) :
    (table.alter name f).get? other =
      if other = name then some (f (table.get? name)) else table.get? other :=
  lookup_alterEntries name other f table.entries

/-- To insert an entry changes what is found under its name, and nothing else. -/
theorem get?_insert (table : Table α) (name other : String) (value : α) :
    (table.insert name value).get? other = if other = name then some value else table.get? other :=
  get?_alter table name other _

end Table

end CloudSession
