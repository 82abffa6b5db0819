import PlanScribe.Tree.Basic

/-!
# Records

A record is written as a table with one entry for each field, or as an array of the fields in the
order of their declaration. A table may name no other key and none twice. An array may leave off
fields at its end; whether it may go on after the last field is up to the format.
-/
namespace PlanScribe.Record

variable {α β : Type}

/-- The fields of a record that is written as a table. -/
def named (names : List String) (entries : List (String × α)) : Option (List (Option α)) :=
  let keys := entries.map Prod.fst
  if keys.all names.contains && decide keys.Nodup then
    some (names.map fun name => entries.lookup name)
  else none

/-- The fields of a record that is written as an array. -/
def positional (surplus : Bool) (names : List String) (items : List α) :
    Option (List (Option α)) :=
  if surplus || items.length ≤ names.length then
    some ((List.range names.length).map fun n => items[n]?)
  else none

/-- A field that has to be there. -/
def required (read : α → Option β) : Option α → Option β
  | none => none
  | some item => read item

/-- A field with a default value. -/
def orElse (default : β) (read : α → Option β) : Option α → Option β
  | none => some default
  | some item => read item

/-- A field that may be left out or be null. -/
def optional (isNull : α → Bool) (read : α → Option β) : Option α → Option (Option β)
  | none => some none
  | some item => if isNull item then some none else (read item).map some

end PlanScribe.Record
