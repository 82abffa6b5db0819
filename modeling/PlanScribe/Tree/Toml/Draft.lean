import PlanScribe.Tree.Basic

/-!
# Tables in the making

A TOML file builds its tables piece by piece: by headers, by headers of tables inside them, and by
dotted keys. A draft remembers how each table came about, since a table is defined only once, and
values and inline tables cannot be added to.
-/
namespace PlanScribe.Toml

/-- How a table came about: by its own header, by the header of a table inside it, or by a dotted
key. -/
inductive Origin
  | header
  | implied
  | dotted
deriving DecidableEq, Repr

/-- A value of a table in the making. The tables of an array of tables stand in reverse order. -/
inductive Draft
  | value (tree : Tree)
  | table (origin : Origin) (entries : List (String × Draft))
  | tables (items : List (List (String × Draft)))

/-- The entries of a table in the making. -/
abbrev Entries := List (String × Draft)

namespace Entries

/-- Exchanges the value of a key, or adds one. -/
def set (key : String) (draft : Draft) : Entries → Entries
  | [] => [(key, draft)]
  | (k, d) :: rest => if k = key then (key, draft) :: rest else (k, d) :: set key draft rest

/-- Changes the entries of the table at the end of a path, starting from a table of the given
origin. Missing tables are made on the way; in an array of tables the last one is meant. -/
def descend (byDots : Bool) (change : Origin → Entries → Option Entries) :
    (origin : Origin) → (path : List String) → Entries → Option Entries
  | origin, [], entries => change origin entries
  | _, key :: path, entries =>
    match entries.lookup key with
    | none =>
      let origin : Origin := if byDots then .dotted else .implied
      (descend byDots change origin path []).map fun inner =>
        entries.set key (.table origin inner)
    | some (.table origin inner) =>
      if byDots && origin == .header then none
      else (descend byDots change origin path inner).map fun inner =>
        entries.set key (.table origin inner)
    | some (.tables (last :: before)) =>
      (descend byDots change .header path last).map fun last =>
        entries.set key (.tables (last :: before))
    | some (.tables []) | some (.value _) => none

/-- Defines the value at a dotted key, which is new. -/
def define (path : List String) (key : String) (tree : Tree) (entries : Entries) :
    Option Entries :=
  descend true
    (fun origin table =>
      if (origin == .dotted) == path.isEmpty || (table.lookup key).isSome then none
      else some (table.set key (.value tree)))
    .header path entries

/-- Opens the table of a header. It is new, or was so far only implied. -/
def openTable (path : List String) (key : String) (entries : Entries) : Option Entries :=
  descend false
    (fun _ table =>
      match table.lookup key with
      | none => some (table.set key (.table .header []))
      | some (.table .implied inner) => some (table.set key (.table .header inner))
      | some _ => none)
    .header path entries

/-- Adds a table to the array of tables of a header, which is new if there is none. -/
def addTable (path : List String) (key : String) (entries : Entries) : Option Entries :=
  descend false
    (fun _ table =>
      match table.lookup key with
      | none => some (table.set key (.tables [[]]))
      | some (.tables items) => some (table.set key (.tables ([] :: items)))
      | some _ => none)
    .header path entries

/-- Defines a value in the table that a header has opened. -/
def defineIn (header path : List String) (key : String) (tree : Tree) (entries : Entries) :
    Option Entries :=
  descend false (fun _ table => Entries.define path key tree table) .header header entries

end Entries

mutual

def Draft.tree : Draft → Tree
  | .value tree => tree
  | .table _ entries => .table (treesOf entries)
  | .tables items => .array (tablesOf items).reverse
termination_by structural draft => draft

/-- The finished entries of a table. -/
def treesOf : List (String × Draft) → List (String × Tree)
  | [] => []
  | (key, draft) :: rest => (key, draft.tree) :: treesOf rest
termination_by structural entries => entries

def tablesOf : List (List (String × Draft)) → List Tree
  | [] => []
  | entries :: rest => .table (treesOf entries) :: tablesOf rest
termination_by structural items => items

end

end PlanScribe.Toml
