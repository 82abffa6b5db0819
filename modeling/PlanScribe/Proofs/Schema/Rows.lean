import PlanScribe.Plan.Schema
import Mathlib.Data.List.Forall2
import Mathlib.Data.List.Nodup

/-!
# Rows of fields

A record is read by way of its row: what stands in each of its fields, in the order of declaration.
Reading a row does not depend on what becomes of the items in it, so what a node means inside a body
can be said in terms of the trees below it.
-/
namespace PlanScribe

namespace Record

variable {α β γ : Type}

/-! ## Rows -/

theorem named_eq_some_iff {names : List String} {entries : List (String × α)}
    {row : List (Option α)} :
    named names entries = some row ↔
      (∀ key ∈ entries.map Prod.fst, key ∈ names) ∧ (entries.map Prod.fst).Nodup ∧
        row = names.map fun name => entries.lookup name := by
  unfold named
  simp only [Bool.and_eq_true, List.all_eq_true, List.contains_iff_mem, decide_eq_true_eq]
  split_ifs with h
  · rw [Option.some.injEq, eq_comm]
    exact ⟨fun hrow => ⟨h.1, h.2, hrow⟩, fun hall => hall.2.2⟩
  · exact ⟨nofun, fun ⟨hknown, hnodup, _⟩ => absurd ⟨hknown, hnodup⟩ h⟩

theorem positional_eq_some_iff {surplus : Bool} {names : List String} {items : List α}
    {row : List (Option α)} :
    positional surplus names items = some row ↔
      (surplus = true ∨ items.length ≤ names.length) ∧
        row = (List.range names.length).map fun n => items[n]? := by
  unfold positional
  simp only [Bool.or_eq_true, decide_eq_true_eq]
  split_ifs with h
  · simp [h, eq_comm]
  · simp [h]

/-! ## Keys that are not repeated -/

theorem lookup_middle {before after : List (String × α)} {name : String} {item : α}
    (hnodup : ((before ++ (name, item) :: after).map Prod.fst).Nodup) :
    (before ++ (name, item) :: after).lookup name = some item := by
  rw [List.lookup_eq_some_iff]
  refine ⟨before, after, rfl, fun e he => ?_⟩
  rw [List.map_append, List.map_cons, List.nodup_middle, List.nodup_cons] at hnodup
  have hne : name ≠ e.1 := by
    rintro rfl
    exact hnodup.1 (List.mem_append_left _ (List.mem_map.mpr ⟨e, he, rfl⟩))
  simpa using hne

theorem lookup_eq_some_iff_mem {entries : List (String × α)} {name : String} {item : α}
    (hnodup : (entries.map Prod.fst).Nodup) :
    entries.lookup name = some item ↔ (name, item) ∈ entries := by
  constructor
  · intro h
    obtain ⟨before, after, rfl, -⟩ := List.lookup_eq_some_iff.mp h
    simp
  · intro h
    obtain ⟨before, after, rfl⟩ := List.append_of_mem h
    exact lookup_middle hnodup

/-- The order of the entries does not matter. -/
theorem lookup_eq_of_perm {entries written : List (String × α)} (hperm : written.Perm entries)
    (hnodup : (entries.map Prod.fst).Nodup) (name : String) :
    written.lookup name = entries.lookup name := by
  have hwritten : (written.map Prod.fst).Nodup := (hperm.map Prod.fst).nodup_iff.mpr hnodup
  apply Option.ext
  intro item
  rw [lookup_eq_some_iff_mem hwritten, lookup_eq_some_iff_mem hnodup, hperm.mem_iff]

/-! ## Items that are transformed -/

theorem lookup_map (f : α → β) (key : String) (entries : List (String × α)) :
    (entries.map fun e => (e.1, f e.2)).lookup key = (entries.lookup key).map f := by
  induction entries with
  | nil => rfl
  | cons e rest ih =>
    rw [List.map_cons, List.lookup_cons, List.lookup_cons, ih]
    cases key == e.1 <;> rfl

theorem named_map (f : α → β) (names : List String) (entries : List (String × α)) :
    named names (entries.map fun e => (e.1, f e.2))
      = (named names entries).map (List.map (Option.map f)) := by
  have hkeys : (entries.map fun e => (e.1, f e.2)).map Prod.fst = entries.map Prod.fst := by simp
  unfold named
  simp only [hkeys, lookup_map]
  split_ifs <;> simp

theorem positional_map (f : α → β) (surplus : Bool) (names : List String) (items : List α) :
    positional surplus names (items.map f)
      = (positional surplus names items).map (List.map (Option.map f)) := by
  unfold positional
  simp only [List.length_map, List.getElem?_map]
  split_ifs <;> simp

@[simp] theorem required_map (f : α → β) (read : β → Option γ) (cell : Option α) :
    required read (cell.map f) = required (fun item => read (f item)) cell := by
  cases cell <;> rfl

@[simp] theorem orElse_map (default : γ) (f : α → β) (read : β → Option γ) (cell : Option α) :
    orElse default read (cell.map f) = orElse default (fun item => read (f item)) cell := by
  cases cell <;> rfl

@[simp] theorem optional_map (f : α → β) (isNull : β → Bool) (read : β → Option γ)
    (cell : Option α) :
    optional isNull read (cell.map f)
      = optional (fun item => isNull (f item)) (fun item => read (f item)) cell := by
  cases cell <;> rfl

end Record

namespace Tree

/-! ## Texts and numbers -/

@[simp] theorem isSome_text?_iff {tree : Tree} :
    tree.text?.isSome = true ↔ ∃ value, tree = .text value := by
  cases tree <;> simp [text?]

theorem exists_of_isSome_word? {tree : Tree} (h : tree.word?.isSome = true) :
    ∃ n, tree = .integer n := by
  cases tree with
  | integer n => exact ⟨n, rfl⟩
  | _ => cases h

/-! ## Nodes of a body -/

/-- The fields of a node inside a body, each as what it means there. -/
def cells (tree : Tree) : Roles.Row := fun names =>
  (tree.fields? false names).map (List.map (Option.map roles))

theorem length_of_fields? {surplus : Bool} {names : List String} {tree : Tree}
    {row : List (Option Tree)} (h : tree.fields? surplus names = some row) :
    row.length = names.length := by
  cases tree with
  | array items =>
    obtain ⟨-, rfl⟩ := Record.positional_eq_some_iff.mp h
    rw [List.length_map, List.length_range]
  | table entries =>
    obtain ⟨-, -, rfl⟩ := Record.named_eq_some_iff.mp h
    rw [List.length_map]
  | _ => cases h

theorem row_of_items (items : List Tree) :
    (fun names => Record.positional false names (rolesOfItems items)) = (array items).cells := by
  rw [rolesOfItems_eq]
  exact funext fun names => Record.positional_map roles false names items

theorem row_of_entries (entries : List (String × Tree)) :
    (fun names => Record.named names (rolesOfEntries entries)) = (table entries).cells := by
  rw [rolesOfEntries_eq]
  exact funext fun names => Record.named_map roles names entries

theorem roles_array (items : List Tree) :
    (array items).roles
      = { Roles.ofRow (array items).cells with
          body := items.mapM fun item => item.roles.statement
          branches := items.mapM fun item => item.roles.branch } := by
  rw [roles, Roles.ofArray, row_of_items, rolesOfItems_eq, List.mapM_map, List.mapM_map]
  rfl

theorem roles_table (entries : List (String × Tree)) :
    (table entries).roles = Roles.ofRow (table entries).cells := by
  rw [roles, Roles.ofTable, row_of_entries]

variable (tree : Tree)

@[simp] theorem isNull_roles : tree.roles.isNull = tree.isNull := by
  cases tree <;> rfl

@[simp] theorem text_roles : tree.roles.text = tree.text? := by
  cases tree <;> rfl

@[simp] theorem word_roles : tree.roles.word = tree.word? := by
  cases tree <;> rfl

theorem value_roles : tree.roles.value = Roles.value? tree.cells := by
  cases tree with
  | array items => rw [roles_array]; rfl
  | table entries => rw [roles_table]; rfl
  | _ => rfl

theorem branch_roles : tree.roles.branch = Roles.branch? tree.cells := by
  cases tree with
  | array items => rw [roles_array]; rfl
  | table entries => rw [roles_table]; rfl
  | _ => rfl

theorem body_roles : tree.roles.body = tree.list? fun item => item.roles.statement := by
  cases tree with
  | array items => rw [roles_array]; rfl
  | table entries => rw [roles_table]; rfl
  | _ => rfl

theorem branches_roles : tree.roles.branches = tree.list? fun item => item.roles.branch := by
  cases tree with
  | array items => rw [roles_array]; rfl
  | table entries => rw [roles_table]; rfl
  | _ => rfl

/-- A node is a statement as a text or as a record. -/
theorem statement_roles :
    tree.roles.statement = (tree.text?.map .line).or (Roles.statement? tree.cells) := by
  cases tree with
  | array items => rw [roles_array]; rfl
  | table entries => rw [roles_table]; rfl
  | _ => rfl

end Tree

end PlanScribe
