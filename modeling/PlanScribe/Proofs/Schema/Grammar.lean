import PlanScribe.Proofs.Schema.Rows

/-!
# The grammar of plan files

Every description is a record whose fields stand for a place each, and a tree is accepted as a
record if each of its fields is taken in its place. This is said once for all kinds of record: the
columns of a kind tell how its fields are called, whether they may be missing, and what may stand in
them.
-/
namespace PlanScribe

/-- The kinds of statement that are written as records. -/
inductive StatementKind
  | cond
  | whileTrue
  | range
  | enumerate
  | assign
deriving DecidableEq, Repr

namespace StatementKind

/-- The kinds in the order in which they are tried. -/
def all : List StatementKind := [cond, whileTrue, range, enumerate, assign]

/-- The statement of the kind that a record stands for. -/
def ofRow : StatementKind → Roles.Row → Option Statement
  | cond => Roles.cond?
  | whileTrue => Roles.while?
  | range => Roles.range?
  | enumerate => Roles.enumerate?
  | assign => Roles.assign?

/-- The statement of the kind that a tree stands for. -/
def read (kind : StatementKind) (tree : Tree) : Option Statement := kind.ofRow tree.cells

end StatementKind

/-- The descriptions that are written as records. The target of an assignment is a value inside a
body, where an array may not be longer than the record. -/
inductive RecordKind
  | plan
  | document
  | fromImport
  | global
  | function
  | classDef
  | value
  | target
  | branch
  | statement (kind : StatementKind)
deriving DecidableEq, Repr

/-- The places of a plan file, by what may stand there. -/
inductive Site
  | text
  | byte
  | word
  | boolean
  | overwrite
  | record (kind : RecordKind)
  | statement
  | list (item : Site)

/-- Whether a field may be missing, and whether it may be null. -/
inductive Presence
  | required
  | defaulted
  | optional

structure Column where
  name : String
  presence : Presence
  site : Site

namespace RecordKind

/-- The fields of a record in the order of their declaration. -/
def columns : RecordKind → List Column
  | plan =>
    [⟨"document", .defaulted, .record document⟩, ⟨"imports", .defaulted, .list .text⟩,
      ⟨"from_imports", .defaulted, .list (.record fromImport)⟩,
      ⟨"expressions", .defaulted, .list .text⟩, ⟨"globals", .defaulted, .list (.record global)⟩,
      ⟨"functions", .defaulted, .list (.record function)⟩,
      ⟨"classes", .defaulted, .list (.record classDef)⟩]
  | document =>
    [⟨"indent", .optional, .byte⟩, ⟨"tabs", .defaulted, .boolean⟩,
      ⟨"overwrite", .defaulted, .overwrite⟩, ⟨"header", .optional, .text⟩]
  | fromImport => [⟨"module", .required, .text⟩, ⟨"symbols", .required, .list .text⟩]
  | global =>
    [⟨"name", .required, .text⟩, ⟨"type", .defaulted, .text⟩, ⟨"value", .required, .text⟩]
  | function =>
    [⟨"name", .required, .text⟩, ⟨"doc", .optional, .text⟩,
      ⟨"params", .defaulted, .list (.record value)⟩,
      ⟨"returns", .defaulted, .list (.record value)⟩, ⟨"body", .defaulted, .list .statement⟩]
  | classDef =>
    [⟨"name", .required, .text⟩, ⟨"doc", .defaulted, .text⟩,
      ⟨"fields", .defaulted, .list (.record value)⟩, ⟨"init", .defaulted, .list .statement⟩,
      ⟨"methods", .defaulted, .list (.record function)⟩]
  | value | target => [⟨"name", .required, .text⟩, ⟨"type", .defaulted, .text⟩]
  | branch => [⟨"if", .required, .text⟩, ⟨"then", .defaulted, .list .statement⟩]
  | statement .cond =>
    [⟨"if", .required, .text⟩, ⟨"then", .defaulted, .list .statement⟩,
      ⟨"elif", .defaulted, .list (.record branch)⟩, ⟨"else", .optional, .list .statement⟩]
  | statement .whileTrue =>
    [⟨"while", .required, .text⟩, ⟨"body", .defaulted, .list .statement⟩]
  | statement .range =>
    [⟨"for", .required, .text⟩, ⟨"start", .required, .word⟩, ⟨"end", .required, .word⟩,
      ⟨"body", .defaulted, .list .statement⟩]
  | statement .enumerate =>
    [⟨"enumerate", .required, .text⟩, ⟨"index", .required, .text⟩, ⟨"item", .required, .text⟩,
      ⟨"body", .defaulted, .list .statement⟩]
  | statement .assign => [⟨"assign", .required, .record target⟩, ⟨"value", .required, .text⟩]

/-- The keys that a record may have. -/
def names (kind : RecordKind) : List String := kind.columns.map Column.name

/-- An array that is read as such a record may be longer than the record. -/
def surplus (format : Format) : RecordKind → Bool
  | target | branch | statement _ => false
  | _ => format.allowsSurplus

/-- The tree is decoded as such a record. -/
def Accepts (format : Format) : RecordKind → Tree → Prop
  | plan, tree => (Schema.plan format tree).isSome
  | document, tree => (Schema.document format tree).isSome
  | fromImport, tree => (Schema.fromImport format tree).isSome
  | global, tree => (Schema.global format tree).isSome
  | function, tree => (Schema.function format tree).isSome
  | classDef, tree => (Schema.classDef format tree).isSome
  | value, tree => (Schema.value format tree).isSome
  | target, tree => tree.roles.value.isSome
  | branch, tree => tree.roles.branch.isSome
  | statement kind, tree => (kind.read tree).isSome

end RecordKind

/-- The tree is accepted in the place. -/
def Site.Accepts (format : Format) : Site → Tree → Prop
  | text, tree => tree.text?.isSome
  | byte, tree => tree.byte?.isSome
  | word, tree => tree.word?.isSome
  | boolean, tree => tree.boolean?.isSome
  | overwrite, tree => (Schema.overwrite format tree).isSome
  | record kind, tree => kind.Accepts format tree
  | statement, tree => tree.roles.statement.isSome
  | list item, tree => ∃ items, tree = .array items ∧ ∀ t ∈ items, item.Accepts format t

/-- A field is taken as it is or is not there. -/
def Presence.Takes (accepts : Tree → Prop) : Presence → Option Tree → Prop
  | required, cell => ∃ tree, cell = some tree ∧ accepts tree
  | defaulted, cell => ∀ tree, cell = some tree → accepts tree
  | optional, cell => ∀ tree, cell = some tree → tree.isNull = true ∨ accepts tree

def Column.Takes (format : Format) (column : Column) : Option Tree → Prop :=
  column.presence.Takes (column.site.Accepts format)

/-! ## Reading one field -/

section Field

variable {α : Type} (read : Tree → Option α) (cell : Option Tree)

@[simp] theorem exists_required :
    (∃ value, Record.required read cell = some value) ↔
      Presence.required.Takes (fun tree => (read tree).isSome) cell := by
  cases cell <;> simp [Record.required, Presence.Takes, Option.isSome_iff_exists]

@[simp] theorem exists_orElse (default : α) :
    (∃ value, Record.orElse default read cell = some value) ↔
      Presence.defaulted.Takes (fun tree => (read tree).isSome) cell := by
  cases cell <;> simp [Record.orElse, Presence.Takes, Option.isSome_iff_exists]

@[simp] theorem exists_optional :
    (∃ value, Record.optional Tree.isNull read cell = some value) ↔
      Presence.optional.Takes (fun tree => (read tree).isSome) cell := by
  cases cell with
  | none => simp [Record.optional, Presence.Takes]
  | some tree =>
    cases hnull : tree.isNull <;>
      simp [Record.optional, Presence.Takes, hnull, Option.isSome_iff_exists]

@[simp] theorem exists_list? (tree : Tree) :
    (∃ values, tree.list? read = some values) ↔
      ∃ items, tree = .array items ∧ ∀ item ∈ items, ∃ value, read item = some value := by
  have hmapM (items : List Tree) :
      (∃ values, items.mapM read = some values) ↔
        ∀ item ∈ items, ∃ value, read item = some value := by
    induction items with
    | nil => simp
    | cons item rest ih =>
      rw [List.forall_mem_cons, ← ih, List.mapM_cons]
      cases read item <;> cases rest.mapM read <;> simp
  cases tree <;> simp [Tree.list?, hmapM]

end Field

/-! ## Reading one record -/

namespace RecordKind

/-- The tree has a row of fields for such a record, and each field is taken in its place. -/
def Fits (format : Format) (kind : RecordKind) (tree : Tree) : Prop :=
  ∃ row, tree.fields? (kind.surplus format) kind.names = some row ∧
    List.Forall₂ (Column.Takes format) kind.columns row

/-- To read a record it is enough to read rows of the right length. -/
theorem fits_iff {format : Format} {kind : RecordKind} {tree : Tree} {accepts : Prop}
    (hnone : tree.fields? (kind.surplus format) kind.names = none → ¬ accepts)
    (hrow : ∀ row, tree.fields? (kind.surplus format) kind.names = some row →
      row.length = kind.columns.length →
      (accepts ↔ List.Forall₂ (Column.Takes format) kind.columns row)) :
    accepts ↔ kind.Fits format tree := by
  unfold Fits
  cases h : tree.fields? (kind.surplus format) kind.names with
  | none => simpa using hnone h
  | some row =>
    have hlength : row.length = kind.columns.length :=
      (Tree.length_of_fields? h).trans (List.length_map _)
    simpa using hrow row h hlength

variable (format : Format) (tree : Tree)

theorem fits_value : (Schema.value format tree).isSome ↔ value.Fits format tree := by
  refine fits_iff (fun h => ?_) fun row h hlength => ?_ <;>
    simp only [surplus, names, columns, List.map_cons, List.map_nil] at h
  · simp [Schema.value, Schema.row, h]
  · match row with
    | [name, annotation] =>
      simp [Schema.value, Schema.row, h, columns, Column.Takes, Site.Accepts,
        Option.isSome_iff_exists, Option.bind_eq_some_iff]

theorem fits_document : (Schema.document format tree).isSome ↔ document.Fits format tree := by
  refine fits_iff (fun h => ?_) fun row h hlength => ?_ <;>
    simp only [surplus, names, columns, List.map_cons, List.map_nil] at h
  · simp [Schema.document, Schema.row, h]
  · match row with
    | [indent, tabs, rule, header] =>
      simp [-Bool.exists_bool, Schema.document, Schema.row, h, columns, Column.Takes, Site.Accepts,
        Schema.optionalText, Option.isSome_iff_exists, Option.bind_eq_some_iff]

theorem fits_fromImport : (Schema.fromImport format tree).isSome ↔ fromImport.Fits format tree := by
  refine fits_iff (fun h => ?_) fun row h hlength => ?_ <;>
    simp only [surplus, names, columns, List.map_cons, List.map_nil] at h
  · simp [Schema.fromImport, Schema.row, h]
  · match row with
    | [moduleName, symbols] =>
      simp [Schema.fromImport, Schema.row, h, columns, Column.Takes, Site.Accepts, Schema.texts,
        Option.isSome_iff_exists, Option.bind_eq_some_iff]

theorem fits_global : (Schema.global format tree).isSome ↔ global.Fits format tree := by
  refine fits_iff (fun h => ?_) fun row h hlength => ?_ <;>
    simp only [surplus, names, columns, List.map_cons, List.map_nil] at h
  · simp [Schema.global, Schema.row, h]
  · match row with
    | [name, annotation, expression] =>
      simp [Schema.global, Schema.row, h, columns, Column.Takes, Site.Accepts,
        Option.isSome_iff_exists, Option.bind_eq_some_iff]

theorem fits_function : (Schema.function format tree).isSome ↔ function.Fits format tree := by
  refine fits_iff (fun h => ?_) fun row h hlength => ?_ <;>
    simp only [surplus, names, columns, List.map_cons, List.map_nil] at h
  · simp [Schema.function, Schema.row, h]
  · match row with
    | [name, doc, params, returns, suite] =>
      simp [Schema.function, Schema.row, h, columns, Column.Takes, Site.Accepts, Accepts,
        Schema.optionalText, Schema.body, Tree.body_roles, Option.isSome_iff_exists,
        Option.bind_eq_some_iff]

theorem fits_classDef : (Schema.classDef format tree).isSome ↔ classDef.Fits format tree := by
  refine fits_iff (fun h => ?_) fun row h hlength => ?_ <;>
    simp only [surplus, names, columns, List.map_cons, List.map_nil] at h
  · simp [Schema.classDef, Schema.row, h]
  · match row with
    | [name, doc, fields, init, methods] =>
      simp [Schema.classDef, Schema.row, h, columns, Column.Takes, Site.Accepts, Accepts,
        Schema.body, Tree.body_roles, Option.isSome_iff_exists, Option.bind_eq_some_iff]

theorem fits_plan : (Schema.plan format tree).isSome ↔ plan.Fits format tree := by
  refine fits_iff (fun h => ?_) fun row h hlength => ?_ <;>
    simp only [surplus, names, columns, List.map_cons, List.map_nil] at h
  · simp [Schema.plan, Schema.row, Schema.planNames, h]
  · match row with
    | [config, imports, fromImports, expressions, globals, functions, classes] =>
      simp [Schema.plan, Schema.row, Schema.planNames, h, columns, Column.Takes, Site.Accepts,
        Accepts, Schema.texts, Option.isSome_iff_exists, Option.bind_eq_some_iff]

theorem fits_target : tree.roles.value.isSome ↔ target.Fits format tree := by
  refine fits_iff (fun h => ?_) fun row h hlength => ?_ <;>
    simp only [surplus, names, columns, List.map_cons, List.map_nil] at h
  · simp [Tree.value_roles, Roles.value?, Roles.valueNames, Tree.cells, h]
  · match row with
    | [name, annotation] =>
      simp [Tree.value_roles, Roles.value?, Roles.valueNames, Tree.cells, h, columns, Column.Takes,
        Site.Accepts, Option.isSome_iff_exists, Option.bind_eq_some_iff]

theorem fits_branch : tree.roles.branch.isSome ↔ branch.Fits format tree := by
  refine fits_iff (fun h => ?_) fun row h hlength => ?_ <;>
    simp only [surplus, names, columns, List.map_cons, List.map_nil] at h
  · simp [Tree.branch_roles, Roles.branch?, Roles.branchNames, Tree.cells, h]
  · match row with
    | [condition, suite] =>
      simp [Tree.branch_roles, Roles.branch?, Roles.branchNames, Tree.cells, h, columns,
        Column.Takes, Site.Accepts, Tree.body_roles, Option.isSome_iff_exists,
        Option.bind_eq_some_iff]

theorem fits_cond :
    (StatementKind.cond.read tree).isSome ↔ (statement .cond).Fits format tree := by
  refine fits_iff (fun h => ?_) fun row h hlength => ?_ <;>
    simp only [surplus, names, columns, List.map_cons, List.map_nil] at h
  · simp [StatementKind.read, StatementKind.ofRow, Roles.cond?, Roles.condNames, Tree.cells, h]
  · match row with
    | [condition, suite, more, otherwise] =>
      simp [StatementKind.read, StatementKind.ofRow, Roles.cond?, Roles.condNames, Tree.cells, h,
        columns, Column.Takes, Site.Accepts, Accepts, Tree.body_roles, Tree.branches_roles,
        Option.isSome_iff_exists, Option.bind_eq_some_iff]

theorem fits_whileTrue :
    (StatementKind.whileTrue.read tree).isSome ↔ (statement .whileTrue).Fits format tree := by
  refine fits_iff (fun h => ?_) fun row h hlength => ?_ <;>
    simp only [surplus, names, columns, List.map_cons, List.map_nil] at h
  · simp [StatementKind.read, StatementKind.ofRow, Roles.while?, Roles.whileNames, Tree.cells, h]
  · match row with
    | [condition, suite] =>
      simp [StatementKind.read, StatementKind.ofRow, Roles.while?, Roles.whileNames, Tree.cells, h,
        columns, Column.Takes, Site.Accepts, Tree.body_roles, Option.isSome_iff_exists,
        Option.bind_eq_some_iff]

theorem fits_range :
    (StatementKind.range.read tree).isSome ↔ (statement .range).Fits format tree := by
  refine fits_iff (fun h => ?_) fun row h hlength => ?_ <;>
    simp only [surplus, names, columns, List.map_cons, List.map_nil] at h
  · simp [StatementKind.read, StatementKind.ofRow, Roles.range?, Roles.rangeNames, Tree.cells, h]
  · match row with
    | [counter, start, stop, suite] =>
      simp [StatementKind.read, StatementKind.ofRow, Roles.range?, Roles.rangeNames, Tree.cells, h,
        columns, Column.Takes, Site.Accepts, Tree.body_roles, Option.isSome_iff_exists,
        Option.bind_eq_some_iff]

theorem fits_enumerate :
    (StatementKind.enumerate.read tree).isSome ↔ (statement .enumerate).Fits format tree := by
  refine fits_iff (fun h => ?_) fun row h hlength => ?_ <;>
    simp only [surplus, names, columns, List.map_cons, List.map_nil] at h
  · simp [StatementKind.read, StatementKind.ofRow, Roles.enumerate?, Roles.enumerateNames,
      Tree.cells, h]
  · match row with
    | [iterable, index, item, suite] =>
      simp [StatementKind.read, StatementKind.ofRow, Roles.enumerate?, Roles.enumerateNames,
        Tree.cells, h, columns, Column.Takes, Site.Accepts, Tree.body_roles,
        Option.isSome_iff_exists, Option.bind_eq_some_iff]

theorem fits_assign :
    (StatementKind.assign.read tree).isSome ↔ (statement .assign).Fits format tree := by
  refine fits_iff (fun h => ?_) fun row h hlength => ?_ <;>
    simp only [surplus, names, columns, List.map_cons, List.map_nil] at h
  · simp [StatementKind.read, StatementKind.ofRow, Roles.assign?, Roles.assignNames, Tree.cells, h]
  · match row with
    | [place, expression] =>
      simp [StatementKind.read, StatementKind.ofRow, Roles.assign?, Roles.assignNames, Tree.cells,
        h, columns, Column.Takes, Site.Accepts, Accepts, Option.isSome_iff_exists,
        Option.bind_eq_some_iff]

/-- A tree is decoded as a record if, and only if, each of its fields is taken in its place. -/
theorem accepts_iff (kind : RecordKind) : kind.Accepts format tree ↔ kind.Fits format tree := by
  cases kind with
  | plan => exact fits_plan format tree
  | document => exact fits_document format tree
  | fromImport => exact fits_fromImport format tree
  | global => exact fits_global format tree
  | function => exact fits_function format tree
  | classDef => exact fits_classDef format tree
  | value => exact fits_value format tree
  | target => exact fits_target format tree
  | branch => exact fits_branch format tree
  | statement kind =>
    cases kind with
    | cond => exact fits_cond format tree
    | whileTrue => exact fits_whileTrue format tree
    | range => exact fits_range format tree
    | enumerate => exact fits_enumerate format tree
    | assign => exact fits_assign format tree

/-- A table is accepted if it has known keys only, none twice, and each field is taken. -/
theorem accepts_table_iff (kind : RecordKind) (entries : List (String × Tree)) :
    kind.Accepts format (.table entries) ↔
      (∀ key ∈ entries.map Prod.fst, key ∈ kind.names) ∧ (entries.map Prod.fst).Nodup ∧
        ∀ column ∈ kind.columns, column.Takes format (entries.lookup column.name) := by
  rw [accepts_iff]
  unfold Fits
  simp only [Tree.fields?, Record.named_eq_some_iff, names, List.map_map]
  constructor
  · rintro ⟨row, ⟨hknown, hnodup, rfl⟩, hcells⟩
    exact ⟨hknown, hnodup, List.forall₂_same.mp (List.forall₂_map_right_iff.mp hcells)⟩
  · rintro ⟨hknown, hnodup, hcells⟩
    exact ⟨_, ⟨hknown, hnodup, rfl⟩,
      List.forall₂_map_right_iff.mpr (List.forall₂_same.mpr hcells)⟩

/-- An array is accepted if it is not too long and its items are taken as the fields in order. -/
theorem accepts_array_iff (kind : RecordKind) (items : List Tree) :
    kind.Accepts format (.array items) ↔
      (kind.surplus format = true ∨ items.length ≤ kind.columns.length) ∧
        ∀ (n : Nat) (h : n < kind.columns.length), kind.columns[n].Takes format items[n]? := by
  have hcells : List.Forall₂ (Column.Takes format) kind.columns
        ((List.range kind.columns.length).map fun n => items[n]?) ↔
      ∀ (n : Nat) (h : n < kind.columns.length), kind.columns[n].Takes format items[n]? := by
    rw [List.forall₂_iff_get]
    simp
  rw [accepts_iff]
  unfold Fits
  simp only [Tree.fields?, Record.positional_eq_some_iff, names, List.length_map]
  constructor
  · rintro ⟨row, ⟨hlength, rfl⟩, hrow⟩
    exact ⟨hlength, hcells.mp hrow⟩
  · rintro ⟨hlength, hrow⟩
    exact ⟨_, ⟨hlength, rfl⟩, hcells.mpr hrow⟩

end RecordKind

end PlanScribe
