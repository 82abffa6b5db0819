import PlanScribe.Plan.Schema
import Mathlib.Data.List.Forall2

/-!
# Descriptions

How a plan is written as a tree. A description is a table whose entries stand in any order, one for
each field, under the field's key. A field with a default value may be left out where it holds that
value, and a field that may have no value is left out where it has none. So a plan can be written in
many ways, and `Plan.WrittenAs` holds of all of them.
-/
namespace PlanScribe

/-! ## Fields -/

/-- A field of a description: its key, and what may stand under the key, or that nothing does. -/
structure Field where
  key : String
  Holds : Option Tree → Prop

namespace Field

/-- A field that is always written. -/
def required (key : String) (form : Tree → Prop) : Field where
  key
  Holds cell := ∃ tree, cell = some tree ∧ form tree

/-- A field that may be left out if it has its default value. -/
def defaulted (key : String) (isDefault : Prop) (form : Tree → Prop) : Field where
  key
  Holds cell := cell = none ∧ isDefault ∨ ∃ tree, cell = some tree ∧ form tree

/-- A field that is written if it has a value. -/
def optional (key : String) (form : Option (Tree → Prop)) : Field where
  key
  Holds cell :=
    match form with
    | none => cell = none
    | some form => ∃ tree, cell = some tree ∧ form tree

/-- The entries for some of the fields, in the order of the fields. -/
inductive Entries : List Field → List (String × Tree) → Prop
  | nil : Entries [] []
  | leave {field : Field} {fields : List Field} {entries : List (String × Tree)}
      (h : field.Holds none) (hrest : Entries fields entries) : Entries (field :: fields) entries
  | put {field : Field} {fields : List Field} {entries : List (String × Tree)} {tree : Tree}
      (h : field.Holds (some tree)) (hrest : Entries fields entries) :
      Entries (field :: fields) ((field.key, tree) :: entries)

end Field

/-- The tree is a table of such fields, in any order. -/
def IsRecord (fields : List Field) (tree : Tree) : Prop :=
  ∃ entries, Field.Entries fields entries ∧
    ∃ written : List (String × Tree), written.Perm entries ∧ tree = .table written

/-- The tree is an array of items, each of its own form. -/
def IsList (forms : List (Tree → Prop)) (tree : Tree) : Prop :=
  ∃ items, tree = .array items ∧ List.Forall₂ (fun form item => form item) forms items

/-- The tree is the given text. -/
def IsText (value : String) (tree : Tree) : Prop := tree = .text value

/-! ## Statements -/

def ValueDef.WrittenAs (value : ValueDef) : Tree → Prop :=
  IsRecord
    [.required "name" (IsText value.name),
      .defaulted "type" (value.annotation = "") (IsText value.annotation)]

mutual

def Statement.WrittenAs : Statement → Tree → Prop
  | .line text => IsText text
  | .cond condition body branches otherwise =>
    IsRecord
      [.required "if" (IsText condition), .defaulted "then" (body = []) (IsList (bodyForms body)),
        .defaulted "elif" (branches = []) (IsList (branchForms branches)),
        .optional "else" (otherwiseForm otherwise)]
  | .loop (.whileTrue condition) body =>
    IsRecord
      [.required "while" (IsText condition), .defaulted "body" (body = []) (IsList (bodyForms body))]
  | .loop (.range counter start stop) body =>
    IsRecord
      [.required "for" (IsText counter), .required "start" (· = .integer start.toInt),
        .required "end" (· = .integer stop.toInt),
        .defaulted "body" (body = []) (IsList (bodyForms body))]
  | .loop (.enumerate index item iterable) body =>
    IsRecord
      [.required "enumerate" (IsText iterable), .required "index" (IsText index),
        .required "item" (IsText item), .defaulted "body" (body = []) (IsList (bodyForms body))]
  | .assign target value =>
    IsRecord [.required "assign" target.WrittenAs, .required "value" (IsText value)]
termination_by structural statement => statement

def bodyForms : List Statement → List (Tree → Prop)
  | [] => []
  | statement :: rest => statement.WrittenAs :: bodyForms rest
termination_by structural body => body

def branchForms : List Branch → List (Tree → Prop)
  | [] => []
  | ⟨condition, body⟩ :: rest =>
    IsRecord
      [.required "if" (IsText condition), .defaulted "then" (body = []) (IsList (bodyForms body))]
      :: branchForms rest
termination_by structural branches => branches

def otherwiseForm : Option (List Statement) → Option (Tree → Prop)
  | none => none
  | some body => some (IsList (bodyForms body))
termination_by structural otherwise => otherwise

end

/-! ## Plans -/

/-- The name of a rule for existing files. -/
def Overwrite.name : Overwrite → String
  | always => "always"
  | ifMissing => "if-missing"

def DocumentConfig.WrittenAs (config : DocumentConfig) : Tree → Prop :=
  IsRecord
    [.optional "indent" (config.indent.map fun n tree => tree = .integer n.toNat),
      .defaulted "tabs" (config.tabs = false) (· = .boolean config.tabs),
      .defaulted "overwrite" (config.overwrite = .always) (IsText config.overwrite.name),
      .optional "header" (config.header.map IsText)]

def FromImport.WrittenAs (fromImport : FromImport) : Tree → Prop :=
  IsRecord
    [.required "module" (IsText fromImport.moduleName),
      .required "symbols" (IsList (fromImport.symbols.map IsText))]

def GlobalDef.WrittenAs (global : GlobalDef) : Tree → Prop :=
  IsRecord
    [.required "name" (IsText global.name),
      .defaulted "type" (global.annotation = "") (IsText global.annotation),
      .required "value" (IsText global.value)]

def FunctionDef.WrittenAs (f : FunctionDef) : Tree → Prop :=
  IsRecord
    [.required "name" (IsText f.name), .optional "doc" (f.doc.map IsText),
      .defaulted "params" (f.params = []) (IsList (f.params.map ValueDef.WrittenAs)),
      .defaulted "returns" (f.returns = []) (IsList (f.returns.map ValueDef.WrittenAs)),
      .defaulted "body" (f.body = []) (IsList (bodyForms f.body))]

def ClassDef.WrittenAs (c : ClassDef) : Tree → Prop :=
  IsRecord
    [.required "name" (IsText c.name), .defaulted "doc" (c.doc = "") (IsText c.doc),
      .defaulted "fields" (c.fields = []) (IsList (c.fields.map ValueDef.WrittenAs)),
      .defaulted "init" (c.init = []) (IsList (bodyForms c.init)),
      .defaulted "methods" (c.methods = []) (IsList (c.methods.map FunctionDef.WrittenAs))]

def Plan.WrittenAs (plan : Plan) : Tree → Prop :=
  IsRecord
    [.defaulted "document" (plan.document = {}) plan.document.WrittenAs,
      .defaulted "imports" (plan.imports = []) (IsList (plan.imports.map IsText)),
      .defaulted "from_imports" (plan.fromImports = [])
        (IsList (plan.fromImports.map FromImport.WrittenAs)),
      .defaulted "expressions" (plan.expressions = []) (IsList (plan.expressions.map IsText)),
      .defaulted "globals" (plan.globals = []) (IsList (plan.globals.map GlobalDef.WrittenAs)),
      .defaulted "functions" (plan.functions = [])
        (IsList (plan.functions.map FunctionDef.WrittenAs)),
      .defaulted "classes" (plan.classes = []) (IsList (plan.classes.map ClassDef.WrittenAs))]

/-! ## Every plan can be written -/

namespace Field

variable {key : String} {form : Tree → Prop}

theorem exists_required (h : ∃ tree, form tree) : ∃ cell, (required key form).Holds cell := by
  obtain ⟨tree, htree⟩ := h
  exact ⟨some tree, tree, rfl, htree⟩

theorem exists_defaulted {isDefault : Prop} (h : ∃ tree, form tree) :
    ∃ cell, (defaulted key isDefault form).Holds cell := by
  obtain ⟨tree, htree⟩ := h
  exact ⟨some tree, .inr ⟨tree, rfl, htree⟩⟩

theorem exists_optional {form : Option (Tree → Prop)} (h : ∀ f ∈ form, ∃ tree, f tree) :
    ∃ cell, (optional key form).Holds cell := by
  cases form with
  | none => exact ⟨none, rfl⟩
  | some f => exact exists_required (h f rfl)

theorem exists_entries {fields : List Field} (h : ∀ field ∈ fields, ∃ cell, field.Holds cell) :
    ∃ entries, Entries fields entries := by
  induction fields with
  | nil => exact ⟨[], .nil⟩
  | cons field rest ih =>
    obtain ⟨entries, hentries⟩ := ih fun f hf => h f (List.mem_cons_of_mem _ hf)
    obtain ⟨cell, hcell⟩ := h field List.mem_cons_self
    cases cell with
    | none => exact ⟨entries, .leave hcell hentries⟩
    | some tree => exact ⟨_, .put hcell hentries⟩

end Field

theorem exists_isRecord {fields : List Field}
    (h : fields.Forall fun field => ∃ cell, field.Holds cell) : ∃ tree, IsRecord fields tree := by
  obtain ⟨entries, hentries⟩ := Field.exists_entries (List.forall_iff_forall_mem.mp h)
  exact ⟨.table entries, entries, hentries, entries, .refl _, rfl⟩

theorem exists_isList {forms : List (Tree → Prop)} (h : ∀ form ∈ forms, ∃ tree, form tree) :
    ∃ tree, IsList forms tree := by
  induction forms with
  | nil => exact ⟨.array [], [], rfl, .nil⟩
  | cons form rest ih =>
    obtain ⟨_, items, -, hitems⟩ := ih fun f hf => h f (List.mem_cons_of_mem _ hf)
    obtain ⟨tree, htree⟩ := h form List.mem_cons_self
    exact ⟨_, tree :: items, rfl, .cons htree hitems⟩

theorem exists_isList_map {α : Type} {form : α → Tree → Prop} (h : ∀ value, ∃ tree, form value tree)
    (values : List α) : ∃ tree, IsList (values.map form) tree :=
  exists_isList (List.forall_mem_map.mpr fun value _ => h value)

theorem exists_isText (value : String) : ∃ tree, IsText value tree :=
  ⟨_, rfl⟩

theorem ValueDef.exists_writtenAs (value : ValueDef) : ∃ tree, value.WrittenAs tree :=
  exists_isRecord ⟨Field.exists_required (exists_isText _), Field.exists_defaulted (exists_isText _)⟩

mutual

theorem Statement.exists_writtenAs : (statement : Statement) → ∃ tree, statement.WrittenAs tree
  | .line text => exists_isText text
  | .cond condition body branches otherwise =>
    exists_isRecord
      ⟨Field.exists_required (exists_isText condition),
        Field.exists_defaulted (exists_isList (exists_bodyForms body)),
        Field.exists_defaulted (exists_isList (exists_branchForms branches)),
        Field.exists_optional (exists_otherwiseForm otherwise)⟩
  | .loop (.whileTrue condition) body =>
    exists_isRecord
      ⟨Field.exists_required (exists_isText condition),
        Field.exists_defaulted (exists_isList (exists_bodyForms body))⟩
  | .loop (.range counter _ _) body =>
    exists_isRecord
      ⟨Field.exists_required (exists_isText counter), Field.exists_required ⟨_, rfl⟩,
        Field.exists_required ⟨_, rfl⟩,
        Field.exists_defaulted (exists_isList (exists_bodyForms body))⟩
  | .loop (.enumerate index item iterable) body =>
    exists_isRecord
      ⟨Field.exists_required (exists_isText iterable), Field.exists_required (exists_isText index),
        Field.exists_required (exists_isText item),
        Field.exists_defaulted (exists_isList (exists_bodyForms body))⟩
  | .assign target value =>
    exists_isRecord
      ⟨Field.exists_required target.exists_writtenAs, Field.exists_required (exists_isText value)⟩
termination_by structural statement => statement

theorem exists_bodyForms : (body : List Statement) → ∀ form ∈ bodyForms body, ∃ tree, form tree
  | [] => nofun
  | statement :: rest =>
    List.forall_mem_cons.mpr ⟨statement.exists_writtenAs, exists_bodyForms rest⟩
termination_by structural body => body

theorem exists_branchForms :
    (branches : List Branch) → ∀ form ∈ branchForms branches, ∃ tree, form tree
  | [] => nofun
  | ⟨condition, body⟩ :: rest =>
    List.forall_mem_cons.mpr
      ⟨exists_isRecord
        ⟨Field.exists_required (exists_isText condition),
          Field.exists_defaulted (exists_isList (exists_bodyForms body))⟩,
        exists_branchForms rest⟩
termination_by structural branches => branches

theorem exists_otherwiseForm :
    (otherwise : Option (List Statement)) → ∀ form ∈ otherwiseForm otherwise, ∃ tree, form tree
  | none => nofun
  | some body => by
    rintro form ⟨⟩
    exact exists_isList (exists_bodyForms body)
termination_by structural otherwise => otherwise

end

theorem DocumentConfig.exists_writtenAs (config : DocumentConfig) :
    ∃ tree, config.WrittenAs tree :=
  exists_isRecord
    ⟨Field.exists_optional (by cases config.indent <;> simp),
      Field.exists_defaulted ⟨_, rfl⟩, Field.exists_defaulted (exists_isText _),
      Field.exists_optional (by cases config.header <;> simp [IsText])⟩

theorem FromImport.exists_writtenAs (fromImport : FromImport) : ∃ tree, fromImport.WrittenAs tree :=
  exists_isRecord
    ⟨Field.exists_required (exists_isText _),
      Field.exists_required (exists_isList_map exists_isText _)⟩

theorem GlobalDef.exists_writtenAs (global : GlobalDef) : ∃ tree, global.WrittenAs tree :=
  exists_isRecord
    ⟨Field.exists_required (exists_isText _), Field.exists_defaulted (exists_isText _),
      Field.exists_required (exists_isText _)⟩

theorem FunctionDef.exists_writtenAs (f : FunctionDef) : ∃ tree, f.WrittenAs tree :=
  exists_isRecord
    ⟨Field.exists_required (exists_isText _),
      Field.exists_optional (by cases f.doc <;> simp [IsText]),
      Field.exists_defaulted (exists_isList_map ValueDef.exists_writtenAs _),
      Field.exists_defaulted (exists_isList_map ValueDef.exists_writtenAs _),
      Field.exists_defaulted (exists_isList (exists_bodyForms _))⟩

theorem ClassDef.exists_writtenAs (c : ClassDef) : ∃ tree, c.WrittenAs tree :=
  exists_isRecord
    ⟨Field.exists_required (exists_isText _), Field.exists_defaulted (exists_isText _),
      Field.exists_defaulted (exists_isList_map ValueDef.exists_writtenAs _),
      Field.exists_defaulted (exists_isList (exists_bodyForms _)),
      Field.exists_defaulted (exists_isList_map FunctionDef.exists_writtenAs _)⟩

theorem Plan.exists_writtenAs (plan : Plan) : ∃ tree, plan.WrittenAs tree :=
  exists_isRecord
    ⟨Field.exists_defaulted plan.document.exists_writtenAs,
      Field.exists_defaulted (exists_isList_map exists_isText _),
      Field.exists_defaulted (exists_isList_map FromImport.exists_writtenAs _),
      Field.exists_defaulted (exists_isList_map exists_isText _),
      Field.exists_defaulted (exists_isList_map GlobalDef.exists_writtenAs _),
      Field.exists_defaulted (exists_isList_map FunctionDef.exists_writtenAs _),
      Field.exists_defaulted (exists_isList_map ClassDef.exists_writtenAs _)⟩

end PlanScribe
