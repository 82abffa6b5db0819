import PlanScribe.Plan.File
import PlanScribe.Proofs.Schema.Alternatives
import PlanScribe.Proofs.Schema.Description

/-!
# Decoding descriptions

Every form in which a plan can be written is decoded as this plan, by both routes. The order of the
entries is lost when a table is laid out as the row of its fields, each field of the row is read as
the value that it was written for, and a table that is read as one kind of statement is read as no
other. Bodies, branches and statements are decoded together, by recursion on the plan.
-/
namespace PlanScribe

/-- Whatever has the form is read as the value. -/
def Reads {α : Type} (read : Tree → Option α) (form : Tree → Prop) (value : α) : Prop :=
  ∀ tree, form tree → read tree = some value

/-! ## Rows -/

namespace Field

variable {fields : List Field} {entries : List (String × Tree)}

theorem Entries.sublist (h : Entries fields entries) :
    (entries.map Prod.fst).Sublist (fields.map Field.key) := by
  induction h with
  | nil => exact .slnil
  | leave _ _ ih => exact ih.cons _
  | put _ _ ih => exact ih.cons_cons _

theorem Entries.holds (h : Entries fields entries) (hnodup : (fields.map Field.key).Nodup) :
    ∀ field ∈ fields, field.Holds (entries.lookup field.key) := by
  induction h with
  | nil => nofun
  | @leave field fields entries hfield hrest ih =>
    rw [List.map_cons, List.nodup_cons] at hnodup
    have hnone : entries.lookup field.key = none := by
      rw [List.lookup_eq_none_iff]
      intro e he
      have hkey : e.1 ∈ fields.map Field.key :=
        hrest.sublist.subset (List.mem_map.mpr ⟨e, he, rfl⟩)
      exact bne_iff_ne.mpr fun heq => hnodup.1 (heq ▸ hkey)
    rw [List.forall_mem_cons, hnone]
    exact ⟨hfield, ih hnodup.2⟩
  | @put field fields entries tree hfield hrest ih =>
    rw [List.map_cons, List.nodup_cons] at hnodup
    rw [List.forall_mem_cons, List.lookup_cons_self]
    refine ⟨hfield, fun other hother => ?_⟩
    have hne : other.key ≠ field.key := fun heq =>
      hnodup.1 (heq ▸ List.mem_map.mpr ⟨other, hother, rfl⟩)
    rw [List.lookup_cons, beq_false_of_ne hne]
    exact ih hnodup.2 other hother

end Field

/-- A record has a row, and each of its fields holds what stands in the row. -/
theorem IsRecord.exists_row {fields : List Field} {tree : Tree} (h : IsRecord fields tree)
    (names : List String) (hnames : fields.map Field.key = names) (hnodup : names.Nodup)
    (surplus : Bool) :
    ∃ row, tree.fields? surplus names = some row ∧ List.Forall₂ Field.Holds fields row := by
  obtain ⟨entries, hentries, written, hperm, rfl⟩ := h
  subst hnames
  have hkeys := hentries.sublist
  have hentries_nodup : (entries.map Prod.fst).Nodup := hnodup.sublist hkeys
  have hwritten_nodup : (written.map Prod.fst).Nodup :=
    (hperm.map Prod.fst).nodup_iff.mpr hentries_nodup
  have hknown : ∀ key ∈ written.map Prod.fst, key ∈ fields.map Field.key := fun key hkey =>
    hkeys.subset ((hperm.map Prod.fst).mem_iff.mp hkey)
  refine ⟨_, Record.named_eq_some_iff.mpr ⟨hknown, hwritten_nodup, rfl⟩, ?_⟩
  rw [List.forall₂_map_right_iff, List.forall₂_map_right_iff, List.forall₂_same]
  intro field hfield
  rw [Record.lookup_eq_of_perm hperm hentries_nodup]
  exact hentries.holds hnodup field hfield

/-- The row of a record inside a body. -/
theorem IsRecord.exists_cells {fields : List Field} {tree : Tree} (h : IsRecord fields tree)
    (names : List String) (hnames : fields.map Field.key = names) (hnodup : names.Nodup) :
    ∃ row, tree.cells names = some (row.map (Option.map Tree.roles)) ∧
      List.Forall₂ Field.Holds fields row := by
  obtain ⟨row, hrow, hcells⟩ := h.exists_row names hnames hnodup false
  refine ⟨row, ?_, hcells⟩
  rw [Tree.cells, hrow, Option.map_some]

/-! ## Fields -/

section Fields

variable {α : Type} {read : Tree → Option α} {form : Tree → Prop} {value : α} {key : String}
  {cell : Option Tree}

theorem required_eq (h : (Field.required key form).Holds cell) (hread : Reads read form value) :
    Record.required read cell = some value := by
  obtain ⟨tree, rfl, hform⟩ := h
  exact hread tree hform

theorem orElse_eq {default : α} (h : (Field.defaulted key (value = default) form).Holds cell)
    (hread : Reads read form value) : Record.orElse default read cell = some value := by
  obtain ⟨rfl, rfl⟩ | ⟨tree, rfl, hform⟩ := h
  · rfl
  · exact hread tree hform

theorem optional_eq {form : Option (Tree → Prop)} {value : Option α}
    (h : (Field.optional key form).Holds cell) (hread : Option.Rel (Reads read) form value)
    (hnull : read .null = none) : Record.optional Tree.isNull read cell = some value := by
  cases hread with
  | none =>
    obtain rfl : cell = none := h
    rfl
  | @some form value hread =>
    obtain ⟨tree, rfl, hform⟩ := h
    have hvalue := hread tree hform
    have hpresent : tree.isNull = false := by
      cases tree with
      | null =>
        rw [hnull] at hvalue
        cases hvalue
      | _ => rfl
    rw [Record.optional, hpresent, hvalue]
    rfl

/-- A list is read item by item. -/
theorem IsList.reads {forms : List (Tree → Prop)} {values : List α}
    (hread : List.Forall₂ (Reads read) forms values) :
    Reads (Tree.list? read) (IsList forms) values := by
  rintro _ ⟨items, rfl, hitems⟩
  change items.mapM read = some values
  induction hread generalizing items with
  | nil =>
    cases hitems
    rfl
  | cons hfirst _ ih =>
    obtain _ | ⟨hform, hrest⟩ := hitems
    rw [List.mapM_cons, hfirst _ hform, ih _ hrest]
    rfl

theorem IsList.reads_map {form : α → Tree → Prop} (hread : ∀ value, Reads read (form value) value)
    (values : List α) : Reads (Tree.list? read) (IsList (values.map form)) values := by
  apply IsList.reads
  rw [List.forall₂_map_left_iff, List.forall₂_same]
  exact fun value _ => hread value

theorem IsText.reads (value : String) : Reads Tree.text? (IsText value) value := by
  rintro _ rfl
  rfl

theorem IsText.reads_optional (value : Option String) :
    Option.Rel (Reads Tree.text?) (value.map IsText) value := by
  cases value with
  | none => exact .none
  | some text => exact .some (IsText.reads text)

end Fields

/-! ## Statements -/

theorem reads_word (n : Int64) : Reads Tree.word? (· = .integer n.toInt) n := by
  rintro _ rfl
  rw [Tree.word?, if_pos ⟨n.minValue_le_toInt, n.toInt_le⟩, Int64.ofInt_toInt]

theorem ValueDef.reads_target (value : ValueDef) :
    Reads (fun tree => tree.roles.value) value.WrittenAs value := by
  intro tree h
  obtain ⟨row, hrow, hcells⟩ := h.exists_cells Roles.valueNames rfl (by decide)
  match row, hcells with
  | [_, _], .cons hname (.cons hannotation .nil) =>
    have hname := required_eq hname (IsText.reads value.name)
    have hannotation := orElse_eq hannotation (IsText.reads value.annotation)
    simp [Tree.value_roles, Roles.value?, hrow, hname, hannotation]

/-- A record that is read as one kind of statement is this statement. -/
theorem reads_statement {fields : List Field} {kind : StatementKind} {statement : Statement}
    (hread : Reads kind.read (IsRecord fields) statement) :
    Reads (fun tree => tree.roles.statement) (IsRecord fields) statement := by
  intro tree h
  have hkind := hread tree h
  obtain ⟨_, _, written, _, rfl⟩ := h
  exact EntryKind.statement_of_read hkind

section Bodies

variable {forms : List (Tree → Prop)} {body : List Statement}
  (hbody : List.Forall₂ (Reads fun tree => tree.roles.statement) forms body)
include hbody

theorem reads_body : Reads (fun tree => tree.roles.body) (IsList forms) body := by
  intro tree h
  change tree.roles.body = some body
  rw [Tree.body_roles]
  exact IsList.reads hbody tree h

theorem reads_branch (condition : String) :
    Reads (fun tree => tree.roles.branch)
      (IsRecord
        [.required "if" (IsText condition), .defaulted "then" (body = []) (IsList forms)])
      ⟨condition, body⟩ := by
  intro tree h
  obtain ⟨row, hrow, hcells⟩ := h.exists_cells Roles.branchNames rfl (by decide)
  match row, hcells with
  | [_, _], .cons hcondition (.cons hsuite .nil) =>
    have hcondition := required_eq hcondition (IsText.reads condition)
    have hsuite := orElse_eq hsuite (IsList.reads hbody)
    simp [Tree.branch_roles, Tree.body_roles, Roles.branch?, hrow, hcondition, hsuite]

theorem reads_cond (condition : String) {branchForms : List (Tree → Prop)} {branches : List Branch}
    (hbranches : List.Forall₂ (Reads fun tree => tree.roles.branch) branchForms branches)
    {otherwiseForm : Option (Tree → Prop)} {otherwise : Option (List Statement)}
    (hotherwise : Option.Rel (Reads fun tree => tree.roles.body) otherwiseForm otherwise) :
    Reads StatementKind.cond.read
      (IsRecord
        [.required "if" (IsText condition), .defaulted "then" (body = []) (IsList forms),
          .defaulted "elif" (branches = []) (IsList branchForms), .optional "else" otherwiseForm])
      (.cond condition body branches otherwise) := by
  intro tree h
  obtain ⟨row, hrow, hcells⟩ := h.exists_cells Roles.condNames rfl (by decide)
  match row, hcells with
  | [_, _, _, _], .cons hcondition (.cons hsuite (.cons hmore (.cons helse .nil))) =>
    have hcondition := required_eq hcondition (IsText.reads condition)
    have hsuite := orElse_eq hsuite (IsList.reads hbody)
    have hmore := orElse_eq hmore (IsList.reads hbranches)
    have helse := optional_eq helse hotherwise rfl
    simp only [Tree.body_roles] at helse
    simp [StatementKind.read, StatementKind.ofRow, Roles.cond?, Tree.body_roles, Tree.branches_roles,
      hrow, hcondition, hsuite, hmore, helse]

theorem reads_while (condition : String) :
    Reads StatementKind.whileTrue.read
      (IsRecord
        [.required "while" (IsText condition), .defaulted "body" (body = []) (IsList forms)])
      (.loop (.whileTrue condition) body) := by
  intro tree h
  obtain ⟨row, hrow, hcells⟩ := h.exists_cells Roles.whileNames rfl (by decide)
  match row, hcells with
  | [_, _], .cons hcondition (.cons hsuite .nil) =>
    have hcondition := required_eq hcondition (IsText.reads condition)
    have hsuite := orElse_eq hsuite (IsList.reads hbody)
    simp [StatementKind.read, StatementKind.ofRow, Roles.while?, Tree.body_roles, hrow, hcondition,
      hsuite]

theorem reads_range (counter : String) (start stop : Int64) :
    Reads StatementKind.range.read
      (IsRecord
        [.required "for" (IsText counter), .required "start" (· = .integer start.toInt),
          .required "end" (· = .integer stop.toInt),
          .defaulted "body" (body = []) (IsList forms)])
      (.loop (.range counter start stop) body) := by
  intro tree h
  obtain ⟨row, hrow, hcells⟩ := h.exists_cells Roles.rangeNames rfl (by decide)
  match row, hcells with
  | [_, _, _, _], .cons hcounter (.cons hstart (.cons hstop (.cons hsuite .nil))) =>
    have hcounter := required_eq hcounter (IsText.reads counter)
    have hstart := required_eq hstart (reads_word start)
    have hstop := required_eq hstop (reads_word stop)
    have hsuite := orElse_eq hsuite (IsList.reads hbody)
    simp [StatementKind.read, StatementKind.ofRow, Roles.range?, Tree.body_roles, hrow, hcounter,
      hstart, hstop, hsuite]

theorem reads_enumerate (index item iterable : String) :
    Reads StatementKind.enumerate.read
      (IsRecord
        [.required "enumerate" (IsText iterable), .required "index" (IsText index),
          .required "item" (IsText item), .defaulted "body" (body = []) (IsList forms)])
      (.loop (.enumerate index item iterable) body) := by
  intro tree h
  obtain ⟨row, hrow, hcells⟩ := h.exists_cells Roles.enumerateNames rfl (by decide)
  match row, hcells with
  | [_, _, _, _], .cons hiterable (.cons hindex (.cons hitem (.cons hsuite .nil))) =>
    have hiterable := required_eq hiterable (IsText.reads iterable)
    have hindex := required_eq hindex (IsText.reads index)
    have hitem := required_eq hitem (IsText.reads item)
    have hsuite := orElse_eq hsuite (IsList.reads hbody)
    simp [StatementKind.read, StatementKind.ofRow, Roles.enumerate?, Tree.body_roles, hrow,
      hiterable, hindex, hitem, hsuite]

end Bodies

theorem reads_assign (target : ValueDef) (value : String) :
    Reads StatementKind.assign.read
      (IsRecord [.required "assign" target.WrittenAs, .required "value" (IsText value)])
      (.assign target value) := by
  intro tree h
  obtain ⟨row, hrow, hcells⟩ := h.exists_cells Roles.assignNames rfl (by decide)
  match row, hcells with
  | [_, _], .cons htarget (.cons hvalue .nil) =>
    have htarget := required_eq htarget target.reads_target
    have hvalue := required_eq hvalue (IsText.reads value)
    simp [StatementKind.read, StatementKind.ofRow, Roles.assign?, hrow, htarget, hvalue]

mutual

theorem Statement.reads :
    (statement : Statement) →
      Reads (fun tree => tree.roles.statement) statement.WrittenAs statement
  | .line text => by
    rintro _ rfl
    rfl
  | .cond condition body branches otherwise =>
    reads_statement
      (reads_cond (bodyForms_reads body) condition (branchForms_reads branches)
        (otherwiseForm_reads otherwise))
  | .loop (.whileTrue condition) body =>
    reads_statement (reads_while (bodyForms_reads body) condition)
  | .loop (.range counter start stop) body =>
    reads_statement (reads_range (bodyForms_reads body) counter start stop)
  | .loop (.enumerate index item iterable) body =>
    reads_statement (reads_enumerate (bodyForms_reads body) index item iterable)
  | .assign target value => reads_statement (reads_assign target value)
termination_by structural statement => statement

theorem bodyForms_reads :
    (body : List Statement) →
      List.Forall₂ (Reads fun tree => tree.roles.statement) (bodyForms body) body
  | [] => .nil
  | statement :: rest => .cons statement.reads (bodyForms_reads rest)
termination_by structural body => body

theorem branchForms_reads :
    (branches : List Branch) →
      List.Forall₂ (Reads fun tree => tree.roles.branch) (branchForms branches) branches
  | [] => .nil
  | ⟨condition, body⟩ :: rest =>
    .cons (reads_branch (bodyForms_reads body) condition) (branchForms_reads rest)
termination_by structural branches => branches

theorem otherwiseForm_reads :
    (otherwise : Option (List Statement)) →
      Option.Rel (Reads fun tree => tree.roles.body) (otherwiseForm otherwise) otherwise
  | none => .none
  | some body => .some (reads_body (bodyForms_reads body))
termination_by structural otherwise => otherwise

end

/-! ## Plans -/

section Formats

variable (format : Format)

theorem reads_suite (body : List Statement) : Reads Schema.body (IsList (bodyForms body)) body :=
  reads_body (bodyForms_reads body)

theorem ValueDef.reads (value : ValueDef) :
    Reads (Schema.value format) value.WrittenAs value := by
  intro tree h
  obtain ⟨row, hrow, hcells⟩ :=
    h.exists_row ["name", "type"] rfl (by decide) format.allowsSurplus
  match row, hcells with
  | [_, _], .cons hname (.cons hannotation .nil) =>
    have hname := required_eq hname (IsText.reads value.name)
    have hannotation := orElse_eq hannotation (IsText.reads value.annotation)
    simp [Schema.value, Schema.row, hrow, hname, hannotation]

theorem reads_byte (n : Option UInt8) :
    Option.Rel (Reads Tree.byte?) (n.map fun n tree => tree = .integer n.toNat) n := by
  cases n with
  | none => exact .none
  | some n =>
    refine .some ?_
    rintro _ rfl
    have hbound : (0 : Int) ≤ n.toNat ∧ (n.toNat : Int) < 256 := by
      have := n.toNat_lt
      omega
    rw [Tree.byte?, if_pos hbound, Int.toNat_natCast, UInt8.ofNat_toNat]

theorem reads_boolean (value : Bool) : Reads Tree.boolean? (· = .boolean value) value := by
  rintro _ rfl
  rfl

theorem reads_overwrite (rule : Overwrite) :
    Reads (Schema.overwrite format) (IsText rule.name) rule := by
  rintro _ rfl
  cases rule <;> rfl

theorem DocumentConfig.reads (config : DocumentConfig) :
    Reads (Schema.document format) config.WrittenAs config := by
  intro tree h
  obtain ⟨row, hrow, hcells⟩ :=
    h.exists_row ["indent", "tabs", "overwrite", "header"] rfl (by decide) format.allowsSurplus
  match row, hcells with
  | [_, _, _, _], .cons hindent (.cons htabs (.cons hrule (.cons hheader .nil))) =>
    have hindent := optional_eq hindent (reads_byte config.indent) rfl
    have htabs := orElse_eq htabs (reads_boolean config.tabs)
    have hrule := orElse_eq hrule (reads_overwrite format config.overwrite)
    have hheader := optional_eq hheader (IsText.reads_optional config.header) rfl
    simp [Schema.document, Schema.row, Schema.optionalText, hrow, hindent, htabs, hrule, hheader]

theorem FromImport.reads (fromImport : FromImport) :
    Reads (Schema.fromImport format) fromImport.WrittenAs fromImport := by
  intro tree h
  obtain ⟨row, hrow, hcells⟩ :=
    h.exists_row ["module", "symbols"] rfl (by decide) format.allowsSurplus
  match row, hcells with
  | [_, _], .cons hmodule (.cons hsymbols .nil) =>
    have hmodule := required_eq hmodule (IsText.reads fromImport.moduleName)
    have hsymbols := required_eq hsymbols (IsList.reads_map IsText.reads fromImport.symbols)
    simp [Schema.fromImport, Schema.row, Schema.texts, hrow, hmodule, hsymbols]

theorem GlobalDef.reads (global : GlobalDef) :
    Reads (Schema.global format) global.WrittenAs global := by
  intro tree h
  obtain ⟨row, hrow, hcells⟩ :=
    h.exists_row ["name", "type", "value"] rfl (by decide) format.allowsSurplus
  match row, hcells with
  | [_, _, _], .cons hname (.cons hannotation (.cons hvalue .nil)) =>
    have hname := required_eq hname (IsText.reads global.name)
    have hannotation := orElse_eq hannotation (IsText.reads global.annotation)
    have hvalue := required_eq hvalue (IsText.reads global.value)
    simp [Schema.global, Schema.row, hrow, hname, hannotation, hvalue]

theorem FunctionDef.reads (f : FunctionDef) :
    Reads (Schema.function format) f.WrittenAs f := by
  intro tree h
  obtain ⟨row, hrow, hcells⟩ :=
    h.exists_row ["name", "doc", "params", "returns", "body"] rfl (by decide) format.allowsSurplus
  match row, hcells with
  | [_, _, _, _, _], .cons hname (.cons hdoc (.cons hparams (.cons hreturns (.cons hsuite .nil)))) =>
    have hname := required_eq hname (IsText.reads f.name)
    have hdoc := optional_eq hdoc (IsText.reads_optional f.doc) rfl
    have hparams := orElse_eq hparams (IsList.reads_map (ValueDef.reads format) f.params)
    have hreturns := orElse_eq hreturns (IsList.reads_map (ValueDef.reads format) f.returns)
    have hsuite := orElse_eq hsuite (reads_suite f.body)
    simp [Schema.function, Schema.row, Schema.optionalText, hrow, hname, hdoc, hparams, hreturns,
      hsuite]

theorem ClassDef.reads (c : ClassDef) : Reads (Schema.classDef format) c.WrittenAs c := by
  intro tree h
  obtain ⟨row, hrow, hcells⟩ :=
    h.exists_row ["name", "doc", "fields", "init", "methods"] rfl (by decide) format.allowsSurplus
  match row, hcells with
  | [_, _, _, _, _], .cons hname (.cons hdoc (.cons hfields (.cons hinit (.cons hmethods .nil)))) =>
    have hname := required_eq hname (IsText.reads c.name)
    have hdoc := orElse_eq hdoc (IsText.reads c.doc)
    have hfields := orElse_eq hfields (IsList.reads_map (ValueDef.reads format) c.fields)
    have hinit := orElse_eq hinit (reads_suite c.init)
    have hmethods := orElse_eq hmethods (IsList.reads_map (FunctionDef.reads format) c.methods)
    simp [Schema.classDef, Schema.row, hrow, hname, hdoc, hfields, hinit, hmethods]

theorem Plan.reads (plan : Plan) : Reads (Schema.plan format) plan.WrittenAs plan := by
  intro tree h
  obtain ⟨row, hrow, hcells⟩ :=
    h.exists_row Schema.planNames rfl (by decide) format.allowsSurplus
  match row, hcells with
  | [_, _, _, _, _, _, _], .cons hconfig (.cons himports (.cons hfromImports (.cons hexpressions
      (.cons hglobals (.cons hfunctions (.cons hclasses .nil)))))) =>
    have hconfig := orElse_eq hconfig (plan.document.reads format)
    have himports := orElse_eq himports (IsList.reads_map IsText.reads plan.imports)
    have hfromImports :=
      orElse_eq hfromImports (IsList.reads_map (FromImport.reads format) plan.fromImports)
    have hexpressions := orElse_eq hexpressions (IsList.reads_map IsText.reads plan.expressions)
    have hglobals := orElse_eq hglobals (IsList.reads_map (GlobalDef.reads format) plan.globals)
    have hfunctions :=
      orElse_eq hfunctions (IsList.reads_map (FunctionDef.reads format) plan.functions)
    have hclasses := orElse_eq hclasses (IsList.reads_map (ClassDef.reads format) plan.classes)
    simp [Schema.plan, Schema.row, Schema.texts, hrow, hconfig, himports, hfromImports,
      hexpressions, hglobals, hfunctions, hclasses]

end Formats

/-- Every plan can be written, and in whatever way it is written, both routes decode it. -/
theorem Plan.decoded_as_written (plan : Plan) :
    (∃ tree, plan.WrittenAs tree) ∧
      ∀ tree, plan.WrittenAs tree → ∀ format : Format,
        Schema.plan format tree = some plan ∧
          ∀ source : Source, format.read? source.text = some tree →
            Plan.parse format source = .ok plan := by
  refine ⟨plan.exists_writtenAs, fun tree h format => ?_⟩
  have hplan : Schema.plan format tree = some plan := plan.reads format tree h
  refine ⟨hplan, fun source hread => ?_⟩
  rw [Plan.parse, hread, Option.bind_some, hplan]

/-- A plan whose conditional has an empty suite for the case that no condition holds. -/
def Plan.emptyElse : Plan :=
  { functions := [{ name := "f", body := [.cond "c" [] [] (some [])] }] }

/-- The empty suite is kept, the other empty parts are left out, and the keys are turned around. -/
theorem Plan.decoded_as_written_emptyElse :
    let tree : Tree :=
      .table [("functions", .array [.table [("body", .array
        [.table [("else", .array []), ("if", .text "c")]]), ("name", .text "f")]])]
    emptyElse.WrittenAs tree ∧ Schema.plan .toml tree = some emptyElse ∧
      Schema.plan .json tree = some emptyElse := by
  have hcond : (Statement.cond "c" [] [] (some [])).WrittenAs
      (.table [("else", .array []), ("if", .text "c")]) :=
    ⟨[("if", .text "c"), ("else", .array [])],
      .put ⟨_, rfl, rfl⟩ (.leave (.inl ⟨rfl, rfl⟩) (.leave (.inl ⟨rfl, rfl⟩)
        (.put ⟨_, rfl, [], rfl, .nil⟩ .nil))),
      _, .swap _ _ _, rfl⟩
  have hfunction : (FunctionDef.WrittenAs { name := "f", body := [.cond "c" [] [] (some [])] })
      (.table [("body", .array [.table [("else", .array []), ("if", .text "c")]]),
        ("name", .text "f")]) :=
    ⟨[("name", .text "f"), ("body", .array [.table [("else", .array []), ("if", .text "c")]])],
      .put ⟨_, rfl, rfl⟩ (.leave rfl (.leave (.inl ⟨rfl, rfl⟩) (.leave (.inl ⟨rfl, rfl⟩)
        (.put (.inr ⟨_, rfl, _, rfl, .cons hcond .nil⟩) .nil)))),
      _, .swap _ _ _, rfl⟩
  have hplan : emptyElse.WrittenAs (.table [("functions", .array [.table [("body", .array
      [.table [("else", .array []), ("if", .text "c")]]), ("name", .text "f")]])]) :=
    ⟨_, .leave (.inl ⟨rfl, rfl⟩) (.leave (.inl ⟨rfl, rfl⟩) (.leave (.inl ⟨rfl, rfl⟩)
        (.leave (.inl ⟨rfl, rfl⟩) (.leave (.inl ⟨rfl, rfl⟩)
        (.put (.inr ⟨_, rfl, _, rfl, .cons hfunction .nil⟩) (.leave (.inl ⟨rfl, rfl⟩) .nil)))))),
      _, .refl _, rfl⟩
  exact ⟨hplan, ((decoded_as_written emptyElse).2 _ hplan .toml).1,
    ((decoded_as_written emptyElse).2 _ hplan .json).1⟩

end PlanScribe
