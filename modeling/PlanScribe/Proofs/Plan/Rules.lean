import PlanScribe.Plan.Check
import PlanScribe.Proofs.Plan.Names
import Mathlib.Logic.Basic

/-!
# Well-named plans

A plan is well named if all its names can be used, those bound anywhere in a body included, and no
name stands twice, or beside the receiver, where that is not allowed. The rules behind this are also
listed one by one, in the order of the declarations. A plan is accepted exactly if it is well named,
and otherwise the error is that of the first rule in the list that it breaks.
-/
namespace PlanScribe

/-! ## Plans that are well named -/


/-- The indentation of the plan is given in tabs, or its width, if there is one, is allowed. -/
def DocumentConfig.IndentAllowed (config : DocumentConfig) : Prop :=
  config.tabs = true ∨ ∀ width ∈ config.indent, 1 ≤ width.toNat ∧ width.toNat ≤ 8

instance (config : DocumentConfig) : Decidable config.IndentAllowed :=
  inferInstanceAs (Decidable (_ ∨ _))

/-- Every name that a body binds can be used. -/
def WellNamedBody (body : List Statement) : Prop :=
  ∀ s ∈ body, ∀ name, s.Binds name → UsableName name

def FunctionDef.parameterNames (f : FunctionDef) : List String := f.params.map ValueDef.name

def ClassDef.fieldNames (c : ClassDef) : List String := c.fields.map ValueDef.name

structure FunctionDef.WellNamed (f : FunctionDef) : Prop where
  parameters : ∀ name ∈ f.parameterNames, UsableName name
  distinct : f.parameterNames.Nodup
  returns : ∀ value ∈ f.returns, UsableName value.name
  body : WellNamedBody f.body

structure ClassDef.WellNamed (c : ClassDef) : Prop where
  fields : ∀ name ∈ c.fieldNames, UsableName name
  distinct : c.fieldNames.Nodup
  noReceiver : receiverName ∉ c.fieldNames
  init : WellNamedBody c.init
  methodNames : ∀ m ∈ c.methods, UsableName m.name
  methods : ∀ m ∈ c.methods, m.WellNamed
  noReceiverParameter : ∀ m ∈ c.methods, receiverName ∉ m.parameterNames

structure Plan.WellNamed (plan : Plan) : Prop where
  indent : plan.document.IndentAllowed
  globals : ∀ g ∈ plan.globals, UsableName g.name
  functionNames : ∀ f ∈ plan.functions, UsableName f.name
  functions : ∀ f ∈ plan.functions, f.WellNamed
  classNames : ∀ c ∈ plan.classes, UsableName c.name
  distinctClasses : (plan.classes.map ClassDef.name).Nodup
  classes : ∀ c ∈ plan.classes, c.WellNamed

/-! ## The rules of a plan in order -/

/-- One thing that a well-named plan keeps to. The items around a name are given by their names,
outer ones first; a rule that is no matter of spelling carries the flaw of breaking it. -/
inductive Rule
  | indent (config : DocumentConfig)
  | usable (path : List String) (kind name : String)
  | noReceiver (name : String) (flaw : Flaw)
  | noRepetition (earlier : List String) (name : String) (flaw : Flaw)

namespace Rule

def Holds : Rule → Prop
  | indent config => config.IndentAllowed
  | usable _ _ name => UsableName name
  | noReceiver name _ => name ≠ receiverName
  | noRepetition earlier name _ => name ∉ earlier

instance : DecidablePred Holds
  | indent config => inferInstanceAs (Decidable config.IndentAllowed)
  | usable _ _ name => inferInstanceAs (Decidable (UsableName name))
  | noReceiver name _ => inferInstanceAs (Decidable (name ≠ receiverName))
  | noRepetition earlier name _ => inferInstanceAs (Decidable (name ∉ earlier))

@[simp] theorem holds_indent (config : DocumentConfig) :
    (indent config).Holds ↔ config.IndentAllowed := .rfl

@[simp] theorem holds_usable (path : List String) (kind name : String) :
    (usable path kind name).Holds ↔ UsableName name := .rfl

@[simp] theorem holds_noReceiver (name : String) (flaw : Flaw) :
    (noReceiver name flaw).Holds ↔ name ≠ receiverName := .rfl

@[simp] theorem holds_noRepetition (earlier : List String) (name : String) (flaw : Flaw) :
    (noRepetition earlier name flaw).Holds ↔ name ∉ earlier := .rfl

/-- Where a name stands: its kind and, inside of other items, the dotted names of these. -/
def context (path : List String) (kind : String) : String :=
  if path = [] then kind else kind ++ " in '" ++ ".".intercalate path ++ "'"

/-- The error when the rule is broken. -/
def error (source : Source) : Rule → PlanError
  | indent config =>
    .flawed source.filename (source.keySpan? "indent") (.indentWidth (config.indent.getD 0))
  | usable path kind name =>
    let span := source.nameSpan? name
    if name ∈ keywords then .reservedName source.filename span name (context path kind)
    else .invalidName source.filename span name (context path kind) (misspelling name)
  | noReceiver name flaw | noRepetition _ name flaw =>
    .flawed source.filename (source.nameSpan? name) flaw

end Rule

/-- The items of a list, each with the items before it. -/
def withEarlier {α : Type} (earlier : List α) : List α → List (List α × α)
  | [] => []
  | item :: rest => (earlier, item) :: withEarlier (earlier ++ [item]) rest

def variableRules (path : List String) (body : List Statement) : List Rule :=
  (bindings body).map (.usable path "variable")

/-- The rules for the parameters, return values and body of a function, where `path` ends with the
function itself. -/
def FunctionDef.rules (f : FunctionDef) (path : List String) (isMethod : Bool) : List Rule :=
  let place := ".".intercalate path
  ((withEarlier [] f.parameterNames).flatMap fun (earlier, name) =>
    .usable path "parameter" name ::
      ((if isMethod then [.noReceiver name (.receiverParameter place)] else [])
        ++ [.noRepetition earlier name (.repeatedParameter name place)]))
  ++ f.returns.map (fun value => .usable path "return value" value.name)
  ++ variableRules path f.body

/-- The rules for the fields, constructor statements and methods of a class. -/
def ClassDef.rules (c : ClassDef) : List Rule :=
  ((withEarlier [] c.fieldNames).flatMap fun (earlier, name) =>
    [.usable [c.name] "field" name, .noReceiver name (.receiverField c.name),
      .noRepetition earlier name (.repeatedField name c.name)])
  ++ variableRules [c.name] c.init
  ++ c.methods.flatMap fun m =>
    .usable [c.name] "method" m.name :: m.rules [c.name, m.name] true

/-- The rules of a plan, depth first in the order of its declarations. -/
def Plan.rules (plan : Plan) : List Rule :=
  .indent plan.document :: plan.globals.map (fun g => .usable [] "global" g.name)
  ++ plan.functions.flatMap (fun f => .usable [] "function" f.name :: f.rules [f.name] false)
  ++ (withEarlier [] plan.classes).flatMap fun (earlier, c) =>
    .usable [] "class" c.name
      :: .noRepetition (earlier.map ClassDef.name) c.name (.repeatedClass c.name) :: c.rules

/-! ## Checking finds the broken rules -/

namespace Rule

/-- The errors of the broken rules among `rules`, in order. -/
def broken (source : Source) (rules : List Rule) : List PlanError :=
  (rules.filter fun rule => ¬ rule.Holds).map (error source)

variable (source : Source)

@[simp] theorem broken_nil : broken source [] = [] := rfl

@[simp] theorem broken_append (a b : List Rule) :
    broken source (a ++ b) = broken source a ++ broken source b := by
  simp [broken]

theorem broken_cons (rule : Rule) (rest : List Rule) :
    broken source (rule :: rest)
      = (if rule.Holds then [] else [rule.error source]) ++ broken source rest := by
  by_cases h : rule.Holds <;> simp [broken, h]

theorem broken_flatMap {α : Type} (items : List α) (rules : α → List Rule) :
    broken source (items.flatMap rules) = items.flatMap fun item => broken source (rules item) := by
  induction items with
  | nil => rfl
  | cons item rest ih => simp [ih]

theorem broken_eq_nil_iff (rules : List Rule) :
    broken source rules = [] ↔ ∀ rule ∈ rules, rule.Holds := by
  simp [broken]

theorem broken_eq_cons_iff (rules : List Rule) (e : PlanError) :
    (∃ more, broken source rules = e :: more) ↔
      ∃ before rule after, rules = before ++ rule :: after ∧ (∀ r ∈ before, r.Holds) ∧
        ¬ rule.Holds ∧ rule.error source = e := by
  constructor
  · rintro ⟨more, h⟩
    obtain ⟨rule, rest, hf, rfl, -⟩ := List.map_eq_cons_iff.mp h
    obtain ⟨before, after, rfl, hbefore, hrule, -⟩ := List.filter_eq_cons_iff.mp hf
    exact ⟨before, rule, after, rfl, by simpa using hbefore, by simpa using hrule, rfl⟩
  · rintro ⟨before, rule, after, rfl, hbefore, hrule, rfl⟩
    have hnil := (broken_eq_nil_iff source before).mpr hbefore
    exact ⟨broken source after, by simp [broken_cons, hnil, hrule]⟩

end Rule

theorem map_snd_withEarlier {α : Type} (earlier items : List α) :
    (withEarlier earlier items).map Prod.snd = items := by
  induction items generalizing earlier with
  | nil => rfl
  | cons item rest ih => simp [withEarlier, ih]

namespace Place

open Rule

variable (place : Place)

theorem toList_nameError? (kind name : String) :
    (place.nameError? name kind).toList
      = broken place.source [.usable place.path kind name] := by
  by_cases hu : UsableName name
  · have hf := (nameFault?_eq_none_iff name).mpr hu
    simp [nameError?, hf, broken, Holds, hu]
  · have hh : ¬ (usable place.path kind name).Holds := hu
    have hf := nameFault?_of_not_usable hu
    rw [broken_cons, if_neg hh, broken_nil]
    by_cases hk : name ∈ keywords
    · simp [nameError?, hf, Rule.error, hk, contextFor, context, pathText]
    · cases hm : misspelling name with
      | reserved => exact absurd hm (misspelling_ne_reserved name)
      | empty | badStart | badCharacter =>
        simp [nameError?, hf, Rule.error, hk, hm, contextFor, context, pathText]

theorem errorIf_eq (isBroken : Bool) (rule : Rule) (h : isBroken = true ↔ ¬ rule.Holds) :
    errorIf isBroken (rule.error place.source) = broken place.source [rule] := by
  rw [broken_cons]
  by_cases hr : rule.Holds <;> simp_all [errorIf]

/-- The checks of a list of names are those of the names, each followed by the further ones. -/
theorem checkNames_eq (kind : String) (more : List String → String → List PlanError)
    (rules : List String → String → List Rule)
    (h : ∀ earlier name, more earlier name = broken place.source (rules earlier name))
    (earlier names : List String) :
    place.checkNames kind more earlier names
      = broken place.source ((withEarlier earlier names).flatMap fun (earlier, name) =>
          .usable place.path kind name :: rules earlier name) := by
  induction names generalizing earlier with
  | nil => rfl
  | cons name rest ih =>
    simp only [checkNames, withEarlier, List.flatMap_cons, broken_append, ih, h,
      place.toList_nameError?, broken_cons _ (usable place.path kind name) (rules earlier name)]
    simp [broken_cons]

theorem checkNames_alone (kind : String) (earlier names : List String) :
    place.checkNames kind (fun _ _ => []) earlier names
      = broken place.source (names.map (.usable place.path kind)) := by
  rw [place.checkNames_eq kind (fun _ _ => []) (fun _ _ => []) (fun _ _ => rfl)]
  conv_rhs => rw [← map_snd_withEarlier earlier names, List.map_map, List.map_eq_flatMap]
  rfl

theorem checkBody_eq (body : List Statement) :
    place.checkBody body = broken place.source (variableRules place.path body) := by
  rw [checkBody, checkNames_alone, allBoundIn_eq, variableRules]

theorem errorIf_repeated (earlier : List String) (name : String) (flaw : Flaw) :
    errorIf (earlier.contains name) (place.flawAt flaw name)
      = broken place.source [.noRepetition earlier name flaw] :=
  place.errorIf_eq _ (.noRepetition earlier name flaw) (by simp [Holds])

theorem errorIf_receiver (name : String) (flaw : Flaw) :
    errorIf (name == receiverName) (place.flawAt flaw name)
      = broken place.source [.noReceiver name flaw] :=
  place.errorIf_eq _ (.noReceiver name flaw) (by simp [Holds])

theorem checkFunction_eq (isMethod : Bool) (f : FunctionDef) :
    place.checkFunction isMethod f = broken place.source (f.rules place.path isMethod) := by
  have hmore (earlier : List String) (name : String) :
      errorIf (isMethod && name == receiverName)
            (place.flawAt (.receiverParameter place.pathText) name)
          ++ errorIf (earlier.contains name)
            (place.flawAt (.repeatedParameter name place.pathText) name)
        = broken place.source
          ((if isMethod then [.noReceiver name (.receiverParameter place.pathText)] else [])
            ++ [.noRepetition earlier name (.repeatedParameter name place.pathText)]) := by
    rw [broken_append, errorIf_repeated]
    cases isMethod with
    | false => rfl
    | true => rw [Bool.true_and, errorIf_receiver, if_pos rfl]
  rw [checkFunction, place.checkNames_eq "parameter" _ _ hmore, checkNames_alone, checkBody_eq]
  simp [FunctionDef.rules, FunctionDef.parameterNames, pathText, Function.comp_def]

theorem checkClass_eq (c : ClassDef) (h : place.path = [c.name]) :
    place.checkClass c = broken place.source c.rules := by
  have hmore (earlier : List String) (name : String) :
      errorIf (name == receiverName) (place.flawAt (.receiverField place.pathText) name)
          ++ errorIf (earlier.contains name)
            (place.flawAt (.repeatedField name place.pathText) name)
        = broken place.source [.noReceiver name (.receiverField place.pathText),
            .noRepetition earlier name (.repeatedField name place.pathText)] := by
    rw [errorIf_receiver, errorIf_repeated, ← broken_append]
    rfl
  have hmethod (m : FunctionDef) :
      (place.nameError? m.name "method").toList ++ (place.push m.name).checkFunction true m
        = broken place.source
          (.usable [c.name] "method" m.name :: m.rules [c.name, m.name] true) := by
    rw [toList_nameError?, checkFunction_eq, h]
    simp only [push, h]
    exact (broken_append place.source [.usable [c.name] "method" m.name] _).symm
  have hpath : place.pathText = c.name := by simp [pathText, h]
  rw [checkClass, place.checkNames_eq "field" _ _ hmore, checkBody_eq]
  simp only [hmethod, ← broken_flatMap, ← broken_append, ClassDef.rules, ClassDef.fieldNames, h,
    hpath]

theorem checkClasses_eq (h : place.path = []) (earlier classes : List ClassDef) :
    place.checkClasses (earlier.map ClassDef.name) classes
      = broken place.source ((withEarlier earlier classes).flatMap fun (earlier, c) =>
          .usable [] "class" c.name
            :: .noRepetition (earlier.map ClassDef.name) c.name (.repeatedClass c.name)
            :: c.rules) := by
  induction classes generalizing earlier with
  | nil => rfl
  | cons c rest ih =>
    have ih' := ih (earlier ++ [c])
    rw [List.map_append, List.map_singleton] at ih'
    rw [checkClasses, ih', toList_nameError?, errorIf_repeated,
      checkClass_eq _ _ (by simp [push, h]), withEarlier, List.flatMap_cons, broken_append, h]
    simp [← broken_append, push]

theorem checkIndent_eq (config : DocumentConfig) :
    place.checkIndent config = broken place.source [.indent config] := by
  cases h : config.indent with
  | none => simp [checkIndent, h, broken_cons, Holds, DocumentConfig.IndentAllowed]
  | some width =>
    have hw := place.errorIf_eq
      (!config.tabs && !(minIndent ≤ width.toNat && width.toNat ≤ maxIndent)) (.indent config)
      (by
        simp only [Holds, DocumentConfig.IndentAllowed, h, minIndent, maxIndent]
        by_cases ht : config.tabs = true <;> simp [ht]
        grind)
    simpa [checkIndent, h, Rule.error, flawAtKey] using hw

end Place

namespace Plan

open Rule

/-- Checking a plan gives the errors of its broken rules, in the order of the rules. -/
theorem errors_eq (plan : Plan) (source : Source) :
    plan.errors source = broken source plan.rules := by
  have hglobal (g : GlobalDef) :
      (({ source } : Place).nameError? g.name "global").toList
        = broken source [.usable [] "global" g.name] := Place.toList_nameError? _ _ _
  have hfunction (f : FunctionDef) :
      (({ source } : Place).nameError? f.name "function").toList
          ++ (({ source } : Place).push f.name).checkFunction false f
        = broken source (.usable [] "function" f.name :: f.rules [f.name] false) := by
    rw [Place.toList_nameError?, Place.checkFunction_eq]
    exact (broken_append source [.usable [] "function" f.name] _).symm
  have hclasses := Place.checkClasses_eq { source } rfl [] plan.classes
  rw [List.map_nil] at hclasses
  rw [errors, Place.checkIndent_eq, hclasses]
  simp only [hglobal, hfunction, ← broken_flatMap, ← broken_append]
  rw [rules, List.map_eq_flatMap]
  rfl

theorem validate_eq_ok_iff (plan : Plan) (source : Source) :
    plan.validate source = .ok () ↔ ∀ rule ∈ plan.rules, rule.Holds := by
  rw [validate, errors_eq, ← broken_eq_nil_iff source]
  cases broken source plan.rules <;> simp

theorem validate_eq_error_iff (plan : Plan) (source : Source) (e : PlanError) :
    plan.validate source = .error e ↔
      ∃ before rule after, plan.rules = before ++ rule :: after ∧ (∀ r ∈ before, r.Holds) ∧
        ¬ rule.Holds ∧ rule.error source = e := by
  rw [validate, errors_eq, ← broken_eq_cons_iff]
  cases broken source plan.rules <;> simp

end Plan

/-! ## The rules hold exactly for the well-named plans -/

theorem forall_withEarlier {α : Type} (p : α → Prop) (earlier items : List α) :
    (∀ x ∈ withEarlier earlier items, p x.2) ↔ ∀ item ∈ items, p item := by
  conv_rhs => rw [← map_snd_withEarlier earlier items]
  exact List.forall_mem_map.symm

theorem forall_withEarlier_not_mem {α : Type} (name : α → String) (earlier items : List α) :
    (∀ x ∈ withEarlier earlier items, name x.2 ∉ x.1.map name) ↔
      (items.map name).Nodup ∧ ∀ item ∈ items, name item ∉ earlier.map name := by
  induction items generalizing earlier with
  | nil => simp [withEarlier]
  | cons item rest ih =>
    rw [withEarlier, List.forall_mem_cons, ih]
    simp only [List.map_cons, List.nodup_cons, List.map_append, List.mem_append, List.map_nil,
      List.mem_singleton, not_or, List.forall_mem_cons, List.mem_map (b := name item)]
    grind

theorem nodup_iff_withEarlier {α : Type} (name : α → String) (items : List α) :
    (∀ x ∈ withEarlier [] items, name x.2 ∉ x.1.map name) ↔ (items.map name).Nodup := by
  rw [forall_withEarlier_not_mem]
  simp

/-- The names of a list differ from each other and, if they stand beside it, from the receiver. -/
theorem forall_apart (names : List String) (besideReceiver : Prop) :
    (∀ x ∈ withEarlier [] names, (besideReceiver → x.2 ≠ receiverName) ∧ x.2 ∉ x.1) ↔
      (besideReceiver → receiverName ∉ names) ∧ names.Nodup := by
  have hreceiver : (∀ x ∈ withEarlier [] names, besideReceiver → x.2 ≠ receiverName) ↔
      (besideReceiver → receiverName ∉ names) := by
    rw [forall_withEarlier fun name => besideReceiver → name ≠ receiverName]
    exact ⟨fun h hb hm => h _ hm hb rfl, fun h name hm hb he => h hb (he ▸ hm)⟩
  have hdistinct : (∀ x ∈ withEarlier [] names, x.2 ∉ x.1) ↔ names.Nodup := by
    simpa using nodup_iff_withEarlier id names
  rw [forall₂_and, hreceiver, hdistinct]

theorem forall_declared (names : List String) (besideReceiver : Prop) :
    (∀ x ∈ withEarlier [] names, UsableName x.2 ∧ (besideReceiver → x.2 ≠ receiverName) ∧
        x.2 ∉ x.1) ↔
      (∀ name ∈ names, UsableName name) ∧ (besideReceiver → receiverName ∉ names) ∧
        names.Nodup := by
  rw [forall₂_and, forall_withEarlier UsableName, forall_apart]

theorem forall_variableRules (path : List String) (body : List Statement) :
    (∀ rule ∈ variableRules path body, rule.Holds) ↔ WellNamedBody body := by
  simp only [variableRules, List.forall_mem_map, ← allBoundIn_eq, mem_allBoundIn_iff]
  exact ⟨fun h s hs name hb => h name ⟨s, hs, hb⟩, fun h name ⟨s, hs, hb⟩ => h s hs name hb⟩

theorem FunctionDef.forall_rules (f : FunctionDef) (path : List String) (isMethod : Bool) :
    (∀ rule ∈ f.rules path isMethod, rule.Holds) ↔
      f.WellNamed ∧ (isMethod = true → receiverName ∉ f.parameterNames) := by
  have hparameters := forall_declared f.parameterNames (isMethod = true)
  have hrules : (∀ x ∈ withEarlier [] f.parameterNames, ∀ rule ∈
      Rule.usable path "parameter" x.2 ::
        ((if isMethod then [.noReceiver x.2 (.receiverParameter (".".intercalate path))] else [])
          ++ [.noRepetition x.1 x.2 (.repeatedParameter x.2 (".".intercalate path))]),
        rule.Holds) ↔
      ∀ x ∈ withEarlier [] f.parameterNames, UsableName x.2 ∧
        (isMethod = true → x.2 ≠ receiverName) ∧ x.2 ∉ x.1 := by
    cases isMethod <;> simp
  rw [hparameters] at hrules
  simp only [FunctionDef.rules, List.forall_mem_append, List.forall_mem_flatMap,
    forall_variableRules, List.forall_mem_map, hrules, Rule.holds_usable]
  constructor
  · rintro ⟨⟨⟨hnames, hreceiver, hdistinct⟩, hreturns⟩, hbody⟩
    exact ⟨⟨hnames, hdistinct, hreturns, hbody⟩, hreceiver⟩
  · rintro ⟨⟨hnames, hdistinct, hreturns, hbody⟩, hreceiver⟩
    exact ⟨⟨⟨hnames, hreceiver, hdistinct⟩, hreturns⟩, hbody⟩

theorem ClassDef.forall_rules (c : ClassDef) :
    (∀ rule ∈ c.rules, rule.Holds) ↔ c.WellNamed := by
  have hrules : (∀ x ∈ withEarlier [] c.fieldNames, ∀ rule ∈
      [Rule.usable [c.name] "field" x.2, .noReceiver x.2 (.receiverField c.name),
        .noRepetition x.1 x.2 (.repeatedField x.2 c.name)], rule.Holds) ↔
      ∀ x ∈ withEarlier [] c.fieldNames, UsableName x.2 ∧
        (True → x.2 ≠ receiverName) ∧ x.2 ∉ x.1 := by
    simp
  rw [forall_declared, true_implies] at hrules
  simp only [ClassDef.rules, List.forall_mem_append, List.forall_mem_flatMap, hrules,
    forall_variableRules]
  simp only [List.forall_mem_cons, FunctionDef.forall_rules, Rule.holds_usable, true_implies,
    forall₂_and]
  constructor
  · rintro ⟨⟨⟨hnames, hreceiver, hdistinct⟩, hinit⟩, hmethodNames, hmethods, hparameters⟩
    exact ⟨hnames, hdistinct, hreceiver, hinit, hmethodNames, hmethods, hparameters⟩
  · rintro ⟨hnames, hdistinct, hreceiver, hinit, hmethodNames, hmethods, hparameters⟩
    exact ⟨⟨⟨hnames, hreceiver, hdistinct⟩, hinit⟩, hmethodNames, hmethods, hparameters⟩

theorem Plan.forall_rules (plan : Plan) :
    (∀ rule ∈ plan.rules, rule.Holds) ↔ plan.WellNamed := by
  simp only [Plan.rules, List.forall_mem_append, List.forall_mem_flatMap, List.forall_mem_map,
    List.forall_mem_cons, FunctionDef.forall_rules, ClassDef.forall_rules, Rule.holds_indent,
    Rule.holds_usable, Rule.holds_noRepetition, Bool.false_eq_true, false_implies, and_true,
    forall₂_and, nodup_iff_withEarlier]
  rw [forall_withEarlier fun c : ClassDef => UsableName c.name,
    forall_withEarlier ClassDef.WellNamed]
  constructor
  · rintro ⟨⟨⟨hindent, hglobals⟩, hnames, hfunctions⟩, hclassNames, hdistinct, hclasses⟩
    exact ⟨hindent, hglobals, hnames, hfunctions, hclassNames, hdistinct, hclasses⟩
  · rintro ⟨hindent, hglobals, hnames, hfunctions, hclassNames, hdistinct, hclasses⟩
    exact ⟨⟨⟨hindent, hglobals⟩, hnames, hfunctions⟩, hclassNames, hdistinct, hclasses⟩

theorem Plan.wellNamed_of_validate {plan : Plan} {source : Source}
    (h : plan.validate source = .ok ()) : plan.WellNamed :=
  plan.forall_rules.mp ((plan.validate_eq_ok_iff source).mp h)

/-- A plan is accepted exactly if it is well named, and the error of a plan that is not is that of
the first rule it breaks, depth first in the order of the declarations. -/
theorem Plan.validate_wellNamed_or_first_broken (plan : Plan) (source : Source) :
    (plan.validate source = .ok () ↔ plan.WellNamed) ∧
      ∀ e, plan.validate source = .error e ↔
        ∃ before rule after, plan.rules = before ++ rule :: after ∧
          (∀ r ∈ before, r.Holds) ∧ ¬ rule.Holds ∧ rule.error source = e :=
  ⟨(plan.validate_eq_ok_iff source).trans plan.forall_rules, plan.validate_eq_error_iff source⟩

end PlanScribe
