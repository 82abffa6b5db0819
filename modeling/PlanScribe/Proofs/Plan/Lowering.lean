import PlanScribe.Proofs.Plan.Clashes

/-!
# The lowered plan

Lowering makes its calls one after the other. It ends with the error of the first declaration that
clashes; without one it arrives at a document that can be written down directly, region by region:
the lines of the header and of the globals, the classes with all their members, and the texts of the
functions. A plan that passes its checks can therefore always be applied and rendered.
-/
namespace PlanScribe

/-! ## How a run ends -/

namespace Run

variable {σ : Type}

/-- The run ends with the error, or without one and then in the state. -/
def EndsWith (run : Run σ) (failure : Option BuildError) (last : σ) : Prop :=
  run.error = failure ∧ (failure = none → run.state = last)

theorem endsWith_done (state : σ) : (done state).EndsWith none state := ⟨rfl, fun _ => rfl⟩

theorem EndsWith.andThen {run : Run σ} {first second : Option BuildError} {mid last : σ}
    (h : run.EndsWith first mid) (next : σ → Run σ) (hnext : (next mid).EndsWith second last) :
    (run.andThen next).EndsWith (first.or second) last := by
  obtain ⟨rfl, hmid⟩ := h
  obtain ⟨rfl, hlast⟩ := hnext
  cases he : run.error with
  | some e => simp [EndsWith, he]
  | none =>
    obtain rfl := hmid he
    simpa [EndsWith, he] using hlast

/-- A committed attempt ends as the attempt does. -/
theorem endsWith_commit {α : Type} (attempt : Attempt α) (state : σ) (record : α → σ)
    {failure : Option BuildError} {value : α} (herror : attempt.error? = failure)
    (hvalue : failure = none → attempt.result = .ok value) :
    (attempt.commit state record).EndsWith failure (record value) := by
  refine ⟨(attempt.error_commit state record).trans herror, fun h => ?_⟩
  exact attempt.state_commit_of_ok state record (hvalue h)

end Run

/-! ## Functions -/

/-- The text of a function whose body is a list of statements. -/
def Function.withStatements (f : Function) (depth : Nat) (indent : Indent)
    (body : List Statement) : Buffer :=
  f.close depth indent (emitBody body (f.block depth indent))

theorem Function.error?_render_bodyOf (f : Function) (depth : Nat) (indent : Indent)
    (body : List Statement) : (f.render depth indent (bodyOf body)).error? = f.repetition? := by
  rw [f.error?_render, bodyOf, Run.error_done, Option.or_none]

theorem Function.result_render_bodyOf (f : Function) (depth : Nat) (indent : Indent)
    (body : List Statement) (h : f.repetition? = none) :
    (f.render depth indent (bodyOf body)).result = .ok (f.withStatements depth indent body) :=
  f.result_render_of_ok depth indent _ (Option.map_eq_none_iff.mp h) rfl

/-! ## Classes -/

namespace ClassDef

/-- The class of which nothing is declared yet. -/
def start (c : ClassDef) (indent : Indent) : ClassBuild :=
  { name := c.name, doc := c.doc, depth := 0, indent }

/-- The class with all that is declared in it. -/
def lowered (c : ClassDef) (indent : Indent) : ClassBuild :=
  { name := c.name, doc := c.doc, depth := 0, indent
    fields := c.fields.map ValueDef.slot
    setup := (emitBody c.init (.atDepth 2 indent)).buffer
    methods := c.methods.map fun m => m.declaration.withReceiver.withStatements 1 indent m.body }

theorem endsWith_addFields (c : ClassDef) (indent : Indent) :
    ((c.start indent).addFields (c.fields.map ValueDef.slot)).EndsWith
      (firstClash (PlanScribe.declarations (.fieldsOf c.name) [] c.fieldNames))
      { c.start indent with fields := c.fields.map ValueDef.slot } := by
  have herror := (c.start indent).error_addFields (c.fields.map ValueDef.slot)
  rw [map_name_slots] at herror
  refine ⟨herror, fun h => ?_⟩
  exact (c.start indent).state_addFields _ (herror.trans h)

theorem endsWith_setup (c : ClassDef) (cls : ClassBuild) (h : cls.setup = {}) :
    (if c.init.isEmpty then Run.done cls else cls.addSetup (bodyOf c.init)).EndsWith none
      { cls with setup := (emitBody c.init (.atDepth (cls.depth + 2) cls.indent)).buffer } := by
  cases hi : c.init with
  | nil =>
    have hempty : { cls with setup := {} } = cls := by rw [← h]
    exact ⟨rfl, fun _ => hempty.symm⟩
  | cons s rest =>
    let block := emitBody (s :: rest) (.atDepth (cls.depth + 2) cls.indent)
    have hcommit : (cls.addSetup (bodyOf (s :: rest))).EndsWith none
        { cls with setup := cls.setup ++ block.buffer } :=
      Run.endsWith_commit _ _ _ rfl fun _ => rfl
    rw [h] at hcommit
    exact hcommit

/-- The class with more methods at its end. -/
def withMethods (cls : ClassBuild) (methods : List FunctionDef) : ClassBuild :=
  { cls with
    methods := cls.methods ++ methods.map fun m =>
      m.declaration.withReceiver.withStatements (cls.depth + 1) cls.indent m.body }

theorem endsWith_addMethod (cls : ClassBuild) (m : FunctionDef) :
    (cls.addMethod m.declaration (bodyOf m.body)).EndsWith
      (firstClash (PlanScribe.declarations (.methodParametersOf m.name) [] m.parameterNames))
      (withMethods cls [m]) := by
  rw [← m.repetition?_method]
  exact Run.endsWith_commit _ _ _ (Function.error?_render_bodyOf _ _ _ _)
    (Function.result_render_bodyOf _ _ _ _)

theorem endsWith_addMethods (cls : ClassBuild) (methods : List FunctionDef) :
    (addMethods cls methods).EndsWith
      (firstClash (methods.flatMap fun m =>
        PlanScribe.declarations (.methodParametersOf m.name) [] m.parameterNames))
      (withMethods cls methods) := by
  induction methods generalizing cls with
  | nil => exact ⟨rfl, fun _ => by simp [addMethods, withMethods]⟩
  | cons m rest ih =>
    have hcons : withMethods (withMethods cls [m]) rest = withMethods cls (m :: rest) := by
      simp [withMethods]
    have hrest := (endsWith_addMethod cls m).andThen (addMethods · rest) (ih (withMethods cls [m]))
    rw [List.flatMap_cons, firstClash_append, ← hcons]
    exact hrest

theorem endsWith_lower (c : ClassDef) (indent : Indent) :
    (c.lower (c.start indent)).EndsWith (firstClash c.declarations) (c.lowered indent) := by
  have hfields := c.endsWith_addFields indent
  have hsetup := hfields.andThen
    (fun cls => if c.init.isEmpty then .done cls else cls.addSetup (bodyOf c.init))
    (c.endsWith_setup _ rfl)
  have hmethods := hsetup.andThen (addMethods · c.methods) (endsWith_addMethods _ c.methods)
  rw [Option.or_none, ← firstClash_append] at hmethods
  exact hmethods

/-- The constructor of a class without clashes can be rendered. -/
theorem distinct_lowered (c : ClassDef) (indent : Indent)
    (h : ∀ d ∈ c.declarations, ¬ d.Clashes) : (c.lowered indent).Distinct := by
  obtain ⟨⟨hreceiver, hnodup⟩, -⟩ := c.forall_declarations.mp h
  have hnames : (c.lowered indent).fieldNames = c.fieldNames := map_name_slots c.fields
  rw [ClassBuild.Distinct, hnames, List.nodup_cons]
  exact ⟨hreceiver, hnodup⟩

theorem WellNamed.distinct_lowered {c : ClassDef} (h : c.WellNamed) (indent : Indent) :
    (c.lowered indent).Distinct :=
  c.distinct_lowered indent (c.forall_declarations.mpr ⟨⟨h.noReceiver, h.distinct⟩,
    fun m hm => ⟨h.noReceiverParameter m hm, (h.methods m hm).distinct⟩⟩)

end ClassDef

/-! ## Documents -/

def FromImport.text (i : FromImport) : String :=
  "from " ++ i.moduleName ++ " import " ++ ", ".intercalate i.symbols

def GlobalDef.text (g : GlobalDef) : String := assignment (.named g.name g.annotation) g.value

namespace Document

def withHeader (doc : Document) (texts : List String) : Document :=
  { doc with header := doc.header.writeAll texts }

def withGlobals (doc : Document) (globals : List GlobalDef) : Document :=
  { doc with globals := doc.globals.writeAll (globals.map GlobalDef.text) }

def withClasses (doc : Document) (classes : List ClassDef) : Document :=
  { doc with classes := doc.classes ++ classes.map fun c => c.lowered doc.options.indent }

def withFunctions (doc : Document) (functions : List FunctionDef) : Document :=
  { doc with
    functions := doc.functions ++ functions.map fun f =>
      f.declaration.withStatements 0 doc.options.indent f.body }

variable {doc : Document}

/-- If each call adds its item, or fails, then calls made in turn add all items, or end as the first
that fails. -/
theorem endsWith_each {α : Type} (add : Document → List α → Document)
    {call : Document → α → Run Document} {failure : α → Option BuildError} (items : List α)
    (hnil : ∀ doc, add doc [] = doc)
    (hcons : ∀ doc item rest, add doc (item :: rest) = add (add doc [item]) rest)
    (hclosed : ∀ doc items, (add doc items).closed = doc.closed)
    (hcall : ∀ (doc : Document) (item : α), doc.closed = false →
      (call doc item).EndsWith (failure item) (add doc [item]))
    (hopen : doc.closed = false) :
    (each call items doc).EndsWith (items.findSome? failure) (add doc items) := by
  induction items generalizing doc with
  | nil => exact ⟨rfl, fun _ => (hnil doc).symm⟩
  | cons item rest ih =>
    have hrest : (each call rest (add doc [item])).EndsWith (rest.findSome? failure)
        (add (add doc [item]) rest) := ih (by rwa [hclosed])
    have hall := (hcall doc item hopen).andThen (each call rest) hrest
    rw [← hcons] at hall
    rw [List.findSome?_cons]
    cases hf : failure item <;> simpa [each, hf] using hall

theorem endsWith_whenOpen {change : Run Document} {failure : Option BuildError} {last : Document}
    (h : change.EndsWith failure last) (hopen : doc.closed = false) :
    (doc.whenOpen change).EndsWith failure last := by
  rwa [whenOpen, hopen, if_neg Bool.false_ne_true]

theorem endsWith_addClass (c : ClassDef) (hopen : doc.closed = false) :
    (doc.addClass c.name c.doc c.lower).EndsWith (firstClash c.declarations)
      (doc.withClasses [c]) := by
  obtain ⟨herror, hstate⟩ := c.endsWith_lower doc.options.indent
  refine endsWith_whenOpen (Run.endsWith_commit _ _ _ ?_ fun h => ?_) hopen
  · rwa [Attempt.error?_finish, Run.error?_attempt]
  · have hok := Run.result_attempt_of_ok _ (herror.trans h)
    rw [hstate h] at hok
    rw [Attempt.result_finish]
    exact congrArg (Except.map id) hok

theorem endsWith_addFunction (f : FunctionDef) (hopen : doc.closed = false) :
    (doc.addFunction f.declaration (bodyOf f.body)).EndsWith
      (firstClash (declarations (.parametersOf f.name) [] f.parameterNames))
      (doc.withFunctions [f]) := by
  rw [← f.repetition?_declaration]
  exact endsWith_whenOpen (Run.endsWith_commit _ _ _ (f.declaration.error?_render_bodyOf _ _ _)
    (f.declaration.result_render_bodyOf _ _ _)) hopen

theorem findSome?_none {α : Type} (items : List α) :
    items.findSome? (fun _ => (none : Option BuildError)) = none :=
  List.findSome?_eq_none_iff.mpr fun _ _ => rfl

theorem endsWith_writeHeaders {α : Type} (text : α → String) (items : List α)
    (hopen : doc.closed = false) :
    (each (fun doc item => doc.writeHeader (text item)) items doc).EndsWith none
      (doc.withHeader (items.map text)) := by
  have heach := endsWith_each (fun doc items => doc.withHeader (items.map text)) items
    (fun _ => rfl) (fun _ _ _ => rfl) (fun _ _ => rfl)
    (fun _ _ hopen => endsWith_whenOpen (Run.endsWith_done _) hopen) hopen
  rwa [findSome?_none] at heach

theorem endsWith_addGlobals (globals : List GlobalDef) (hopen : doc.closed = false) :
    (each (fun doc g => doc.addGlobal (.named g.name g.annotation) g.value) globals doc).EndsWith
      none (doc.withGlobals globals) := by
  have heach := endsWith_each withGlobals globals
    (fun _ => rfl) (fun _ _ _ => rfl) (fun _ _ => rfl)
    (fun _ _ hopen => endsWith_whenOpen (Run.endsWith_done _) hopen) hopen
  rwa [findSome?_none] at heach

theorem endsWith_addClasses (classes : List ClassDef) (hopen : doc.closed = false) :
    (each (fun doc c => doc.addClass c.name c.doc c.lower) classes doc).EndsWith
      (firstClash (classes.flatMap ClassDef.declarations)) (doc.withClasses classes) := by
  rw [firstClash_flatMap]
  exact endsWith_each withClasses classes (fun _ => by simp [withClasses])
    (fun _ _ _ => by simp [withClasses]) (fun _ _ => rfl)
    (fun _ c hopen => endsWith_addClass c hopen) hopen

theorem endsWith_addFunctions (functions : List FunctionDef) (hopen : doc.closed = false) :
    (each (fun doc f => doc.addFunction f.declaration (bodyOf f.body)) functions doc).EndsWith
      (firstClash (functions.flatMap fun f =>
        declarations (.parametersOf f.name) [] f.parameterNames))
      (doc.withFunctions functions) := by
  rw [firstClash_flatMap]
  exact endsWith_each withFunctions functions (fun _ => by simp [withFunctions])
    (fun _ _ _ => by simp [withFunctions]) (fun _ _ => rfl)
    (fun _ f hopen => endsWith_addFunction f hopen) hopen

theorem withHeader_withHeader (texts more : List String) :
    (doc.withHeader texts).withHeader more = doc.withHeader (texts ++ more) := by
  simp [withHeader, Scope.writeAll]

theorem renderClasses_of_distinct {classes : List ClassBuild} (h : ∀ cls ∈ classes, cls.Distinct) :
    (renderClasses classes).result = .ok (classes.map ClassBuild.assembled) := by
  induction classes with
  | nil => rfl
  | cons cls rest ih =>
    have hrest := ih fun other hm => h other (List.mem_cons_of_mem _ hm)
    have hcls := (h cls List.mem_cons_self).result_render
    rw [renderClasses, Attempt.result_andThen_of_ok _ _ hcls, Attempt.result_finish, hrest]
    rfl

end Document

/-! ## Plans -/

namespace Plan

/-- The texts of the header region: the imports, then the top-level statements. -/
def headerTexts (plan : Plan) : List String :=
  plan.imports.map ("import " ++ ·) ++ plan.fromImports.map FromImport.text ++ plan.expressions

/-- The document with all that the plan describes. -/
def lowered (plan : Plan) (doc : Document) : Document :=
  (((doc.withHeader plan.headerTexts).withGlobals plan.globals).withClasses
    plan.classes).withFunctions plan.functions

theorem endsWith_apply (plan : Plan) {doc : Document} (hopen : doc.closed = false) :
    (plan.apply doc).EndsWith (firstClash plan.declarations) (plan.lowered doc) := by
  have himports := Document.endsWith_writeHeaders ("import " ++ ·) plan.imports hopen
  have hfromImports := himports.andThen _
    (Document.endsWith_writeHeaders FromImport.text plan.fromImports hopen)
  have hexpressions := hfromImports.andThen _
    (Document.endsWith_writeHeaders id plan.expressions hopen)
  have hglobals := hexpressions.andThen _ (Document.endsWith_addGlobals plan.globals hopen)
  have hclasses := hglobals.andThen _ (Document.endsWith_addClasses plan.classes hopen)
  have hfunctions := hclasses.andThen _ (Document.endsWith_addFunctions plan.functions hopen)
  rw [List.map_id, Document.withHeader_withHeader, Document.withHeader_withHeader,
    Option.none_or, Option.none_or, Option.none_or, Option.none_or, ← firstClash_append,
    ← List.append_assoc] at hfunctions
  refine ⟨?_, fun h => ?_⟩
  · exact (Run.error_thenNote _ _).trans hfunctions.1
  · exact (Run.state_thenNote _ _).trans (hfunctions.2 h)

/-- Applying a plan without clashes cannot fail. -/
theorem apply_of_not_clashing (plan : Plan) (h : ¬ plan.Clashing) {doc : Document}
    (hopen : doc.closed = false) :
    (plan.apply doc).error = none ∧ (plan.apply doc).state = plan.lowered doc := by
  have hnone := plan.firstClash_eq_none_iff.mpr h
  obtain ⟨herror, hstate⟩ := plan.endsWith_apply hopen
  exact ⟨herror.trans hnone, hstate hnone⟩

/-- The document can be rendered if the classes that it had before can be. -/
theorem result_render_lowered (plan : Plan) (h : ¬ plan.Clashing) (doc : Document)
    (hclasses : ∀ cls ∈ doc.classes, cls.Distinct) :
    (plan.lowered doc).render.result
      = .ok ((plan.lowered doc).assemble
          ((plan.lowered doc).classes.map ClassBuild.assembled)).text := by
  have hdistinct : ∀ cls ∈ (plan.lowered doc).classes, cls.Distinct := by
    intro cls hm
    rcases List.mem_append.mp hm with hm | hm
    · exact hclasses cls hm
    · obtain ⟨c, hc, rfl⟩ := List.mem_map.mp hm
      refine c.distinct_lowered _ fun d hd => ?_
      exact plan.forall_declarations.mpr h d
        (List.mem_append_left _ (List.mem_flatMap.mpr ⟨c, hc, hd⟩))
  rw [Document.render, Attempt.result_finish, Document.renderClasses_of_distinct hdistinct]
  rfl

/-- The document that a plan without clashes makes of a fresh one. -/
def built (plan : Plan) : Document := plan.lowered (.create plan.document.options (some {}))

theorem render_of_not_clashing (plan : Plan) (h : ¬ plan.Clashing) :
    plan.render = .ok (plan.built.assemble (plan.built.classes.map ClassBuild.assembled)).text := by
  have hopen : (Document.create plan.document.options (some {})).closed = false := rfl
  obtain ⟨herror, hstate⟩ := plan.apply_of_not_clashing h hopen
  rw [render]
  simp only [herror, hstate]
  exact plan.result_render_lowered h _ fun _ hm => nomatch hm

theorem render_eq_error_iff (plan : Plan) (e : BuildError) :
    plan.render = .error e ↔ firstClash plan.declarations = some e := by
  have hopen : (Document.create plan.document.options (some {})).closed = false := rfl
  have herror := (plan.endsWith_apply hopen).1
  cases hc : firstClash plan.declarations with
  | some first =>
    rw [hc] at herror
    simp [render, herror]
  | none => simp [plan.render_of_not_clashing (plan.firstClash_eq_none_iff.mp hc)]

/-- Applied to a fresh document, an accepted plan leaves there what each of its functions and
classes is lowered to; so what holds of each of them holds of what is built. -/
theorem forall₂_applied {plan : Plan} {source : Source} (h : plan.validate source = .ok ())
    (options : DocumentOptions) (sink : Option Sink) (target : Option Path)
    {ofFunction : FunctionDef → Buffer → Prop} {ofClass : ClassDef → ClassBuild → Prop}
    (hfunctions : ∀ f ∈ plan.functions,
      ofFunction f (f.declaration.withStatements 0 options.indent f.body))
    (hclasses : ∀ c ∈ plan.classes, ofClass c (c.lowered options.indent)) :
    let applied := plan.apply { Document.create options sink with target }
    applied.error = none ∧
      List.Forall₂ ofFunction plan.functions applied.state.functions ∧
      List.Forall₂ ofClass plan.classes applied.state.classes := by
  have hopen : { Document.create options sink with target }.closed = false := rfl
  obtain ⟨herror, hstate⟩ :=
    plan.apply_of_not_clashing (not_clashing_of_wellNamed (wellNamed_of_validate h)) hopen
  intro applied
  rw [hstate]
  exact ⟨herror, List.forall₂_map_right_iff.mpr (List.forall₂_same.mpr hfunctions),
    List.forall₂_map_right_iff.mpr (List.forall₂_same.mpr hclasses)⟩

/-- Rendering fails exactly for the plans in which declarations clash, with the error of the first
clash. The checks refuse all of these, so an accepted plan can be applied to any fresh document,
which is left unpoisoned and can be rendered. -/
theorem render_fails_only_on_clashes (plan : Plan) :
    ((∃ e, plan.render = .error e) ↔ plan.Clashing) ∧
    (∀ e, plan.render = .error e ↔
      ∃ before d after, plan.declarations = before ++ d :: after ∧
        (∀ b ∈ before, ¬ b.Clashes) ∧ d.Clashes ∧ d.error = e) ∧
    (plan.Clashing → ∀ source, ∃ e, plan.validate source = .error e) ∧
    ∀ source, plan.validate source = .ok () → ∀ options sink target,
      let applied := plan.apply { Document.create options sink with target }
      applied.error = none ∧ applied.state.poisoned = false ∧
        ∃ text, applied.state.render.result = .ok text := by
  refine ⟨?_, ?_, ?_, ?_⟩
  · simp only [plan.render_eq_error_iff]
    rw [← Option.ne_none_iff_exists', ne_eq, plan.firstClash_eq_none_iff, not_not]
  · intro e
    rw [plan.render_eq_error_iff, firstClash_eq_some_iff]
  · intro hclash source
    cases hv : plan.validate source with
    | ok _ => exact absurd hclash (not_clashing_of_wellNamed (wellNamed_of_validate hv))
    | error e => exact ⟨e, rfl⟩
  · intro source hv options sink target
    have hclash := not_clashing_of_wellNamed (wellNamed_of_validate hv)
    have hnone := plan.firstClash_eq_none_iff.mpr hclash
    have hopen : { Document.create options sink with target }.closed = false := rfl
    obtain ⟨herror, hstate⟩ := plan.endsWith_apply hopen
    intro applied
    refine ⟨herror.trans hnone, ?_, ?_⟩
    · exact congrArg Document.poisoned (hstate hnone)
    · rw [hstate hnone]
      exact ⟨_, plan.result_render_lowered hclash _ fun _ hm => nomatch hm⟩

end Plan

end PlanScribe
