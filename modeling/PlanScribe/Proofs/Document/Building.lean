import PlanScribe.Session
import PlanScribe.Proofs.Plan.Lowering

/-!
# Building calls

What the calls that fill a document do to the document as a whole. They leave its sink and its stage
alone, poison it exactly if they fail, and change nothing once it is closed. The classes that they
add have fields with names of their own, so a document can be rendered at any time of its life.
-/
namespace PlanScribe

/-! ## Members keep the fields apart -/

mutual

theorem ClassStep.distinct_run : (step : ClassStep) → {cls : ClassBuild} → cls.Distinct →
    (step.run cls).state.Distinct
  | .field slot, _, h => h.addField slot
  | .fields slots, _, h => h.addFields slots
  | .method f body, _, h => h.addMethod f (runBlock body)
  | .setup body, _, h => h.addSetup (runBlock body)
  | .peek, _, h => h
  | .fail _, _, h => h
  | .attempt body, _, h => by
    rw [ClassStep.run, Run.state_recovered]
    exact distinct_runClass body h
termination_by structural step => step

theorem distinct_runClass : (steps : List ClassStep) → {cls : ClassBuild} → cls.Distinct →
    (runClass steps cls).state.Distinct
  | [], _, h => h
  | step :: rest, _, h =>
    Run.state_andThen_of_kept _ _ (step.distinct_run h) fun _ hnext => distinct_runClass rest hnext
termination_by structural steps => steps

end

namespace ClassDef

theorem distinct_addMethods (methods : List FunctionDef) {cls : ClassBuild} (h : cls.Distinct) :
    (addMethods cls methods).state.Distinct := by
  induction methods generalizing cls with
  | nil => exact h
  | cons m rest ih =>
    exact Run.state_andThen_of_kept _ _ (h.addMethod m.declaration (bodyOf m.body)) fun _ => ih

theorem distinct_lower (c : ClassDef) {cls : ClassBuild} (h : cls.Distinct) :
    (c.lower cls).state.Distinct := by
  refine Run.state_andThen_of_kept _ _ (Run.state_andThen_of_kept _ _ (h.addFields _) ?_) ?_
  · intro cls hfields
    split_ifs
    · exact hfields
    · exact hfields.addSetup _
  · intro cls hsetup
    exact distinct_addMethods c.methods hsetup

end ClassDef

namespace Document

/-! ## Documents that can be rendered -/

/-- Every class of the document can be rendered. -/
def Renderable (doc : Document) : Prop := ∀ cls ∈ doc.classes, cls.Distinct

/-- The text of the output file, if all classes can be rendered. -/
def output (doc : Document) : String :=
  (doc.assemble (doc.classes.map ClassBuild.assembled)).text

theorem Renderable.result_render {doc : Document} (h : doc.Renderable) :
    doc.render.result = .ok doc.output := by
  rw [render, Attempt.result_finish, renderClasses_of_distinct h]
  rfl

theorem renderable_create (options : DocumentOptions) (sink : Option Sink) :
    (create options sink).Renderable := by
  intro cls hcls
  cases hcls

/-! ## One call after the other -/

/-- A call that builds has made the second document of the first, or has failed. -/
structure BuildsTo (before after : Document) (failure : Option BuildError) : Prop where
  sink : after.sink = before.sink
  closed : after.closed = before.closed
  renderable : before.Renderable → after.Renderable
  poisoned : before.closed = false → after.poisoned = (before.poisoned || failure.isSome)
  frozen : before.closed = true → after = before

/-- The run builds on the document that it starts from. -/
abbrev Builds (doc : Document) (run : Run Document) : Prop := doc.BuildsTo run.state run.error

theorem BuildsTo.refl (doc : Document) : doc.BuildsTo doc none :=
  ⟨rfl, rfl, id, fun _ => (Bool.or_false _).symm, fun _ => rfl⟩

theorem Builds.andThen {doc : Document} {run : Run Document} {next : Document → Run Document}
    (h : doc.Builds run) (hnext : ∀ mid : Document, mid.Builds (next mid)) :
    doc.Builds (run.andThen next) := by
  unfold Builds
  rw [Run.state_andThen, Run.error_andThen]
  cases he : run.error with
  | some e =>
    rw [if_neg (Option.some_ne_none e), Option.some_or, ← he]
    exact h
  | none =>
    have hafter := hnext run.state
    rw [if_pos rfl, Option.none_or]
    constructor
    · exact hafter.sink.trans h.sink
    · exact hafter.closed.trans h.closed
    · exact fun hr => hafter.renderable (h.renderable hr)
    · intro hopen
      have hmid : run.state.poisoned = doc.poisoned := by
        rw [h.poisoned hopen, he]
        exact Bool.or_false _
      rw [hafter.poisoned (h.closed.trans hopen), hmid]
    · intro hclosed
      rw [hafter.frozen (h.closed.trans hclosed), h.frozen hclosed]

theorem builds_each {α : Type} {call : Document → α → Run Document}
    (hcall : ∀ (doc : Document) item, doc.Builds (call doc item)) (items : List α)
    (doc : Document) : doc.Builds (each call items doc) := by
  induction items generalizing doc with
  | nil => exact .refl doc
  | cons item rest ih => exact Builds.andThen (hcall doc item) ih

/-- A closed document refuses every change. -/
theorem builds_whenOpen {doc : Document} {change : Run Document}
    (h : doc.closed = false → doc.Builds change) : doc.Builds (doc.whenOpen change) := by
  unfold whenOpen
  split_ifs with hclosed
  · refine ⟨rfl, rfl, id, fun hopen => ?_, fun _ => rfl⟩
    rw [hclosed] at hopen
    cases hopen
  · exact h (eq_false_of_ne_true hclosed)

/-- Adding something that is rendered apart poisons the document if it fails. -/
theorem builds_commit {α : Type} {doc : Document} (attempt : Attempt α) (record : α → Document)
    (hopen : doc.closed = false)
    (hrecord : ∀ value, attempt.result = .ok value → doc.BuildsTo (record value) none) :
    doc.Builds (attempt.commit doc.poison record) := by
  unfold Builds
  rw [Attempt.error_commit]
  cases hr : attempt.result with
  | ok value =>
    have hnone : attempt.error? = none := by simp [Attempt.error?, hr]
    rw [attempt.state_commit_of_ok _ _ hr, hnone]
    exact hrecord value hr
  | error e =>
    have hsome : attempt.error? = some e := by simp [Attempt.error?, hr]
    rw [attempt.state_commit_of_error _ _ ((attempt.error_commit _ _).trans hsome), hsome]
    refine ⟨rfl, rfl, id, fun _ => (Bool.or_true _).symm, fun hclosed => ?_⟩
    rw [hopen] at hclosed
    cases hclosed

variable (doc : Document)

/-- A change to the header or the globals never fails on an open document. -/
theorem builds_done {changed : Document} (hopen : doc.closed = false)
    (hsink : changed.sink = doc.sink) (hclosed : changed.closed = doc.closed)
    (hclasses : changed.classes = doc.classes) (hpoisoned : changed.poisoned = doc.poisoned) :
    doc.BuildsTo changed none := by
  refine ⟨hsink, hclosed, ?_, fun _ => ?_, fun h => ?_⟩
  · unfold Renderable
    rw [hclasses]
    exact id
  · rw [hpoisoned]
    exact (Bool.or_false _).symm
  · rw [hopen] at h
    cases h

theorem builds_writeHeader (text : String) : doc.Builds (doc.writeHeader text) :=
  builds_whenOpen fun hopen => doc.builds_done hopen rfl rfl rfl rfl

theorem builds_addGlobal (target : Slot) (expression : String) :
    doc.Builds (doc.addGlobal target expression) :=
  builds_whenOpen fun hopen => doc.builds_done hopen rfl rfl rfl rfl

theorem builds_addFunction (f : Function) (body : BlockBody) :
    doc.Builds (doc.addFunction f body) :=
  builds_whenOpen fun hopen =>
    builds_commit _ _ hopen fun _ _ => doc.builds_done hopen rfl rfl rfl rfl

theorem builds_addClass (name classDoc : String) (body : ClassBody)
    (hbody : ∀ cls : ClassBuild, cls.Distinct → (body cls).state.Distinct) :
    doc.Builds (doc.addClass name classDoc body) := by
  refine builds_whenOpen fun hopen => builds_commit _ _ hopen fun cls hcls => ?_
  have hstart : ClassBuild.Distinct
      { name, doc := classDoc, depth := 0, indent := doc.options.indent } :=
    List.nodup_singleton _
  have hdistinct : cls.Distinct := by
    rw [Attempt.result_finish] at hcls
    cases he : (body { name, doc := classDoc, depth := 0, indent := doc.options.indent }).error with
    | none =>
      rw [Run.result_attempt_of_ok _ he] at hcls
      obtain rfl := Except.ok.inj hcls
      exact hbody _ hstart
    | some e => simp [Run.attempt, he, Except.map] at hcls
  refine ⟨rfl, rfl, fun hr other hother => ?_, fun _ => (Bool.or_false _).symm, fun h => ?_⟩
  · rcases List.mem_append.mp hother with hother | hother
    · exact hr other hother
    · rw [List.mem_singleton.mp hother]
      exact hdistinct
  · rw [hopen] at h
    cases h

theorem builds_importModule (moduleName : String) : doc.Builds (doc.importModule moduleName) :=
  doc.builds_writeHeader _

theorem builds_importFrom (moduleName : String) (symbols : List String) :
    doc.Builds (doc.importFrom moduleName symbols) :=
  doc.builds_writeHeader _

theorem builds_addExpression (text : String) : doc.Builds (doc.addExpression text) :=
  doc.builds_writeHeader _

theorem builds_apply (plan : Plan) : doc.Builds (plan.apply doc) := by
  have hfrom (d : Document) (i : FromImport) : d.Builds (d.importFrom i.moduleName i.symbols) :=
    d.builds_importFrom _ _
  have hglobal (d : Document) (g : GlobalDef) :
      d.Builds (d.addGlobal (.named g.name g.annotation) g.value) := d.builds_addGlobal _ _
  have hclass (d : Document) (c : ClassDef) : d.Builds (d.addClass c.name c.doc c.lower) :=
    d.builds_addClass _ _ _ fun _ => c.distinct_lower
  have hfunction (d : Document) (f : FunctionDef) :
      d.Builds (d.addFunction f.declaration (bodyOf f.body)) := d.builds_addFunction _ _
  have hheader := ((builds_each builds_importModule plan.imports doc).andThen
    (builds_each hfrom plan.fromImports)).andThen
      (builds_each builds_addExpression plan.expressions)
  have hitems := ((hheader.andThen (builds_each hglobal plan.globals)).andThen
    (builds_each hclass plan.classes)).andThen (builds_each hfunction plan.functions)
  exact hitems.andThen fun mid => .refl mid

end Document

end PlanScribe
