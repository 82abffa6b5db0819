import PlanScribe.Document.Basic
import PlanScribe.Proofs.Build.Completion

/-!
# Failed calls

A call that fails leaves what it acts on as it was: a block, a class, the output of a document. The
error that comes out is that of the call inside it that failed.
-/
namespace PlanScribe

/-! ## Failing without a trace -/

/-- The run ends with the error, if there is one, and then in a state that was kept. -/
structure Run.FailsKeeping {σ : Type} (run : Run σ) (failure : Option BuildError)
    (kept : σ → Prop) : Prop where
  error : run.error = failure
  state : run.error ≠ none → kept run.state

/-- An attempt leaves the state alone if it fails. -/
theorem Attempt.commit_failsKeeping {α σ : Type} (attempt : Attempt α) (state : σ)
    (record : α → σ) :
    (attempt.commit state record).FailsKeeping attempt.error? (· = state) := by
  refine ⟨attempt.error_commit state record, fun h => ?_⟩
  obtain ⟨e, he⟩ := Option.ne_none_iff_exists'.mp h
  exact attempt.state_commit_of_error state record he

theorem Scope.nest_failsKeeping (scope : Scope) (header : String) (body : BlockBody) :
    (scope.nest header body).FailsKeeping (body scope.child).error (· = scope) := by
  have hcommit := (body scope.child).attempt.commit_failsKeeping scope (scope.enclose header)
  rwa [Run.error?_attempt] at hcommit

theorem runFilled_failsKeeping (template : String) (arguments : List Argument) (scope : Scope) :
    ((BlockStep.writeFilled template arguments).run scope).FailsKeeping
      (templateFault? template arguments) (· = scope) := by
  refine ⟨error_runFilled template arguments scope, fun h => ?_⟩
  rw [error_runFilled] at h
  exact state_runFilled_of_fault scope h

/-! ## Conditionals -/

theorem inTurn_runBranches :
    Run.InTurn (fun branch scope =>
      (Run.noting scope (.observed (.chainDepth scope.depth))).andThen fun scope =>
        scope.nest (elifHeader branch.condition) (runBlock branch.body)) runBranches :=
  ⟨fun _ => rfl, fun ⟨_, _⟩ _ _ => rfl⟩

/-- A branch that fails leaves the conditional as the branches before it wrote it. -/
theorem runBranches_of_failed (before after : List BlockBranch) (condition : String)
    (body : List BlockStep) (scope : Scope) {e : BuildError}
    (hbefore : (runBranches before scope).error = none)
    (hbody : (runBlock body (runBranches before scope).state.child).error = some e) :
    let chain := runBranches (before ++ ⟨condition, body⟩ :: after) scope
    chain.error = some e ∧ chain.state = (runBranches before scope).state := by
  rw [error_runBlock] at hbody
  constructor
  · rw [inTurn_runBranches.append, Run.error_andThen, hbefore, error_runBranches,
      raisedInBranches, hbody]
    rfl
  · rw [inTurn_runBranches.append, Run.state_andThen, if_pos hbefore, state_runBranches_cons,
      if_neg]
    simp [hbody]

theorem runOtherwise_failsKeeping (body : List BlockStep) (scope : Scope) :
    (runOtherwise (some body) scope).FailsKeeping (runBlock body scope.child).error
      (· = scope) := by
  have hnest := scope.nest_failsKeeping elseHeader (runBlock body)
  have herror : (runOtherwise (some body) scope).error = (runBlock body scope.child).error := by
    rw [error_runOtherwise, error_runBlock, raisedInOtherwise]
  refine ⟨herror, fun h => ?_⟩
  rw [state_runOtherwise_some]
  exact hnest.state (by rwa [hnest.error, ← herror])

/-! ## Classes -/

namespace ClassBuild

variable (cls : ClassBuild)

/-- A field of this name cannot be declared. -/
def Taken (name : String) : Prop := name = receiverName ∨ name ∈ cls.fieldNames

instance (name : String) : Decidable (cls.Taken name) := inferInstanceAs (Decidable (_ ∨ _))

theorem addField_failsKeeping (field : Slot) :
    (cls.addField field).FailsKeeping
      (if cls.Taken field.name then some (.duplicateField cls.name field.name) else none)
      (· = cls) := by
  refine ⟨cls.error_addField field, fun h => ?_⟩
  rw [cls.error_addField] at h
  rw [cls.state_addField]
  split_ifs at h ⊢ with htaken
  · rfl
  · exact absurd rfl h

theorem inTurn_addFields :
    Run.InTurn (fun field (cls : ClassBuild) => cls.addField field)
      fun fields cls => cls.addFields fields :=
  ⟨fun _ => rfl, fun _ _ _ => rfl⟩

/-- The fields before the first that cannot be declared are recorded, and nothing else. -/
theorem addFields_of_failed (fields : List Slot) {e : BuildError}
    (h : (cls.addFields fields).error = some e) :
    ∃ before bad after, fields = before ++ bad :: after ∧
      (cls.addFields before).error = none ∧
      (cls.addFields before).state.Taken bad.name ∧
      e = .duplicateField cls.name bad.name ∧
      (cls.addFields fields).state = { cls with fields := cls.fields ++ before } := by
  obtain ⟨before, bad, after, rfl, hbefore, hbad, hstate⟩ :=
    inTurn_addFields.of_failed fields cls h
  have hfailed := (cls.addFields before).state.addField_failsKeeping bad
  have htaken : (cls.addFields before).state.Taken bad.name := by
    by_contra hfree
    rw [hfailed.error, if_neg hfree] at hbad
    cases hbad
  have hkept := hfailed.state (by rw [hbad]; simp)
  rw [hfailed.error, if_pos htaken, Option.some.injEq] at hbad
  rw [state_addFields _ _ hbefore] at hbad hkept hstate
  refine ⟨before, bad, after, rfl, hbefore, htaken, hbad.symm, hstate.trans hkept⟩

theorem addMethod_failsKeeping (f : Function) (body : BlockBody) :
    (cls.addMethod f body).FailsKeeping
      (f.withReceiver.repetition?.or
        (body (f.withReceiver.block (cls.depth + 1) cls.indent)).error) (· = cls) := by
  rw [← Function.error?_render]
  exact Attempt.commit_failsKeeping _ _ _

theorem addSetup_failsKeeping (body : BlockBody) :
    (cls.addSetup body).FailsKeeping (body (.atDepth (cls.depth + 2) cls.indent)).error
      (· = cls) := by
  rw [← Run.error?_attempt]
  exact Attempt.commit_failsKeeping _ _ _

end ClassBuild

theorem inTurn_runClass : Run.InTurn ClassStep.run runClass :=
  ⟨fun _ => rfl, fun _ _ _ => rfl⟩

/-- A class program ends with its first call that fails. -/
theorem runClass_of_failed (steps : List ClassStep) (cls : ClassBuild) {e : BuildError}
    (h : (runClass steps cls).error = some e) :
    ∃ before bad after, steps = before ++ bad :: after ∧
      (runClass before cls).error = none ∧
      (bad.run (runClass before cls).state).error = some e ∧
      (runClass steps cls).state = (bad.run (runClass before cls).state).state :=
  inTurn_runClass.of_failed steps cls h

/-! ## Documents -/

namespace Document

/-- The document is rendered as before and has the same classes and functions. -/
structure SameOutput (doc other : Document) : Prop where
  render : other.render = doc.render
  classes : other.classes = doc.classes
  functions : other.functions = doc.functions

variable (doc : Document)

theorem sameOutput_poison : doc.SameOutput doc.poison := ⟨rfl, rfl, rfl⟩

theorem whenOpen_failsKeeping {change : Run Document} {failure : Option BuildError}
    (h : change.FailsKeeping failure doc.SameOutput) :
    (doc.whenOpen change).FailsKeeping (if doc.closed then some .documentClosed else failure)
      doc.SameOutput := by
  unfold whenOpen
  split_ifs
  · exact ⟨rfl, fun _ => ⟨rfl, rfl, rfl⟩⟩
  · exact h

theorem commit_failsKeeping {α : Type} (attempt : Attempt α) (record : α → Document) :
    (attempt.commit doc.poison record).FailsKeeping attempt.error? doc.SameOutput := by
  have hcommit := attempt.commit_failsKeeping doc.poison record
  refine ⟨hcommit.error, fun h => ?_⟩
  rw [hcommit.state h]
  exact doc.sameOutput_poison

theorem addFunction_failsKeeping (f : Function) (body : BlockBody) :
    (doc.addFunction f body).FailsKeeping
      (if doc.closed then some .documentClosed
        else f.repetition?.or (body (f.block 0 doc.options.indent)).error) doc.SameOutput := by
  rw [← Function.error?_render]
  exact doc.whenOpen_failsKeeping (doc.commit_failsKeeping _ _)

theorem addClass_failsKeeping (name classDoc : String) (members : ClassBody) :
    (doc.addClass name classDoc members).FailsKeeping
      (if doc.closed then some .documentClosed
        else (members { name, doc := classDoc, depth := 0, indent := doc.options.indent }).error)
      doc.SameOutput := by
  have hcommit := doc.commit_failsKeeping
    ((members { name, doc := classDoc, depth := 0, indent := doc.options.indent }).attempt.finish
      id [.logged .addedClass]) fun cls => { doc with classes := doc.classes ++ [cls] }
  rw [Attempt.error?_finish, Run.error?_attempt] at hcommit
  exact doc.whenOpen_failsKeeping hcommit

end Document

/-! ## Every level at once -/

/-- Whatever is done inside it, a call that fails leaves what it acts on as it was, and ends with
the error of what failed inside it. A block program therefore writes just what is written by its
completed calls. -/
theorem failed_calls_leave_nothing (scope : Scope) (cls : ClassBuild) (doc : Document)
    (f : Function) (body : BlockBody) (members : ClassBody) :
    -- the calls on a block; loops and the parts of a conditional are all suites under a header
    (∀ template arguments,
      ((BlockStep.writeFilled template arguments).run scope).FailsKeeping
        (templateFault? template arguments) (· = scope)) ∧
    (∀ header, (scope.nest header body).FailsKeeping (body scope.child).error (· = scope)) ∧
    (∀ inner, (runOtherwise (some inner) scope).FailsKeeping (runBlock inner scope.child).error
      (· = scope)) ∧
    (∀ before after condition inner e, (runBranches before scope).error = none →
      (runBlock inner (runBranches before scope).state.child).error = some e →
        let chain := runBranches (before ++ ⟨condition, inner⟩ :: after) scope
        chain.error = some e ∧ chain.state = (runBranches before scope).state) ∧
    -- the calls on a class
    (∀ field, (cls.addField field).FailsKeeping
      (if cls.Taken field.name then some (.duplicateField cls.name field.name) else none)
      (· = cls)) ∧
    (∀ fields e, (cls.addFields fields).error = some e →
      ∃ before bad after, fields = before ++ bad :: after ∧
        (cls.addFields before).error = none ∧
        (cls.addFields before).state.Taken bad.name ∧
        e = .duplicateField cls.name bad.name ∧
        (cls.addFields fields).state = { cls with fields := cls.fields ++ before }) ∧
    (cls.addMethod f body).FailsKeeping
      (f.withReceiver.repetition?.or
        (body (f.withReceiver.block (cls.depth + 1) cls.indent)).error) (· = cls) ∧
    (cls.addSetup body).FailsKeeping (body (.atDepth (cls.depth + 2) cls.indent)).error
      (· = cls) ∧
    (∀ steps e, (runClass steps cls).error = some e →
      ∃ before bad after, steps = before ++ bad :: after ∧
        (runClass before cls).error = none ∧
        (bad.run (runClass before cls).state).error = some e ∧
        (runClass steps cls).state = (bad.run (runClass before cls).state).state) ∧
    -- the calls on a document
    (doc.addFunction f body).FailsKeeping
      (if doc.closed then some .documentClosed
        else f.repetition?.or (body (f.block 0 doc.options.indent)).error) doc.SameOutput ∧
    (∀ name classDoc, (doc.addClass name classDoc members).FailsKeeping
      (if doc.closed then some .documentClosed
        else (members { name, doc := classDoc, depth := 0, indent := doc.options.indent }).error)
      doc.SameOutput) ∧
    -- what a block program writes
    ∀ steps, (runBlock steps scope).error = raisedIn steps ∧
      FaultlessIn (completedIn steps) ∧
      (FaultlessIn steps → completedIn steps = steps) ∧
      (runBlock (completedIn steps) scope).error = none ∧
      (runBlock (completedIn steps) scope).state = (runBlock steps scope).state := by
  refine ⟨?filled, ?nested, ?otherwise, ?chain, ?field, ?fields, ?method, ?setup, ?members,
    ?function, ?addedClass, ?program⟩
  case filled => exact fun template arguments => runFilled_failsKeeping template arguments scope
  case nested => exact fun header => scope.nest_failsKeeping header body
  case otherwise => exact fun inner => runOtherwise_failsKeeping inner scope
  case chain =>
    intro before after condition inner e hbefore hinner
    exact runBranches_of_failed before after condition inner scope hbefore hinner
  case field => exact cls.addField_failsKeeping
  case fields => exact fun fields e h => cls.addFields_of_failed fields h
  case method => exact cls.addMethod_failsKeeping f body
  case setup => exact cls.addSetup_failsKeeping body
  case members => exact fun steps e h => runClass_of_failed steps cls h
  case function => exact doc.addFunction_failsKeeping f body
  case addedClass => exact fun name classDoc => doc.addClass_failsKeeping name classDoc members
  case program =>
    intro steps
    refine ⟨error_runBlock steps scope, faultless_completedIn steps,
      completedIn_of_faultless steps, ?_, state_runBlock_completedIn steps scope⟩
    rw [error_runBlock, raisedIn_completedIn]

end PlanScribe
