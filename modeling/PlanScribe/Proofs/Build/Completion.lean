import PlanScribe.Build.Program
import PlanScribe.Proofs.Build.Members

/-!
# Completed calls

Which error a block program ends with can be read off the program: it is that of the first call
that fails, however deep it is nested. What the program writes is what remains of it when the failed
calls are deleted, together with all that would have been made after a failure that is not caught.
In the remaining program no call fails at any depth.
-/
namespace PlanScribe

/-! ## The error of a program -/

/-- The error of a template that cannot be filled. -/
def templateFault? (template : String) (arguments : List Argument) : Option BuildError :=
  match interpolate template (arguments.map Argument.written) with
  | .ok _ => none
  | .error e => some (.template template e)

mutual

/-- The error of the innermost call that fails first; a caught one does not count. -/
def BlockStep.raised : BlockStep → Option BuildError
  | .write _ | .blank | .append _ | .assign .. | .peek => none
  | .writeFilled template arguments => templateFault? template arguments
  | .cond _ body branches otherwise =>
    ((raisedIn body).or (raisedInBranches branches)).or (raisedInOtherwise otherwise)
  | .loop _ body => raisedIn body
  | .fail message => some (.callback message)
  | .attempt _ => none
termination_by structural step => step

def raisedIn : List BlockStep → Option BuildError
  | [] => none
  | step :: rest => step.raised.or (raisedIn rest)
termination_by structural steps => steps

def raisedInBranches : List BlockBranch → Option BuildError
  | [] => none
  | ⟨_, body⟩ :: rest => (raisedIn body).or (raisedInBranches rest)
termination_by structural branches => branches

def raisedInOtherwise : Option (List BlockStep) → Option BuildError
  | none => none
  | some body => raisedIn body
termination_by structural body => body

end

mutual

/-- What remains of a call. Of a conditional the branches before the first that fails remain, of a
call that catches an error what was done before it. -/
def BlockStep.completed : BlockStep → List BlockStep
  | .writeFilled template arguments =>
    if templateFault? template arguments = none then [.writeFilled template arguments] else []
  | .cond condition body branches otherwise =>
    if raisedIn body = none then
      [.cond condition (completedIn body) (completedBranches branches)
        (if raisedInBranches branches = none then completedOtherwise otherwise else none)]
    else []
  | .loop head body => if raisedIn body = none then [.loop head (completedIn body)] else []
  | .fail _ => []
  | .attempt body => [.attempt (completedIn body)]
  | .write text => [.write text]
  | .blank => [.blank]
  | .append lines => [.append lines]
  | .assign target expression => [.assign target expression]
  | .peek => [.peek]
termination_by structural step => step

/-- The program without its failed calls and without what follows an uncaught failure. -/
def completedIn : List BlockStep → List BlockStep
  | [] => []
  | step :: rest => step.completed ++ if step.raised = none then completedIn rest else []
termination_by structural steps => steps

def completedBranches : List BlockBranch → List BlockBranch
  | [] => []
  | ⟨condition, body⟩ :: rest =>
    if raisedIn body = none then ⟨condition, completedIn body⟩ :: completedBranches rest else []
termination_by structural branches => branches

def completedOtherwise : Option (List BlockStep) → Option (List BlockStep)
  | none => none
  | some body => if raisedIn body = none then some (completedIn body) else none
termination_by structural body => body

end

mutual

/-- No call fails, not even one whose error would be caught. -/
def BlockStep.Faultless : BlockStep → Prop
  | .write _ | .blank | .append _ | .assign .. | .peek => True
  | .writeFilled template arguments => templateFault? template arguments = none
  | .cond _ body branches otherwise =>
    FaultlessIn body ∧ FaultlessInBranches branches ∧ FaultlessInOtherwise otherwise
  | .loop _ body | .attempt body => FaultlessIn body
  | .fail _ => False
termination_by structural step => step

def FaultlessIn : List BlockStep → Prop
  | [] => True
  | step :: rest => step.Faultless ∧ FaultlessIn rest
termination_by structural steps => steps

def FaultlessInBranches : List BlockBranch → Prop
  | [] => True
  | ⟨_, body⟩ :: rest => FaultlessIn body ∧ FaultlessInBranches rest
termination_by structural branches => branches

def FaultlessInOtherwise : Option (List BlockStep) → Prop
  | none => True
  | some body => FaultlessIn body
termination_by structural body => body

end

/-! ## Suites -/

namespace Scope

variable (scope : Scope) (header : String) (body : BlockBody)

theorem error_nest : (scope.nest header body).error = (body scope.child).error := by
  rw [nest, Attempt.error_commit, Run.error?_attempt]

theorem state_nest :
    (scope.nest header body).state
      = if (body scope.child).error = none then scope.enclose header (body scope.child).state
        else scope := by
  unfold nest
  split_ifs with h
  · exact Attempt.state_commit_of_ok _ _ _ (Run.result_attempt_of_ok _ h)
  · obtain ⟨e, he⟩ := Option.ne_none_iff_exists'.mp h
    apply Attempt.state_commit_of_error
    rwa [Attempt.error_commit, Run.error?_attempt]

end Scope

/-! ## The error is that of the innermost call -/

theorem error_runFilled (template : String) (arguments : List Argument) (scope : Scope) :
    ((BlockStep.writeFilled template arguments).run scope).error
      = templateFault? template arguments := by
  unfold BlockStep.run Scope.writeFilled templateFault?
  cases interpolate template (arguments.map Argument.written) <;> rfl

mutual

theorem BlockStep.error_run : (step : BlockStep) → (scope : Scope) →
    (step.run scope).error = step.raised
  | .write _, _ | .blank, _ | .append _, _ | .assign .., _ | .peek, _ | .fail _, _ => rfl
  | .writeFilled template arguments, scope => error_runFilled template arguments scope
  | .cond condition body branches otherwise, scope => by
    rw [BlockStep.run, Run.error_andThen, Run.error_andThen, Scope.error_nest, error_runBlock body,
      error_runBranches branches, error_runOtherwise otherwise, BlockStep.raised]
  | .loop head body, scope => by
    rw [BlockStep.run, Scope.error_nest, error_runBlock body, BlockStep.raised]
  | .attempt body, scope => by rw [BlockStep.run, Run.error_recovered, BlockStep.raised]
termination_by structural step => step

theorem error_runBlock : (steps : List BlockStep) → (scope : Scope) →
    (runBlock steps scope).error = raisedIn steps
  | [], _ => rfl
  | step :: rest, scope => by
    rw [runBlock, Run.error_andThen, step.error_run, error_runBlock rest, raisedIn]
termination_by structural steps => steps

theorem error_runBranches : (branches : List BlockBranch) → (scope : Scope) →
    (runBranches branches scope).error = raisedInBranches branches
  | [], _ => rfl
  | ⟨condition, body⟩ :: rest, scope => by
    rw [runBranches, Run.error_andThen, Run.error_andThen, Run.error_noting, Option.none_or,
      Scope.error_nest, error_runBlock body, error_runBranches rest, raisedInBranches]
termination_by structural branches => branches

theorem error_runOtherwise : (otherwise : Option (List BlockStep)) → (scope : Scope) →
    (runOtherwise otherwise scope).error = raisedInOtherwise otherwise
  | none, _ => rfl
  | some body, scope => by
    rw [runOtherwise, Run.error_andThen, Run.error_noting, Option.none_or, Scope.error_nest,
      error_runBlock body, raisedInOtherwise]
termination_by structural otherwise => otherwise

end

/-! ## Programs without a fault -/

mutual

theorem BlockStep.raised_of_faultless : (step : BlockStep) → step.Faultless → step.raised = none
  | .write _, _ | .blank, _ | .append _, _ | .assign .., _ | .peek, _ | .attempt _, _ => rfl
  | .writeFilled .., h => h
  | .cond condition body branches otherwise, ⟨hbody, hbranches, hotherwise⟩ => by
    rw [BlockStep.raised, raisedIn_of_faultless body hbody,
      raisedInBranches_of_faultless branches hbranches,
      raisedInOtherwise_of_faultless otherwise hotherwise]
    rfl
  | .loop head body, h => raisedIn_of_faultless body h
  | .fail _, h => h.elim
termination_by structural step => step

theorem raisedIn_of_faultless : (steps : List BlockStep) → FaultlessIn steps → raisedIn steps = none
  | [], _ => rfl
  | step :: rest, ⟨hstep, hrest⟩ => by
    rw [raisedIn, step.raised_of_faultless hstep, raisedIn_of_faultless rest hrest]
    rfl
termination_by structural steps => steps

theorem raisedInBranches_of_faultless : (branches : List BlockBranch) →
    FaultlessInBranches branches → raisedInBranches branches = none
  | [], _ => rfl
  | ⟨condition, body⟩ :: rest, ⟨hbody, hrest⟩ => by
    rw [raisedInBranches, raisedIn_of_faultless body hbody,
      raisedInBranches_of_faultless rest hrest]
    rfl
termination_by structural branches => branches

theorem raisedInOtherwise_of_faultless : (otherwise : Option (List BlockStep)) →
    FaultlessInOtherwise otherwise → raisedInOtherwise otherwise = none
  | none, _ => rfl
  | some body, h => raisedIn_of_faultless body h
termination_by structural otherwise => otherwise

end

theorem faultlessIn_append (first second : List BlockStep) :
    FaultlessIn (first ++ second) ↔ FaultlessIn first ∧ FaultlessIn second := by
  induction first with
  | nil => simp [FaultlessIn]
  | cons step rest ih => simp [FaultlessIn, ih, and_assoc]

mutual

theorem BlockStep.faultless_completed : (step : BlockStep) → FaultlessIn step.completed
  | .write _ | .blank | .append _ | .assign .. | .peek => ⟨trivial, trivial⟩
  | .fail _ => trivial
  | .writeFilled template arguments => by
    rw [BlockStep.completed]
    split_ifs with h
    · exact ⟨h, trivial⟩
    · trivial
  | .cond condition body branches otherwise => by
    rw [BlockStep.completed]
    split_ifs with hbody hbranches
    · exact ⟨⟨faultless_completedIn body, faultless_completedBranches branches,
        faultless_completedOtherwise otherwise⟩, trivial⟩
    · exact ⟨⟨faultless_completedIn body, faultless_completedBranches branches, trivial⟩, trivial⟩
    · trivial
  | .loop head body => by
    rw [BlockStep.completed]
    split_ifs
    · exact ⟨faultless_completedIn body, trivial⟩
    · trivial
  | .attempt body => ⟨faultless_completedIn body, trivial⟩
termination_by structural step => step

theorem faultless_completedIn : (steps : List BlockStep) → FaultlessIn (completedIn steps)
  | [] => trivial
  | step :: rest => by
    rw [completedIn, faultlessIn_append]
    refine ⟨step.faultless_completed, ?_⟩
    split_ifs
    · exact faultless_completedIn rest
    · trivial
termination_by structural steps => steps

theorem faultless_completedBranches : (branches : List BlockBranch) →
    FaultlessInBranches (completedBranches branches)
  | [] => trivial
  | ⟨condition, body⟩ :: rest => by
    rw [completedBranches]
    split_ifs
    · exact ⟨faultless_completedIn body, faultless_completedBranches rest⟩
    · trivial
termination_by structural branches => branches

theorem faultless_completedOtherwise : (otherwise : Option (List BlockStep)) →
    FaultlessInOtherwise (completedOtherwise otherwise)
  | none => trivial
  | some body => by
    rw [completedOtherwise]
    split_ifs
    · exact faultless_completedIn body
    · trivial
termination_by structural otherwise => otherwise

end

mutual

theorem BlockStep.completed_of_faultless : (step : BlockStep) → step.Faultless →
    step.completed = [step]
  | .write _, _ | .blank, _ | .append _, _ | .assign .., _ | .peek, _ => rfl
  | .fail _, h => h.elim
  | .writeFilled .., h => if_pos h
  | .cond condition body branches otherwise, ⟨hbody, hbranches, hotherwise⟩ => by
    rw [BlockStep.completed, if_pos (raisedIn_of_faultless body hbody),
      if_pos (raisedInBranches_of_faultless branches hbranches),
      completedIn_of_faultless body hbody, completedBranches_of_faultless branches hbranches,
      completedOtherwise_of_faultless otherwise hotherwise]
  | .loop head body, h => by
    rw [BlockStep.completed, if_pos (raisedIn_of_faultless body h), completedIn_of_faultless body h]
  | .attempt body, h => by rw [BlockStep.completed, completedIn_of_faultless body h]
termination_by structural step => step

/-- Only failed calls are deleted. -/
theorem completedIn_of_faultless : (steps : List BlockStep) → FaultlessIn steps →
    completedIn steps = steps
  | [], _ => rfl
  | step :: rest, ⟨hstep, hrest⟩ => by
    rw [completedIn, if_pos (step.raised_of_faultless hstep), step.completed_of_faultless hstep,
      completedIn_of_faultless rest hrest, List.singleton_append]
termination_by structural steps => steps

theorem completedBranches_of_faultless : (branches : List BlockBranch) →
    FaultlessInBranches branches → completedBranches branches = branches
  | [], _ => rfl
  | ⟨condition, body⟩ :: rest, ⟨hbody, hrest⟩ => by
    rw [completedBranches, if_pos (raisedIn_of_faultless body hbody),
      completedIn_of_faultless body hbody, completedBranches_of_faultless rest hrest]
termination_by structural branches => branches

theorem completedOtherwise_of_faultless : (otherwise : Option (List BlockStep)) →
    FaultlessInOtherwise otherwise → completedOtherwise otherwise = otherwise
  | none, _ => rfl
  | some body, h => by
    rw [completedOtherwise, if_pos (raisedIn_of_faultless body h), completedIn_of_faultless body h]
termination_by structural otherwise => otherwise

end

/-! ## What remains writes the same -/

theorem raisedIn_completedIn (steps : List BlockStep) : raisedIn (completedIn steps) = none :=
  raisedIn_of_faultless _ (faultless_completedIn steps)

theorem inTurn_runBlock : Run.InTurn BlockStep.run runBlock :=
  ⟨fun _ => rfl, fun _ _ _ => rfl⟩

theorem state_runBlock_singleton (step : BlockStep) (scope : Scope) :
    (runBlock [step] scope).state = (step.run scope).state := by
  rw [runBlock, Run.state_andThen]
  split_ifs <;> rfl

/-- A suite that does not fail writes the same when the failures caught in it are deleted. -/
theorem state_nest_completedIn {scope : Scope} {body : List BlockStep} (header : String)
    (hbody : raisedIn body = none)
    (hstate : (runBlock (completedIn body) scope.child).state
      = (runBlock body scope.child).state) :
    (scope.nest header (runBlock (completedIn body))).state
      = (scope.nest header (runBlock body)).state := by
  rw [Scope.state_nest, Scope.state_nest, error_runBlock, error_runBlock, raisedIn_completedIn,
    hbody, hstate]

theorem state_nest_of_raised (scope : Scope) {body : List BlockStep} (header : String)
    (hbody : raisedIn body ≠ none) : (scope.nest header (runBlock body)).state = scope := by
  rw [Scope.state_nest, error_runBlock, if_neg hbody]

theorem state_runFilled_of_fault {template : String} {arguments : List Argument} (scope : Scope)
    (h : templateFault? template arguments ≠ none) :
    ((BlockStep.writeFilled template arguments).run scope).state = scope := by
  unfold templateFault? at h
  unfold BlockStep.run Scope.writeFilled
  cases hi : interpolate template (arguments.map Argument.written) with
  | ok text => exact absurd (by rw [hi]) h
  | error e => rfl

theorem state_runBranches_cons (condition : String) (body : List BlockStep)
    (rest : List BlockBranch) (scope : Scope) :
    (runBranches (⟨condition, body⟩ :: rest) scope).state
      = if raisedIn body = none then
          (runBranches rest (scope.nest (elifHeader condition) (runBlock body)).state).state
        else scope := by
  rw [runBranches, Run.state_andThen, Run.error_andThen, Run.state_andThen, Run.error_noting,
    Run.state_noting, if_pos rfl, Option.none_or, Scope.error_nest, error_runBlock]
  split_ifs with h
  · rfl
  · exact state_nest_of_raised scope _ h

theorem state_runOtherwise_some (body : List BlockStep) (scope : Scope) :
    (runOtherwise (some body) scope).state = (scope.nest elseHeader (runBlock body)).state := by
  rw [runOtherwise, Run.state_andThen, Run.error_noting, if_pos rfl, Run.state_noting]

theorem state_runCond (condition : String) (body : List BlockStep) (branches : List BlockBranch)
    (otherwise : Option (List BlockStep)) (scope : Scope) :
    ((BlockStep.cond condition body branches otherwise).run scope).state
      = if raisedIn body = none then
          let chained := (runBranches branches
            (scope.nest (ifHeader condition) (runBlock body)).state).state
          if raisedInBranches branches = none then (runOtherwise otherwise chained).state
          else chained
        else scope := by
  rw [BlockStep.run, Run.state_andThen, Run.error_andThen, Run.state_andThen, Scope.error_nest,
    error_runBlock, error_runBranches]
  by_cases hbody : raisedIn body = none
  · rw [hbody, Option.none_or, if_pos rfl, if_pos rfl]
  · rw [if_neg hbody, if_neg hbody, if_neg (mt Option.or_eq_none_iff.mp fun h => hbody h.1)]
    exact state_nest_of_raised scope _ hbody

-- The two programs run side by side. A call that fails has left the scope as it was, or as the
-- branches before it wrote it, so both are in the same state after every call that remains.
mutual

theorem BlockStep.state_completed : (step : BlockStep) → (scope : Scope) →
    (runBlock step.completed scope).state = (step.run scope).state
  | .write _, _ | .blank, _ | .append _, _ | .assign .., _ | .peek, _ | .fail _, _ => rfl
  | .writeFilled template arguments, scope => by
    rw [BlockStep.completed]
    split_ifs with h
    · exact state_runBlock_singleton _ scope
    · exact (state_runFilled_of_fault scope h).symm
  | .cond condition body branches otherwise, scope => by
    rw [BlockStep.completed]
    split_ifs with hbody hbranches
    · rw [state_runBlock_singleton, state_runCond, state_runCond, if_pos hbody,
        if_pos (raisedIn_completedIn body), if_pos hbranches,
        if_pos (raisedInBranches_of_faultless _ (faultless_completedBranches branches)),
        state_nest_completedIn _ hbody (state_runBlock_completedIn body scope.child),
        state_runBranches_completed branches, state_runOtherwise_completed otherwise]
    · rw [state_runBlock_singleton, state_runCond, state_runCond, if_pos hbody,
        if_pos (raisedIn_completedIn body), if_neg hbranches,
        if_pos (raisedInBranches_of_faultless _ (faultless_completedBranches branches)),
        state_nest_completedIn _ hbody (state_runBlock_completedIn body scope.child),
        state_runBranches_completed branches]
      rfl
    · rw [state_runCond, if_neg hbody]
      rfl
  | .loop head body, scope => by
    rw [BlockStep.completed]
    split_ifs with h
    · rw [state_runBlock_singleton, BlockStep.run, BlockStep.run]
      exact state_nest_completedIn _ h (state_runBlock_completedIn body scope.child)
    · rw [BlockStep.run, state_nest_of_raised scope _ h]
      rfl
  | .attempt body, scope => by
    rw [BlockStep.completed, state_runBlock_singleton, BlockStep.run, BlockStep.run,
      Run.state_recovered, Run.state_recovered, state_runBlock_completedIn body]
termination_by structural step => step

/-- The remaining program leaves the scope as the program itself does. -/
theorem state_runBlock_completedIn : (steps : List BlockStep) → (scope : Scope) →
    (runBlock (completedIn steps) scope).state = (runBlock steps scope).state
  | [], _ => rfl
  | step :: rest, scope => by
    rw [completedIn, inTurn_runBlock.append, runBlock, Run.state_andThen, Run.state_andThen,
      error_runBlock, step.error_run, raisedIn_of_faultless _ step.faultless_completed, if_pos rfl,
      step.state_completed]
    split_ifs
    · exact state_runBlock_completedIn rest _
    · rfl
termination_by structural steps => steps

theorem state_runBranches_completed : (branches : List BlockBranch) → (scope : Scope) →
    (runBranches (completedBranches branches) scope).state = (runBranches branches scope).state
  | [], _ => rfl
  | ⟨condition, body⟩ :: rest, scope => by
    rw [completedBranches, state_runBranches_cons]
    split_ifs with h
    · rw [state_runBranches_cons, if_pos (raisedIn_completedIn body),
        state_nest_completedIn _ h (state_runBlock_completedIn body scope.child),
        state_runBranches_completed rest]
    · rfl
termination_by structural branches => branches

theorem state_runOtherwise_completed : (otherwise : Option (List BlockStep)) → (scope : Scope) →
    (runOtherwise (completedOtherwise otherwise) scope).state
      = (runOtherwise otherwise scope).state
  | none, _ => rfl
  | some body, scope => by
    rw [completedOtherwise, state_runOtherwise_some]
    split_ifs with h
    · rw [state_runOtherwise_some]
      exact state_nest_completedIn _ h (state_runBlock_completedIn body scope.child)
    · rw [state_nest_of_raised scope _ h]
      rfl
termination_by structural otherwise => otherwise

end

example : completedIn [.attempt [.write "a", .fail "e", .write "b"], .blank]
    = [.attempt [.write "a"], .blank] := rfl

end PlanScribe
