import PlanScribe.Layout.Scope
import PlanScribe.Build.Function
import PlanScribe.Build.Error

/-!
# Runs and attempts

A run starts from a state and leaves the state it reached, the error that ended it if there was one,
and notes on what happened on the way. An attempt is a run of which only a success may leave
something behind: committing a failed attempt keeps the state as it was.
-/
namespace PlanScribe

inductive LogLevel
  | debug
  | warn
  | error
deriving DecidableEq, Repr

def LogLevel.label : LogLevel → String
  | debug => "DEBUG"
  | warn => "WARN"
  | error => "ERROR"

/-- An event of the library's own log. -/
inductive LogEvent
  | renderedFunction
  | renderedClass
  | addedClass
  | keptExistingFile
  | wroteDocument
  | appliedPlan
  | discardedDocument
  | discardedUnfinished
  | lostOnDrop
deriving DecidableEq, Repr

namespace LogEvent

def level : LogEvent → LogLevel
  | discardedUnfinished => .warn
  | lostOnDrop => .error
  | _ => .debug

def message : LogEvent → String
  | renderedFunction => "rendered function"
  | renderedClass => "rendered class"
  | addedClass => "added class"
  | keptExistingFile => "keeping existing file"
  | wroteDocument => "wrote document"
  | appliedPlan => "applied plan"
  | discardedDocument => "discarded document"
  | discardedUnfinished => "discarding unfinished document"
  | lostOnDrop => "failed to write document on drop"

/-- The event as a line of a log. -/
def line (event : LogEvent) : String := event.level.label ++ " " ++ event.message

end LogEvent

/-- What can be seen of a class while it is built. -/
structure ClassView where
  name : String
  depth : Nat
  memberCount : Nat
  constructor : Function
  rendered : Except BuildError Buffer

/-- What a program asked to have recorded. -/
inductive Observation
  | block (buffer : Buffer) (depth : Nat)
  | chainDepth (depth : Nat)
  | classView (view : ClassView)
  | caught (error : BuildError)

/-- Something that happened during a run. -/
inductive Note
  | logged (event : LogEvent)
  | observed (observation : Observation)

namespace Note

def event? : Note → Option LogEvent
  | logged event => some event
  | observed _ => none

def observation? : Note → Option Observation
  | logged _ => none
  | observed observation => some observation

end Note

/-- The result of a computation that leaves nothing behind when it fails. -/
structure Attempt (α : Type) where
  result : Except BuildError α
  notes : List Note := []

/-- The state that was reached, the error that ended the run, and the notes taken. -/
structure Run (σ : Type) where
  state : σ
  error : Option BuildError := none
  notes : List Note := []

namespace Attempt

/-- Records the outcome of an attempt in a state that a failure leaves alone. -/
def commit {α σ : Type} (attempt : Attempt α) (state : σ) (record : α → σ) : Run σ :=
  match attempt.result with
  | .ok value => { state := record value, notes := attempt.notes }
  | .error e => { state, error := some e, notes := attempt.notes }

/-- Transforms the value of a success and adds notes to it. -/
def finish {α β : Type} (attempt : Attempt α) (f : α → β) (notes : List Note) : Attempt β :=
  match attempt.result with
  | .ok value => { result := .ok (f value), notes := attempt.notes ++ notes }
  | .error e => { result := .error e, notes := attempt.notes }

/-- The second attempt is made with the value of the first. -/
def andThen {α β : Type} (attempt : Attempt α) (next : α → Attempt β) : Attempt β :=
  match attempt.result with
  | .ok value =>
    let second := next value
    { second with notes := attempt.notes ++ second.notes }
  | .error e => { result := .error e, notes := attempt.notes }

/-- The error of an attempt that failed. -/
def error? {α : Type} (attempt : Attempt α) : Option BuildError :=
  match attempt.result with
  | .ok _ => none
  | .error e => some e

variable {α β σ : Type}

@[simp] theorem error_commit (attempt : Attempt α) (state : σ) (record : α → σ) :
    (attempt.commit state record).error = attempt.error? := by
  cases h : attempt.result <;> simp [commit, error?, h]

theorem state_commit_of_ok (attempt : Attempt α) (state : σ) (record : α → σ) {value : α}
    (h : attempt.result = .ok value) : (attempt.commit state record).state = record value := by
  simp [commit, h]

/-- A failed attempt leaves the state as it was. -/
theorem state_commit_of_error (attempt : Attempt α) (state : σ) (record : α → σ)
    {e : BuildError} (h : (attempt.commit state record).error = some e) :
    (attempt.commit state record).state = state := by
  cases hr : attempt.result <;> simp_all [commit]

@[simp] theorem result_finish (attempt : Attempt α) (f : α → β) (notes : List Note) :
    (attempt.finish f notes).result = attempt.result.map f := by
  cases h : attempt.result <;> simp [finish, h, Except.map]

theorem result_andThen_of_ok (attempt : Attempt α) (next : α → Attempt β) {value : α}
    (h : attempt.result = .ok value) : (attempt.andThen next).result = (next value).result := by
  simp [andThen, h]

@[simp] theorem error?_finish (attempt : Attempt α) (f : α → β) (notes : List Note) :
    (attempt.finish f notes).error? = attempt.error? := by
  cases h : attempt.result <;> simp [error?, h, Except.map]

end Attempt

namespace Run

variable {σ : Type}

/-- The run that does nothing. -/
def done (state : σ) : Run σ := { state }

def fail (state : σ) (error : BuildError) : Run σ := { state, error := some error }

/-- The run that only takes a note. -/
def noting (state : σ) (note : Note) : Run σ := { state, notes := [note] }

/-- Goes on from the state reached, unless the run has failed. -/
def andThen (run : Run σ) (next : σ → Run σ) : Run σ :=
  match run.error with
  | some _ => run
  | none =>
    let second := next run.state
    { second with notes := run.notes ++ second.notes }

/-- The run as an attempt at the state it reached. -/
def attempt (run : Run σ) : Attempt σ :=
  match run.error with
  | some e => { result := .error e, notes := run.notes }
  | none => { result := .ok run.state, notes := run.notes }

/-- The run without its error, which is noted instead; what was done before it stays done. -/
def recovered (run : Run σ) : Run σ :=
  match run.error with
  | some e => { state := run.state, notes := run.notes ++ [.observed (.caught e)] }
  | none => run

/-- Adds notes to a run that has not failed. -/
def thenNote (run : Run σ) (note : Note) : Run σ := run.andThen (noting · note)

@[simp] theorem error_done (state : σ) : (done state).error = none := rfl

@[simp] theorem state_done (state : σ) : (done state).state = state := rfl

@[simp] theorem error_fail (state : σ) (e : BuildError) : (fail state e).error = some e := rfl

@[simp] theorem state_fail (state : σ) (e : BuildError) : (fail state e).state = state := rfl

@[simp] theorem error_noting (state : σ) (note : Note) : (noting state note).error = none := rfl

@[simp] theorem state_noting (state : σ) (note : Note) : (noting state note).state = state := rfl

/-- Of two runs in a row, the first that fails gives the error. -/
@[simp] theorem error_andThen (run : Run σ) (next : σ → Run σ) :
    (run.andThen next).error = run.error.or (next run.state).error := by
  cases h : run.error <;> simp [andThen, h]

@[simp] theorem state_andThen (run : Run σ) (next : σ → Run σ) :
    (run.andThen next).state
      = if run.error = none then (next run.state).state else run.state := by
  cases h : run.error <;> simp [andThen, h]

theorem andThen_assoc (run : Run σ) (next last : σ → Run σ) :
    (run.andThen next).andThen last = run.andThen fun state => (next state).andThen last := by
  cases hr : run.error with
  | some e => simp [andThen, hr]
  | none => cases hn : (next run.state).error <;> simp [andThen, hr, hn]

/-- What holds of the state reached, and is kept by what follows, holds in the end. -/
theorem state_andThen_of_kept {p : σ → Prop} (run : Run σ) (next : σ → Run σ) (h : p run.state)
    (hnext : ∀ state, p state → p (next state).state) : p (run.andThen next).state := by
  rw [state_andThen]
  split
  · exact hnext _ h
  · exact h

@[simp] theorem error?_attempt (run : Run σ) : run.attempt.error? = run.error := by
  cases h : run.error <;> simp [attempt, Attempt.error?, h]

theorem result_attempt_of_ok (run : Run σ) (h : run.error = none) :
    run.attempt.result = .ok run.state := by
  simp [attempt, h]

@[simp] theorem error_recovered (run : Run σ) : run.recovered.error = none := by
  cases h : run.error <;> simp [recovered, h]

@[simp] theorem state_recovered (run : Run σ) : run.recovered.state = run.state := by
  cases h : run.error <;> simp [recovered, h]

@[simp] theorem error_thenNote (run : Run σ) (note : Note) :
    (run.thenNote note).error = run.error := by
  cases h : run.error <;> simp [thenNote, h]

@[simp] theorem state_thenNote (run : Run σ) (note : Note) :
    (run.thenNote note).state = run.state := by
  simp [thenNote]

/-! ## Calls in turn -/

/-- The second function makes a call for each item in order, up to the first that fails. -/
structure InTurn {ι : Type} (call : ι → σ → Run σ) (calls : List ι → σ → Run σ) : Prop where
  nil : ∀ state, calls [] state = .done state
  cons : ∀ item rest state, calls (item :: rest) state = (call item state).andThen (calls rest)

namespace InTurn

variable {ι : Type} {call : ι → σ → Run σ} {calls : List ι → σ → Run σ}

theorem append (h : InTurn call calls) (first second : List ι) (state : σ) :
    calls (first ++ second) state = (calls first state).andThen (calls second) := by
  induction first generalizing state with
  | nil =>
    rw [List.nil_append, h.nil]
    rfl
  | cons item rest ih =>
    rw [List.cons_append, h.cons, h.cons, andThen_assoc]
    exact congrArg _ (funext fun state => ih state)

/-- Calls made in turn end as the first that fails ends. -/
theorem of_failed (h : InTurn call calls) (items : List ι) (state : σ) {e : BuildError}
    (hfailed : (calls items state).error = some e) :
    ∃ before bad after, items = before ++ bad :: after ∧
      (calls before state).error = none ∧
      (call bad (calls before state).state).error = some e ∧
      (calls items state).state = (call bad (calls before state).state).state := by
  induction items generalizing state with
  | nil =>
    rw [h.nil] at hfailed
    cases hfailed
  | cons item rest ih =>
    rw [h.cons, error_andThen] at hfailed
    cases hitem : (call item state).error with
    | some first =>
      rw [hitem, Option.some_or] at hfailed
      refine ⟨[], item, rest, rfl, ?_, ?_, ?_⟩
      · rw [h.nil, error_done]
      · rw [h.nil, state_done, hitem, hfailed]
      · rw [h.nil, h.cons, state_andThen, hitem, if_neg (by simp), state_done]
    | none =>
      rw [hitem, Option.none_or] at hfailed
      obtain ⟨before, bad, after, rfl, hbefore, hbad, hstate⟩ := ih _ hfailed
      refine ⟨item :: before, bad, after, rfl, ?_, ?_, ?_⟩
      · rw [h.cons, error_andThen, hitem, Option.none_or, hbefore]
      · rwa [h.cons, state_andThen, if_pos hitem]
      · rw [h.cons, h.cons, state_andThen, state_andThen, if_pos hitem, if_pos hitem, hstate]

end InTurn

end Run

end PlanScribe
