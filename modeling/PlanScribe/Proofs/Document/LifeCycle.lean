import PlanScribe.Proofs.Document.Delivery

/-!
# The life cycle of a document

A document goes one way: from open to closed, and from sound to poisoned. All that adds to it, by
hand or by applying a plan, is a sequence of calls that add one part each; what has become of these
calls tells the flag and the counts. A closed document refuses them before anything else is done,
and a plan that cannot be applied to an open one leaves in it the parts before the failing one.
-/
namespace PlanScribe

/-- A call that adds one part to a document, with a body of any kind. -/
inductive Addition
  | importModule (moduleName : String)
  | importFrom (moduleName : String) (symbols : List String)
  | expression (text : String)
  | global (target : Slot) (expression : String)
  | addClass (name doc : String) (members : ClassBody)
  | addFunction (function : Function) (body : BlockBody)

namespace Addition

def isClass : Addition → Bool
  | addClass .. => true
  | _ => false

def isFunction : Addition → Bool
  | addFunction .. => true
  | _ => false

end Addition

/-- The parts of a plan in the order of lowering. -/
def Plan.additions (plan : Plan) : List Addition :=
  plan.imports.map .importModule
    ++ plan.fromImports.map (fun i => .importFrom i.moduleName i.symbols)
    ++ plan.expressions.map .expression
    ++ plan.globals.map (fun g => .global (.named g.name g.annotation) g.value)
    ++ plan.classes.map (fun c => .addClass c.name c.doc c.lower)
    ++ plan.functions.map fun f => .addFunction f.declaration (bodyOf f.body)

/-- The parts that a call tries to add. -/
def Call.additions : Call → List Addition
  | importModule moduleName => [.importModule moduleName]
  | importFrom moduleName symbols => [.importFrom moduleName symbols]
  | expression text => [.expression text]
  | global target value => [.global target value]
  | addFunction f body => [.addFunction f (runBlock body)]
  | addClass name classDoc body => [.addClass name classDoc (runClass body)]
  | apply plan => plan.additions
  | render | close => []

/-- A call that was made to add a part, on an open document or not, and its error. -/
structure Made where
  addition : Addition
  onOpen : Bool
  error : Option BuildError

namespace Made

def addedClass (made : Made) : Bool := made.addition.isClass && made.error.isNone

def addedFunction (made : Made) : Bool := made.addition.isFunction && made.error.isNone

/-- A class or a function could not be added to a document that was open. -/
def poisons (made : Made) : Bool :=
  made.onOpen && (made.addition.isClass || made.addition.isFunction) && made.error.isSome

end Made

namespace Document

/-- Makes the call. -/
def add (doc : Document) : Addition → Run Document
  | .importModule moduleName => doc.importModule moduleName
  | .importFrom moduleName symbols => doc.importFrom moduleName symbols
  | .expression text => doc.addExpression text
  | .global target expression => doc.addGlobal target expression
  | .addClass name classDoc members => doc.addClass name classDoc members
  | .addFunction f body => doc.addFunction f body

/-- The document with the part. -/
def withPart (doc : Document) : Addition → Document
  | .importModule moduleName => { doc with header := doc.header.write ("import " ++ moduleName) }
  | .importFrom moduleName symbols =>
    { doc with
      header := doc.header.write ("from " ++ moduleName ++ " import " ++ ", ".intercalate symbols) }
  | .expression text => { doc with header := doc.header.write text }
  | .global target expression =>
    { doc with globals := doc.globals.write (assignment target expression) }
  | .addClass name classDoc members =>
    let start : ClassBuild := { name, doc := classDoc, depth := 0, indent := doc.options.indent }
    { doc with classes := doc.classes ++ [(members start).state] }
  | .addFunction f body =>
    let block := (body (f.block 0 doc.options.indent)).state
    { doc with functions := doc.functions ++ [f.close 0 doc.options.indent block] }

/-- Why the part cannot be added to an open document. -/
def obstacle? (doc : Document) : Addition → Option BuildError
  | .addClass name classDoc members =>
    (members { name, doc := classDoc, depth := 0, indent := doc.options.indent }).error
  | .addFunction f body => f.repetition?.or (body (f.block 0 doc.options.indent)).error
  | _ => none

/-- The calls that are made in turn, up to the first that fails. -/
def madeInTurn (doc : Document) : List Addition → List Made
  | [] => []
  | a :: rest =>
    ⟨a, !doc.closed, (doc.add a).error⟩ ::
      if (doc.add a).error = none then (doc.add a).state.madeInTurn rest else []

/-- The calls that were made to add parts in the course of some calls. -/
def made (doc : Document) : List Call → List Made
  | [] => []
  | c :: rest => doc.madeInTurn c.additions ++ (doc.call c).document.made rest

variable {doc : Document}

/-! ## One part -/

/-- A closed document refuses a part before anything else is done. -/
theorem add_of_closed (hclosed : doc.closed = true) (a : Addition) :
    doc.add a = .fail doc .documentClosed := by
  cases a <;>
    simp only [add, importModule, importFrom, addExpression, writeHeader, addGlobal, addClass,
      addFunction, whenOpen, hclosed, if_true]

theorem commit_poison (doc : Document) {α : Type} (attempt : Attempt α) (record : α → Document)
    {value : α} (hvalue : attempt.error? = none → attempt.result = .ok value) :
    (attempt.commit doc.poison record).error = attempt.error? ∧
      (attempt.commit doc.poison record).state
        = if attempt.error? = none then record value else doc.poison := by
  refine ⟨attempt.error_commit _ _, ?_⟩
  split_ifs with h
  · exact attempt.state_commit_of_ok _ _ (hvalue h)
  · obtain ⟨e, he⟩ := Option.ne_none_iff_exists'.mp h
    exact attempt.state_commit_of_error _ _ ((attempt.error_commit _ _).trans he)

/-- An open document takes the part, or is poisoned by a class or a function that fails. -/
theorem add_of_open (hopen : doc.closed = false) (a : Addition) :
    (doc.add a).error = doc.obstacle? a ∧
      (doc.add a).state = if doc.obstacle? a = none then doc.withPart a else doc.poison := by
  have hwhenOpen (change : Run Document) : doc.whenOpen change = change := by
    rw [whenOpen, hopen, if_neg Bool.false_ne_true]
  cases a with
  | importModule | importFrom | expression | global =>
    simp only [add, importModule, importFrom, addExpression, writeHeader, addGlobal, hwhenOpen,
      obstacle?, withPart]
    exact ⟨rfl, rfl⟩
  | addClass name classDoc members =>
    let start : ClassBuild := { name, doc := classDoc, depth := 0, indent := doc.options.indent }
    let attempt := (members start).attempt.finish id [.logged .addedClass]
    have herror : attempt.error? = (members start).error := by
      rw [Attempt.error?_finish, Run.error?_attempt]
    have hvalue (h : attempt.error? = none) : attempt.result = .ok (members start).state := by
      rw [Attempt.result_finish, Run.result_attempt_of_ok _ (herror.symm.trans h)]
      rfl
    have hcommit := doc.commit_poison attempt
      (fun cls => { doc with classes := doc.classes ++ [cls] }) hvalue
    rw [herror] at hcommit
    rw [add, addClass, hwhenOpen]
    exact hcommit
  | addFunction f body =>
    have hcommit := doc.commit_poison (f.render 0 doc.options.indent body)
      (fun text => { doc with functions := doc.functions ++ [text] })
      (f.result_render_of_error?_eq_none 0 doc.options.indent body)
    rw [f.error?_render] at hcommit
    rw [add, addFunction, hwhenOpen]
    exact hcommit

theorem closed_withPart (a : Addition) : (doc.withPart a).closed = doc.closed := by
  cases a <;> rfl

theorem closed_add (a : Addition) : (doc.add a).state.closed = doc.closed := by
  cases hclosed : doc.closed with
  | true =>
    rw [add_of_closed hclosed]
    exact hclosed
  | false =>
    rw [(add_of_open hclosed a).2]
    split_ifs
    · exact (closed_withPart a).trans hclosed
    · exact hclosed

/-! ## Parts in turn -/

theorem inTurn_each {α : Type} (call : Document → α → Run Document) :
    Run.InTurn (fun item doc => call doc item) (each call) :=
  ⟨fun _ => rfl, fun _ _ _ => rfl⟩

theorem each_map {α β : Type} (call : Document → β → Run Document) (f : α → β) (items : List α)
    (doc : Document) :
    each call (items.map f) doc = each (fun doc a => call doc (f a)) items doc := by
  induction items generalizing doc with
  | nil => rfl
  | cons item rest ih => exact congrArg _ (funext ih)

/-- Applying a plan adds its parts in turn. -/
theorem apply_eq_each (plan : Plan) (doc : Document) :
    plan.apply doc = (each add plan.additions doc).thenNote (.logged .appliedPlan) := by
  have happend (first second : List Addition) (doc : Document) :
      each add (first ++ second) doc = (each add first doc).andThen (each add second) :=
    (inTurn_each add).append first second doc
  have hmap {α : Type} (f : α → Addition) (items : List α) :
      each add (items.map f) = each (fun doc a => add doc (f a)) items :=
    funext (each_map add f items)
  simp only [Plan.additions, happend, hmap]
  rfl

theorem closed_each_add (doc : Document) (items : List Addition) :
    (each add items doc).state.closed = doc.closed := by
  induction items generalizing doc with
  | nil => rfl
  | cons a rest ih =>
    exact Run.state_andThen_of_kept (p := fun state => state.closed = doc.closed) _ _
      (closed_add a) fun state h => (ih state).trans h

/-- A document that takes all parts in turn has them all. -/
theorem state_each_add (hopen : doc.closed = false) (items : List Addition)
    (h : (each add items doc).error = none) :
    (each add items doc).state = items.foldl withPart doc := by
  induction items generalizing doc with
  | nil => rfl
  | cons a rest ih =>
    obtain ⟨herror, hstate⟩ := add_of_open hopen a
    rw [each, Run.error_andThen, Option.or_eq_none_iff] at h
    rw [if_pos (herror.symm.trans h.1)] at hstate
    rw [each, Run.state_andThen, if_pos h.1, List.foldl_cons, ← hstate]
    exact ih ((closed_add a).trans hopen) h.2

/-- Parts that are added in turn stop at the first that cannot be added. -/
theorem each_add_of_failed (hopen : doc.closed = false) (items : List Addition) {e : BuildError}
    (h : (each add items doc).error = some e) :
    ∃ before bad after, items = before ++ bad :: after ∧
      (each add before doc).error = none ∧
      (before.foldl withPart doc).obstacle? bad = some e ∧
      (each add items doc).state = (before.foldl withPart doc).poison := by
  obtain ⟨before, bad, after, rfl, hbefore, hbad, hstate⟩ := (inTurn_each add).of_failed items doc h
  obtain ⟨herror, hlast⟩ := add_of_open ((closed_each_add doc before).trans hopen) bad
  have hobstacle := herror.symm.trans hbad
  rw [hobstacle, if_neg (Option.some_ne_none e)] at hlast
  have htaken := state_each_add hopen before hbefore
  refine ⟨before, bad, after, rfl, hbefore, ?_, ?_⟩
  · rwa [← htaken]
  · rw [← htaken]
    exact hstate.trans hlast

/-! ## Flags and counts -/

/-- The flag and the counts of the second document are those of the first, together with what came
of the calls made in between. -/
structure Tallies (before after : Document) (made : List Made) : Prop where
  classes : after.classes.length = before.classes.length + made.countP Made.addedClass
  functions : after.functions.length = before.functions.length + made.countP Made.addedFunction
  poisoned : after.poisoned = (before.poisoned || made.any Made.poisons)

theorem Tallies.of_same {before after : Document} (hclasses : after.classes = before.classes)
    (hfunctions : after.functions = before.functions)
    (hpoisoned : after.poisoned = before.poisoned) : before.Tallies after [] := by
  refine ⟨?_, ?_, ?_⟩
  · rw [hclasses, List.countP_nil, Nat.add_zero]
  · rw [hfunctions, List.countP_nil, Nat.add_zero]
  · rw [hpoisoned, List.any_nil, Bool.or_false]

theorem Tallies.trans {before mid after : Document} {first second : List Made}
    (h : before.Tallies mid first) (hnext : mid.Tallies after second) :
    before.Tallies after (first ++ second) := by
  refine ⟨?_, ?_, ?_⟩
  · rw [hnext.classes, h.classes, List.countP_append, Nat.add_assoc]
  · rw [hnext.functions, h.functions, List.countP_append, Nat.add_assoc]
  · rw [hnext.poisoned, h.poisoned, List.any_append, Bool.or_assoc]

theorem tallies_add (doc : Document) (a : Addition) :
    doc.Tallies (doc.add a).state [⟨a, !doc.closed, (doc.add a).error⟩] := by
  cases hclosed : doc.closed with
  | true =>
    rw [add_of_closed hclosed]
    refine ⟨?_, ?_, ?_⟩ <;> simp [Made.addedClass, Made.addedFunction, Made.poisons]
  | false =>
    obtain ⟨herror, hstate⟩ := add_of_open hclosed a
    rw [herror, hstate]
    cases hobstacle : doc.obstacle? a with
    | none =>
      rw [if_pos rfl]
      refine ⟨?_, ?_, ?_⟩ <;>
        cases a <;>
        simp [withPart, Made.addedClass, Made.addedFunction, Made.poisons, Addition.isClass,
          Addition.isFunction]
    | some e =>
      rw [if_neg (Option.some_ne_none e)]
      -- only a class or a function can meet an obstacle
      have hadds : (a.isClass || a.isFunction) = true := by
        cases a with
        | addClass | addFunction => rfl
        | importModule | importFrom | expression | global => cases hobstacle
      refine ⟨?_, ?_, ?_⟩ <;>
        simp [poison, Made.addedClass, Made.addedFunction, Made.poisons, hadds]

theorem tallies_each (doc : Document) (items : List Addition) :
    doc.Tallies (each add items doc).state (doc.madeInTurn items) := by
  induction items generalizing doc with
  | nil => exact .of_same rfl rfl rfl
  | cons a rest ih =>
    have hfirst := doc.tallies_add a
    rw [each, Run.state_andThen, madeInTurn]
    split_ifs
    · exact hfirst.trans (ih _)
    · exact hfirst

theorem document_close (doc : Document) :
    ∃ sink, doc.close.document = { doc with closed := true, sink } := by
  unfold close
  split_ifs with hclosed
  · exact ⟨doc.sink, by rw [← hclosed]⟩
  · simp only
    split
    · exact ⟨doc.sink, rfl⟩
    · split
      · exact ⟨doc.sink, rfl⟩
      · exact ⟨_, document_deliver _ _ _⟩

/-- A call that may change an open document adds one part, or applies a plan. -/
theorem call_cases (doc : Document) (c : Call) (hc : c.closes = false) :
    (∃ a, c.additions = [a] ∧ doc.call c = answer (doc.add a)) ∨ (∃ plan, c = .apply plan) ∨
      c = .render := by
  cases c with
  | importModule moduleName => exact .inl ⟨.importModule moduleName, rfl, rfl⟩
  | importFrom moduleName symbols => exact .inl ⟨.importFrom moduleName symbols, rfl, rfl⟩
  | expression text => exact .inl ⟨.expression text, rfl, rfl⟩
  | global target value => exact .inl ⟨.global target value, rfl, rfl⟩
  | addFunction f body => exact .inl ⟨.addFunction f (runBlock body), rfl, rfl⟩
  | addClass name classDoc body => exact .inl ⟨.addClass name classDoc (runClass body), rfl, rfl⟩
  | apply plan => exact .inr (.inl ⟨plan, rfl⟩)
  | render => exact .inr (.inr rfl)
  | close => cases hc

/-- A call that does not close the document adds its parts in turn. -/
theorem document_call (doc : Document) (c : Call) (hc : c.closes = false) :
    (doc.call c).document = (each add c.additions doc).state := by
  obtain ⟨a, hparts, hcall⟩ | ⟨plan, rfl⟩ | rfl := doc.call_cases c hc
  · rw [hparts, hcall, each, Run.state_andThen]
    split_ifs <;> rfl
  · rw [Call.additions, ← Run.state_thenNote _ (.logged .appliedPlan), ← apply_eq_each]
    rfl
  · rfl

theorem tallies_call (doc : Document) (c : Call) :
    doc.Tallies (doc.call c).document (doc.madeInTurn c.additions) := by
  cases hc : c.closes with
  | false =>
    rw [document_call doc c hc]
    exact doc.tallies_each c.additions
  | true =>
    cases c with
    | close =>
      obtain ⟨sink, hclose⟩ := doc.document_close
      rw [call, hclose]
      exact .of_same rfl rfl rfl
    | _ => cases hc

theorem tallies_after (doc : Document) (calls : List Call) :
    doc.Tallies (doc.after calls) (doc.made calls) := by
  induction calls generalizing doc with
  | nil => exact .of_same rfl rfl rfl
  | cons c rest ih => exact (doc.tallies_call c).trans (ih _)

theorem closed_call (doc : Document) (c : Call) :
    (doc.call c).document.closed = (doc.closed || c.closes) := by
  cases hc : c.closes with
  | false => rw [document_call doc c hc, closed_each_add, Bool.or_false]
  | true =>
    cases c with
    | close => rw [call, closed_close, Bool.or_true]
    | _ => cases hc

theorem closed_after (doc : Document) (calls : List Call) :
    (doc.after calls).closed = (doc.closed || calls.any Call.closes) := by
  induction calls generalizing doc with
  | nil => exact (Bool.or_false _).symm
  | cons c rest ih =>
    rw [List.any_cons, ← Bool.or_assoc, ← closed_call]
    exact ih _

/-! ## The whole life -/

/-- A call that would add something to a closed document is refused and leaves no trace. -/
theorem call_of_closed_refused (hclosed : doc.closed = true) (c : Call) (hc : c.additions ≠ []) :
    doc.call c = { document := doc, result := .error .documentClosed } := by
  have hopens : c.closes = false := by
    cases c with
    | close => exact absurd rfl hc
    | _ => rfl
  obtain ⟨a, -, hcall⟩ | ⟨plan, rfl⟩ | rfl := doc.call_cases c hopens
  · rw [hcall, add_of_closed hclosed]
    rfl
  · obtain ⟨a, rest, hparts⟩ := List.exists_cons_of_ne_nil hc
    have happly : plan.apply doc = .fail doc .documentClosed := by
      rw [apply_eq_each, show plan.additions = a :: rest from hparts, each, add_of_closed hclosed]
      rfl
    rw [call, happly]
    rfl
  · exact absurd rfl hc

/-- A document is closed by the first call that closes it and stays closed; it is poisoned by the
first class or function that cannot be added while it is open, and stays poisoned; and it counts the
classes and functions that were added. Closed, it refuses every part, whatever its body, and stays
as it is. Open, it takes the parts of a plan up to the first that cannot be added. -/
theorem life_cycle (options : DocumentOptions) (sink : Option Sink) (calls : List Call) :
    let fresh := create options sink
    let last := fresh.after calls
    -- the flags
    last.closed = calls.any Call.closes ∧
    last.poisoned = (fresh.made calls).any Made.poisons ∧
    (∀ later, (last.closed = true → (last.after later).closed = true) ∧
      (last.poisoned = true → (last.after later).poisoned = true)) ∧
    -- the counts
    last.classes.length = (fresh.made calls).countP Made.addedClass ∧
    last.functions.length = (fresh.made calls).countP Made.addedFunction ∧
    -- a closed document
    (last.closed = true →
      (∀ part, last.add part = .fail last .documentClosed) ∧
      ∀ c, c.additions ≠ [] →
        last.call c = { document := last, result := .error .documentClosed }) ∧
    -- an open document and a plan that cannot be applied
    (last.closed = false → ∀ (plan : Plan) e, (plan.apply last).error = some e →
      ∃ before bad after, plan.additions = before ++ bad :: after ∧
        (each add before last).error = none ∧
        (before.foldl withPart last).obstacle? bad = some e ∧
        (plan.apply last).state = (before.foldl withPart last).poison) := by
  intro fresh last
  have htallies := fresh.tallies_after calls
  refine ⟨?closed, ?poisoned, ?oneWay, ?classes, ?functions, ?refused, ?applied⟩
  case closed => exact (fresh.closed_after calls).trans (Bool.false_or _)
  case poisoned => exact htallies.poisoned.trans (Bool.false_or _)
  case oneWay =>
    intro later
    constructor
    · intro hclosed
      rw [closed_after, hclosed, Bool.true_or]
    · intro hpoisoned
      rw [(last.tallies_after later).poisoned, hpoisoned, Bool.true_or]
  case classes => exact htallies.classes.trans (Nat.zero_add _)
  case functions => exact htallies.functions.trans (Nat.zero_add _)
  case refused => exact fun hclosed => ⟨add_of_closed hclosed, call_of_closed_refused hclosed⟩
  case applied =>
    intro hopen plan e h
    rw [apply_eq_each, Run.error_thenNote] at h
    rw [apply_eq_each, Run.state_thenNote]
    exact each_add_of_failed hopen plan.additions h

end Document

end PlanScribe
