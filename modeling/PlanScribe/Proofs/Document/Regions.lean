import PlanScribe.Proofs.Document.LifeCycle

/-!
# Regions apart

The four regions of a document are four logs: the header lines, the globals, the classes and the
functions that were added, each in the order of their calls. A call writes to the log of its region
and reads none, and whether it succeeds depends on none either. The order between calls of different
regions therefore leaves no trace in the rendering, nor do calls that fail or that only render.
-/
namespace PlanScribe

/-- Where in a document a part belongs. -/
inductive Region
  | header
  | globals
  | classes
  | functions
deriving DecidableEq, Repr

namespace Addition

def region : Addition → Region
  | .importModule _ | .importFrom .. | .expression _ => .header
  | .global .. => .globals
  | .addClass .. => .classes
  | .addFunction .. => .functions

/-- What the part writes into the header region. -/
def headerText? : Addition → Option String
  | .importModule moduleName => some ("import " ++ moduleName)
  | .importFrom moduleName symbols =>
    some ("from " ++ moduleName ++ " import " ++ ", ".intercalate symbols)
  | .expression text => some text
  | .global .. | .addClass .. | .addFunction .. => none

/-- What the part writes among the globals. -/
def globalText? : Addition → Option String
  | .global target value => some (assignment target value)
  | .importModule _ | .importFrom .. | .expression _ | .addClass .. | .addFunction .. => none

/-- The class that the part adds. -/
def class? (indent : Indent) : Addition → Option ClassBuild
  | .addClass name classDoc members =>
    some (members { name, doc := classDoc, depth := 0, indent }).state
  | .importModule _ | .importFrom .. | .expression _ | .global .. | .addFunction .. => none

/-- The text of the function that the part adds. -/
def function? (indent : Indent) : Addition → Option Buffer
  | .addFunction f body => some (f.close 0 indent (body (f.block 0 indent)).state)
  | .importModule _ | .importFrom .. | .expression _ | .global .. | .addClass .. => none

end Addition

/-- One step in the building of a document: a part is added, with a body of any kind, or a call of a
session is made. -/
inductive DocumentStep
  | add (part : Addition)
  | call (c : Call)

/-- The parts that the step tries to add in turn. -/
def DocumentStep.additions : DocumentStep → List Addition
  | add part => [part]
  | call c => c.additions

namespace Document

/-- Takes one step. -/
def step (doc : Document) : DocumentStep → Document
  | .add part => (doc.add part).state
  | .call c => (doc.call c).document

/-- Takes the steps in order; none is kept from being taken by the failure of another. -/
def steps (doc : Document) (todo : List DocumentStep) : Document := todo.foldl step doc

/-- Of parts that are added in turn, those before the first that fails. -/
def taken (doc : Document) : List Addition → List Addition
  | [] => []
  | a :: rest => if (doc.add a).error = none then a :: (doc.add a).state.taken rest else []

/-- The parts that the steps succeed in adding, in order. -/
def partsOf (doc : Document) : List DocumentStep → List Addition
  | [] => []
  | s :: rest => doc.taken s.additions ++ (doc.step s).partsOf rest

/-- The document consists of the parts: each region is the log of those that belong there. -/
structure Holds (doc : Document) (chosen : DocumentOptions) (parts : List Addition) : Prop where
  options : doc.options = chosen
  header : doc.header
    = (Scope.atDepth 0 chosen.indent).writeAll (parts.filterMap Addition.headerText?)
  globals : doc.globals
    = (Scope.atDepth 0 chosen.indent).writeAll (parts.filterMap Addition.globalText?)
  classes : doc.classes = parts.filterMap (Addition.class? chosen.indent)
  functions : doc.functions = parts.filterMap (Addition.function? chosen.indent)

variable {doc other : Document} {options : DocumentOptions} {parts : List Addition}

theorem partsOf_append (doc : Document) (first second : List DocumentStep) :
    doc.partsOf (first ++ second) = doc.partsOf first ++ (doc.steps first).partsOf second := by
  induction first generalizing doc with
  | nil => rfl
  | cons s rest ih =>
    rw [List.cons_append, partsOf, partsOf, ih, List.append_assoc]
    rfl

/-- A step that does not close the document adds its parts in turn. -/
theorem step_eq_each (doc : Document) {s : DocumentStep} (hs : s ≠ .call .close) :
    doc.step s = (each Document.add s.additions doc).state := by
  cases s with
  | add a =>
    rw [DocumentStep.additions, Document.each, Run.state_andThen]
    split_ifs <;> rfl
  | call c =>
    have hc : c.closes = false := by
      cases c with
      | close => exact absurd rfl hs
      | _ => rfl
    exact document_call doc c hc

/-! ## The regions are logs -/

theorem Holds.withPart (h : doc.Holds options parts) (a : Addition) :
    (doc.withPart a).Holds options (parts ++ [a]) := by
  obtain ⟨rfl, hheader, hglobals, hclasses, hfunctions⟩ := h
  have hwrite (texts : List String) (text : String) (scope : Scope) :
      (scope.writeAll texts).write text = scope.writeAll (texts ++ [text]) := by
    rw [Scope.writeAll, Scope.writeAll, List.foldl_append]
    rfl
  constructor
  · cases a <;> rfl
  · cases a <;>
      simp [Document.withPart, hheader, List.filterMap_cons, Addition.headerText?, hwrite]
  · cases a <;>
      simp [Document.withPart, hglobals, List.filterMap_cons, Addition.globalText?, hwrite]
  · cases a <;>
      simp [Document.withPart, hclasses, List.filterMap_cons, Addition.class?]
  · cases a <;>
      simp [Document.withPart, hfunctions, List.filterMap_cons, Addition.function?]

/-- Adding a part extends the log of its region if it succeeds, and changes none if it fails. -/
theorem Holds.add (h : doc.Holds options parts) (a : Addition) :
    (doc.add a).state.Holds options (if (doc.add a).error = none then parts ++ [a] else parts) := by
  cases hclosed : doc.closed with
  | true =>
    rw [add_of_closed hclosed, if_neg (by simp)]
    exact h
  | false =>
    obtain ⟨herror, hstate⟩ := add_of_open hclosed a
    rw [hstate, herror]
    by_cases hnone : doc.obstacle? a = none
    · rw [if_pos hnone, if_pos hnone]
      exact h.withPart a
    · rw [if_neg hnone, if_neg hnone]
      exact ⟨h.options, h.header, h.globals, h.classes, h.functions⟩

theorem Holds.each (h : doc.Holds options parts) (items : List Addition) :
    (each Document.add items doc).state.Holds options (parts ++ doc.taken items) := by
  induction items generalizing doc parts with
  | nil =>
    rw [taken, List.append_nil]
    exact h
  | cons a rest ih =>
    have hfirst := h.add a
    rw [Document.each, Run.state_andThen, taken]
    by_cases hnone : (doc.add a).error = none
    · rw [if_pos hnone] at hfirst
      have hrest := ih hfirst
      rw [List.append_assoc] at hrest
      rw [if_pos hnone, if_pos hnone]
      exact hrest
    · rw [if_neg hnone] at hfirst
      rw [if_neg hnone, if_neg hnone, List.append_nil]
      exact hfirst

theorem Holds.step (h : doc.Holds options parts) (s : DocumentStep) :
    (doc.step s).Holds options (parts ++ doc.taken s.additions) := by
  by_cases hs : s = .call .close
  · obtain ⟨sink, hclose⟩ := doc.document_close
    rw [hs, Document.step, Document.call, hclose, DocumentStep.additions, Call.additions, taken,
      List.append_nil]
    exact ⟨h.options, h.header, h.globals, h.classes, h.functions⟩
  · rw [doc.step_eq_each hs]
    exact h.each s.additions

theorem Holds.steps (h : doc.Holds options parts) (todo : List DocumentStep) :
    (doc.steps todo).Holds options (parts ++ doc.partsOf todo) := by
  induction todo generalizing doc parts with
  | nil =>
    rw [partsOf, List.append_nil]
    exact h
  | cons s rest ih =>
    have hrest := ih (h.step s)
    rw [List.append_assoc] at hrest
    exact hrest

theorem holds_create (options : DocumentOptions) (sink : Option Sink) (target : Option Path) :
    { create options sink with target }.Holds options [] := ⟨rfl, rfl, rfl, rfl, rfl⟩

/-! ## What is rendered -/

/-- The rendering depends on the parts alone. -/
theorem Holds.render_eq (h : doc.Holds options parts) (hother : other.Holds options parts) :
    doc.render = other.render := by
  have hassemble : doc.assemble = other.assemble := by
    funext classes
    unfold assemble
    rw [h.options, h.header, h.globals, h.functions, hother.options, hother.header, hother.globals,
      hother.functions]
  unfold render
  rw [hassemble, h.classes, hother.classes]

/-- What only the parts of one region write is written by these parts alone. -/
theorem filterMap_region {α : Type} {write : Addition → Option α} {region : Region}
    (h : ∀ a : Addition, a.region ≠ region → write a = none) (parts : List Addition) :
    parts.filterMap write = (parts.filter (·.region = region)).filterMap write := by
  rw [List.filterMap_filter]
  apply List.filterMap_congr
  intro a _
  by_cases ha : a.region = region
  · simp [ha]
  · simp [ha, h a ha]

/-- A document that consists of some parts consists of all others that give the same four logs. -/
theorem Holds.of_regions {others : List Addition} (h : doc.Holds options parts)
    (hregions : ∀ region : Region,
      parts.filter (·.region = region) = others.filter (·.region = region)) :
    doc.Holds options others := by
  have hsame {α : Type} {write : Addition → Option α} {region : Region}
      (hwrite : ∀ a : Addition, a.region ≠ region → write a = none) :
      parts.filterMap write = others.filterMap write := by
    rw [filterMap_region hwrite parts, filterMap_region hwrite others, hregions region]
  have hheader (a : Addition) (ha : a.region ≠ .header) : a.headerText? = none := by
    cases a <;> trivial
  have hglobals (a : Addition) (ha : a.region ≠ .globals) : a.globalText? = none := by
    cases a <;> trivial
  have hclasses (indent : Indent) (a : Addition) (ha : a.region ≠ .classes) :
      a.class? indent = none := by
    cases a <;> trivial
  have hfunctions (indent : Indent) (a : Addition) (ha : a.region ≠ .functions) :
      a.function? indent = none := by
    cases a <;> trivial
  refine ⟨h.options, ?_, ?_, ?_, ?_⟩
  · rw [h.header, hsame hheader]
  · rw [h.globals, hsame hglobals]
  · rw [h.classes, hsame (hclasses _)]
  · rw [h.functions, hsame (hfunctions _)]

/-! ## What decides whether a call succeeds -/

/-- The documents agree in all that decides whether a part can be added. -/
structure SameStage (doc other : Document) : Prop where
  options : doc.options = other.options
  closed : doc.closed = other.closed

theorem SameStage.symm (h : doc.SameStage other) : other.SameStage doc :=
  ⟨h.options.symm, h.closed.symm⟩

theorem SameStage.trans {third : Document} (h : doc.SameStage other)
    (hnext : other.SameStage third) : doc.SameStage third :=
  ⟨h.options.trans hnext.options, h.closed.trans hnext.closed⟩

theorem obstacle?_congr (h : doc.options = other.options) (a : Addition) :
    doc.obstacle? a = other.obstacle? a := by
  cases a <;> simp only [obstacle?, h]

/-- Whatever was added before, the same part meets the same error. -/
theorem SameStage.error_add (h : doc.SameStage other) (a : Addition) :
    (doc.add a).error = (other.add a).error := by
  cases hclosed : doc.closed with
  | true => rw [add_of_closed hclosed, add_of_closed (h.closed.symm.trans hclosed)]; rfl
  | false =>
    rw [(add_of_open hclosed a).1, (add_of_open (h.closed.symm.trans hclosed) a).1,
      obstacle?_congr h.options]

theorem sameStage_add (doc : Document) (a : Addition) : (doc.add a).state.SameStage doc := by
  refine ⟨?_, closed_add a⟩
  cases hclosed : doc.closed with
  | true => rw [add_of_closed hclosed]; rfl
  | false =>
    rw [(add_of_open hclosed a).2]
    split_ifs
    · cases a <;> rfl
    · rfl

theorem SameStage.add (h : doc.SameStage other) (a : Addition) :
    (doc.add a).state.SameStage (other.add a).state :=
  (doc.sameStage_add a).trans (h.trans (other.sameStage_add a).symm)

theorem sameStage_each (doc : Document) (items : List Addition) :
    (each Document.add items doc).state.SameStage doc := by
  induction items generalizing doc with
  | nil => exact ⟨rfl, rfl⟩
  | cons a rest ih =>
    exact Run.state_andThen_of_kept (p := fun state => state.SameStage doc) _ _
      (doc.sameStage_add a) fun state h => (ih state).trans h

theorem SameStage.taken (h : doc.SameStage other) (items : List Addition) :
    doc.taken items = other.taken items := by
  induction items generalizing doc other with
  | nil => rfl
  | cons a rest ih => rw [Document.taken, Document.taken, h.error_add a, ih (h.add a)]

/-- Only closing a document moves it to another stage. -/
theorem sameStage_step (doc : Document) {s : DocumentStep} (hs : s ≠ .call .close) :
    (doc.step s).SameStage doc := by
  rw [doc.step_eq_each hs]
  exact doc.sameStage_each s.additions

theorem SameStage.step (h : doc.SameStage other) (s : DocumentStep) :
    (doc.step s).SameStage (other.step s) := by
  by_cases hs : s = .call .close
  · obtain ⟨_, hdoc⟩ := doc.document_close
    obtain ⟨_, hother⟩ := other.document_close
    rw [hs, Document.step, Document.step, Document.call, Document.call, hdoc, hother]
    exact ⟨h.options, rfl⟩
  · exact (doc.sameStage_step hs).trans (h.trans (other.sameStage_step hs).symm)

theorem SameStage.partsOf (h : doc.SameStage other) (todo : List DocumentStep) :
    doc.partsOf todo = other.partsOf todo := by
  induction todo generalizing doc other with
  | nil => rfl
  | cons s rest ih => rw [Document.partsOf, Document.partsOf, h.taken, ih (h.step s)]

/-- A step that adds nothing can be left out. -/
theorem partsOf_drop (doc : Document) (before rest : List DocumentStep) {s : DocumentStep}
    (hs : s ≠ .call .close) (hnone : (doc.steps before).taken s.additions = []) :
    doc.partsOf (before ++ s :: rest) = doc.partsOf (before ++ rest) := by
  rw [partsOf_append, partsOf_append, partsOf, hnone, List.nil_append,
    ((doc.steps before).sameStage_step hs).partsOf]

/-- Parts of which none fails are all in the document. -/
theorem partsOf_succeeding (doc : Document) (parts : List Addition)
    (h : (each Document.add parts doc).error = none) : doc.partsOf (parts.map .add) = parts := by
  induction parts generalizing doc with
  | nil => rfl
  | cons a rest ih =>
    rw [Document.each, Run.error_andThen, Option.or_eq_none_iff] at h
    rw [List.map_cons, partsOf, DocumentStep.additions, Document.taken, if_pos h.1, Document.taken,
      Document.step, ih _ h.2]
    rfl

/-- The regions of a document do not interfere. After any steps on a fresh document each region is
the log of the parts of that region that were added, so the rendering is the same however the steps
of different regions are interleaved. A call to render and a call that fails to add its part can be
put in anywhere and leave the rendering as it is. -/
theorem regions_do_not_interfere (options : DocumentOptions) (sink sink' : Option Sink)
    (target target' : Option Path) :
    let fresh := { create options sink with target }
    let other := { create options sink' with target := target' }
    -- a part fails for what it is, never for what was done before
    (∀ todo part, (fresh.steps todo).closed = false →
      ((fresh.steps todo).add part).error = fresh.obstacle? part) ∧
    -- the regions are logs of the parts that were added
    (∀ todo, (fresh.steps todo).Holds options (fresh.partsOf todo)) ∧
    (∀ parts, (each add parts fresh).error = none → fresh.partsOf (parts.map .add) = parts) ∧
    -- the order between regions is not seen
    (∀ first second,
      (∀ region : Region, (fresh.partsOf first).filter (·.region = region)
        = (other.partsOf second).filter (·.region = region)) →
      (fresh.steps first).render = (other.steps second).render) ∧
    -- steps that add nothing are not seen
    ∀ before s rest,
      (s = .call .render ∨
        ∃ part, s.additions = [part] ∧ ((fresh.steps before).add part).error ≠ none) →
      fresh.partsOf (before ++ s :: rest) = fresh.partsOf (before ++ rest) ∧
        (fresh.steps (before ++ s :: rest)).render = (fresh.steps (before ++ rest)).render := by
  intro fresh other
  have hfresh (todo : List DocumentStep) :
      (fresh.steps todo).Holds options (fresh.partsOf todo) :=
    (holds_create options sink target).steps todo
  refine ⟨?alone, hfresh, fresh.partsOf_succeeding, ?order, ?idle⟩
  case alone =>
    intro todo part hopen
    rw [(add_of_open hopen part).1]
    exact obstacle?_congr (hfresh todo).options part
  case order =>
    intro first second h
    have hother : (other.steps second).Holds options (other.partsOf second) :=
      (holds_create options sink' target').steps second
    exact ((hfresh first).of_regions h).render_eq hother
  case idle =>
    intro before s rest hs
    have hnone : s ≠ .call .close ∧ (fresh.steps before).taken s.additions = [] := by
      obtain rfl | ⟨part, hpart, herror⟩ := hs
      · exact ⟨by simp, rfl⟩
      · refine ⟨?_, ?_⟩
        · rintro rfl
          cases hpart
        · rw [hpart, taken, if_neg herror]
    have hparts := fresh.partsOf_drop before rest hnone.1 hnone.2
    refine ⟨hparts, ?_⟩
    exact (hfresh _).render_eq (hparts ▸ hfresh (before ++ rest))

end Document

end PlanScribe
