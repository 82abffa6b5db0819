import PlanScribe.Build.Program
import PlanScribe.Plan.Lower
import PlanScribe.Proofs.Build.Members

/-!
# Declared members

What a class records of the calls that declare its members, of which any may fail. Of the fields it
records those that are new, up to the first in a call that is not; of the methods those that can be
rendered, each with the receiver in front. All that fills a class comes down to such calls: class
programs, and the lowering of a described class.
-/
namespace PlanScribe

/-- A call that declares members of a class, with a body of any kind. -/
inductive Member
  | field (slot : Slot)
  | fields (slots : List Slot)
  | method (function : Function) (body : BlockBody)
  | setup (body : BlockBody)

namespace Member

/-- The fields that the call is to declare. -/
def slots : Member → List Slot
  | field slot => [slot]
  | fields slots => slots
  | method .. | setup _ => []

/-- The text of the method that the call declares in a class at the depth, if it can be rendered. -/
def text? (depth : Nat) (indent : Indent) : Member → Option Buffer
  | method f body => (f.withReceiver.render (depth + 1) indent body).result.toOption
  | field _ | fields _ | setup _ => none

end Member

/-- The slots up to the first that cannot be a field beside the earlier ones: its name is that of
the receiver, of an earlier field, or of a slot before it. -/
def admitted (earlier : List String) : List Slot → List Slot
  | [] => []
  | slot :: rest =>
    if slot.name = receiverName ∨ slot.name ∈ earlier then []
    else slot :: admitted (earlier ++ [slot.name]) rest

/-- The fields that the calls add to the earlier ones, in order. -/
def acceptedFields (earlier : List Slot) : List Member → List Slot
  | [] => []
  | m :: rest =>
    let new := admitted (earlier.map Slot.name) m.slots
    new ++ acceptedFields (earlier ++ new) rest

namespace Function

variable (f : Function)

theorem head?_withReceiver : f.withReceiver.parameters.head? = some .receiver := by
  unfold withReceiver
  split
  · rename_i h
    rw [h]
    rfl
  · rfl

/-- A function is rendered only if no two parameters have the same name. -/
theorem nodup_of_render {depth : Nat} {indent : Indent} {body : BlockBody} {text : Buffer}
    (h : (f.render depth indent body).result = .ok text) : (f.parameters.map Slot.name).Nodup := by
  rw [← firstRepeated_eq_none_iff]
  cases hrepeated : firstRepeated (f.parameters.map Slot.name) with
  | none => rfl
  | some name =>
    have herror := f.error?_render depth indent body
    rw [Attempt.error?, h, repetition?, repeatedParameter?, hrepeated] at herror
    cases herror

/-- A rendered method takes the receiver first, and nothing else of its name. -/
theorem count_receiver_of_render {depth : Nat} {indent : Indent} {body : BlockBody} {text : Buffer}
    (h : (f.withReceiver.render depth indent body).result = .ok text) :
    (f.withReceiver.parameters.map Slot.name).count receiverName = 1 := by
  apply List.count_eq_one_of_mem (f.withReceiver.nodup_of_render h)
  have hmem := List.mem_of_mem_head? f.head?_withReceiver
  exact List.mem_map_of_mem hmem

end Function

namespace ClassBuild

/-- Makes the call. -/
def declare (cls : ClassBuild) : Member → Run ClassBuild
  | .field slot => cls.addField slot
  | .fields slots => cls.addFields slots
  | .method f body => cls.addMethod f body
  | .setup body => cls.addSetup body

/-- The class after the calls. One that fails does not keep the next from being made. -/
def declareAll (cls : ClassBuild) (members : List Member) : ClassBuild :=
  members.foldl (fun cls m => (cls.declare m).state) cls

theorem declareAll_append (cls : ClassBuild) (first second : List Member) :
    cls.declareAll (first ++ second) = (cls.declareAll first).declareAll second :=
  List.foldl_append

/-! ## One call -/

theorem state_addFields_admitted (cls : ClassBuild) (slots : List Slot) :
    (cls.addFields slots).state
      = { cls with fields := cls.fields ++ admitted cls.fieldNames slots } := by
  induction slots generalizing cls with
  | nil => simp [addFields, admitted]
  | cons slot rest ih =>
    rw [addFields, Run.state_andThen, error_addField, state_addField, admitted]
    by_cases h : slot.name = receiverName ∨ slot.name ∈ cls.fieldNames
    · rw [if_pos h, if_neg (by simp), if_pos h, if_pos h, List.append_nil]
    · rw [if_neg h, if_pos rfl, if_neg h, if_neg h, ih]
      simp [fieldNames]

/-- Fields are all declared exactly if all of them are admitted. -/
theorem error_addFields_eq_none_iff (cls : ClassBuild) (slots : List Slot) :
    (cls.addFields slots).error = none ↔ admitted cls.fieldNames slots = slots := by
  induction slots generalizing cls with
  | nil => simp [addFields, admitted]
  | cons slot rest ih =>
    rw [addFields, Run.error_andThen, error_addField, state_addField, admitted]
    by_cases h : slot.name = receiverName ∨ slot.name ∈ cls.fieldNames
    · rw [if_pos h, if_pos h, if_pos h]
      simp
    · rw [if_neg h, if_neg h, if_neg h, Option.none_or, ih]
      simp [fieldNames]

theorem state_addField_eq (cls : ClassBuild) (slot : Slot) :
    (cls.addField slot).state = (cls.addFields [slot]).state := by
  rw [addFields, Run.state_andThen]
  split <;> rfl

/-- What a call makes of a class. -/
structure Declares (before after : ClassBuild) (m : Member) : Prop where
  fields : after.fields = before.fields ++ admitted before.fieldNames m.slots
  methods : after.methods = before.methods ++ (m.text? before.depth before.indent).toList
  depth : after.depth = before.depth
  indent : after.indent = before.indent

theorem declares_addFields (cls : ClassBuild) (slots : List Slot) :
    cls.Declares (cls.addFields slots).state (.fields slots) := by
  rw [state_addFields_admitted]
  exact ⟨rfl, (List.append_nil _).symm, rfl, rfl⟩

theorem declares_addMethod (cls : ClassBuild) (f : Function) (body : BlockBody) :
    cls.Declares (cls.addMethod f body).state (.method f body) := by
  have hfields : cls.fields = cls.fields ++ admitted cls.fieldNames [] :=
    (List.append_nil _).symm
  unfold addMethod
  cases hr : (f.withReceiver.render (cls.depth + 1) cls.indent body).result with
  | ok text =>
    have htext : (Member.method f body).text? cls.depth cls.indent = some text := by
      rw [Member.text?, hr]
      rfl
    rw [Attempt.state_commit_of_ok _ _ _ hr]
    exact ⟨hfields, by rw [htext]; rfl, rfl, rfl⟩
  | error e =>
    have htext : (Member.method f body).text? cls.depth cls.indent = none := by
      rw [Member.text?, hr]
      rfl
    rw [Attempt.state_commit_of_error _ _ _ (e := e) (by simp [Attempt.error?, hr])]
    exact ⟨hfields, by rw [htext]; exact (List.append_nil _).symm, rfl, rfl⟩

theorem declares_addSetup (cls : ClassBuild) (body : BlockBody) :
    cls.Declares (cls.addSetup body).state (.setup body) := by
  have hnone {α : Type} (items : List α) : items = items ++ [] := (List.append_nil items).symm
  unfold addSetup
  cases hr : (body (Scope.atDepth (cls.depth + 2) cls.indent)).attempt.result with
  | ok block =>
    rw [Attempt.state_commit_of_ok _ _ _ hr]
    exact ⟨hnone _, hnone _, rfl, rfl⟩
  | error e =>
    rw [Attempt.state_commit_of_error _ _ _ (e := e) (by simp [Attempt.error?, hr])]
    exact ⟨hnone _, hnone _, rfl, rfl⟩

theorem declares_declare (cls : ClassBuild) (m : Member) :
    cls.Declares (cls.declare m).state m := by
  cases m with
  | field slot =>
    rw [declare, state_addField_eq]
    obtain ⟨hfields, hmethods, hdepth, hindent⟩ := cls.declares_addFields [slot]
    exact ⟨hfields, hmethods, hdepth, hindent⟩
  | fields slots => exact cls.declares_addFields slots
  | method f body => exact cls.declares_addMethod f body
  | setup body => exact cls.declares_addSetup body

theorem Distinct.declare {cls : ClassBuild} (h : cls.Distinct) (m : Member) :
    (cls.declare m).state.Distinct := by
  cases m with
  | field slot => exact h.addField slot
  | fields slots => exact h.addFields slots
  | method f body => exact h.addMethod f body
  | setup body => exact h.addSetup body

/-! ## All calls -/

theorem Distinct.declareAll {cls : ClassBuild} (h : cls.Distinct) (members : List Member) :
    (cls.declareAll members).Distinct := by
  induction members generalizing cls with
  | nil => exact h
  | cons m rest ih => exact ih (h.declare m)

theorem fields_declareAll (cls : ClassBuild) (members : List Member) :
    (cls.declareAll members).fields = cls.fields ++ acceptedFields cls.fields members := by
  induction members generalizing cls with
  | nil => exact (List.append_nil _).symm
  | cons m rest ih =>
    have hfields := (cls.declares_declare m).fields
    change ((cls.declare m).state.declareAll rest).fields = _
    rw [ih, hfields, acceptedFields, List.append_assoc]
    rfl

theorem methods_declareAll (cls : ClassBuild) (members : List Member) :
    (cls.declareAll members).methods
      = cls.methods ++ members.filterMap (Member.text? cls.depth cls.indent) := by
  induction members generalizing cls with
  | nil => exact (List.append_nil _).symm
  | cons m rest ih =>
    obtain ⟨-, hmethods, hdepth, hindent⟩ := cls.declares_declare m
    change ((cls.declare m).state.declareAll rest).methods = _
    rw [ih, hmethods, hdepth, hindent, List.append_assoc]
    cases ht : m.text? cls.depth cls.indent <;> simp [ht]

/-- Every recorded method comes from a call with a function that could be rendered. -/
theorem exists_method_of_text {depth : Nat} {indent : Indent} {members : List Member}
    {text : Buffer} (h : text ∈ members.filterMap (Member.text? depth indent)) :
    ∃ f body, .method f body ∈ members ∧
      (f.withReceiver.render (depth + 1) indent body).result = .ok text := by
  obtain ⟨m, hm, htext⟩ := List.mem_filterMap.mp h
  cases m with
  | method f body =>
    refine ⟨f, body, hm, ?_⟩
    rw [Member.text?] at htext
    cases hr : (f.withReceiver.render (depth + 1) indent body).result with
    | ok other =>
      rw [hr] at htext
      exact congrArg Except.ok (Option.some.inj htext)
    | error e =>
      rw [hr] at htext
      cases htext
  | field | fields | setup => cases htext

end ClassBuild

/-! ## What declares -/

/-- The body of a class does nothing to it but make calls that declare members. -/
def Declaring (body : ClassBody) : Prop :=
  ∀ cls, ∃ members, (body cls).state = cls.declareAll members

theorem declaring_of_state_eq {body : ClassBody} (h : ∀ cls, (body cls).state = cls) :
    Declaring body := fun cls => ⟨[], h cls⟩

theorem declaring_declare (m : Member) : Declaring fun cls => cls.declare m :=
  fun _ => ⟨[m], rfl⟩

theorem Declaring.andThen {body next : ClassBody} (h : Declaring body) (hnext : Declaring next) :
    Declaring fun cls => (body cls).andThen next := by
  intro cls
  obtain ⟨first, hfirst⟩ := h cls
  rw [Run.state_andThen]
  split
  · obtain ⟨second, hsecond⟩ := hnext (body cls).state
    refine ⟨first ++ second, ?_⟩
    rw [hsecond, hfirst, ClassBuild.declareAll_append]
  · exact ⟨first, hfirst⟩

theorem Declaring.distinct {body : ClassBody} (h : Declaring body) {cls : ClassBuild}
    (hcls : cls.Distinct) : (body cls).state.Distinct := by
  obtain ⟨members, hmembers⟩ := h cls
  rw [hmembers]
  exact hcls.declareAll members

mutual

theorem ClassStep.declaring_run : (step : ClassStep) → Declaring step.run
  | .field slot => declaring_declare (.field slot)
  | .fields slots => declaring_declare (.fields slots)
  | .method f body => declaring_declare (.method f (runBlock body))
  | .setup body => declaring_declare (.setup (runBlock body))
  | .peek => declaring_of_state_eq fun _ => rfl
  | .fail _ => declaring_of_state_eq fun _ => rfl
  | .attempt body => by
    intro cls
    obtain ⟨members, hmembers⟩ := declaring_runClass body cls
    exact ⟨members, (Run.state_recovered _).trans hmembers⟩
termination_by structural step => step

/-- A class program declares members. -/
theorem declaring_runClass : (steps : List ClassStep) → Declaring (runClass steps)
  | [] => declaring_of_state_eq fun _ => rfl
  | step :: rest => step.declaring_run.andThen (declaring_runClass rest)
termination_by structural steps => steps

end

namespace ClassDef

theorem declaring_addMethods (methods : List FunctionDef) : Declaring (addMethods · methods) := by
  induction methods with
  | nil => exact declaring_of_state_eq fun _ => rfl
  | cons m rest ih => exact (declaring_declare (.method m.declaration (bodyOf m.body))).andThen ih

/-- Lowering a described class declares members. -/
theorem declaring_lower (c : ClassDef) : Declaring c.lower := by
  have hsetup : Declaring fun cls =>
      if c.init.isEmpty then .done cls else cls.addSetup (bodyOf c.init) := by
    split
    · exact declaring_of_state_eq fun _ => rfl
    · exact declaring_declare (.setup (bodyOf c.init))
  have hfields := declaring_declare (.fields (c.fields.map ValueDef.slot))
  exact (hfields.andThen hsetup).andThen (declaring_addMethods c.methods)

end ClassDef

end PlanScribe
