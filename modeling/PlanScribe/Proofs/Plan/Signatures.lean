import PlanScribe.Proofs.Cli.Signatures
import PlanScribe.Proofs.Plan.Outline

/-!
# Lines that open definitions

The line that opens a function, a method or a constructor is made from the names and the types of
its slots. A parameter without a type is written as its name alone. A returned value without a type
is written as nothing at all, so the line is well formed exactly if no returned value lacks its
type.
-/
namespace PlanScribe

/-! ## Well-formed parts -/

/-- A type that stands on one line, with no white space around it. -/
structure TypeText (text : String) : Prop extends Flush text where
  trimmed : Text.trimEnd text.toList = text.toList

/-- A parameter by its name: the name alone, or the name and a type. -/
inductive ParameterText : String → String → Prop
  | bare {name : String} (hname : UsableName name) : ParameterText name name
  | typed {name type : String} (hname : UsableName name) (htype : TypeText type) :
    ParameterText name (name ++ ":" ++ type)

/-- The type of a result by the types of the returned values. -/
inductive ResultText : List String → String → Prop
  | none : ResultText [] "None"
  | single {type : String} (htype : TypeText type) : ResultText [type] type
  | tuple {types : List String} (hseveral : 2 ≤ types.length)
    (htypes : ∀ type ∈ types, TypeText type) :
    ResultText types ("Tuple[" ++ ",".intercalate types ++ "]")

/-- The text opens with one line for the definition: its name, its parameters, each with a name of
its own, and the type of its result, which is well formed unless a returned value lacks a type. -/
structure Buffer.Defines (text : Buffer) (indent : Indent) (depth : Nat) (name : String)
    (parameters returns : List String) (result : String) : Prop where
  usable : UsableName name
  distinct : parameters.Nodup
  written : ∃ entries rest, List.Forall₂ ParameterText parameters entries ∧
    text.entries = (indent.margin depth ++ ("def " ++ name ++ "(" ++ ", ".intercalate entries
      ++ ") -> " ++ result ++ ":")) :: rest
  result : ResultText returns result ↔ "" ∉ returns

/-- A type as it is written for a slot: missing or well formed. -/
def TypeOrNone (type : String) : Prop := type = "" ∨ TypeText type

theorem TypeOrNone.oneLine {type : String} (h : TypeOrNone type) : OneLine type := by
  obtain rfl | htype := h
  · decide
  · exact htype.oneLine

theorem ResultText.typeText {types : List String} {result : String} (h : ResultText types result) :
    ∀ type ∈ types, TypeText type := by
  cases h with
  | none => exact fun _ hm => nomatch hm
  | single htype => exact List.forall_mem_singleton.mpr htype
  | tuple _ htypes => exact htypes

theorem UsableName.flush {name : String} (h : UsableName name) : Flush name :=
  flush_of_isIdentifier h.2

theorem OneLine.intercalate {separator : String} (hseparator : OneLine separator)
    {texts : List String} (htexts : ∀ text ∈ texts, OneLine text) :
    OneLine (separator.intercalate texts) := by
  induction texts with
  | nil => exact fun _ hc => nomatch hc
  | cons text rest ih =>
    obtain ⟨htext, hrest⟩ := List.forall_mem_cons.mp htexts
    cases rest with
    | nil => simpa using htext
    | cons next more =>
      rw [String.intercalate_cons_cons]
      exact (htext.append hseparator).append (ih hrest)

theorem ParameterText.oneLine {name text : String} (h : ParameterText name text) :
    OneLine text := by
  cases h with
  | bare hname => exact hname.flush.oneLine
  | typed hname htype =>
    exact (hname.flush.oneLine.append (by decide : OneLine ":")).append htype.oneLine

namespace Function

/-- The names can be used, those of the parameters are distinct, and no type is ill formed. -/
structure WellFormed (f : Function) : Prop where
  name : UsableName f.name
  parameters : ∀ slot ∈ f.parameters, UsableName slot.name ∧ TypeOrNone slot.annotation
  distinct : (f.parameters.map Slot.name).Nodup
  returns : ∀ slot ∈ f.returns, TypeOrNone slot.annotation

namespace WellFormed

variable {f : Function} (h : f.WellFormed)

include h

/-- The result is well formed exactly if no returned value lacks its type. -/
theorem resultText_iff :
    ResultText (f.returns.map Slot.annotation) f.returnAnnotation ↔
      "" ∉ f.returns.map Slot.annotation := by
  refine ⟨fun h hmissing => (h.typeText "" hmissing).ne_empty rfl, fun hall => ?_⟩
  have htyped : ∀ slot ∈ f.returns, TypeText slot.annotation := fun slot hslot =>
    (h.returns slot hslot).resolve_left fun hnone => hall (List.mem_map.mpr ⟨slot, hslot, hnone⟩)
  unfold returnAnnotation
  split
  · rename_i hreturns
    rw [hreturns]
    exact .none
  · rename_i slot hreturns
    rw [hreturns]
    exact .single (htyped slot (hreturns ▸ List.mem_cons_self))
  · rename_i hnil hsingle
    refine .tuple ?_ (List.forall_mem_map.mpr htyped)
    match hreturns : f.returns with
    | [] => exact absurd hreturns hnil
    | [slot] => exact absurd hreturns (hsingle slot)
    | _ :: _ :: _ => simp

theorem oneLine_returnAnnotation : OneLine f.returnAnnotation := by
  unfold returnAnnotation
  split
  · decide
  · rename_i slot hreturns
    exact (h.returns slot (hreturns ▸ List.mem_cons_self)).oneLine
  · have hlist : OneLine (",".intercalate (f.returns.map Slot.annotation)) :=
      OneLine.intercalate (by decide)
        (List.forall_mem_map.mpr fun slot hslot => (h.returns slot hslot).oneLine)
    exact ((by decide : OneLine "Tuple[").append hlist).append (by decide : OneLine "]")

theorem parameterText {slot : Slot} (hslot : slot ∈ f.parameters) :
    ParameterText slot.name slot.asParameter := by
  obtain ⟨hname, htype⟩ := h.parameters slot hslot
  unfold Slot.asParameter Slot.annotated
  split_ifs with hnone
  · exact .bare hname
  · exact .typed hname (htype.resolve_left hnone)

theorem flush_signature : Flush f.signature := by
  have hopening : Flush "def " := ⟨by decide, 'd', ['e', 'f', ' '], rfl, by decide⟩
  have hlist : OneLine f.parameterList :=
    OneLine.intercalate (by decide)
      (List.forall_mem_map.mpr fun slot hslot => (h.parameterText hslot).oneLine)
  have houtline : OneLine f.outline :=
    (((h.name.flush.oneLine.append (by decide : OneLine "(")).append hlist).append
      (by decide : OneLine ") -> ")).append h.oneLine_returnAnnotation
  exact (hopening.append houtline).append (by decide : OneLine ":")

/-- The text of a function opens with its signature. -/
theorem defines_close (depth : Nat) (indent : Indent) (inner : Scope) :
    (f.close depth indent inner).Defines indent depth f.name (f.parameters.map Slot.name)
      (f.returns.map Slot.annotation) f.returnAnnotation where
  usable := h.name
  distinct := h.distinct
  result := h.resultText_iff
  written := by
    have hentries : List.Forall₂ ParameterText (f.parameters.map Slot.name)
        (f.parameters.map Slot.asParameter) := by
      rw [List.forall₂_map_left_iff, List.forall₂_map_right_iff]
      exact List.forall₂_same.mpr fun slot hslot => h.parameterText hslot
    obtain ⟨rest, hrest⟩ := f.opensWith_close depth indent inner
    rw [indentedLines_of_flush h.flush_signature] at hrest
    refine ⟨_, rest, hentries, hrest.symm.trans ?_⟩
    simp [signature, outline, parameterList, String.append_assoc]

end WellFormed

end Function

/-! ## The definitions of a plan -/

theorem forall_slots {values : List ValueDef} (hnames : ∀ value ∈ values, UsableName value.name)
    (htypes : ∀ value ∈ values, TypeOrNone value.annotation) :
    ∀ slot ∈ values.map ValueDef.slot, UsableName slot.name ∧ TypeOrNone slot.annotation :=
  List.forall_mem_map.mpr fun value hvalue => ⟨hnames value hvalue, htypes value hvalue⟩

theorem map_annotation_slots (values : List ValueDef) :
    (values.map ValueDef.slot).map Slot.annotation = values.map ValueDef.annotation := by
  simp [ValueDef.slot, Slot.annotation]

namespace FunctionDef

/-- The types of the parameters and of the returned values. -/
def slotTypes (f : FunctionDef) : List String := (f.params ++ f.returns).map ValueDef.annotation

def returnTypes (f : FunctionDef) : List String := f.returns.map ValueDef.annotation

variable {f : FunctionDef} (hnamed : f.WellNamed) (hname : UsableName f.name)
  (htypes : ∀ type ∈ f.slotTypes, TypeOrNone type)

include hnamed hname htypes

theorem wellFormed_declaration : f.declaration.WellFormed where
  name := hname
  parameters := forall_slots (List.forall_mem_map.mp hnamed.parameters) fun _ hvalue =>
    htypes _ (List.mem_map_of_mem (List.mem_append_left _ hvalue))
  distinct := by
    rw [declaration, map_name_slots]
    exact hnamed.distinct
  returns := fun slot hslot => (forall_slots hnamed.returns (fun _ hvalue =>
    htypes _ (List.mem_map_of_mem (List.mem_append_right _ hvalue))) slot hslot).2

theorem wellFormed_method (hreceiver : receiverName ∉ f.parameterNames) :
    f.declaration.withReceiver.WellFormed := by
  obtain ⟨-, hparameters, hdistinct, hreturns⟩ := wellFormed_declaration hnamed hname htypes
  rw [declaration, map_name_slots] at hdistinct
  rw [withReceiver_declaration]
  refine ⟨hname, List.forall_mem_cons.mpr ⟨⟨by decide, .inl rfl⟩, hparameters⟩, ?_, hreturns⟩
  rw [List.map_cons, map_name_slots]
  exact List.nodup_cons.mpr ⟨hreceiver, hdistinct⟩

theorem defines_function (indent : Indent) :
    (f.declaration.withStatements 0 indent f.body).Defines indent 0 f.name f.parameterNames
      f.returnTypes f.declaration.returnAnnotation := by
  have hdefines := (wellFormed_declaration hnamed hname htypes).defines_close 0 indent
    (emitBody f.body (f.declaration.block 0 indent))
  rw [declaration, map_name_slots, map_annotation_slots] at hdefines
  exact hdefines

theorem defines_method (hreceiver : receiverName ∉ f.parameterNames) (indent : Indent) :
    (f.declaration.withReceiver.withStatements 1 indent f.body).Defines indent 1 f.name
      (receiverName :: f.parameterNames) f.returnTypes f.declaration.returnAnnotation := by
  have hdefines := (wellFormed_method hnamed hname htypes hreceiver).defines_close 1 indent
    (emitBody f.body (f.declaration.withReceiver.block 1 indent))
  -- in this form the parameters are a receiver in front of a list of named slots
  rw [withReceiver_declaration] at hdefines ⊢
  rw [List.map_cons, map_name_slots, declaration, map_annotation_slots] at hdefines
  exact hdefines

end FunctionDef

/-- The types of the fields and of the slots of the methods. -/
def ClassDef.slotTypes (c : ClassDef) : List String :=
  c.fields.map ValueDef.annotation ++ c.methods.flatMap FunctionDef.slotTypes

/-- The types of all slots in definitions. -/
def Plan.slotTypes (plan : Plan) : List String :=
  plan.functions.flatMap FunctionDef.slotTypes ++ plan.classes.flatMap ClassDef.slotTypes

/-- The constructor and the methods of a class open with well-formed lines, up to missing types of
returned values. -/
structure ClassDef.Defined (indent : Indent) (c : ClassDef) (cls : ClassBuild) : Prop where
  constructor : ∃ text, cls.renderConstructor.result = .ok text ∧
    text.Defines indent 1 "__init__" (receiverName :: c.fieldNames) [] "None"
  methods : List.Forall₂
    (fun m text => text.Defines indent 1 m.name (receiverName :: m.parameterNames) m.returnTypes
      m.declaration.returnAnnotation)
    c.methods cls.methods

namespace ClassDef

variable {c : ClassDef}

theorem names_constructor (c : ClassDef) (indent : Indent) :
    (c.lowered indent).constructor.parameters.map Slot.name = receiverName :: c.fieldNames :=
  congrArg (List.cons receiverName) (map_name_slots c.fields)

theorem wellFormed_constructor (hnamed : c.WellNamed)
    (htypes : ∀ type ∈ c.slotTypes, TypeOrNone type) (indent : Indent) :
    (c.lowered indent).constructor.WellFormed where
  name := (by decide : UsableName "__init__")
  parameters := List.forall_mem_cons.mpr ⟨⟨by decide, .inl rfl⟩,
    forall_slots (List.forall_mem_map.mp hnamed.fields) fun _ hvalue =>
      htypes _ (List.mem_append_left _ (List.mem_map_of_mem hvalue))⟩
  distinct := by
    rw [names_constructor]
    exact List.nodup_cons.mpr ⟨hnamed.noReceiver, hnamed.distinct⟩
  returns := fun _ hslot => nomatch hslot

theorem defined_lowered (hnamed : c.WellNamed) (htypes : ∀ type ∈ c.slotTypes, TypeOrNone type)
    (indent : Indent) : c.Defined indent (c.lowered indent) where
  constructor := by
    have hdistinct := hnamed.distinct_lowered indent
    have hdefines := (wellFormed_constructor hnamed htypes indent).defines_close 1 indent
    rw [names_constructor] at hdefines
    exact ⟨_, hdistinct.result_renderConstructor, hdefines _⟩
  methods := List.forall₂_map_right_iff.mpr (List.forall₂_same.mpr fun m hm =>
    FunctionDef.defines_method (hnamed.methods m hm) (hnamed.methodNames m hm)
      (fun type htype => htypes type
        (List.mem_append_right _ (List.mem_flatMap.mpr ⟨m, hm, htype⟩)))
      (hnamed.noReceiverParameter m hm) indent)

end ClassDef

/-- Every function, method and constructor of an accepted plan opens with one line for its
definition. The name is usable; each parameter is a usable name or one with a type, and no two have
the same name; a method and the constructor have the receiver in front. The type of the result is
well formed exactly if no returned value lacks its type. -/
theorem definitions_open_with_signatures {plan : Plan} {source : Source}
    (h : plan.validate source = .ok ()) (htypes : ∀ type ∈ plan.slotTypes, TypeOrNone type)
    (options : DocumentOptions) (sink : Option Sink) (target : Option Path) :
    let applied := plan.apply { Document.create options sink with target }
    applied.error = none ∧
    List.Forall₂ (fun f text => text.Defines options.indent 0 f.name f.parameterNames f.returnTypes
        f.declaration.returnAnnotation)
      plan.functions applied.state.functions ∧
    List.Forall₂ (ClassDef.Defined options.indent) plan.classes applied.state.classes := by
  have hnamed := Plan.wellNamed_of_validate h
  apply Plan.forall₂_applied h
  · intro f hf
    have hslots (type : String) (htype : type ∈ f.slotTypes) : TypeOrNone type :=
      htypes type (List.mem_append_left _ (List.mem_flatMap.mpr ⟨f, hf, htype⟩))
    exact FunctionDef.defines_function (hnamed.functions f hf) (hnamed.functionNames f hf) hslots
      options.indent
  · intro c hc
    have hslots (type : String) (htype : type ∈ c.slotTypes) : TypeOrNone type :=
      htypes type (List.mem_append_right _ (List.mem_flatMap.mpr ⟨c, hc, htype⟩))
    exact ClassDef.defined_lowered (hnamed.classes c hc) hslots options.indent

theorem definitions_open_with_signatures_box :
    Cli.boxPlan.validate { text := "", filename := "box.json" } = .ok () ∧
    (∀ type ∈ Cli.boxPlan.slotTypes, TypeOrNone type) ∧
    let applied := Cli.boxPlan.apply (.create {} none)
    applied.error = none ∧
    List.Forall₂ (fun f text => text.Defines .standard 0 f.name f.parameterNames f.returnTypes
        f.declaration.returnAnnotation)
      Cli.boxPlan.functions applied.state.functions ∧
    List.Forall₂ (ClassDef.Defined .standard) Cli.boxPlan.classes applied.state.classes := by
  have hvalid : Cli.boxPlan.validate { text := "", filename := "box.json" } = .ok () := by rfl
  have hint : TypeText "int" := ⟨⟨by decide, 'i', ['n', 't'], rfl, by decide⟩, by decide⟩
  have hstr : TypeText "str" := ⟨⟨by decide, 's', ['t', 'r'], rfl, by decide⟩, by decide⟩
  have htypes : ∀ type ∈ Cli.boxPlan.slotTypes, TypeOrNone type := by
    have hall : Cli.boxPlan.slotTypes = ["int", "", "int", "str", "int", ""] := rfl
    rw [hall]
    simp [TypeOrNone, hint, hstr]
  exact ⟨hvalid, htypes, definitions_open_with_signatures hvalid htypes {} none none⟩

/-- A returned value without a type leaves nothing between the arrow and the colon. -/
theorem untyped_return_leaves_gap :
    let plan : Plan := { functions := [{ name := "f", returns := [⟨"r", ""⟩] }] }
    plan.validate { text := "", filename := "gap.json" } = .ok () ∧
    (∀ type ∈ plan.slotTypes, type = "") ∧
    (plan.functions.map fun f => f.declaration.returnAnnotation) = [""] ∧
    plan.render = .ok "\n\ndef f() -> :\n    return r\n\n" := by
  intro plan
  exact ⟨by rfl, by decide, by decide, by rfl⟩

end PlanScribe
