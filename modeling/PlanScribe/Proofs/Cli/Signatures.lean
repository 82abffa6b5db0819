import PlanScribe.Cli.Report
import PlanScribe.Proofs.Plan.Lowering

/-!
# Signatures in the report

The report on a plan describes its definitions on a path of its own: it puts the receiver in front
of a parameter list as text, where lowering puts it in front of the parameters. The two can only
differ if a parameter is written as the empty text, and no parameter of an accepted plan is. So the
report shows the signatures that are written for the plan, one on each of its lines.
-/
namespace PlanScribe

theorem UsableName.ne_empty {name : String} (h : UsableName name) : name ≠ "" := by
  rintro rfl
  exact not_isIdentifier_nil h.2

theorem Slot.asParameter_ne_empty {slot : Slot} (h : slot.name ≠ "") : slot.asParameter ≠ "" := by
  unfold asParameter annotated
  split
  · exact h
  · simp [String.append_eq_empty_iff, h]

/-- The text starts with the lines of the signature. -/
def Buffer.OpensWith (text : Buffer) (indent : Indent) (depth : Nat) (signature : String) : Prop :=
  indentedLines indent depth signature <+: text.entries

theorem Function.opensWith_close (f : Function) (depth : Nat) (indent : Indent) (inner : Scope) :
    (f.close depth indent inner).OpensWith indent depth f.signature := by
  rw [Buffer.OpensWith, close, Scope.splice_entries, Scope.write_entries]
  exact List.prefix_append _ _

namespace Cli

/-! ## Outlines of methods -/

section

variable {f : Function}

theorem parameterList_eq_empty_iff (h : ∀ slot ∈ f.parameters, slot.name ≠ "") :
    f.parameterList = "" ↔ f.parameters = [] := by
  unfold Function.parameterList
  cases hp : f.parameters with
  | nil => simp
  | cons slot rest =>
    have hslot : slot.asParameter ≠ "" :=
      Slot.asParameter_ne_empty (h slot (hp ▸ List.mem_cons_self))
    cases rest with
    | nil => simpa using hslot
    | cons next rest =>
      simp [String.intercalate_cons_cons, String.append_eq_empty_iff, hslot]

/-- With names for all parameters, the receiver in front of their text is the first parameter. -/
theorem methodOutline_eq (h : ∀ slot ∈ f.parameters, slot.name ≠ "") :
    methodOutline f = { f with parameters := .receiver :: f.parameters : Function }.outline := by
  have hempty := parameterList_eq_empty_iff h
  simp only [methodOutline, Function.outline]
  cases hp : f.parameters with
  | nil =>
    rw [if_pos (hempty.mpr hp)]
    rfl
  | cons slot rest =>
    have hne : f.parameterList ≠ "" := by
      rw [Ne, hempty, hp]
      simp
    have hlist : ({ f with parameters := .receiver :: slot :: rest } : Function).parameterList
        = receiverName ++ ", " ++ f.parameterList := by
      rw [Function.parameterList, Function.parameterList, hp, List.map_cons, List.map_cons,
        String.intercalate_cons_cons]
      rfl
    rw [if_neg hne, hlist]
    rfl

end

-- A parameter without a name, which no accepted plan has, tells the two apart.
example : methodOutline { name := "f", parameters := [.named "" ""] } = "f(self) -> None" ∧
    ({ name := "f", parameters := [.receiver, .named "" ""] } : Function).outline
      = "f(self, ) -> None" := by
  decide +kernel

theorem name_slot_ne_empty {values : List ValueDef}
    (h : ∀ name ∈ values.map ValueDef.name, UsableName name) :
    ∀ slot ∈ values.map ValueDef.slot, slot.name ≠ "" := by
  rw [List.forall_mem_map] at h ⊢
  exact fun value hm => (h value hm).ne_empty

theorem methodOutline_declaration {m : FunctionDef} (h : m.WellNamed) :
    methodOutline m.declaration = m.declaration.withReceiver.outline := by
  rw [methodOutline_eq (name_slot_ne_empty h.parameters), m.withReceiver_declaration]
  rfl

theorem methodOutline_constructorOf {c : ClassDef} (h : c.WellNamed) (indent : Indent) :
    methodOutline (constructorOf c) = (c.lowered indent).constructor.outline :=
  methodOutline_eq (name_slot_ne_empty h.fields)

/-! ## Lines of the report -/

/-- Behind the mark of its list, the line has what stands in the signature between `def` and the
colon. -/
def Shows (mark line signature : String) : Prop :=
  ∃ outline, line = mark ++ outline ∧ signature = "def " ++ outline ++ ":"

/-- The lines about a class agree with the class that is built: after its own line each line shows
the signature of a definition, first that of the constructor, and the texts of these definitions
open with what is shown. -/
structure ClassShown (indent : Indent) (c : ClassDef) (cls : ClassBuild) : Prop where
  lines : ∃ constructor methods,
    classLines c = ("  - " ++ cls.name ++ " (" ++ counted cls.fields.length "field" "s" ++ ")")
      :: constructor :: methods ∧
    Shows "      " constructor cls.constructor.signature ∧
    List.Forall₂ (fun line m => Shows "      " line m.declaration.withReceiver.signature)
      methods c.methods
  constructor : ∃ text, cls.renderConstructor.result = .ok text ∧
    text.OpensWith indent 1 cls.constructor.signature
  methods : List.Forall₂
    (fun m text => text.OpensWith indent 1 m.declaration.withReceiver.signature)
    c.methods cls.methods

theorem classLines_eq {c : ClassDef} (h : c.WellNamed) (indent : Indent) :
    classLines c
      = ("  - " ++ c.name ++ " (" ++ counted (c.lowered indent).fields.length "field" "s" ++ ")")
        :: ("      " ++ (c.lowered indent).constructor.outline)
        :: c.methods.map fun m => "      " ++ m.declaration.withReceiver.outline := by
  have hfields : (c.lowered indent).fields.length = c.fields.length := List.length_map _
  have hmethods : c.methods.map (fun m => methodOutline m.declaration)
      = c.methods.map fun m => m.declaration.withReceiver.outline :=
    List.map_congr_left fun m hm => methodOutline_declaration (h.methods m hm)
  rw [classLines, classOutlines, methodOutline_constructorOf h indent, hmethods, hfields,
    List.map_cons, List.map_map]
  rfl

theorem classShown_lowered {c : ClassDef} (h : c.WellNamed) (indent : Indent) :
    ClassShown indent c (c.lowered indent) where
  lines := by
    refine ⟨_, _, classLines_eq h indent, ⟨_, rfl, rfl⟩, ?_⟩
    exact List.forall₂_map_left_iff.mpr (List.forall₂_same.mpr fun m _ => ⟨_, rfl, rfl⟩)
  constructor := by
    have hdistinct := h.distinct_lowered indent
    exact ⟨_, hdistinct.result_renderConstructor, Function.opensWith_close _ _ _ _⟩
  methods := List.forall₂_map_right_iff.mpr
    (List.forall₂_same.mpr fun m _ => Function.opensWith_close _ _ _ _)

/-- In the report on an accepted plan every function, class, constructor and method has one line, in
the order of declaration. The line of a definition shows its signature, and the text that lowering
writes for it, into any fresh document, opens with this signature. -/
theorem report_shows_written_signatures {plan : Plan} {source : Source}
    (h : plan.validate source = .ok ()) (options : DocumentOptions) (sink : Option Sink)
    (target : Option Path) :
    let applied := plan.apply { Document.create options sink with target }
    applied.error = none ∧
    List.Forall₂ (fun line f => Shows "  - " line f.declaration.signature)
      (functionLines plan) plan.functions ∧
    List.Forall₂ (fun f text => text.OpensWith options.indent 0 f.declaration.signature)
      plan.functions applied.state.functions ∧
    List.Forall₂ (ClassShown options.indent) plan.classes applied.state.classes ∧
    ∀ path, checkReport path plan = printed
      (["✓ " ++ path ++ " is valid", "",
          "Imports: " ++ toString (plan.imports.length + plan.fromImports.length),
          "Globals: " ++ toString plan.globals.length]
        ++ listed "Functions" plan.functions.length (functionLines plan)
        ++ listed "Classes" plan.classes.length (plan.classes.flatMap classLines)) := by
  have hnamed := Plan.wellNamed_of_validate h
  have hopen : { Document.create options sink with target }.closed = false := rfl
  obtain ⟨herror, hstate⟩ :=
    plan.apply_of_not_clashing (Plan.not_clashing_of_wellNamed hnamed) hopen
  intro applied
  refine ⟨herror, ?_, ?_, ?_, fun path => rfl⟩
  · rw [functionLines, List.forall₂_map_left_iff]
    exact List.forall₂_same.mpr fun f _ => ⟨_, rfl, rfl⟩
  · rw [hstate]
    refine List.forall₂_map_right_iff.mpr (List.forall₂_same.mpr fun f _ => ?_)
    exact f.declaration.opensWith_close 0 options.indent _
  · rw [hstate]
    refine List.forall₂_map_right_iff.mpr (List.forall₂_same.mpr fun c hc => ?_)
    exact classShown_lowered (hnamed.classes c hc) options.indent

/-- A function and a class with annotated and bare slots, and a method without parameters. -/
def boxPlan : Plan where
  functions :=
    [{ name := "area"
       params := [⟨"w", "int"⟩, ⟨"h", ""⟩]
       returns := [⟨"a", "int"⟩, ⟨"b", "str"⟩] }]
  classes :=
    [{ name := "Box", fields := [⟨"w", "int"⟩, ⟨"h", ""⟩], methods := [{ name := "clear" }] }]

theorem report_shows_written_signatures_box :
    boxPlan.validate { text := "", filename := "box.json" } = .ok () ∧
    functionLines boxPlan = ["  - area(w:int, h) -> Tuple[int,str]"] ∧
    boxPlan.classes.map classLines = [["  - Box (2 fields)",
      "      __init__(self, w:int, h) -> None", "      clear(self) -> None"]] ∧
    let applied := boxPlan.apply (.create {} none)
    applied.error = none ∧
      List.Forall₂ (ClassShown .standard) boxPlan.classes applied.state.classes := by
  have hvalid : boxPlan.validate { text := "", filename := "box.json" } = .ok () := by rfl
  obtain ⟨herror, -, -, hclasses, -⟩ := report_shows_written_signatures hvalid {} none none
  exact ⟨hvalid, by decide +kernel, by decide +kernel, herror, hclasses⟩

end Cli

end PlanScribe
