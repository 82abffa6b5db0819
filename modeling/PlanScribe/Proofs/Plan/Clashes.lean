import PlanScribe.Plan.Lower
import PlanScribe.Proofs.Build.Members
import PlanScribe.Proofs.Plan.Rules

/-!
# Clashing declarations

Lowering a plan can fail in one way only: a field or a parameter clashes with one declared before
it, or with the receiver. The fields and parameters of a plan are listed in the order in which
lowering meets them; the error to come is that of the first that clashes. A plan that passes its
checks declares nothing that clashes.
-/
namespace PlanScribe

/-! ## Declarations -/

/-- What a field or a parameter is declared for. -/
inductive Owner
  | fieldsOf (className : String)
  | parametersOf (function : String)
  | methodParametersOf (method : String)

namespace Owner

/-- The receiver stands beside the fields of a class and the parameters of a method. -/
def besideReceiver : Owner → Bool
  | fieldsOf _ | methodParametersOf _ => true
  | parametersOf _ => false

/-- The error for a name that cannot be declared. -/
def error : Owner → String → BuildError
  | fieldsOf className, name => .duplicateField className name
  | parametersOf function, name | methodParametersOf function, name =>
    .duplicateParameter function name

end Owner

/-- A field or parameter with the names declared before it for the same owner. -/
structure Declaration where
  owner : Owner
  earlier : List String
  name : String

namespace Declaration

def Clashes (d : Declaration) : Prop :=
  d.owner.besideReceiver = true ∧ d.name = receiverName ∨ d.name ∈ d.earlier

instance : DecidablePred Clashes := fun _ => inferInstanceAs (Decidable (_ ∨ _))

def error (d : Declaration) : BuildError := d.owner.error d.name

end Declaration

/-- The declarations of a list of names, when the names in `earlier` are declared already. -/
def declarations (owner : Owner) (earlier names : List String) : List Declaration :=
  (withEarlier earlier names).map fun (earlier, name) => { owner, earlier, name }

theorem declarations_cons (owner : Owner) (earlier : List String) (name : String)
    (rest : List String) :
    declarations owner earlier (name :: rest)
      = { owner, earlier, name } :: declarations owner (earlier ++ [name]) rest := rfl

def ClassDef.declarations (c : ClassDef) : List Declaration :=
  PlanScribe.declarations (.fieldsOf c.name) [] c.fieldNames
  ++ c.methods.flatMap fun m =>
    PlanScribe.declarations (.methodParametersOf m.name) [] m.parameterNames

/-- The fields and parameters of a plan in the order of lowering: the classes come before the
functions, and in a class its fields before its methods. -/
def Plan.declarations (plan : Plan) : List Declaration :=
  plan.classes.flatMap ClassDef.declarations
  ++ plan.functions.flatMap fun f =>
    PlanScribe.declarations (.parametersOf f.name) [] f.parameterNames

/-- Some class has a field called like the receiver or two fields of the same name, or some function
has two parameters of the same name, or some method two such or one called like the receiver. -/
def Plan.Clashing (plan : Plan) : Prop :=
  (∃ c ∈ plan.classes, receiverName ∈ c.fieldNames ∨ ¬ c.fieldNames.Nodup) ∨
  (∃ f ∈ plan.functions, ¬ f.parameterNames.Nodup) ∨
  ∃ c ∈ plan.classes, ∃ m ∈ c.methods, ¬ m.parameterNames.Nodup ∨ receiverName ∈ m.parameterNames

theorem forall_declarations (owner : Owner) (names : List String) :
    (∀ d ∈ declarations owner [] names, ¬ d.Clashes) ↔
      (owner.besideReceiver = true → receiverName ∉ names) ∧ names.Nodup := by
  rw [declarations, List.forall_mem_map, ← forall_apart]
  simp only [Declaration.Clashes, not_or, not_and, ne_eq]

theorem ClassDef.forall_declarations (c : ClassDef) :
    (∀ d ∈ c.declarations, ¬ d.Clashes) ↔
      (receiverName ∉ c.fieldNames ∧ c.fieldNames.Nodup) ∧
        ∀ m ∈ c.methods, receiverName ∉ m.parameterNames ∧ m.parameterNames.Nodup := by
  simp only [ClassDef.declarations, List.forall_mem_append, List.forall_mem_flatMap,
    PlanScribe.forall_declarations, Owner.besideReceiver, true_implies]

theorem Plan.forall_declarations (plan : Plan) :
    (∀ d ∈ plan.declarations, ¬ d.Clashes) ↔ ¬ plan.Clashing := by
  simp only [Plan.Clashing, Plan.declarations, List.forall_mem_append, List.forall_mem_flatMap,
    ClassDef.forall_declarations, PlanScribe.forall_declarations, Owner.besideReceiver,
    Bool.false_eq_true, false_implies, true_and]
  constructor
  · rintro ⟨hclasses, hfunctions⟩ (⟨c, hc, hfield⟩ | ⟨f, hf, hparameter⟩ | ⟨c, hc, m, hm, hmethod⟩)
    · obtain ⟨⟨hreceiver, hnodup⟩, -⟩ := hclasses c hc
      exact hfield.elim hreceiver (· hnodup)
    · exact hparameter (hfunctions f hf)
    · obtain ⟨hreceiver, hnodup⟩ := (hclasses c hc).2 m hm
      exact hmethod.elim (· hnodup) hreceiver
  · intro h
    refine ⟨fun c hc => ⟨⟨?_, ?_⟩, fun m hm => ⟨?_, ?_⟩⟩, fun f hf => ?_⟩
    · exact fun hfield => h (.inl ⟨c, hc, .inl hfield⟩)
    · exact not_not.mp fun hfield => h (.inl ⟨c, hc, .inr hfield⟩)
    · exact fun hmethod => h (.inr (.inr ⟨c, hc, m, hm, .inr hmethod⟩))
    · exact not_not.mp fun hmethod => h (.inr (.inr ⟨c, hc, m, hm, .inl hmethod⟩))
    · exact not_not.mp fun hparameter => h (.inr (.inl ⟨f, hf, hparameter⟩))

/-! ## The first clash -/

/-- The error of the first declaration that clashes. -/
def firstClash (ds : List Declaration) : Option BuildError :=
  (ds.find? fun d => d.Clashes).map Declaration.error

@[simp] theorem firstClash_nil : firstClash [] = none := rfl

theorem firstClash_cons (d : Declaration) (rest : List Declaration) :
    firstClash (d :: rest) = if d.Clashes then some d.error else firstClash rest := by
  by_cases h : d.Clashes <;> simp [firstClash, h]

@[simp] theorem firstClash_append (a b : List Declaration) :
    firstClash (a ++ b) = (firstClash a).or (firstClash b) := by
  simp [firstClash, List.find?_append, Option.map_or]

theorem firstClash_flatMap {α : Type} (items : List α) (f : α → List Declaration) :
    firstClash (items.flatMap f) = items.findSome? fun item => firstClash (f item) := by
  induction items with
  | nil => rfl
  | cons item rest ih =>
    rw [List.flatMap_cons, firstClash_append, ih, List.findSome?_cons]
    cases firstClash (f item) <;> rfl

theorem firstClash_eq_some_iff (ds : List Declaration) (e : BuildError) :
    firstClash ds = some e ↔
      ∃ before d after, ds = before ++ d :: after ∧ (∀ b ∈ before, ¬ b.Clashes) ∧ d.Clashes ∧
        d.error = e := by
  simp only [firstClash, Option.map_eq_some_iff, List.find?_eq_some_iff_append, decide_eq_true_eq,
    Bool.not_eq_true', decide_eq_false_iff_not]
  constructor
  · rintro ⟨d, ⟨hd, before, after, rfl, hbefore⟩, rfl⟩
    exact ⟨before, d, after, rfl, hbefore, hd, rfl⟩
  · rintro ⟨before, d, after, rfl, hbefore, hd, rfl⟩
    exact ⟨d, ⟨hd, before, after, rfl, hbefore⟩, rfl⟩

theorem firstClash_eq_none_iff (ds : List Declaration) :
    firstClash ds = none ↔ ∀ d ∈ ds, ¬ d.Clashes := by
  simp [firstClash]

theorem Plan.firstClash_eq_none_iff (plan : Plan) :
    firstClash plan.declarations = none ↔ ¬ plan.Clashing := by
  rw [PlanScribe.firstClash_eq_none_iff, plan.forall_declarations]

theorem Plan.not_clashing_of_wellNamed {plan : Plan} (h : plan.WellNamed) : ¬ plan.Clashing := by
  rintro (⟨c, hc, hfield⟩ | ⟨f, hf, hparameter⟩ | ⟨c, hc, m, hm, hmethod⟩)
  · exact hfield.elim (h.classes c hc).noReceiver (· (h.classes c hc).distinct)
  · exact hparameter (h.functions f hf).distinct
  · exact hmethod.elim (· ((h.classes c hc).methods m hm).distinct)
      ((h.classes c hc).noReceiverParameter m hm)

/-! ## What lowering meets -/

theorem firstRepeatedAfter_eq_firstClash (owner : Owner) (function : String)
    (herror : ∀ name, owner.error name = .duplicateParameter function name)
    (seen earlier names : List String)
    (hseen : ∀ name, name ∈ seen ↔
      owner.besideReceiver = true ∧ name = receiverName ∨ name ∈ earlier) :
    (firstRepeatedAfter seen names).map (.duplicateParameter function)
      = firstClash (declarations owner earlier names) := by
  induction names generalizing seen earlier with
  | nil => rfl
  | cons name rest ih =>
    have hrest : ∀ other, other ∈ name :: seen ↔
        owner.besideReceiver = true ∧ other = receiverName ∨ other ∈ earlier ++ [name] := by
      intro other
      rw [List.mem_cons, hseen, List.mem_append, List.mem_singleton]
      tauto
    have hclash : (⟨owner, earlier, name⟩ : Declaration).Clashes ↔ name ∈ seen := (hseen name).symm
    rw [declarations_cons, firstClash_cons, firstRepeatedAfter]
    by_cases hs : name ∈ seen
    · simp [hclash, hs, Declaration.error, herror]
    · rw [if_neg (by simpa using hs), if_neg (mt hclash.mp hs)]
      exact ih (name :: seen) (earlier ++ [name]) hrest

theorem map_name_slots (values : List ValueDef) :
    (values.map ValueDef.slot).map Slot.name = values.map ValueDef.name := by
  simp [ValueDef.slot, Slot.name]

namespace FunctionDef

theorem repetition?_declaration (f : FunctionDef) :
    f.declaration.repetition?
      = firstClash (declarations (.parametersOf f.name) [] f.parameterNames) := by
  rw [Function.repetition?, Function.repeatedParameter?, firstRepeated, declaration,
    map_name_slots]
  exact firstRepeatedAfter_eq_firstClash _ f.name (fun _ => rfl) [] [] _
    (by simp [Owner.besideReceiver])

theorem withReceiver_declaration (f : FunctionDef) :
    f.declaration.withReceiver
      = { f.declaration with parameters := .receiver :: f.params.map ValueDef.slot } := by
  unfold declaration Function.withReceiver
  cases f.params <;> rfl

theorem repetition?_method (f : FunctionDef) :
    f.declaration.withReceiver.repetition?
      = firstClash (declarations (.methodParametersOf f.name) [] f.parameterNames) := by
  rw [Function.repetition?, Function.repeatedParameter?, withReceiver_declaration]
  simp only [List.map_cons, map_name_slots, firstRepeated]
  exact firstRepeatedAfter_eq_firstClash _ f.name (fun _ => rfl) [receiverName] [] _
    (by simp [Owner.besideReceiver])

end FunctionDef

theorem ClassBuild.error_addFields (cls : ClassBuild) (fields : List Slot) :
    (cls.addFields fields).error
      = firstClash (declarations (.fieldsOf cls.name) cls.fieldNames (fields.map Slot.name)) := by
  induction fields generalizing cls with
  | nil => rfl
  | cons field rest ih =>
    have hclash : (⟨.fieldsOf cls.name, cls.fieldNames, field.name⟩ : Declaration).Clashes ↔
        field.name = receiverName ∨ field.name ∈ cls.fieldNames := by
      simp only [Declaration.Clashes, Owner.besideReceiver, true_and]
    rw [addFields, Run.error_andThen, ih, error_addField, state_addField, List.map_cons,
      declarations_cons, firstClash_cons]
    by_cases h : field.name = receiverName ∨ field.name ∈ cls.fieldNames
    · rw [if_pos h, if_pos (hclash.mpr h)]
      rfl
    · rw [if_neg h, if_neg h, if_neg (mt hclash.mp h), Option.none_or]
      simp only [fieldNames, List.map_append, List.map_singleton]

end PlanScribe
