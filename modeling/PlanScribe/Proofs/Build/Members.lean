import PlanScribe.Build.ClassBuild
import Mathlib.Data.List.Nodup

/-!
# Functions and the members of classes

Rendering a function fails for a repeated parameter or because its body fails, and for no other
reason. The fields of a class keep names that differ from each other and from the receiver's,
whatever is declared and whether it succeeds or not; so the constructor can always be rendered.
-/
namespace PlanScribe

/-! ## Repetitions -/

theorem firstRepeatedAfter_eq_none_iff (seen names : List String) :
    firstRepeatedAfter seen names = none ↔ names.Nodup ∧ ∀ name ∈ names, name ∉ seen := by
  induction names generalizing seen with
  | nil => simp [firstRepeatedAfter]
  | cons name rest ih =>
    by_cases hs : name ∈ seen
    · simp [firstRepeatedAfter, hs]
    · rw [firstRepeatedAfter, if_neg (by simpa using hs), ih, List.nodup_cons,
        List.forall_mem_cons]
      constructor
      · rintro ⟨hnodup, hfree⟩
        exact ⟨⟨fun hm => hfree name hm List.mem_cons_self, hnodup⟩, hs,
          fun other hm ho => hfree other hm (List.mem_cons_of_mem _ ho)⟩
      · rintro ⟨⟨hname, hnodup⟩, -, hfree⟩
        refine ⟨hnodup, fun other hm ho => ?_⟩
        rcases List.mem_cons.mp ho with rfl | ho
        · exact hname hm
        · exact hfree other hm ho

theorem firstRepeated_eq_none_iff (names : List String) :
    firstRepeated names = none ↔ names.Nodup := by
  simp [firstRepeated, firstRepeatedAfter_eq_none_iff]

/-! ## Rendering a function -/

namespace Function

variable (f : Function) (depth : Nat) (indent : Indent)

/-- The scope into which the body of a function is written: it holds the documentation. -/
def block : Scope := (Scope.atDepth depth indent).child.writeDoc (f.doc.getD "")

/-- The text of a function from its written block. -/
def close (inner : Scope) : Buffer :=
  (((Scope.atDepth depth indent).write f.signature).splice (inner.write f.returnStatement)).buffer

/-- The error for the first repeated parameter. -/
def repetition? : Option BuildError := f.repeatedParameter?.map (.duplicateParameter f.name)

theorem error?_render (body : BlockBody) :
    (f.render depth indent body).error? = f.repetition?.or (body (f.block depth indent)).error := by
  unfold render repetition?
  cases f.repeatedParameter? with
  | some name => rfl
  | none => simp [block]

theorem result_render_of_ok (body : BlockBody) (h : f.repeatedParameter? = none)
    (hbody : (body (f.block depth indent)).error = none) :
    (f.render depth indent body).result
      = .ok (f.close depth indent (body (f.block depth indent)).state) := by
  unfold render
  rw [h]
  change ((body (f.block depth indent)).attempt.finish _ _).result = _
  rw [Attempt.result_finish, Run.result_attempt_of_ok _ hbody]
  rfl

theorem result_render_of_error?_eq_none (body : BlockBody)
    (h : (f.render depth indent body).error? = none) :
    (f.render depth indent body).result
      = .ok (f.close depth indent (body (f.block depth indent)).state) := by
  rw [f.error?_render, Option.or_eq_none_iff] at h
  exact f.result_render_of_ok depth indent body (Option.map_eq_none_iff.mp h.1) h.2

end Function

/-! ## Fields that stay apart -/

namespace ClassBuild

variable {cls : ClassBuild}

/-- No two parameters of the constructor have the same name. -/
def Distinct (cls : ClassBuild) : Prop := (receiverName :: cls.fieldNames).Nodup

theorem error_addField (cls : ClassBuild) (field : Slot) :
    (cls.addField field).error
      = if field.name = receiverName ∨ field.name ∈ cls.fieldNames then
          some (.duplicateField cls.name field.name)
        else none := by
  unfold addField
  by_cases h : field.name = receiverName ∨ field.name ∈ cls.fieldNames <;> simp [h]

theorem state_addField (cls : ClassBuild) (field : Slot) :
    (cls.addField field).state
      = if field.name = receiverName ∨ field.name ∈ cls.fieldNames then cls
        else { cls with fields := cls.fields ++ [field] } := by
  unfold addField
  by_cases h : field.name = receiverName ∨ field.name ∈ cls.fieldNames <;> simp [h]

theorem state_addFields (cls : ClassBuild) (fields : List Slot)
    (h : (cls.addFields fields).error = none) :
    (cls.addFields fields).state = { cls with fields := cls.fields ++ fields } := by
  induction fields generalizing cls with
  | nil => simp [addFields]
  | cons field rest ih =>
    rw [addFields, Run.error_andThen, Option.or_eq_none_iff] at h
    rw [addFields, Run.state_andThen, if_pos h.1, ih _ h.2, state_addField, if_neg]
    · simp
    · intro hc
      rw [error_addField, if_pos hc] at h
      exact absurd h.1 (by simp)

theorem Distinct.addField (h : cls.Distinct) (field : Slot) :
    (cls.addField field).state.Distinct := by
  rw [state_addField]
  split_ifs with hf
  · exact h
  · rw [not_or] at hf
    have hnew : (receiverName :: cls.fieldNames ++ [field.name]).Nodup := by
      rw [List.nodup_append]
      refine ⟨h, List.nodup_singleton _, ?_⟩
      intro name hm other ho he
      obtain rfl := List.mem_singleton.mp ho
      subst he
      rcases List.mem_cons.mp hm with hr | hr
      · exact hf.1 hr
      · exact hf.2 hr
    simpa [Distinct, fieldNames] using hnew

theorem Distinct.addFields (h : cls.Distinct) (fields : List Slot) :
    (cls.addFields fields).state.Distinct := by
  induction fields generalizing cls with
  | nil => exact h
  | cons field rest ih =>
    exact Run.state_andThen_of_kept _ _ (h.addField field) fun _ h => ih h

/-- Committing something that leaves the fields alone keeps them apart. -/
theorem Distinct.commit {α : Type} (h : cls.Distinct) (attempt : Attempt α)
    (record : α → ClassBuild) (hrecord : ∀ a, (record a).fields = cls.fields) :
    (attempt.commit cls record).state.Distinct := by
  cases hr : attempt.result with
  | ok value =>
    rw [attempt.state_commit_of_ok cls record hr, Distinct, fieldNames, hrecord]
    exact h
  | error e =>
    rw [attempt.state_commit_of_error cls record (e := e) (by simp [Attempt.error?, hr])]
    exact h

theorem Distinct.addMethod (h : cls.Distinct) (f : Function) (body : BlockBody) :
    (cls.addMethod f body).state.Distinct :=
  h.commit _ _ fun _ => rfl

theorem Distinct.addSetup (h : cls.Distinct) (body : BlockBody) :
    (cls.addSetup body).state.Distinct :=
  h.commit _ _ fun _ => rfl

/-- What the constructor of a class writes after its documentation: the fields and the setup. -/
def storing (cls : ClassBuild) (block : Scope) : Scope :=
  (block.writeAll (cls.fields.map storeField)).append cls.setup

/-- The text of the class, if its constructor can be rendered. -/
def assembled (cls : ClassBuild) : Buffer :=
  cls.assemble (cls.constructor.close (cls.depth + 1) cls.indent
    (cls.storing (cls.constructor.block (cls.depth + 1) cls.indent)))

theorem Distinct.result_renderConstructor (h : cls.Distinct) :
    cls.renderConstructor.result = .ok (cls.constructor.close (cls.depth + 1) cls.indent
      (cls.storing (cls.constructor.block (cls.depth + 1) cls.indent))) := by
  have hparams : cls.constructor.repeatedParameter? = none := by
    rw [Function.repeatedParameter?, firstRepeated_eq_none_iff]
    exact h
  exact Function.result_render_of_ok _ _ _ _ hparams rfl

theorem Distinct.result_render (h : cls.Distinct) : cls.render.result = .ok cls.assembled := by
  rw [render, Attempt.result_finish, h.result_renderConstructor]
  rfl

end ClassBuild

end PlanScribe
