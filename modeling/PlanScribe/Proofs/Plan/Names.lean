import PlanScribe.Name
import PlanScribe.Plan.Basic
import Mathlib.Data.List.Basic

/-!
# Usable names and bound names

A name can be used if it is an identifier and no reserved word; this is what a name without a fault
is. A statement binds a name itself or in one of its bodies, at any depth, and the listing of the
names bound in a body is shown to hold these names, depth first.
-/
namespace PlanScribe

/-! ## Usable names -/

/-- The texts `[A-Za-z_][A-Za-z0-9_]*`. -/
def IsIdentifier (text : List Char) : Prop :=
  ∃ c rest, text = c :: rest ∧
    (('A' ≤ c ∧ c ≤ 'Z') ∨ ('a' ≤ c ∧ c ≤ 'z') ∨ c = '_') ∧
    ∀ d ∈ rest, ('A' ≤ d ∧ d ≤ 'Z') ∨ ('a' ≤ d ∧ d ≤ 'z') ∨ ('0' ≤ d ∧ d ≤ '9') ∨ d = '_'

def UsableName (name : String) : Prop := name ∉ keywords ∧ IsIdentifier name.toList

theorem startsName_iff (c : Char) :
    startsName c = true ↔ ('A' ≤ c ∧ c ≤ 'Z') ∨ ('a' ≤ c ∧ c ≤ 'z') ∨ c = '_' := by
  delta startsName Char.isAlpha Char.isUpper Char.isLower
  simp [Char.le_def, or_assoc]

theorem continuesName_iff (c : Char) :
    continuesName c = true ↔
      ('A' ≤ c ∧ c ≤ 'Z') ∨ ('a' ≤ c ∧ c ≤ 'z') ∨ ('0' ≤ c ∧ c ≤ '9') ∨ c = '_' := by
  delta continuesName Char.isAlphanum Char.isAlpha Char.isUpper Char.isLower Char.isDigit
  simp [Char.le_def, or_assoc]

theorem isIdentifier_cons (c : Char) (rest : List Char) :
    IsIdentifier (c :: rest) ↔ startsName c = true ∧ ∀ d ∈ rest, continuesName d = true := by
  simp only [IsIdentifier, startsName_iff, continuesName_iff]
  constructor
  · rintro ⟨c', rest', h, hc, hrest⟩
    obtain ⟨rfl, rfl⟩ := List.cons.inj h
    exact ⟨hc, hrest⟩
  · rintro ⟨hc, hrest⟩
    exact ⟨c, rest, rfl, hc, hrest⟩

theorem not_isIdentifier_nil : ¬ IsIdentifier [] := by
  rintro ⟨c, rest, h, -⟩
  cases h

theorem nameFault?_eq_none_iff (name : String) : nameFault? name = none ↔ UsableName name := by
  unfold nameFault? UsableName isKeyword
  by_cases hk : name ∈ keywords
  · simp [hk]
  · cases h : name.toList with
    | nil => simp [hk, not_isIdentifier_nil]
    | cons c rest =>
      rw [isIdentifier_cons]
      by_cases hc : startsName c = true <;> simp [hk, hc]

instance (name : String) : Decidable (UsableName name) :=
  decidable_of_iff _ (nameFault?_eq_none_iff name)

/-- What is wrong with a name that cannot be used and is not reserved. -/
def misspelling (name : String) : NameFault :=
  match name.toList with
  | [] => .empty
  | c :: _ => if startsName c then .badCharacter else .badStart

theorem misspelling_ne_reserved (name : String) : misspelling name ≠ .reserved := by
  unfold misspelling
  cases name.toList with
  | nil => simp
  | cons c rest => by_cases hc : startsName c = true <;> simp [hc]

theorem nameFault?_of_not_usable {name : String} (h : ¬ UsableName name) :
    nameFault? name = some (if name ∈ keywords then .reserved else misspelling name) := by
  rw [← nameFault?_eq_none_iff] at h
  unfold nameFault? isKeyword at h ⊢
  unfold misspelling
  by_cases hk : name ∈ keywords
  · simp [hk]
  · cases hn : name.toList with
    | nil => simp [hk]
    | cons c rest =>
      by_cases hc : startsName c = true <;> simp_all

/-! ## Names bound in a body -/

/-- The statement binds the name, itself or somewhere in one of its bodies. -/
inductive Statement.Binds : Statement → String → Prop
  | target (target : ValueDef) (value : String) : Binds (.assign target value) target.name
  | counter (counter : String) (start stop : Int64) (body : List Statement) :
      Binds (.loop (.range counter start stop) body) counter
  | index (index item iterable : String) (body : List Statement) :
      Binds (.loop (.enumerate index item iterable) body) index
  | item (index item iterable : String) (body : List Statement) :
      Binds (.loop (.enumerate index item iterable) body) item
  | inLoop {head body s name} : s ∈ body → Binds s name → Binds (.loop head body) name
  | inThen {condition body branches otherwise s name} :
      s ∈ body → Binds s name → Binds (.cond condition body branches otherwise) name
  | inElif {condition body branches otherwise branch s name} :
      branch ∈ branches → s ∈ branch.body → Binds s name →
      Binds (.cond condition body branches otherwise) name
  | inElse {condition body branches last s name} :
      s ∈ last → Binds s name → Binds (.cond condition body branches (some last)) name

theorem sizeOf_lt_of_mem_bodies {s : Statement} {body : List Statement} (h : body ∈ s.bodies) :
    sizeOf body < sizeOf s := by
  cases s with
  | line text => simp [Statement.bodies] at h
  | assign target value => simp [Statement.bodies] at h
  | loop head inner =>
    obtain rfl := List.mem_singleton.mp h
    simp only [Statement.loop.sizeOf_spec]
    omega
  | cond condition inner branches otherwise =>
    simp only [Statement.bodies, List.cons_append, List.mem_cons, List.mem_append, List.mem_map,
      Option.mem_toList] at h
    simp only [Statement.cond.sizeOf_spec]
    rcases h with rfl | ⟨⟨condition', suite⟩, hb, rfl⟩ | rfl
    · omega
    · have := List.sizeOf_lt_of_mem hb
      simp only [Branch.mk.sizeOf_spec] at this ⊢
      omega
    · simp only [Option.some.sizeOf_spec]
      omega

/-- The names bound in a body, depth first: those of a statement come before those of its bodies,
and these before those of the statements after it. -/
def bindings : List Statement → List String
  | [] => []
  | s :: rest =>
    s.boundNames ++ s.bodies.attach.flatMap (fun inner => bindings inner.1) ++ bindings rest
termination_by body => sizeOf body
decreasing_by
  · have := sizeOf_lt_of_mem_bodies inner.2
    simp only [List.cons.sizeOf_spec]
    omega
  · simp only [List.cons.sizeOf_spec]
    omega

theorem bindings_cons (s : Statement) (rest : List Statement) :
    bindings (s :: rest) = s.boundNames ++ s.bodies.flatMap bindings ++ bindings rest := by
  rw [bindings, List.flatMap_subtype (g := bindings) (by simp), List.unattach_attach]

mutual

theorem Statement.allBound_eq : ∀ s : Statement,
    s.allBound = s.boundNames ++ s.bodies.flatMap bindings
  | .line _ | .assign .. => by simp [Statement.allBound, Statement.boundNames, Statement.bodies]
  | .loop head body => by
    simp [Statement.allBound, Statement.boundNames, Statement.bodies, allBoundIn_eq body]
  | .cond condition body branches otherwise => by
    simp [Statement.allBound, Statement.boundNames, Statement.bodies, allBoundIn_eq body,
      allBoundInBranches_eq branches, allBoundInOtherwise_eq otherwise]
termination_by structural s => s

theorem allBoundIn_eq : ∀ body : List Statement, allBoundIn body = bindings body
  | [] => by simp [allBoundIn, bindings]
  | s :: rest => by rw [allBoundIn, bindings_cons, s.allBound_eq, allBoundIn_eq rest]
termination_by structural body => body

theorem allBoundInBranches_eq : ∀ branches : List Branch,
    allBoundInBranches branches = (branches.map Branch.body).flatMap bindings
  | [] => rfl
  | ⟨condition, body⟩ :: rest => by
    simp [allBoundInBranches, allBoundIn_eq body, allBoundInBranches_eq rest]
termination_by structural branches => branches

theorem allBoundInOtherwise_eq : ∀ otherwise : Option (List Statement),
    allBoundInOtherwise otherwise = otherwise.toList.flatMap bindings
  | none => rfl
  | some body => by simp [allBoundInOtherwise, allBoundIn_eq body]
termination_by structural otherwise => otherwise

end

namespace Statement.Binds

@[simp] theorem line_iff {text name : String} : (Statement.line text).Binds name ↔ False :=
  ⟨nofun, False.elim⟩

@[simp] theorem assign_iff {target : ValueDef} {value name : String} :
    (Statement.assign target value).Binds name ↔ name = target.name := by
  constructor
  · rintro ⟨⟩
    rfl
  · rintro rfl
    exact .target target value

@[simp] theorem loop_iff {head : Loop} {body : List Statement} {name : String} :
    (Statement.loop head body).Binds name ↔
      name ∈ head.boundNames ∨ ∃ s ∈ body, s.Binds name := by
  constructor
  · intro h
    cases h with
    | counter | index | item => simp [Loop.boundNames]
    | inLoop hs hb => exact .inr ⟨_, hs, hb⟩
  · rintro (h | ⟨s, hs, hb⟩)
    · cases head <;> simp only [Loop.boundNames, List.mem_cons, List.not_mem_nil, or_false] at h
      · subst h
        exact .counter ..
      · rcases h with rfl | rfl
        · exact .index ..
        · exact .item ..
    · exact .inLoop hs hb

@[simp] theorem cond_iff {condition : String} {body : List Statement} {branches : List Branch}
    {otherwise : Option (List Statement)} {name : String} :
    (Statement.cond condition body branches otherwise).Binds name ↔
      (∃ s ∈ body, s.Binds name) ∨ (∃ branch ∈ branches, ∃ s ∈ branch.body, s.Binds name) ∨
        ∃ last ∈ otherwise, ∃ s ∈ last, s.Binds name := by
  constructor
  · intro h
    cases h with
    | inThen hs hb => exact .inl ⟨_, hs, hb⟩
    | inElif hbr hs hb => exact .inr (.inl ⟨_, hbr, _, hs, hb⟩)
    | inElse hs hb => exact .inr (.inr ⟨_, rfl, _, hs, hb⟩)
  · rintro (⟨s, hs, hb⟩ | ⟨branch, hbr, s, hs, hb⟩ | ⟨last, ho, s, hs, hb⟩)
    · exact .inThen hs hb
    · exact .inElif hbr hs hb
    · cases ho
      exact .inElse hs hb

end Statement.Binds

mutual

theorem Statement.mem_allBound_iff (name : String) : ∀ s : Statement,
    name ∈ s.allBound ↔ s.Binds name
  | .line _ => by simp [Statement.allBound]
  | .assign .. => by simp [Statement.allBound]
  | .loop head body => by simp [Statement.allBound, mem_allBoundIn_iff name body]
  | .cond condition body branches otherwise => by
    simp [Statement.allBound, mem_allBoundIn_iff name body,
      mem_allBoundInBranches_iff name branches, mem_allBoundInOtherwise_iff name otherwise]
termination_by structural s => s

theorem mem_allBoundIn_iff (name : String) : ∀ body : List Statement,
    name ∈ allBoundIn body ↔ ∃ s ∈ body, s.Binds name
  | [] => by simp [allBoundIn]
  | s :: rest => by
    simp [allBoundIn, s.mem_allBound_iff name, mem_allBoundIn_iff name rest]
termination_by structural body => body

theorem mem_allBoundInBranches_iff (name : String) : ∀ branches : List Branch,
    name ∈ allBoundInBranches branches ↔ ∃ branch ∈ branches, ∃ s ∈ branch.body, s.Binds name
  | [] => by simp [allBoundInBranches]
  | ⟨condition, body⟩ :: rest => by
    simp [allBoundInBranches, mem_allBoundIn_iff name body, mem_allBoundInBranches_iff name rest]
termination_by structural branches => branches

theorem mem_allBoundInOtherwise_iff (name : String) : ∀ otherwise : Option (List Statement),
    name ∈ allBoundInOtherwise otherwise ↔ ∃ last ∈ otherwise, ∃ s ∈ last, s.Binds name
  | none => by simp [allBoundInOtherwise]
  | some body => by simp [allBoundInOtherwise, mem_allBoundIn_iff name body]
termination_by structural otherwise => otherwise

end

end PlanScribe
