import PlanScribe.Proofs.Build.Declaring
import PlanScribe.Proofs.Plan.Printing

/-!
# The order of members

A class keeps its fields, the statements of its constructor and its methods apart. Calls that
declare members can therefore be interleaved in any way: whether all of them succeed, the class that
they build and its rendering depend only on the members of each kind in their order. The rendering
is written down kind by kind.
-/
namespace PlanScribe

/-- The members of a class by kind, those of a kind in the order of their declaration. -/
structure ByKind where
  slots : List Slot := []
  setups : List BlockBody := []
  methods : List (Function × BlockBody) := []

instance : Append ByKind :=
  ⟨fun a b => ⟨a.slots ++ b.slots, a.setups ++ b.setups, a.methods ++ b.methods⟩⟩

/-- What a single call declares. -/
def Member.byKind : Member → ByKind
  | field slot => { slots := [slot] }
  | fields slots => { slots }
  | method f body => { methods := [(f, body)] }
  | setup body => { setups := [body] }

/-- What the calls declare, sorted by kind. -/
def byKind : List Member → ByKind
  | [] => {}
  | m :: rest => m.byKind ++ byKind rest

namespace ByKind

/-- A class written down kind by kind: its head, its documentation, the constructor, and every
method after an empty line. The constructor takes the receiver and the fields, assigns them, and
does what its further statements say, each body written into a block of the same depth as the
assignments. -/
def print (name doc : String) (depth : Nat) (indent : Indent) (k : ByKind) : String :=
  let constructor : Function := { name := "__init__", parameters := .receiver :: k.slots }
  let stores := k.slots.map fun slot => "self." ++ slot.name ++ " = " ++ slot.name
  let setups := k.setups.map fun body => (body (.atDepth (depth + 2) indent)).state.text
  let methods := k.methods.map fun (f, body) =>
    let f := f.withReceiver
    "\n" ++ (f.close (depth + 1) indent (body (f.block (depth + 1) indent)).state).text
  printText indent.unit depth ("class " ++ name ++ ":") ++ printDoc indent.unit (depth + 1) doc
    ++ constructor.print indent.unit (depth + 1)
      (printTexts indent.unit (depth + 2) stores ++ String.join setups)
    ++ String.join methods

end ByKind

namespace ClassBuild

/-- Makes the calls in order, up to the first that fails. -/
def declareInTurn (cls : ClassBuild) : List Member → Run ClassBuild
  | [] => .done cls
  | m :: rest => (cls.declare m).andThen (·.declareInTurn rest)

/-- The class with further members. -/
def withMembers (cls : ClassBuild) (k : ByKind) : ClassBuild :=
  { cls with
    fields := cls.fields ++ k.slots
    setup := cls.setup ++
      ⟨k.setups.flatMap fun body =>
        (body (.atDepth (cls.depth + 2) cls.indent)).state.buffer.entries⟩
    methods := cls.methods ++ k.methods.map fun (f, body) =>
      let f := f.withReceiver
      f.close (cls.depth + 1) cls.indent (body (f.block (cls.depth + 1) cls.indent)).state }

/-- Further members can be declared: no name of a field is the receiver's or stands twice, and every
body can be written. -/
structure Accepts (cls : ClassBuild) (k : ByKind) : Prop where
  slots : (receiverName :: (cls.fieldNames ++ k.slots.map Slot.name)).Nodup
  setups : ∀ body ∈ k.setups, (body (.atDepth (cls.depth + 2) cls.indent)).error = none
  methods : ∀ m ∈ k.methods,
    (m.1.withReceiver.render (cls.depth + 1) cls.indent m.2).error? = none

/-- The run adds the members if it can, and fails otherwise. -/
structure Adds (cls : ClassBuild) (k : ByKind) (run : Run ClassBuild) : Prop where
  error : run.error = none ↔ cls.Accepts k
  state : run.error = none → run.state = cls.withMembers k

variable {cls : ClassBuild}

theorem setup_append_empty (cls : ClassBuild) : cls.setup ++ ({} : Buffer) = cls.setup :=
  congrArg Buffer.mk (List.append_nil cls.setup.entries)

theorem withMembers_nil (cls : ClassBuild) : cls.withMembers {} = cls := by
  simp [withMembers, setup_append_empty]

theorem withMembers_append (cls : ClassBuild) (a b : ByKind) :
    cls.withMembers (a ++ b) = (cls.withMembers a).withMembers b := by
  change cls.withMembers ⟨a.slots ++ b.slots, a.setups ++ b.setups, a.methods ++ b.methods⟩ = _
  simp only [withMembers, List.map_append, List.flatMap_append, ← List.append_assoc, mk.injEq,
    true_and, and_true]
  exact congrArg Buffer.mk (List.append_assoc _ _ _).symm

theorem fieldNames_withMembers (cls : ClassBuild) (k : ByKind) :
    (cls.withMembers k).fieldNames = cls.fieldNames ++ k.slots.map Slot.name := List.map_append

theorem accepts_append (a b : ByKind) :
    cls.Accepts (a ++ b) ↔ cls.Accepts a ∧ (cls.withMembers a).Accepts b := by
  have hnames : (cls.withMembers a).fieldNames ++ b.slots.map Slot.name
      = cls.fieldNames ++ (a ++ b).slots.map Slot.name := by
    rw [fieldNames_withMembers, List.append_assoc, ← List.map_append]
    rfl
  constructor
  · rintro ⟨hslots, hsetups, hmethods⟩
    obtain ⟨hsetupsA, hsetupsB⟩ := List.forall_mem_append.mp hsetups
    obtain ⟨hmethodsA, hmethodsB⟩ := List.forall_mem_append.mp hmethods
    rw [← hnames] at hslots
    have hdistinct : (receiverName :: (cls.withMembers a).fieldNames).Nodup :=
      (List.nodup_append.mp hslots).1
    rw [fieldNames_withMembers] at hdistinct
    exact ⟨⟨hdistinct, hsetupsA, hmethodsA⟩, ⟨hslots, hsetupsB, hmethodsB⟩⟩
  · rintro ⟨ha, hb⟩
    have hslots := hb.slots
    rw [hnames] at hslots
    exact ⟨hslots, List.forall_mem_append.mpr ⟨ha.setups, hb.setups⟩,
      List.forall_mem_append.mpr ⟨ha.methods, hb.methods⟩⟩

theorem Accepts.distinct {k : ByKind} (h : cls.Accepts k) : (cls.withMembers k).Distinct := by
  rw [Distinct, fieldNames_withMembers]
  exact h.slots

theorem Distinct.accepts_nil (h : cls.Distinct) : cls.Accepts {} :=
  ⟨by rwa [List.map_nil, List.append_nil], nofun, nofun⟩

/-! ## One call -/

theorem error_addFields_of_nodup (slots : List Slot)
    (h : (receiverName :: (cls.fieldNames ++ slots.map Slot.name)).Nodup) :
    (cls.addFields slots).error = none := by
  induction slots generalizing cls with
  | nil => rfl
  | cons slot rest ih =>
    have hnew : ¬ (slot.name = receiverName ∨ slot.name ∈ cls.fieldNames) := by
      intro htaken
      have hapart : ∀ name ∈ receiverName :: cls.fieldNames, name ≠ slot.name := fun name hname =>
        (List.nodup_append.mp h).2.2 name hname slot.name List.mem_cons_self
      rcases htaken with hreceiver | hfield
      · exact hapart receiverName List.mem_cons_self hreceiver.symm
      · exact hapart slot.name (List.mem_cons_of_mem _ hfield) rfl
    rw [addFields, Run.error_andThen, error_addField, state_addField, if_neg hnew, if_neg hnew,
      Option.none_or]
    apply ih
    simpa [fieldNames] using h

theorem adds_addFields (h : cls.Distinct) (slots : List Slot) :
    cls.Adds { slots } (cls.addFields slots) where
  error := by
    refine ⟨fun hok => ⟨?_, nofun, nofun⟩, fun haccepts => ?_⟩
    · have hafter := h.addFields slots
      rw [state_addFields cls slots hok, Distinct, fieldNames, List.map_append] at hafter
      exact hafter
    · exact error_addFields_of_nodup _ haccepts.slots
  state hok := by simp [state_addFields cls slots hok, withMembers, setup_append_empty]

theorem adds_addField (h : cls.Distinct) (slot : Slot) :
    cls.Adds { slots := [slot] } (cls.addField slot) := by
  obtain ⟨herror, hstate⟩ := adds_addFields h [slot]
  have hsame : (cls.addFields [slot]).error = (cls.addField slot).error := by
    rw [addFields, Run.error_andThen]
    exact Option.or_none
  rw [hsame] at herror hstate
  rw [← state_addField_eq] at hstate
  exact ⟨herror, hstate⟩

/-- An attempt that fails only for members that cannot be declared adds the members, if these are
what is recorded. -/
theorem adds_commit {α : Type} {attempt : Attempt α} {record : α → ClassBuild} {k : ByKind}
    {value : α} (herror : attempt.error? = none ↔ cls.Accepts k)
    (hresult : attempt.error? = none → attempt.result = .ok value)
    (hrecord : record value = cls.withMembers k) : cls.Adds k (attempt.commit cls record) where
  error := by rw [attempt.error_commit, herror]
  state hok := by
    rw [attempt.error_commit] at hok
    rw [attempt.state_commit_of_ok _ _ (hresult hok), hrecord]

theorem adds_addMethod (h : cls.Distinct) (f : Function) (body : BlockBody) :
    cls.Adds { methods := [(f, body)] } (cls.addMethod f body) := by
  have hslots : (receiverName :: (cls.fieldNames ++ [])).Nodup := h.accepts_nil.slots
  refine adds_commit ⟨fun hok => ?_, fun haccepts => ?_⟩
    (f.withReceiver.result_render_of_error?_eq_none _ _ _) ?_
  · exact ⟨hslots, nofun, List.forall_mem_singleton.mpr hok⟩
  · exact haccepts.methods (f, body) List.mem_cons_self
  · simp [withMembers, setup_append_empty]

theorem adds_addSetup (h : cls.Distinct) (body : BlockBody) :
    cls.Adds { setups := [body] } (cls.addSetup body) := by
  have hslots : (receiverName :: (cls.fieldNames ++ [])).Nodup := h.accepts_nil.slots
  have herror := Run.error?_attempt (body (.atDepth (cls.depth + 2) cls.indent))
  refine adds_commit ⟨fun hok => ?_, fun haccepts => ?_⟩
    (fun hok => Run.result_attempt_of_ok _ (herror.symm.trans hok)) ?_
  · exact ⟨hslots, List.forall_mem_singleton.mpr (herror.symm.trans hok), nofun⟩
  · exact herror.trans (haccepts.setups body List.mem_cons_self)
  · simp [withMembers]

theorem adds_declare (h : cls.Distinct) (m : Member) : cls.Adds m.byKind (cls.declare m) := by
  cases m with
  | field slot => exact adds_addField h slot
  | fields slots => exact adds_addFields h slots
  | method f body => exact adds_addMethod h f body
  | setup body => exact adds_addSetup h body

/-! ## All calls -/

/-- Calls of which none fails build the class that has their members kind by kind. -/
theorem adds_declareInTurn (h : cls.Distinct) (members : List Member) :
    cls.Adds (byKind members) (cls.declareInTurn members) := by
  induction members generalizing cls with
  | nil => exact ⟨⟨fun _ => h.accepts_nil, fun _ => rfl⟩, fun _ => cls.withMembers_nil.symm⟩
  | cons m rest ih =>
    obtain ⟨herror, hstate⟩ := adds_declare h m
    have hrest (hok : (cls.declare m).error = none) :
        (cls.withMembers m.byKind).Adds (byKind rest)
          ((cls.withMembers m.byKind).declareInTurn rest) :=
      ih (herror.mp hok).distinct
    refine ⟨?_, fun hok => ?_⟩
    · rw [declareInTurn, Run.error_andThen, Option.or_eq_none_iff, byKind, accepts_append, ← herror]
      exact and_congr_right fun hok => by rw [hstate hok, (hrest hok).error]
    · rw [declareInTurn, Run.error_andThen, Option.or_eq_none_iff] at hok
      have hmid := hstate hok.1
      rw [hmid] at hok
      rw [declareInTurn, Run.state_andThen, if_pos hok.1, hmid, (hrest hok.1).state hok.2, byKind,
        withMembers_append]

/-! ## The rendering -/

theorem text_bodies (bodies : List BlockBody) (block : Scope) :
    Buffer.text ⟨bodies.flatMap fun body => (body block).state.buffer.entries⟩
      = String.join (bodies.map fun body => (body block).state.text) := by
  induction bodies with
  | nil => rfl
  | cons body rest ih =>
    rw [List.map_cons, String.join_cons, ← ih]
    exact Buffer.text_append (body block).state.buffer ⟨_⟩

theorem text_withMembers (name doc : String) (depth : Nat) (indent : Indent) (k : ByKind) :
    (({ name, doc, depth, indent } : ClassBuild).withMembers k).assembled.text
      = k.print name doc depth indent := by
  rw [text_assembled, ByKind.print, ← text_bodies]
  simp only [withMembers, List.nil_append, List.map_map]
  rfl

/-- In a class the order between members of different kinds is not seen. Calls that all succeed
build a class that is rendered kind by kind: the constructor takes the receiver and all fields,
assigns them in their order, runs the bodies added to it at the depth of the assignments and
returns, and each method follows after an empty line. If other calls declare the same members of
each kind in the same order, they succeed as well, and build the same class. -/
theorem order_between_kinds_unseen (name doc : String) (depth : Nat) (indent : Indent) :
    let fresh : ClassBuild := { name, doc, depth, indent }
    (∀ members, (fresh.declareInTurn members).error = none →
      ∃ rendered : Buffer, (fresh.declareInTurn members).state.render.result = .ok rendered ∧
        rendered.text = (byKind members).print name doc depth indent) ∧
    ∀ first second, byKind first = byKind second →
      ((fresh.declareInTurn first).error = none ↔ (fresh.declareInTurn second).error = none) ∧
      ((fresh.declareInTurn first).error = none →
        (fresh.declareInTurn first).state = (fresh.declareInTurn second).state) := by
  intro fresh
  have hfresh : fresh.Distinct := List.nodup_singleton receiverName
  have hadds (members : List Member) := adds_declareInTurn hfresh members
  constructor
  · intro members hok
    have hdistinct := ((hadds members).error.mp hok).distinct
    rw [(hadds members).state hok]
    exact ⟨_, hdistinct.result_render, text_withMembers name doc depth indent _⟩
  · intro first second hkinds
    have hsame : (fresh.declareInTurn first).error = none ↔
        (fresh.declareInTurn second).error = none := by
      rw [(hadds first).error, (hadds second).error, hkinds]
    refine ⟨hsame, fun hok => ?_⟩
    rw [(hadds first).state hok, (hadds second).state (hsame.mp hok), hkinds]

-- The field is declared last, and yet is assigned before the statement of the constructor.
example :
    (byKind [.method { name := "size" } .done, .setup fun block => .done (block.write "self.n = w"),
      .field (.named "w" "int")]).print "Box" "" 0 .standard
      = "class Box:\n    def __init__(self, w:int) -> None:\n        self.w = w\n" ++
        "        self.n = w\n        return\n\n    def size(self) -> None:\n        return\n" := by
  decide +kernel

end ClassBuild

end PlanScribe
