import PlanScribe.Proofs.Build.Declaring
import PlanScribe.Proofs.Document.LifeCycle

/-!
# Rendering never fails

Whatever is declared in a class, and however many of the calls fail, its fields keep names that
differ from each other and from the receiver's; the constructor that is made of them in the end can
therefore be rendered. So can every document that calls lead to, and closing one fails only if its
sink does not take the text.
-/
namespace PlanScribe

/-- The part comes with a body that does nothing to a class but declare members. -/
def Addition.Declares : Addition → Prop
  | addClass _ _ members => Declaring members
  | importModule _ | importFrom .. | expression _ | global .. | addFunction .. => True

theorem Plan.declares_of_mem_additions (plan : Plan) :
    ∀ a ∈ plan.additions, a.Declares := by
  intro a ha
  simp only [Plan.additions, List.mem_append, List.mem_map] at ha
  rcases ha with ((((⟨_, -, rfl⟩ | ⟨_, -, rfl⟩) | ⟨_, -, rfl⟩) | ⟨_, -, rfl⟩) | ⟨c, -, rfl⟩) |
    ⟨_, -, rfl⟩
  case inl.inr => exact c.declaring_lower
  all_goals trivial

/-- All that a call adds declares members, be it by a program or for a plan. -/
theorem Call.declares_of_mem_additions (c : Call) : ∀ a ∈ c.additions, a.Declares := by
  intro a ha
  cases c with
  | apply plan => exact plan.declares_of_mem_additions a ha
  | addClass name classDoc body =>
    obtain rfl := List.mem_singleton.mp ha
    exact declaring_runClass body
  | importModule | importFrom | expression | global | addFunction =>
    obtain rfl := List.mem_singleton.mp ha
    trivial
  | render | close => cases ha

namespace Document

/-- The document can come about: from an empty one, by adding parts with bodies of any kind, and by
calls of a session. -/
inductive Reachable : Document → Prop
  | create (options : DocumentOptions) (sink : Option Sink) (target : Option Path) :
    Reachable { Document.create options sink with target }
  | add {doc : Document} (h : Reachable doc) (a : Addition) (ha : a.Declares) :
    Reachable (doc.add a).state
  | call {doc : Document} (h : Reachable doc) (c : Call) : Reachable (doc.call c).document

theorem Renderable.withPart {doc : Document} (h : doc.Renderable) {a : Addition}
    (ha : a.Declares) : (doc.withPart a).Renderable := by
  cases a with
  | addClass name classDoc members =>
    intro cls hcls
    rcases List.mem_append.mp hcls with hcls | hcls
    · exact h cls hcls
    · rw [List.mem_singleton.mp hcls]
      exact ha.distinct (List.nodup_singleton _)
  | importModule | importFrom | expression | global | addFunction => exact h

theorem Renderable.add {doc : Document} (h : doc.Renderable) {a : Addition} (ha : a.Declares) :
    (doc.add a).state.Renderable := by
  cases hclosed : doc.closed with
  | true =>
    rw [add_of_closed hclosed]
    exact h
  | false =>
    rw [(add_of_open hclosed a).2]
    split_ifs
    · exact h.withPart ha
    · exact h

theorem Renderable.each {doc : Document} (h : doc.Renderable) {items : List Addition}
    (hitems : ∀ a ∈ items, a.Declares) : (each Document.add items doc).state.Renderable := by
  induction items generalizing doc with
  | nil => exact h
  | cons a rest ih =>
    obtain ⟨ha, hrest⟩ := List.forall_mem_cons.mp hitems
    exact Run.state_andThen_of_kept _ _ (h.add ha) fun _ hnext => ih hnext hrest

theorem Renderable.call {doc : Document} (h : doc.Renderable) (c : Call) :
    (doc.call c).document.Renderable := by
  cases hc : c.closes with
  | false =>
    rw [document_call doc c hc]
    exact h.each c.declares_of_mem_additions
  | true =>
    cases c with
    | close =>
      obtain ⟨sink, hclose⟩ := doc.document_close
      rw [Document.call, hclose]
      exact h
    | _ => cases hc

theorem Reachable.renderable {doc : Document} (h : doc.Reachable) : doc.Renderable := by
  induction h with
  | create => exact fun _ hcls => nomatch hcls
  | add _ a ha ih => exact ih.add ha
  | call _ c ih => exact ih.call c

/-- What closing answers, when the document can be rendered. -/
theorem Renderable.result_close {doc : Document} (h : doc.Renderable) :
    doc.close.result
      = if doc.closed then .ok .skipped
        else match doc.sink with
          | none => .ok .skipped
          | some sink =>
            if (sink.deliver (encodeText doc.output)).2 then .ok .written
            else .error .unwritten := by
  cases hclosed : doc.closed with
  | true => simp [close, hclosed]
  | false =>
    cases hsink : doc.sink with
    | none => simp [close, hclosed, hsink]
    | some sink => exact (close_of_open h hclosed hsink).2

/-- A class records the fields that were accepted, in order, under names that differ from each other
and from the receiver's, and the methods that could be rendered, each of which takes the receiver
first and nothing else of its name. Its constructor takes the receiver and the fields, so the class
can be rendered. So can every document; to close one fails only when its sink does not take the
text. -/
theorem rendering_never_fails :
    -- a class, whatever is declared in it
    (∀ (name classDoc : String) (depth : Nat) (indent : Indent) (members : List Member),
      let fresh : ClassBuild := { name, doc := classDoc, depth, indent }
      let cls := fresh.declareAll members
      cls.fieldNames.Nodup ∧ receiverName ∉ cls.fieldNames ∧
      cls.fields = acceptedFields [] members ∧
      (∀ slots, (cls.addFields slots).error = none ↔ admitted cls.fieldNames slots = slots) ∧
      cls.constructor.parameters = .receiver :: acceptedFields [] members ∧
      cls.methods = members.filterMap (Member.text? depth indent) ∧
      (∀ text ∈ cls.methods, ∃ f body, .method f body ∈ members ∧
        (f.withReceiver.render (depth + 1) indent body).result = .ok text ∧
        f.withReceiver.parameters.head? = some .receiver ∧
        (f.withReceiver.parameters.map Slot.name).count receiverName = 1 ∧
        (f.withReceiver.parameters.map Slot.name).Nodup) ∧
      cls.render.result = .ok cls.assembled) ∧
    -- a document
    (∀ doc : Document, doc.Reachable →
      (∀ cls ∈ doc.classes, cls.render.result = .ok cls.assembled) ∧
      doc.render.result = .ok doc.output ∧
      doc.close.result
        = if doc.closed then .ok .skipped
          else match doc.sink with
            | none => .ok .skipped
            | some sink =>
              if (sink.deliver (encodeText doc.output)).2 then .ok .written
              else .error .unwritten) := by
  constructor
  · intro name classDoc depth indent members fresh cls
    have hfresh : fresh.Distinct := List.nodup_singleton receiverName
    have hdistinct : cls.Distinct := hfresh.declareAll members
    obtain ⟨hreceiver, hnodup⟩ := List.nodup_cons.mp hdistinct
    have hfields : cls.fields = acceptedFields [] members := fresh.fields_declareAll members
    have hmethods : cls.methods = members.filterMap (Member.text? depth indent) :=
      fresh.methods_declareAll members
    refine ⟨hnodup, hreceiver, hfields, cls.error_addFields_eq_none_iff, ?_, hmethods, ?_,
      hdistinct.result_render⟩
    · exact congrArg (List.cons Slot.receiver) hfields
    · intro text htext
      rw [hmethods] at htext
      obtain ⟨f, body, hm, hrender⟩ := ClassBuild.exists_method_of_text htext
      exact ⟨f, body, hm, hrender, f.head?_withReceiver, f.count_receiver_of_render hrender,
        f.withReceiver.nodup_of_render hrender⟩
  · intro doc hdoc
    have hrenderable := hdoc.renderable
    exact ⟨fun cls hcls => (hrenderable cls hcls).result_render, hrenderable.result_render,
      hrenderable.result_close⟩

end Document

end PlanScribe
