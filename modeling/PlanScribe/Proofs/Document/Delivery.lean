import PlanScribe.Proofs.Document.Building
import PlanScribe.Proofs.Document.Intake

/-!
# One delivery at most

Over the whole life of a document its rendering is sent to the sink once or never: by the first
call that closes the document, or else when it ends, unless it is discarded, or dropped in a panic
or after a function or a class could not be added. All that comes after the first try sends nothing,
however that try went.
-/
namespace PlanScribe

/-! ## Lives of a document -/

namespace Call

def closes : Call → Bool
  | close => true
  | _ => false

/-- The call adds functions or classes. -/
def adds : Call → Bool
  | addFunction .. | addClass .. | apply _ => true
  | _ => false

end Call

/-- The error of a call that failed. -/
def Response.error? {α : Type} (response : Response α) : Option BuildError :=
  match response.result with
  | .ok _ => none
  | .error e => some e

/-- A call and what it answered. -/
structure Answer where
  call : Call
  result : Except BuildError Reply

/-- A function or a class could not be added. -/
def Answer.failedToAdd (answer : Answer) : Bool := answer.call.adds && !answer.result.isOk

namespace Document

/-- The document after some calls. -/
def after (doc : Document) (calls : List Call) : Document :=
  calls.foldl (fun doc c => (doc.call c).document) doc

/-- The calls with their answers, in order. -/
def answers (doc : Document) : List Call → List Answer
  | [] => []
  | c :: rest => ⟨c, (doc.call c).result⟩ :: (doc.call c).document.answers rest

/-- The document as it is when its delivery is tried for the first time, if it ever is: when a call
closes it, or else when it ends. -/
def firstTry (doc : Document) (calls : List Call) (ending : Ending) : Option Document :=
  if calls.any Call.closes then some (doc.after (calls.takeWhile fun c => !c.closes))
  else match ending with
    | .intoSink => some (doc.after calls)
    | .discard => none
    | .drop panicking =>
      if panicking || (doc.answers calls).any Answer.failedToAdd then none
      else some (doc.after calls)

variable {doc : Document}

theorem after_append (doc : Document) (first second : List Call) :
    doc.after (first ++ second) = (doc.after first).after second :=
  List.foldl_append

theorem answers_append (doc : Document) (first second : List Call) :
    doc.answers (first ++ second) = doc.answers first ++ (doc.after first).answers second := by
  induction first generalizing doc with
  | nil => rfl
  | cons c rest ih => exact congrArg _ (ih _)

theorem call_of_mem_answers {calls : List Call} {answer : Answer}
    (h : answer ∈ doc.answers calls) : answer.call ∈ calls := by
  induction calls generalizing doc with
  | nil => cases h
  | cons c rest ih =>
    rcases List.mem_cons.mp h with rfl | h
    · exact List.mem_cons_self
    · exact List.mem_cons_of_mem _ (ih h)

/-- The calls up to the first that closes, if there is one. -/
theorem split_at_close (calls : List Call) :
    (∀ c ∈ calls, c.closes = false) ∨
      ∃ before rest, calls = before ++ .close :: rest ∧ ∀ c ∈ before, c.closes = false := by
  induction calls with
  | nil => exact .inl fun _ h => nomatch h
  | cons c rest ih =>
    cases hc : c.closes with
    | true =>
      cases c with
      | close => exact .inr ⟨[], rest, rfl, fun _ h => nomatch h⟩
      | _ => cases hc
    | false =>
      rcases ih with hnone | ⟨before, after, rfl, hbefore⟩
      · exact .inl (List.forall_mem_cons.mpr ⟨hc, hnone⟩)
      · exact .inr ⟨c :: before, after, rfl, List.forall_mem_cons.mpr ⟨hc, hbefore⟩⟩

theorem any_closes_of_open {calls : List Call} (hcalls : ∀ c ∈ calls, c.closes = false) :
    calls.any Call.closes = false := by
  rw [List.any_eq_false]
  intro c hc
  rw [hcalls c hc]
  exact Bool.false_ne_true

theorem any_closes_of_close (before rest : List Call) :
    (before ++ .close :: rest).any Call.closes = true := by
  simp [Call.closes]

/-! ## Before the first close -/

theorem buildsTo_answer {run : Run Document} (h : doc.Builds run) :
    doc.BuildsTo (answer run).document (answer run).error? := by
  have herror : (answer run).error? = run.error := by
    unfold Response.error? answer
    cases run.error <;> rfl
  rw [herror]
  exact h

theorem buildsTo_call (h : doc.Renderable) (c : Call) (hc : c.closes = false) :
    doc.BuildsTo (doc.call c).document (doc.call c).error? := by
  cases c with
  | importModule moduleName => exact buildsTo_answer (doc.builds_importModule moduleName)
  | importFrom moduleName symbols =>
    exact buildsTo_answer (doc.builds_importFrom moduleName symbols)
  | expression text => exact buildsTo_answer (doc.builds_addExpression text)
  | global target expression => exact buildsTo_answer (doc.builds_addGlobal target expression)
  | addFunction f body => exact buildsTo_answer (doc.builds_addFunction f (runBlock body))
  | addClass name classDoc body =>
    exact buildsTo_answer (doc.builds_addClass name classDoc _ fun _ => distinct_runClass body)
  | apply plan => exact buildsTo_answer (doc.builds_apply plan)
  | render =>
    have hok : (doc.call .render).error? = none := by
      simp only [Response.error?, call, h.result_render, Except.map]
    rw [hok]
    exact .refl doc
  | close => cases hc

/-- On an open document only the calls that add functions or classes can fail. -/
theorem adds_of_failed (h : doc.Renderable) (hopen : doc.closed = false) {c : Call}
    (hc : c.closes = false) (hfailed : (doc.call c).error? ≠ none) : c.adds = true := by
  cases c with
  | addFunction | addClass | apply => rfl
  | importModule | importFrom | expression | global =>
    refine absurd ?_ hfailed
    simp only [call, importModule, importFrom, addExpression, addGlobal, writeHeader, whenOpen,
      hopen, Bool.false_eq_true, if_false]
    rfl
  | render =>
    refine absurd ?_ hfailed
    simp only [Response.error?, call, h.result_render, Except.map]
  | close => cases hc

theorem failedToAdd_call (h : doc.Renderable) (hopen : doc.closed = false) {c : Call}
    (hc : c.closes = false) :
    Answer.failedToAdd ⟨c, (doc.call c).result⟩ = (doc.call c).error?.isSome := by
  have hadds := adds_of_failed h hopen hc
  unfold Answer.failedToAdd Response.error? at *
  cases hr : (doc.call c).result with
  | ok reply => simp [Except.isOk, Except.toBool]
  | error e =>
    rw [hr] at hadds
    simp [hadds (Option.some_ne_none e), Except.isOk, Except.toBool]

/-- What calls that do not close an open document make of it. -/
structure StaysOpen (before after : Document) (failed : Bool) : Prop where
  sink : after.sink = before.sink
  closed : after.closed = false
  renderable : after.Renderable
  poisoned : after.poisoned = (before.poisoned || failed)

theorem staysOpen_after (h : doc.Renderable) (hopen : doc.closed = false) (calls : List Call)
    (hcalls : ∀ c ∈ calls, c.closes = false) :
    doc.StaysOpen (doc.after calls) ((doc.answers calls).any Answer.failedToAdd) := by
  induction calls generalizing doc with
  | nil => exact ⟨rfl, hopen, h, (Bool.or_false _).symm⟩
  | cons c rest ih =>
    obtain ⟨hc, hrest⟩ := List.forall_mem_cons.mp hcalls
    have hcall := buildsTo_call h c hc
    have hafter := ih (hcall.renderable h) (hcall.closed.trans hopen) hrest
    refine ⟨hafter.sink.trans hcall.sink, hafter.closed, hafter.renderable, ?_⟩
    rw [answers, List.any_cons, failedToAdd_call h hopen hc, ← Bool.or_assoc,
      ← hcall.poisoned hopen]
    exact hafter.poisoned

/-! ## From the first close on -/

theorem document_deliver (doc : Document) (sink : Sink) (text : String) :
    (doc.deliver sink text).document
      = { doc with sink := some (sink.deliver (encodeText text)).1 } := by
  unfold deliver
  rcases sink.deliver (encodeText text) with ⟨used, done⟩
  cases done <;> rfl

theorem result_deliver (doc : Document) (sink : Sink) (text : String) :
    (doc.deliver sink text).result
      = if (sink.deliver (encodeText text)).2 then .ok .written else .error .unwritten := by
  unfold deliver
  rcases sink.deliver (encodeText text) with ⟨used, done⟩
  cases done <;> rfl

/-- The first close sends the rendering, and closes the document whether that succeeds or not. -/
theorem close_of_open {sink : Sink} (h : doc.Renderable) (hopen : doc.closed = false)
    (hsink : doc.sink = some sink) :
    doc.close.document
        = { doc with closed := true, sink := some (sink.deliver (encodeText doc.output)).1 } ∧
      doc.close.result
        = if (sink.deliver (encodeText doc.output)).2 then .ok .written else .error .unwritten := by
  have hrender : { doc with closed := true }.render.result = .ok doc.output := h.result_render
  rw [hsink] at hrender
  unfold close
  simp only [hopen, Bool.false_eq_true, if_false, hsink, hrender]
  exact ⟨document_deliver _ sink doc.output, result_deliver _ sink doc.output⟩

theorem call_of_closed (h : doc.Renderable) (hclosed : doc.closed = true) (c : Call) :
    (doc.call c).document = doc := by
  cases hc : c.closes with
  | false => exact (buildsTo_call h c hc).frozen hclosed
  | true =>
    cases c with
    | close => simp [call, close, hclosed]
    | _ => cases hc

theorem after_of_closed (h : doc.Renderable) (hclosed : doc.closed = true) (calls : List Call) :
    doc.after calls = doc := by
  induction calls with
  | nil => rfl
  | cons c rest ih =>
    rw [after, List.foldl_cons, call_of_closed h hclosed c]
    exact ih

/-- Once a document is closed, closing it again is answered by doing nothing. -/
theorem answers_of_closed (h : doc.Renderable) (hclosed : doc.closed = true) (calls : List Call) :
    ∀ answer ∈ doc.answers calls, answer.call.closes = true →
      answer.result = .ok (.closed .skipped) := by
  induction calls with
  | nil => exact fun _ hm => nomatch hm
  | cons c rest ih =>
    rw [answers, call_of_closed h hclosed c]
    refine List.forall_mem_cons.mpr ⟨fun hc => ?_, ih⟩
    cases c with
    | close => simp [call, close, hclosed, Except.map]
    | _ => cases hc

/-- No ending does anything to a document that is closed. -/
theorem finish_of_closed (hclosed : doc.closed = true) (ending : Ending) :
    (Session.finish doc ending).document = doc := by
  cases ending with
  | intoSink => simp [Session.finish, intoSink, close, hclosed]
  | discard =>
    have hsame : { doc with closed := true } = doc := by rw [← hclosed]
    exact hsame
  | drop panicking => simp [Session.finish, drop, hclosed]

/-! ## The whole life -/

/-- A document that is still open when it ends is closed, or given up as it is. -/
theorem finish_of_open (hopen : doc.closed = false) (ending : Ending) :
    (Session.finish doc ending).document
      = match ending with
        | .intoSink => doc.close.document
        | .discard => { doc with closed := true }
        | .drop panicking =>
          if panicking || doc.poisoned then { doc with closed := true }
          else doc.close.document := by
  cases ending with
  | intoSink =>
    simp only [Session.finish, intoSink]
    split <;> rfl
  | discard => rfl
  | drop panicking =>
    simp only [Session.finish, drop, hopen, Bool.false_eq_true, if_false,
      Bool.or_comm doc.poisoned]
    split_ifs
    · rfl
    · split <;> rfl

theorem closed_close (doc : Document) : doc.close.document.closed = true := by
  unfold close
  split_ifs with hclosed
  · exact hclosed
  · simp only
    split
    · rfl
    · split
      · rfl
      · rw [document_deliver]

/-- A document that has ended is closed. -/
theorem closed_finish (doc : Document) (ending : Ending) :
    (Session.finish doc ending).document.closed = true := by
  cases hclosed : doc.closed with
  | true => rwa [finish_of_closed hclosed]
  | false =>
    rw [finish_of_open hclosed]
    cases ending with
    | intoSink => exact closed_close doc
    | discard => rfl
    | drop panicking =>
      simp only
      split_ifs
      · rfl
      · exact closed_close doc

theorem result_finish_intoSink {sink : Sink} (h : doc.Renderable) (hopen : doc.closed = false)
    (hsink : doc.sink = some sink) :
    (Session.finish doc .intoSink).result
      = if (sink.deliver (encodeText doc.output)).2 then .ok (some true)
        else .error .unwritten := by
  obtain ⟨hdocument, hresult⟩ := close_of_open h hopen hsink
  simp only [Session.finish, intoSink, hresult]
  cases (sink.deliver (encodeText doc.output)).2 with
  | true => simp [hdocument, Except.map]
  | false => simp [Except.map]

theorem firstTry_of_close (doc : Document) {before : List Call} (rest : List Call)
    (hbefore : ∀ c ∈ before, c.closes = false) (ending : Ending) :
    doc.firstTry (before ++ .close :: rest) ending = some (doc.after before) := by
  have htake : (before ++ .close :: rest).takeWhile (fun c => !c.closes) = before := by
    rw [List.takeWhile_append_of_pos fun c hc => by simp [hbefore c hc]]
    simp [Call.closes]
  unfold firstTry
  rw [any_closes_of_close, if_pos rfl, htake]

/-- Without a call that closes, the first try is at the end or never. -/
theorem firstTry_of_open (doc : Document) {calls : List Call}
    (hcalls : ∀ c ∈ calls, c.closes = false) (ending : Ending) :
    doc.firstTry calls ending
      = match ending with
        | .intoSink => some (doc.after calls)
        | .discard => none
        | .drop panicking =>
          if panicking || (doc.answers calls).any Answer.failedToAdd then none
          else some (doc.after calls) := by
  unfold firstTry
  rw [any_closes_of_open hcalls, if_neg Bool.false_ne_true]

/-- What is left of a document by the first call that closes it stays as it is. -/
theorem after_close {sink : Sink} {before : List Call} {failed : Bool} (rest : List Call)
    (hd : doc.StaysOpen (doc.after before) failed) (hsink : doc.sink = some sink) :
    doc.after (before ++ .close :: rest) = (doc.after before).close.document := by
  obtain ⟨hclose, -⟩ := close_of_open hd.renderable hd.closed (hd.sink.trans hsink)
  have hclosed : (doc.after before).close.document.closed = true := by rw [hclose]
  have hrenderable : (doc.after before).close.document.Renderable := by
    rw [hclose]
    exact hd.renderable
  rw [after_append]
  exact after_of_closed hrenderable hclosed rest

/-- A document on which nothing has been done yet. -/
structure Fresh (doc : Document) (sink : Sink) : Prop where
  renderable : doc.Renderable
  closed : doc.closed = false
  sink : doc.sink = some sink
  poisoned : doc.poisoned = false

theorem fresh_create (options : DocumentOptions) (sink : Sink) :
    (create options (some sink)).Fresh sink :=
  ⟨renderable_create options _, rfl, rfl, rfl⟩

variable {sink : Sink}

theorem Fresh.staysOpen (h : doc.Fresh sink) {calls : List Call}
    (hcalls : ∀ c ∈ calls, c.closes = false) :
    doc.StaysOpen (doc.after calls) ((doc.answers calls).any Answer.failedToAdd) :=
  staysOpen_after h.renderable h.closed calls hcalls

theorem renderable_of_firstTry (h : doc.Fresh sink) {calls : List Call} {ending : Ending}
    {tried : Document} (htried : doc.firstTry calls ending = some tried) : tried.Renderable := by
  rcases split_at_close calls with hcalls | ⟨before, rest, rfl, hbefore⟩
  · have hlast := (h.staysOpen hcalls).renderable
    rw [firstTry_of_open _ hcalls] at htried
    cases ending with
    | intoSink => exact Option.some.inj htried ▸ hlast
    | discard => cases htried
    | drop panicking =>
      simp only at htried
      split_ifs at htried
      exact Option.some.inj htried ▸ hlast
  · rw [firstTry_of_close _ _ hbefore] at htried
    exact Option.some.inj htried ▸ (h.staysOpen hbefore).renderable

/-- In the end the sink has got the rendering of the document at the first try to deliver it, or
nothing. -/
theorem sink_finish (h : doc.Fresh sink) (calls : List Call) (ending : Ending) :
    (Session.finish (doc.after calls) ending).document.sink
      = match doc.firstTry calls ending with
        | none => some sink
        | some tried => some (sink.deliver (encodeText tried.output)).1 := by
  rcases split_at_close calls with hcalls | ⟨before, rest, rfl, hbefore⟩
  · have hlast := h.staysOpen hcalls
    have hsink := hlast.sink.trans h.sink
    have hpoisoned : (doc.after calls).poisoned
        = (doc.answers calls).any Answer.failedToAdd := by
      rw [hlast.poisoned, h.poisoned]
      exact Bool.false_or _
    obtain ⟨hclose, -⟩ := close_of_open hlast.renderable hlast.closed hsink
    rw [finish_of_open hlast.closed, firstTry_of_open _ hcalls]
    cases ending with
    | intoSink => simp only [hclose]
    | discard => exact hsink
    | drop panicking =>
      simp only [hpoisoned]
      split_ifs
      · exact hsink
      · simp only [hclose]
  · have hd := h.staysOpen hbefore
    obtain ⟨hclose, -⟩ := close_of_open hd.renderable hd.closed (hd.sink.trans h.sink)
    have hafter := after_close rest hd h.sink
    have hclosed : (doc.after (before ++ .close :: rest)).closed = true := by rw [hafter, hclose]
    rw [firstTry_of_close _ _ hbefore, finish_of_closed hclosed, hafter, hclose]

/-- Whenever one looks, the sink is as it was at the beginning, or as it will be in the end. -/
theorem sink_after (h : doc.Fresh sink) (before later : List Call) (ending : Ending) :
    (doc.after before).sink
      = if before.any Call.closes then
          (Session.finish (doc.after (before ++ later)) ending).document.sink
        else some sink := by
  rcases split_at_close before with hcalls | ⟨first, rest, rfl, hfirst⟩
  · rw [any_closes_of_open hcalls, if_neg Bool.false_ne_true]
    exact (h.staysOpen hcalls).sink.trans h.sink
  · have hd := h.staysOpen hfirst
    obtain ⟨hclose, -⟩ := close_of_open hd.renderable hd.closed (hd.sink.trans h.sink)
    have hsplit : first ++ .close :: rest ++ later = first ++ .close :: (rest ++ later) := by simp
    rw [any_closes_of_close, if_pos rfl, hsplit, sink_finish h, firstTry_of_close _ _ hfirst,
      after_close rest hd h.sink, hclose]

/-! ## Answers -/

theorem closings_of_open {calls : List Call} (hcalls : ∀ c ∈ calls, c.closes = false) :
    (doc.answers calls).filter (fun answer => answer.call.closes) = [] := by
  rw [List.filter_eq_nil_iff]
  intro answer hanswer
  rw [hcalls _ (call_of_mem_answers hanswer)]
  exact Bool.false_ne_true

theorem closings_of_close {before : List Call} (rest : List Call)
    (hbefore : ∀ c ∈ before, c.closes = false) :
    (doc.answers (before ++ .close :: rest)).filter (fun answer => answer.call.closes)
      = ⟨.close, (doc.after before).close.result.map .closed⟩
        :: ((doc.after before).close.document.answers rest).filter
            fun answer => answer.call.closes := by
  rw [answers_append, List.filter_append, closings_of_open hbefore, List.nil_append, answers]
  rfl

/-- Only a call that closes tells whether the output was written. -/
theorem closes_of_answer {calls : List Call} {answer : Answer} {outcome : WriteResult}
    (hm : answer ∈ doc.answers calls) (h : answer.result = .ok (.closed outcome)) :
    answer.call.closes = true := by
  induction calls generalizing doc with
  | nil => cases hm
  | cons c rest ih =>
    rcases List.mem_cons.mp hm with rfl | hm
    · cases c with
      | close => rfl
      | render =>
        simp only [call] at h
        cases hr : doc.render.result <;> simp [hr, Except.map] at h
      | importModule | importFrom | expression | global | addFunction | addClass | apply =>
        simp only [call, answer] at h
        split at h <;> cases h
    · exact ih hm

namespace Fresh

variable {calls : List Call} {ending : Ending} {tried : Document}

theorem first_closing (h : doc.Fresh sink) (htried : doc.firstTry calls ending = some tried) :
    ∀ first ∈ ((doc.answers calls).filter fun answer => answer.call.closes).head?,
      first.result = if (sink.deliver (encodeText tried.output)).2 then .ok (.closed .written)
        else .error .unwritten := by
  rcases split_at_close calls with hcalls | ⟨before, rest, rfl, hbefore⟩
  · rw [closings_of_open hcalls]
    exact fun _ hm => nomatch hm
  · rw [firstTry_of_close _ _ hbefore] at htried
    obtain rfl := Option.some.inj htried
    have hd := h.staysOpen hbefore
    obtain ⟨-, hresult⟩ := close_of_open hd.renderable hd.closed (hd.sink.trans h.sink)
    rw [closings_of_close rest hbefore, hresult, List.head?_cons]
    rintro first ⟨⟩
    split_ifs <;> rfl

theorem later_closings (h : doc.Fresh sink) (calls : List Call) :
    ∀ later ∈ ((doc.answers calls).filter fun answer => answer.call.closes).tail,
      later.result = .ok (.closed .skipped) := by
  rcases split_at_close calls with hcalls | ⟨before, rest, rfl, hbefore⟩
  · rw [closings_of_open hcalls]
    exact fun _ hm => nomatch hm
  · have hd := h.staysOpen hbefore
    obtain ⟨hclose, -⟩ := close_of_open hd.renderable hd.closed (hd.sink.trans h.sink)
    have hrenderable : (doc.after before).close.document.Renderable := by
      rw [hclose]
      exact hd.renderable
    rw [closings_of_close rest hbefore, List.tail_cons]
    intro later hlater
    obtain ⟨hm, hcloses⟩ := List.mem_filter.mp hlater
    exact answers_of_closed hrenderable (by rw [hclose]) rest later hm hcloses

theorem countP_written_le_one (h : doc.Fresh sink) (calls : List Call) :
    (doc.answers calls).countP (fun answer => answer.result = .ok (.closed .written)) ≤ 1 := by
  have hclosings :
      (doc.answers calls).countP (fun answer => answer.result = .ok (.closed .written))
        = ((doc.answers calls).filter fun answer => answer.call.closes).countP
            fun answer => answer.result = .ok (.closed .written) := by
    rw [List.countP_filter]
    refine List.countP_congr fun answer hm => ?_
    simp only [decide_eq_true_eq, Bool.and_eq_true, iff_self_and]
    exact closes_of_answer hm
  have hlater := h.later_closings calls
  rw [hclosings]
  cases hc : (doc.answers calls).filter fun answer => answer.call.closes with
  | nil => exact Nat.zero_le 1
  | cons first rest =>
    rw [hc, List.tail_cons] at hlater
    have hrest : rest.countP (fun answer => answer.result = .ok (.closed .written)) = 0 := by
      rw [List.countP_eq_zero]
      intro later hm
      simp [hlater later hm]
    rw [List.countP_cons, hrest]
    split_ifs <;> simp

theorem result_intoSink_of_open (h : doc.Fresh sink)
    (htried : doc.firstTry calls ending = some tried)
    (hnone : (doc.answers calls).filter (fun answer => answer.call.closes) = [])
    (hending : ending = .intoSink) :
    (Session.finish (doc.after calls) ending).result
      = if (sink.deliver (encodeText tried.output)).2 then .ok (some true)
        else .error .unwritten := by
  subst hending
  rcases split_at_close calls with hcalls | ⟨before, rest, rfl, hbefore⟩
  · rw [firstTry_of_open _ hcalls] at htried
    obtain rfl := Option.some.inj htried
    have hlast := h.staysOpen hcalls
    exact result_finish_intoSink hlast.renderable hlast.closed (hlast.sink.trans h.sink)
  · rw [closings_of_close rest hbefore] at hnone
    cases hnone

theorem result_intoSink_of_closed (h : doc.Fresh sink) (calls : List Call) (ending : Ending)
    (hsome : (doc.answers calls).filter (fun answer => answer.call.closes) ≠ [])
    (hending : ending = .intoSink) :
    (Session.finish (doc.after calls) ending).result = .ok (some true) := by
  subst hending
  rcases split_at_close calls with hcalls | ⟨before, rest, rfl, hbefore⟩
  · exact absurd (closings_of_open hcalls) hsome
  · have hd := h.staysOpen hbefore
    obtain ⟨hclose, -⟩ := close_of_open hd.renderable hd.closed (hd.sink.trans h.sink)
    rw [after_close rest hd h.sink, hclose]
    rfl

end Fresh

/-- The rendering of a document is sent to its sink at most once: by the first call that closes it,
or else when it ends. Whatever comes of it, the first try is the last. -/
theorem delivered_at_most_once (options : DocumentOptions) (sink : Sink) (calls : List Call)
    (ending : Ending) :
    let fresh := create options (some sink)
    let answers := fresh.answers calls
    let closings := answers.filter fun answer => answer.call.closes
    let parting := Session.finish (fresh.after calls) ending
    -- what the sink gets, and what the first try answers
    (fresh.firstTry calls ending = none → parting.document.sink = some sink) ∧
    (∀ tried, fresh.firstTry calls ending = some tried →
      ∃ text used done, tried.render.result = .ok text ∧ parting.document.sink = some used ∧
        sink.Received (encodeText text) used done ∧
        (used.stored = sink.stored ++ encodeText text ↔ sink.TakesAll (encodeText text)) ∧
        (∀ first ∈ closings.head?,
          first.result = if done then .ok (.closed .written) else .error .unwritten) ∧
        (closings = [] → ending = .intoSink →
          parting.result = if done then .ok (some true) else .error .unwritten)) ∧
    -- nothing is sent before the first try, and nothing more after it
    (∀ before later, calls = before ++ later →
      (fresh.after before).sink
        = if before.any Call.closes then parting.document.sink else some sink) ∧
    (∀ panicking, (parting.document.drop panicking).document = parting.document) ∧
    -- what the later ones answer
    (∀ later ∈ closings.tail, later.result = .ok (.closed .skipped)) ∧
    (closings ≠ [] → ending = .intoSink → parting.result = .ok (some true)) ∧
    answers.countP (fun answer => answer.result = .ok (.closed .written)) ≤ 1 := by
  have hfresh := fresh_create options sink
  intro fresh answers closings parting
  refine ⟨?untried, ?tried, ?moments, ?dropped, ?skipped, ?handedBack, ?once⟩
  case untried =>
    intro hnone
    have hsink := sink_finish hfresh calls ending
    rw [hnone] at hsink
    exact hsink
  case tried =>
    intro tried htried
    have hsink := sink_finish hfresh calls ending
    rw [htried] at hsink
    have hreceived := sink.received_deliver (encodeText tried.output)
    exact ⟨tried.output, _, _, (renderable_of_firstTry hfresh htried).result_render, hsink,
      hreceived, hreceived.stored_eq_iff, hfresh.first_closing htried,
      hfresh.result_intoSink_of_open htried⟩
  case moments =>
    rintro before later rfl
    exact sink_after hfresh before later ending
  case dropped =>
    intro panicking
    exact finish_of_closed (closed_finish _ ending) (.drop panicking)
  case skipped => exact hfresh.later_closings calls
  case handedBack => exact hfresh.result_intoSink_of_closed calls ending
  case once => exact hfresh.countP_written_le_one calls

end Document

end PlanScribe
