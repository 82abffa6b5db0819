import PlanScribe.Proofs.Text.Occurrences
import PlanScribe.Proofs.Plan.Rules

/-!
# Labels of refused plans

The error for a plan that is refused can have a label: a range of bytes of the source. For a broken
rule about a name it covers the name where the source has it in quotation marks, in the first of the
preferred spellings that occurs; for the indentation it covers the key. Spans are described by what
stands in front of and behind the covered part, so that they end where characters end.
-/
namespace PlanScribe

open Text

/-- The span covers a part of the text, between what stands before and after it. -/
structure Span.Covers (span : Span) (text before part after : String) : Prop where
  split : text = before ++ part ++ after
  offset : span.offset = before.utf8ByteSize
  length : span.length = part.utf8ByteSize

/-- A text between quotation marks. -/
def enclosed (text : String) : String := "\"" ++ text ++ "\""

theorem quoted_eq (text : String) : quoted text = (enclosed text).toList := by
  simp [quoted, enclosed]

/-! ## Names -/

/-- The labels for a name. They cover the name between quotation marks, and there is none only for
the empty name and for a name that the text does not have in quotation marks. Of the spellings, the
first that occurs is labelled, where it occurs first. -/
structure NameLabelled (text name : String) (labels : List Label) : Prop where
  covers : ∀ label ∈ labels, ∃ before after,
    label.span.Covers text (before ++ "\"") name ("\"" ++ after)
  missing : labels = [] ↔ name = "" ∨ ¬ OccursIn (enclosed name) text
  first : ∀ earlier entry later,
    ["name = ", "name=", "\"name\": ", "\"name\":", ""] = earlier ++ entry :: later →
    (∀ other ∈ earlier, ¬ OccursIn (other ++ enclosed name) text) →
    OccursIn (entry ++ enclosed name) text →
    ∀ label ∈ labels, ∃ before, FirstAfter (entry ++ enclosed name) text before ∧
      label.span.offset = (before ++ entry ++ "\"").utf8ByteSize

namespace Source

theorem toList_entry (entry name : String) :
    entry.toList ++ quoted name = (entry ++ enclosed name).toList := by
  rw [String.toList_append, quoted_eq]

theorem spanIn_eq_none_iff (name entry text : String) :
    spanIn name entry text.toList = none ↔ ¬ OccursIn (entry ++ enclosed name) text := by
  rw [spanIn, Option.map_eq_none_iff, toList_entry, first?_toList_eq_none_iff]

theorem covers_of_spanIn {name entry text : String} {span : Span}
    (h : spanIn name entry text.toList = some span) :
    ∃ before after, FirstAfter (entry ++ enclosed name) text before ∧
      span.Covers text (before ++ entry ++ "\"") name ("\"" ++ after) := by
  rw [spanIn, toList_entry] at h
  obtain ⟨o, ho, rfl⟩ := Option.map_eq_some_iff.mp h
  have hsplit := Occurrence.split_text (List.mem_of_mem_head? ho)
  refine ⟨o.prefixText, String.ofList o.after, firstAfter_of_first? ho, ?_, ?_, ?_⟩
  · rw [hsplit]
    simp only [enclosed, String.append_assoc]
  · simp only [String.utf8ByteSize_append, ← o.offset_eq, byteLength_toList]
    rfl
  · exact byteLength_toList name

theorem nameSpan?_eq_none_iff (source : Source) (name : String) :
    source.nameSpan? name = none ↔ name = "" ∨ ¬ OccursIn (enclosed name) source.text := by
  unfold nameSpan?
  by_cases hname : name = ""
  · simp [hname]
  · rw [if_neg hname, List.findSome?_eq_none_iff]
    simp only [spanIn_eq_none_iff, hname, false_or]
    constructor
    · intro h
      have hlast := h "" (by simp)
      rwa [String.empty_append] at hlast
    · exact fun h entry _ hentry => h hentry.of_append

theorem nameSpan?_eq_some {source : Source} {name : String} {span : Span}
    (h : source.nameSpan? name = some span) :
    ∃ entry, spanIn name entry source.text.toList = some span := by
  unfold nameSpan? at h
  split at h
  · cases h
  · obtain ⟨_, entry, _, -, hentry, -⟩ := List.findSome?_eq_some_iff.mp h
    exact ⟨entry, hentry⟩

theorem spanIn_of_first {source : Source} {name : String} {span : Span}
    (h : source.nameSpan? name = some span) {earlier later : List String} {entry : String}
    (hentries : nameEntries ++ [""] = earlier ++ entry :: later)
    (hearlier : ∀ other ∈ earlier, ¬ OccursIn (other ++ enclosed name) source.text)
    (hentry : OccursIn (entry ++ enclosed name) source.text) :
    spanIn name entry source.text.toList = some span := by
  have hnone : earlier.findSome? (fun other => spanIn name other source.text.toList) = none :=
    List.findSome?_eq_none_iff.mpr fun other hm =>
      (spanIn_eq_none_iff _ _ _).mpr (hearlier other hm)
  unfold nameSpan? at h
  split at h
  · cases h
  · rw [hentries, List.findSome?_append, hnone, Option.none_or, List.findSome?_cons] at h
    cases hspan : spanIn name entry source.text.toList with
    | none => exact absurd hentry ((spanIn_eq_none_iff _ _ _).mp hspan)
    | some found =>
      rw [hspan] at h
      exact h

end Source

/-! ## Keys -/

/-- The sign follows after nothing but white space. -/
def LeadsTo (sign : Char) (after : List Char) : Prop :=
  ∃ blank rest, after = blank ++ sign :: rest ∧ allBlank blank = true

/-- Only spaces and tabs stand on the line before a bare key, and an equals sign comes next. -/
def BareKey (before after : String) : Prop :=
  (∃ lines margin, before.toList = lines ++ margin ∧ (lines = [] ∨ lines.getLast? = some '\n') ∧
    ∀ c ∈ margin, c = ' ' ∨ c = '\t') ∧
  LeadsTo '=' after.toList

/-- A quoted key stands between quotation marks, and a colon comes next. -/
def QuotedKey (before after : String) : Prop :=
  ∃ front rest, before = front ++ "\"" ∧ after = "\"" ++ rest ∧ LeadsTo ':' rest.toList

/-- The labels for a key cover it where a value is given to it. -/
def KeyLabelled (text key : String) (labels : List Label) : Prop :=
  ∀ label ∈ labels, ∃ before after, label.span.Covers text before key after ∧
    (BareKey before after ∨ QuotedKey before after)

namespace Source

theorem leadsTo_of_followedBy {sign : Char} {o : Occurrence} (h : followedBy sign o = true) :
    LeadsTo sign o.after := by
  obtain ⟨rest, hrest⟩ := List.head?_eq_some_iff.mp (beq_iff_eq.mp h)
  refine ⟨o.after.takeWhile isBlank, rest, ?_, ?_⟩
  · rw [← hrest, dropBlank, List.takeWhile_append_dropWhile]
  · exact List.all_takeWhile

theorem margin_of_startsLine {o : Occurrence} (h : startsLine o = true) :
    ∃ lines margin, o.before.reverse = lines ++ margin ∧
      (lines = [] ∨ lines.getLast? = some '\n') ∧ ∀ c ∈ margin, c = ' ' ∨ c = '\t' := by
  let isMargin (c : Char) : Bool := c == ' ' || c == '\t'
  refine ⟨(o.before.dropWhile isMargin).reverse, (o.before.takeWhile isMargin).reverse, ?_, ?_, ?_⟩
  · rw [← List.reverse_append, List.takeWhile_append_dropWhile]
  · unfold startsLine at h
    rw [List.reverse_eq_nil_iff, List.getLast?_reverse]
    split at h
    · rename_i hnil
      exact .inl hnil
    · rename_i c rest hcons
      obtain rfl := beq_iff_eq.mp h
      exact .inr (congrArg List.head? hcons)
  · intro c hc
    have hmargin : isMargin c = true :=
      List.all_eq_true.mp List.all_takeWhile c (List.mem_reverse.mp hc)
    simpa [isMargin] using hmargin

theorem covers_of_keySpan? {source : Source} {key : String} {span : Span}
    (h : source.keySpan? key = some span) :
    ∃ before after, span.Covers source.text before key after ∧
      (BareKey before after ∨ QuotedKey before after) := by
  unfold keySpan? at h
  dsimp only at h
  split at h
  · rename_i o ho
    obtain rfl := Option.some.inj h
    have hfound := List.find?_some ho
    obtain ⟨hstarts, hfollowed⟩ := Bool.and_eq_true_iff.mp hfound
    refine ⟨o.prefixText, String.ofList o.after, ⟨?_, o.offset_eq, byteLength_toList key⟩,
      .inl ⟨?_, ?_⟩⟩
    · exact Occurrence.split_text (List.mem_of_find?_eq_some ho)
    · rw [Occurrence.prefixText, String.toList_ofList]
      exact margin_of_startsLine hstarts
    · rw [String.toList_ofList]
      exact leadsTo_of_followedBy hfollowed
  · obtain ⟨o, ho, rfl⟩ := Option.map_eq_some_iff.mp h
    rw [quoted_eq] at ho
    have hsplit := Occurrence.split_text (List.mem_of_find?_eq_some ho)
    refine ⟨o.prefixText ++ "\"", "\"" ++ String.ofList o.after, ⟨?_, ?_, byteLength_toList key⟩,
      .inr ⟨_, _, rfl, rfl, ?_⟩⟩
    · rw [hsplit]
      simp only [enclosed, String.append_assoc]
    · rw [String.utf8ByteSize_append, ← o.offset_eq]
      rfl
    · rw [String.toList_ofList]
      exact leadsTo_of_followedBy (List.find?_some ho)

example : Source.keySpan? ⟨"[document]\nheader = \"indent\"\nindent = 0\n", "plan.toml"⟩ "indent"
    = some ⟨29, 6⟩ := by
  decide +kernel

end Source

/-! ## The label of a refused plan -/

namespace PlanError

theorem labels_eq_nil_iff (e : PlanError) : e.labels = [] ↔ e.span? = none := by
  cases h : e.span? <;> simp [labels, h]

theorem mem_labels_iff (e : PlanError) (label : Label) :
    label ∈ e.labels ↔ ∃ span, e.span? = some span ∧ label = ⟨e.labelText, span⟩ := by
  cases h : e.span? <;> simp [labels, h]

theorem nameLabelled {e : PlanError} {source : Source} {name : String}
    (h : e.span? = source.nameSpan? name) : NameLabelled source.text name e.labels where
  covers := by
    intro label hlabel
    obtain ⟨span, hspan, rfl⟩ := (e.mem_labels_iff label).mp hlabel
    obtain ⟨entry, hentry⟩ := Source.nameSpan?_eq_some (h.symm.trans hspan)
    obtain ⟨before, after, -, hcovers⟩ := Source.covers_of_spanIn hentry
    exact ⟨before ++ entry, after, hcovers⟩
  missing := by rw [e.labels_eq_nil_iff, h, source.nameSpan?_eq_none_iff]
  first := by
    intro earlier entry later hentries hearlier hentry label hlabel
    obtain ⟨span, hspan, rfl⟩ := (e.mem_labels_iff label).mp hlabel
    have hin := Source.spanIn_of_first (h.symm.trans hspan) hentries hearlier hentry
    obtain ⟨before, after, hfirst, hcovers⟩ := Source.covers_of_spanIn hin
    exact ⟨before, hfirst, hcovers.offset⟩

theorem keyLabelled {e : PlanError} {source : Source} {key : String}
    (h : e.span? = source.keySpan? key) : KeyLabelled source.text key e.labels := by
  intro label hlabel
  obtain ⟨span, hspan, rfl⟩ := (e.mem_labels_iff label).mp hlabel
  exact Source.covers_of_keySpan? (h.symm.trans hspan)

end PlanError

/-- The labels of an error are in place for the rule: they point at the key of the indentation, or
at the name that the rule is about. -/
def Rule.Labelled (text : String) (labels : List Label) : Rule → Prop
  | .indent _ => KeyLabelled text "indent" labels
  | .usable _ _ name | .noReceiver name _ | .noRepetition _ name _ => NameLabelled text name labels

theorem Rule.labelled_error (rule : Rule) (source : Source) :
    rule.Labelled source.text (rule.error source).labels := by
  cases rule with
  | indent config => exact PlanError.keyLabelled rfl
  | noReceiver name flaw => exact PlanError.nameLabelled rfl
  | noRepetition earlier name flaw => exact PlanError.nameLabelled rfl
  | usable path kind name =>
    have hspan : ((usable path kind name).error source).span? = source.nameSpan? name := by
      by_cases hk : name ∈ keywords <;> simp [error, hk, PlanError.span?]
    exact PlanError.nameLabelled hspan

/-- The error for a refused plan is that of the first rule that the plan breaks, and its label
points at what this rule is about, in whatever source the plan came from. -/
theorem Plan.labels_point_at_offender {plan : Plan} {source : Source} {e : PlanError}
    (h : plan.validate source = .error e) :
    ∃ before rule after, plan.rules = before ++ rule :: after ∧ (∀ r ∈ before, r.Holds) ∧
      ¬ rule.Holds ∧ rule.error source = e ∧ rule.Labelled source.text e.labels := by
  obtain ⟨before, rule, after, hrules, hbefore, hrule, rfl⟩ :=
    (plan.validate_eq_error_iff source e).mp h
  exact ⟨before, rule, after, hrules, hbefore, hrule, rfl, rule.labelled_error source⟩

/-- A character of three bytes stands in front of the name. -/
def wideSource : Source :=
  { text := "# 两\n[[functions]]\nname = \"1st\"\n", filename := "plan.toml" }

def digitError : PlanError :=
  .invalidName "plan.toml" (some ⟨28, 3⟩) "1st" "function" .badStart

theorem Plan.labels_point_at_offender_behind_wide_character :
    Plan.validate { functions := [{ name := "1st" }] } wideSource = .error digitError ∧
    digitError.labels = [⟨"invalid identifier", ⟨28, 3⟩⟩] ∧
    ∃ rule : Rule, rule.error wideSource = digitError ∧
      rule.Labelled wideSource.text digitError.labels := by
  have hrefused : Plan.validate { functions := [{ name := "1st" }] } wideSource
      = .error digitError := by rfl
  obtain ⟨-, rule, -, -, -, -, herror, hlabelled⟩ := Plan.labels_point_at_offender hrefused
  exact ⟨hrefused, rfl, rule, herror, hlabelled⟩

end PlanScribe
