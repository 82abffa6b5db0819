import PlanScribe.Text.Search
import Mathlib.Data.List.Infix

/-!
# What a search finds

Every occurrence that is found splits the text around what was looked for, and its position counts
the bytes in front of it. No occurrence starts to the left of the first one, and there is a first
one if there is any.
-/
namespace PlanScribe.Text

theorem byteLength_reverse (text : List Char) : byteLength text.reverse = byteLength text := by
  induction text with
  | nil => rfl
  | cons c rest ih => simp [ih, Nat.add_comm]

theorem byteLength_toList (text : String) : byteLength text.toList = text.utf8ByteSize := by
  have hofList (chars : List Char) : byteLength chars = (String.ofList chars).utf8ByteSize := by
    induction chars with
    | nil => rfl
    | cons c rest ih =>
      rw [byteLength_cons, ih, String.ofList_cons, String.utf8ByteSize_append,
        String.utf8ByteSize_singleton]
  rw [hofList, String.ofList_toList]

/-! ## Occurrences in a list of characters -/

section

variable {needle : List Char} {o : Occurrence}

theorem split_of_mem_occurrencesAfter {skip : Nat} {before rest : List Char}
    (h : o ∈ occurrencesAfter needle skip before rest) :
    before.reverse ++ rest = o.before.reverse ++ (needle ++ o.after) := by
  induction rest generalizing skip before with
  | nil =>
    cases needle with
    | nil =>
      obtain rfl : o = ⟨before, []⟩ := by simpa [occurrencesAfter] using h
      rfl
    | cons c needle => simp [occurrencesAfter] at h
  | cons c rest ih =>
    have hpassed {skip : Nat} (h : o ∈ occurrencesAfter needle skip (c :: before) rest) :
        before.reverse ++ c :: rest = o.before.reverse ++ (needle ++ o.after) := by
      rw [← ih h, List.reverse_cons, List.append_assoc, List.singleton_append]
    cases skip with
    | succ skip => exact hpassed h
    | zero =>
      rw [occurrencesAfter] at h
      split at h
      · rename_i hprefix
        rcases List.mem_cons.mp h with rfl | h
        · have hsplit := List.prefix_iff_eq_append.mp (List.isPrefixOf_iff_prefix.mp hprefix)
          exact congrArg (before.reverse ++ ·) hsplit.symm
        · exact hpassed h
      · exact hpassed h

theorem split_of_mem_occurrences {text : List Char} (h : o ∈ occurrences needle text) :
    text = o.before.reverse ++ (needle ++ o.after) :=
  split_of_mem_occurrencesAfter h

theorem split_of_first? {text : List Char} (h : first? needle text = some o) :
    text = o.before.reverse ++ (needle ++ o.after) :=
  split_of_mem_occurrences (List.mem_of_mem_head? h)

theorem not_isPrefixOf_iff {text : List Char} :
    ¬ needle.isPrefixOf text = true ↔ ¬ needle <+: text :=
  not_congr List.isPrefixOf_iff_prefix

/-- The search goes on behind a character only if nothing starts in front of it. -/
theorem leftmost_of_head?_occurrencesAfter {before rest a b : List Char}
    (h : (occurrencesAfter needle 0 before rest).head? = some o)
    (hrest : rest = a ++ (needle ++ b)) : o.before.reverse <+: before.reverse ++ a := by
  induction rest generalizing before a with
  | nil =>
    cases needle with
    | nil =>
      obtain rfl : ⟨before, []⟩ = o := by simpa [occurrencesAfter] using h
      exact List.prefix_append _ _
    | cons c needle => simp [occurrencesAfter] at h
  | cons c rest ih =>
    rw [occurrencesAfter] at h
    split at h
    · obtain rfl := Option.some.inj h
      exact List.prefix_append _ _
    · rename_i hnot
      cases a with
      | nil => exact absurd ⟨b, hrest.symm⟩ (not_isPrefixOf_iff.mp hnot)
      | cons d a =>
        obtain ⟨rfl, htail⟩ := List.cons.inj hrest
        have hleft := ih h htail
        rwa [List.reverse_cons, List.append_assoc, List.singleton_append] at hleft

theorem leftmost_of_first? {text a b : List Char} (h : first? needle text = some o)
    (htext : text = a ++ (needle ++ b)) : o.before.reverse <+: a :=
  leftmost_of_head?_occurrencesAfter h htext

theorem head?_occurrencesAfter_eq_none {before rest : List Char}
    (h : (occurrencesAfter needle 0 before rest).head? = none) : ¬ needle <:+: rest := by
  induction rest generalizing before with
  | nil =>
    cases needle with
    | nil => simp [occurrencesAfter] at h
    | cons c needle => simp
  | cons c rest ih =>
    rw [occurrencesAfter] at h
    split at h
    · cases h
    · rename_i hnot
      rw [List.infix_cons_iff, not_or]
      exact ⟨not_isPrefixOf_iff.mp hnot, ih h⟩

theorem first?_eq_none_iff {text : List Char} : first? needle text = none ↔ ¬ needle <:+: text := by
  refine ⟨head?_occurrencesAfter_eq_none, fun hnot => ?_⟩
  cases h : first? needle text with
  | none => rfl
  | some o =>
    have hsplit := split_of_first? h
    exact absurd ⟨o.before.reverse, o.after, by rw [hsplit, List.append_assoc]⟩ hnot

end

/-! ## Occurrences in a string -/

/-- The first text occurs in the second. -/
def OccursIn (part text : String) : Prop := ∃ before after, text = before ++ part ++ after

/-- The first occurrence of a text in another stands after `before`: every other starts further to
the right. -/
structure FirstAfter (part text before : String) : Prop where
  occurs : ∃ after, text = before ++ part ++ after
  leftmost : ∀ a b, text = a ++ part ++ b → ∃ more, a = before ++ more

/-- The text in front of an occurrence. -/
def Occurrence.prefixText (o : Occurrence) : String := String.ofList o.before.reverse

theorem occursIn_iff (part text : String) : OccursIn part text ↔ part.toList <:+: text.toList := by
  constructor
  · rintro ⟨before, after, rfl⟩
    exact ⟨before.toList, after.toList, by simp⟩
  · rintro ⟨before, after, h⟩
    refine ⟨String.ofList before, String.ofList after, ?_⟩
    apply String.toList_injective
    simp [← h]

theorem Occurrence.offset_eq (o : Occurrence) : o.offset = o.prefixText.utf8ByteSize := by
  rw [offset, ← byteLength_reverse, prefixText, ← byteLength_toList, String.toList_ofList]

theorem Occurrence.split_text {o : Occurrence} {part text : String}
    (h : o ∈ occurrences part.toList text.toList) :
    text = o.prefixText ++ part ++ String.ofList o.after := by
  apply String.toList_injective
  simpa [prefixText] using split_of_mem_occurrences h

theorem OccursIn.of_append {first second text : String} (h : OccursIn (first ++ second) text) :
    OccursIn second text := by
  obtain ⟨before, after, rfl⟩ := h
  exact ⟨before ++ first, after, by simp only [String.append_assoc]⟩

theorem first?_toList_eq_none_iff (part text : String) :
    first? part.toList text.toList = none ↔ ¬ OccursIn part text := by
  rw [first?_eq_none_iff, occursIn_iff]

theorem firstAfter_of_first? {part text : String} {o : Occurrence}
    (h : first? part.toList text.toList = some o) : FirstAfter part text o.prefixText where
  occurs := ⟨_, Occurrence.split_text (List.mem_of_mem_head? h)⟩
  leftmost a b htext := by
    have hsplit : text.toList = a.toList ++ (part.toList ++ b.toList) := by simp [htext]
    obtain ⟨more, hmore⟩ := leftmost_of_first? h hsplit
    refine ⟨String.ofList more, ?_⟩
    apply String.toList_injective
    simp [Occurrence.prefixText, hmore]

end PlanScribe.Text
