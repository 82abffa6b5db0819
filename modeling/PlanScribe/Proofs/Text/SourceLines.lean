import PlanScribe.Text.Lines

/-!
# Lines of source text

How the reader of a source text cuts it into lines: at a line feed, at a carriage return, and at the
two together. The lines that are written end at line feeds only, so a carriage return inside of one
makes several lines of it for the reader.
-/
namespace PlanScribe.Text

/-- The lines of a source text, without their line breaks. -/
def sourceLines : List Char → List (List Char)
  | [] => []
  | '\n' :: rest => [] :: sourceLines rest
  | '\r' :: '\n' :: rest => [] :: sourceLines rest
  | '\r' :: rest => [] :: sourceLines rest
  | c :: rest =>
    match sourceLines rest with
    | [] => [[c]]
    | line :: more => (c :: line) :: more

/-- After a carriage return the line is over or goes on with the mark. -/
def ReturnsOnlyTo (mark : Char) (line : List Char) : Prop :=
  ∀ before after, line = before ++ '\r' :: after → after = [] ∨ after.head? = some mark

variable {mark c : Char} {line rest : List Char}

/-- A carriage return is a break of its own unless a line feed comes next. -/
theorem sourceLines_return (hfeed : c ≠ '\n') (rest : List Char) :
    sourceLines ('\r' :: c :: rest) = [] :: sourceLines (c :: rest) := by
  rw [sourceLines]
  intro _ heq
  exact hfeed (List.cons.inj heq).1

theorem sourceLines_cons (hfeed : c ≠ '\n') (hreturn : c ≠ '\r') (rest : List Char) :
    sourceLines (c :: rest) = match sourceLines rest with
      | [] => [[c]]
      | line :: more => (c :: line) :: more := by
  rw [sourceLines]
  · exact hfeed
  · exact fun _ h => absurd h hreturn
  · exact hreturn

theorem sourceLines_ne_nil (h : rest ≠ []) : sourceLines rest ≠ [] := by
  fun_cases sourceLines rest
  · exact absurd rfl h
  all_goals exact List.cons_ne_nil _ _

/-! ## Complete lines -/

theorem lineFeed_notMem_of_mem_lines {text : List Char} (h : line ∈ lines text) :
    '\n' ∉ line := by
  fun_induction lines text generalizing line with
  | case1 => cases h
  | case2 rest ih | case3 rest ih =>
    obtain rfl | hm := List.mem_cons.mp h
    · exact List.not_mem_nil
    · exact ih hm
  | case4 c rest hfeed hreturn hnil ih =>
    obtain rfl := List.mem_singleton.mp h
    simpa using fun hc => hfeed hc.symm
  | case5 c rest hfeed hreturn first more hlines ih =>
    rw [hlines] at ih
    obtain rfl | hm := List.mem_cons.mp h
    · rw [List.mem_cons, not_or]
      exact ⟨fun hc => hfeed hc.symm, ih List.mem_cons_self⟩
    · exact ih (List.mem_cons_of_mem _ hm)

theorem lineFeed_notMem_of_mem_physicalLines {text line : String} (h : line ∈ physicalLines text) :
    '\n' ∉ line.toList := by
  obtain ⟨chars, hchars, rfl⟩ := List.mem_map.mp h
  rw [String.toList_ofList]
  exact lineFeed_notMem_of_mem_lines hchars

/-- A line feed ends a line, whatever stands before it. -/
theorem sourceLines_append_lineFeed (text rest : List Char) :
    sourceLines (text ++ '\n' :: rest) = sourceLines (text ++ ['\n']) ++ sourceLines rest := by
  induction text with
  | nil => rfl
  | cons c text ih =>
    by_cases hfeed : c = '\n'
    · subst hfeed
      exact congrArg (List.cons []) ih
    by_cases hreturn : c = '\r'
    · subst hreturn
      cases text with
      | nil => rfl
      | cons d later =>
        by_cases hd : d = '\n'
        · subst hd
          exact ih
        · simp only [List.cons_append] at ih ⊢
          rw [sourceLines_return hd, sourceLines_return hd, ih]
          rfl
    · rw [List.cons_append, List.cons_append, sourceLines_cons hfeed hreturn,
        sourceLines_cons hfeed hreturn, ih]
      cases hlines : sourceLines (text ++ ['\n']) with
      | nil => exact absurd hlines (sourceLines_ne_nil (by simp))
      | cons line more => rfl

/-- The source lines of complete lines are those of each of them, in order. -/
theorem sourceLines_flatMap (written : List (List Char)) :
    sourceLines (written.flatMap (· ++ ['\n']))
      = written.flatMap fun line => sourceLines (line ++ ['\n']) := by
  induction written with
  | nil => rfl
  | cons line rest ih =>
    rw [List.flatMap_cons, List.flatMap_cons, ← ih, List.append_assoc, List.singleton_append,
      sourceLines_append_lineFeed]

/-! ## Marked lines -/

theorem returnsOnlyTo_nil : ReturnsOnlyTo mark [] := by
  intro before after h
  cases before <;> cases h

theorem returnsOnlyTo_cons (hreturn : c ≠ '\r') :
    ReturnsOnlyTo mark (c :: line) ↔ ReturnsOnlyTo mark line := by
  constructor
  · exact fun h before after hsplit => h (c :: before) after (congrArg (List.cons c) hsplit)
  · intro h before after hsplit
    cases before with
    | nil => exact absurd (List.cons.inj hsplit).1 hreturn
    | cons d before => exact h before after (List.cons.inj hsplit).2

theorem returnsOnlyTo_return :
    ReturnsOnlyTo mark ('\r' :: line) ↔
      (line = [] ∨ line.head? = some mark) ∧ ReturnsOnlyTo mark line := by
  constructor
  · exact fun h => ⟨h [] line rfl, fun before after hsplit =>
      h ('\r' :: before) after (congrArg (List.cons '\r') hsplit)⟩
  · rintro ⟨hnext, h⟩ before after hsplit
    cases before with
    | nil =>
      obtain rfl := (List.cons.inj hsplit).2
      exact hnext
    | cons d before => exact h before after (List.cons.inj hsplit).2

/-- How a complete line is read: the first source line starts as it does, and all others are marked
if after each carriage return the line is over or goes on with the mark. -/
theorem sourceLines_complete (hline : '\n' ∉ line) (hreturn : mark ≠ '\r') :
    ∃ first more, sourceLines (line ++ ['\n']) = first :: more ∧
      (first.head? = some mark ↔ line.head? = some mark) ∧
      ((∀ later ∈ more, later.head? = some mark) ↔ ReturnsOnlyTo mark line) := by
  induction line with
  | nil => exact ⟨[], [], rfl, .rfl, by simp [returnsOnlyTo_nil]⟩
  | cons c line ih =>
    rw [List.mem_cons, not_or] at hline
    obtain ⟨first, more, hlines, hfirst, hmore⟩ := ih hline.2
    by_cases hc : c = '\r'
    · subst hc
      rw [returnsOnlyTo_return]
      cases line with
      | nil => exact ⟨[], [], rfl, by simp [hreturn.symm], by simp [returnsOnlyTo_nil]⟩
      | cons d rest =>
        -- the break is a break of its own, so what was the first line is one of the others
        have hd : '\n' ≠ d := fun hd => hline.2 (hd ▸ List.mem_cons_self)
        rw [List.cons_append, List.cons_append, sourceLines_return hd.symm, ← List.cons_append,
          hlines]
        refine ⟨[], first :: more, rfl, by simp [hreturn.symm], ?_⟩
        rw [List.forall_mem_cons, hfirst, hmore]
        simp
    · rw [List.cons_append, sourceLines_cons (Ne.symm hline.1) hc, hlines, returnsOnlyTo_cons hc]
      exact ⟨c :: first, more, rfl, by simp, hmore⟩

/-- Complete lines are all read as marked lines exactly if each of them starts with the mark and
returns only to it. -/
theorem forall_sourceLines_iff (hreturn : mark ≠ '\r') {written : List (List Char)}
    (hwritten : ∀ line ∈ written, '\n' ∉ line) :
    (∀ read ∈ sourceLines (written.flatMap (· ++ ['\n'])), read.head? = some mark) ↔
      ∀ line ∈ written, line.head? = some mark ∧ ReturnsOnlyTo mark line := by
  rw [sourceLines_flatMap, List.forall_mem_flatMap]
  refine forall₂_congr fun line hline => ?_
  obtain ⟨first, more, hlines, hfirst, hmore⟩ :=
    sourceLines_complete (hwritten line hline) hreturn
  rw [hlines, List.forall_mem_cons, hfirst, hmore]

end PlanScribe.Text
