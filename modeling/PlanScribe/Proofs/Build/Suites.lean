import PlanScribe.Plan.Check
import PlanScribe.Proofs.Build.Parts

/-!
# Suites

Behind the header of a compound statement stands its suite: what was written into its scope, or
`pass` if that is nothing at all. The header needs a line below it that is deeper and not blank. It
has one exactly if its body wrote nothing or a line that can be seen; a body that wrote blank lines
alone is not given a `pass`, and has no line of its own. Lines that a body puts in as they are keep
the indentation they came with, so this holds of them where they fit their scope.
-/
namespace PlanScribe

/-! ## Where a suite stands -/

/-- A compound statement in the output of a block: its body, the entries of its suite, and what
stands before its header and after its suite. -/
structure Opened where
  depth : Nat
  head : Head
  body : List Part
  before : List String
  suite : List String
  after : List String

namespace Opened

def behind (entries : List String) (o : Opened) : Opened := { o with before := entries ++ o.before }

def ahead (entries : List String) (o : Opened) : Opened := { o with after := o.after ++ entries }

end Opened

mutual

/-- The compound statements of a part, at every depth. -/
def Part.opened (indent : Indent) (depth : Nat) : Part → List Opened
  | .text _ | .verbatim _ => []
  | .compound head body =>
    let suite := passIfNone indent (depth + 1) (entriesOf indent (depth + 1) body)
    { depth, head, body, before := [], suite, after := [] }
      :: (openedIn indent (depth + 1) body).map
        (Opened.behind (indentedLines indent depth head.line))
termination_by structural part => part

def openedIn (indent : Indent) (depth : Nat) : List Part → List Opened
  | [] => []
  | part :: rest =>
    (part.opened indent depth).map (Opened.ahead (entriesOf indent depth rest))
      ++ (openedIn indent depth rest).map (Opened.behind (part.entries indent depth))
termination_by structural parts => parts

end

/-- The compound statement stands among the entries, its suite directly behind its header. -/
structure Opened.StandsIn (indent : Indent) (entries : List String) (o : Opened) : Prop where
  entries : entries = o.before ++ (indentedLines indent o.depth o.head.line ++ (o.suite ++ o.after))
  suite : o.suite = passIfNone indent (o.depth + 1) (entriesOf indent (o.depth + 1) o.body)

namespace Opened.StandsIn

variable {indent : Indent} {entries : List String} {o : Opened}

theorem behind (h : o.StandsIn indent entries) (more : List String) :
    (o.behind more).StandsIn indent (more ++ entries) := by
  refine ⟨?_, h.suite⟩
  rw [h.entries, Opened.behind, List.append_assoc]

theorem ahead (h : o.StandsIn indent entries) (more : List String) :
    (o.ahead more).StandsIn indent (entries ++ more) := by
  refine ⟨?_, h.suite⟩
  rw [h.entries, Opened.ahead]
  simp only [List.append_assoc]

end Opened.StandsIn

mutual

theorem Part.standsIn_opened (indent : Indent) : (part : Part) → (depth : Nat) →
    ∀ o ∈ part.opened indent depth, o.StandsIn indent (part.entries indent depth)
  | .text _, _, _, h | .verbatim _, _, _, h => nomatch h
  | .compound head body, depth, o, h => by
    rw [Part.entries]
    rcases List.mem_cons.mp h with rfl | h
    · refine ⟨?_, rfl⟩
      simp only [List.nil_append, List.append_nil]
    · obtain ⟨inner, hinner, rfl⟩ := List.mem_map.mp h
      have hin := standsIn_openedIn indent body (depth + 1) inner hinner
      -- a body that opens something has entries of its own, so no `pass` stands for it
      have hsome : entriesOf indent (depth + 1) body ≠ [] := by
        intro hnone
        have hhead := hin.entries.symm.trans hnone
        have hlines := (List.append_eq_nil_iff.mp (List.append_eq_nil_iff.mp hhead).2).1
        exact indentedLines_ne_nil _ _ _ hlines
      rw [passIfNone, if_neg hsome]
      exact hin.behind _
termination_by structural part => part

theorem standsIn_openedIn (indent : Indent) : (parts : List Part) → (depth : Nat) →
    ∀ o ∈ openedIn indent depth parts, o.StandsIn indent (entriesOf indent depth parts)
  | [], _, _, h => nomatch h
  | part :: rest, depth, o, h => by
    rw [entriesOf]
    rcases List.mem_append.mp h with h | h
    · obtain ⟨inner, hinner, rfl⟩ := List.mem_map.mp h
      exact (part.standsIn_opened indent depth inner hinner).ahead _
    · obtain ⟨inner, hinner, rfl⟩ := List.mem_map.mp h
      exact (standsIn_openedIn indent rest depth inner hinner).behind _
termination_by structural parts => parts

end

/-! ## What can be seen -/

/-- A part that leaves nothing, not even an empty line. -/
def Part.Silent : Part → Prop
  | .verbatim lines => lines = []
  | .text _ | .compound _ _ => False

/-- A part of which a line can be seen. -/
def Part.Visible : Part → Prop
  | .text written => Shows written
  | .verbatim lines => ∃ line ∈ lines, Shows line
  | .compound _ _ => True

mutual

/-- The lines that are put into a block as they are stand at its depth, each a line of its own. -/
def Part.Fits (indent : Indent) (depth : Nat) : Part → Prop
  | .text _ => True
  | .verbatim lines => ∀ line ∈ lines, '\n' ∉ line.toList ∧ IndentedAt indent depth line
  | .compound _ suite => FitsIn indent (depth + 1) suite
termination_by structural part => part

def FitsIn (indent : Indent) (depth : Nat) : List Part → Prop
  | [] => True
  | part :: rest => part.Fits indent depth ∧ FitsIn indent depth rest
termination_by structural parts => parts

end

theorem Head.shows_line (head : Head) : Shows head.line := by
  have hfor : Shows "for " := by decide
  cases head with
  | ifTrue condition => exact (Shows.append (by decide : Shows "if ") condition).append ":"
  | elifTrue condition => exact (Shows.append (by decide : Shows "elif ") condition).append ":"
  | otherwise => exact (by decide : Shows "else:")
  | loop l =>
    cases l with
    | whileTrue condition => exact (Shows.append (by decide : Shows "while ") condition).append ":"
    | range counter start stop =>
      exact ((((hfor.append _).append _).append _).append _).append _ |>.append _
    | enumerate index item iterable =>
      exact ((((hfor.append _).append _).append _).append _).append _ |>.append _

/-! ## The entries of a block -/

mutual

theorem Part.indentedAt_entries (indent : Indent) : (part : Part) → (depth : Nat) →
    part.Fits indent depth → ∀ entry ∈ part.entries indent depth, IndentedAt indent depth entry
  | .text text, depth, _ => indentedAt_indentedLines indent depth text
  | .verbatim _, _, h => fun entry hentry => (h entry hentry).2
  | .compound head suite, depth, h => by
    intro entry hentry
    rw [Part.entries] at hentry
    rcases List.mem_append.mp hentry with hhead | hsuite
    · exact indentedAt_indentedLines indent depth head.line entry hhead
    · refine IndentedAt.of_deeper ?_
      unfold passIfNone at hsuite
      split_ifs at hsuite
      · exact indentedAt_indentedLines indent (depth + 1) "pass" entry hsuite
      · exact indentedAt_entriesOf indent suite (depth + 1) h entry hsuite
termination_by structural part => part

theorem indentedAt_entriesOf (indent : Indent) : (parts : List Part) → (depth : Nat) →
    FitsIn indent depth parts →
    ∀ entry ∈ entriesOf indent depth parts, IndentedAt indent depth entry
  | [], _, _ => fun _ h => nomatch h
  | part :: rest, depth, ⟨hpart, hrest⟩ => by
    intro entry hentry
    rcases List.mem_append.mp hentry with hfirst | hlater
    · exact part.indentedAt_entries indent depth hpart entry hfirst
    · exact indentedAt_entriesOf indent rest depth hrest entry hlater
termination_by structural parts => parts

end

section

variable (indent : Indent) (depth : Nat)

theorem Part.exists_entries_iff (part : Part) (h : part.Fits indent depth) :
    (∃ entry ∈ part.entries indent depth, entry ≠ "") ↔ part.Visible := by
  cases part with
  | text written => exact exists_indentedLines_iff indent depth written
  | verbatim lines =>
    have hline : ∀ line ∈ lines, (line ≠ "" ↔ Shows line) := by
      intro line hm
      exact (h line hm).2.shows_iff.symm
    exact exists_congr fun line => and_congr_right (hline line)
  | compound head suite =>
    refine ⟨fun _ => trivial, fun _ => ?_⟩
    obtain ⟨entry, hentry, hne⟩ :=
      (exists_indentedLines_iff indent depth head.line).mpr head.shows_line
    exact ⟨entry, List.mem_append_left _ hentry, hne⟩

theorem exists_entriesOf_iff (parts : List Part) (h : FitsIn indent depth parts) :
    (∃ entry ∈ entriesOf indent depth parts, entry ≠ "") ↔ ∃ part ∈ parts, part.Visible := by
  induction parts with
  | nil => simp [entriesOf]
  | cons part rest ih =>
    obtain ⟨hpart, hrest⟩ := h
    have hfirst := part.exists_entries_iff indent depth hpart
    simp only [entriesOf, List.mem_append, or_and_right, exists_or, hfirst, ih hrest,
      List.exists_mem_cons_iff]

theorem Part.entries_eq_nil_iff (part : Part) : part.entries indent depth = [] ↔ part.Silent := by
  cases part with
  | text written => exact iff_of_false (indentedLines_ne_nil _ _ _) id
  | verbatim lines => exact Iff.rfl
  | compound head suite =>
    refine iff_of_false ?_ id
    intro hnil
    exact indentedLines_ne_nil _ _ _ (List.append_eq_nil_iff.mp hnil).1

theorem entriesOf_eq_nil_iff (parts : List Part) :
    entriesOf indent depth parts = [] ↔ ∀ part ∈ parts, part.Silent := by
  induction parts with
  | nil => simp [entriesOf]
  | cons part rest ih =>
    rw [entriesOf, List.append_eq_nil_iff, part.entries_eq_nil_iff, ih, List.forall_mem_cons]

end

/-! ## Usable suites -/

/-- The first line of a suite that is not blank is deeper than its header. -/
def Usable (indent : Indent) (depth : Nat) (suite : List String) : Prop :=
  ∃ blanks line rest, suite = blanks ++ line :: rest ∧ (∀ blank ∈ blanks, ¬ Shows blank) ∧
    Shows line ∧ ∃ code, line = indent.margin (depth + 1) ++ code

theorem usable_iff_of_indentedAt {indent : Indent} {depth : Nat} {suite : List String}
    (h : ∀ entry ∈ suite, IndentedAt indent (depth + 1) entry) :
    Usable indent depth suite ↔ ∃ entry ∈ suite, entry ≠ "" := by
  constructor
  · rintro ⟨blanks, line, rest, rfl, -, hshows, -⟩
    exact ⟨line, List.mem_append_right _ List.mem_cons_self, hshows.ne_empty⟩
  · intro hsome
    induction suite with
    | nil => simp at hsome
    | cons entry rest ih =>
      obtain ⟨hentry, hrest⟩ := List.forall_mem_cons.mp h
      by_cases hblank : entry = ""
      · have hlater : ∃ later ∈ rest, later ≠ "" := by
          obtain ⟨later, hlater, hne⟩ := hsome
          rcases List.mem_cons.mp hlater with rfl | hlater
          · exact absurd hblank hne
          · exact ⟨later, hlater, hne⟩
        obtain ⟨blanks, line, after, rfl, hblanks, hshows, hcode⟩ := ih hrest hlater
        refine ⟨entry :: blanks, line, after, rfl, ?_, hshows, hcode⟩
        refine List.forall_mem_cons.mpr ⟨?_, hblanks⟩
        rw [hentry.shows_iff]
        exact not_not.mpr hblank
      · have hshows := hentry.shows_iff.mpr hblank
        refine ⟨[], entry, rest, rfl, (fun _ hm => nomatch hm), hshows, ?_⟩
        rcases hentry with hempty | ⟨code, hcode, -⟩
        · exact absurd hempty hblank
        · exact ⟨code, hcode⟩

theorem usable_passIfNone_iff (indent : Indent) (depth : Nat) (body : List Part)
    (h : FitsIn indent (depth + 1) body) :
    Usable indent depth (passIfNone indent (depth + 1) (entriesOf indent (depth + 1) body))
      ↔ (∀ part ∈ body, part.Silent) ∨ ∃ part ∈ body, part.Visible := by
  unfold passIfNone
  split_ifs with hnone
  · have hpass := indentedAt_indentedLines indent (depth + 1) "pass"
    rw [usable_iff_of_indentedAt hpass, exists_indentedLines_iff]
    exact iff_of_true (by decide) (.inl ((entriesOf_eq_nil_iff _ _ _).mp hnone))
  · have hbody := indentedAt_entriesOf indent body (depth + 1) h
    rw [usable_iff_of_indentedAt hbody, exists_entriesOf_iff _ _ _ h]
    rw [entriesOf_eq_nil_iff] at hnone
    rw [or_iff_right hnone]

theorem fitsIn_append (indent : Indent) (depth : Nat) (first second : List Part) :
    FitsIn indent depth (first ++ second)
      ↔ FitsIn indent depth first ∧ FitsIn indent depth second := by
  induction first with
  | nil => simp [FitsIn]
  | cons part rest ih => simp [FitsIn, ih, and_assoc]

mutual

theorem Part.fitsIn_of_opened (indent : Indent) : (part : Part) → (depth : Nat) →
    part.Fits indent depth → ∀ o ∈ part.opened indent depth, FitsIn indent (o.depth + 1) o.body
  | .text _, _, _, _, ho | .verbatim _, _, _, _, ho => nomatch ho
  | .compound head body, depth, h, o, ho => by
    rcases List.mem_cons.mp ho with rfl | ho
    · exact h
    · obtain ⟨inner, hinner, rfl⟩ := List.mem_map.mp ho
      exact fitsIn_of_openedIn indent body (depth + 1) h inner hinner
termination_by structural part => part

theorem fitsIn_of_openedIn (indent : Indent) : (parts : List Part) → (depth : Nat) →
    FitsIn indent depth parts →
    ∀ o ∈ openedIn indent depth parts, FitsIn indent (o.depth + 1) o.body
  | [], _, _, _, ho => nomatch ho
  | part :: rest, depth, ⟨hpart, hrest⟩, o, ho => by
    rcases List.mem_append.mp ho with ho | ho
    · obtain ⟨inner, hinner, rfl⟩ := List.mem_map.mp ho
      exact part.fitsIn_of_opened indent depth hpart inner hinner
    · obtain ⟨inner, hinner, rfl⟩ := List.mem_map.mp ho
      exact fitsIn_of_openedIn indent rest depth hrest inner hinner
termination_by structural parts => parts

end

-- A described body puts no lines in as they are, so nothing of it can be at a wrong depth.
mutual

theorem Statement.fitsIn_parts (indent : Indent) : (statement : Statement) → (depth : Nat) →
    FitsIn indent depth statement.parts
  | .line _, _ | .assign .., _ => ⟨trivial, trivial⟩
  | .loop _ body, depth => ⟨fitsIn_bodyParts indent body (depth + 1), trivial⟩
  | .cond _ body branches otherwise, depth =>
    ⟨fitsIn_bodyParts indent body (depth + 1), (fitsIn_append _ _ _ _).mpr
      ⟨fitsIn_branchParts indent branches depth, fitsIn_otherwiseParts indent otherwise depth⟩⟩
termination_by structural statement => statement

theorem fitsIn_bodyParts (indent : Indent) : (body : List Statement) → (depth : Nat) →
    FitsIn indent depth (bodyParts body)
  | [], _ => trivial
  | statement :: rest, depth =>
    (fitsIn_append _ _ _ _).mpr
      ⟨statement.fitsIn_parts indent depth, fitsIn_bodyParts indent rest depth⟩
termination_by structural body => body

theorem fitsIn_branchParts (indent : Indent) : (branches : List Branch) → (depth : Nat) →
    FitsIn indent depth (branchParts branches)
  | [], _ => trivial
  | ⟨_, body⟩ :: rest, depth =>
    ⟨fitsIn_bodyParts indent body (depth + 1), fitsIn_branchParts indent rest depth⟩
termination_by structural branches => branches

theorem fitsIn_otherwiseParts (indent : Indent) : (otherwise : Option (List Statement)) →
    (depth : Nat) → FitsIn indent depth (otherwiseParts otherwise)
  | none, _ => trivial
  | some body, depth => ⟨fitsIn_bodyParts indent body (depth + 1), trivial⟩
termination_by structural otherwise => otherwise

end

/-- Behind the header of every compound statement stands its suite, whatever fails on the way.
Unless lines of another depth are put into it as they are, the first line of the suite that is not
blank is deeper than the header exactly if the body left nothing at all, which is `pass`, or
something that can be seen. The bodies of a plan put in no lines as they are. -/
theorem suite_usable_iff (scope : Scope) :
    (∀ program : List BlockStep,
      ∀ o ∈ openedIn scope.indent scope.depth (partsIn (completedIn program)),
        (runBlock program scope).state.buffer.entries
          = scope.buffer.entries ++ o.before
            ++ (indentedLines scope.indent o.depth o.head.line ++ (o.suite ++ o.after)) ∧
        (FitsIn scope.indent (o.depth + 1) o.body →
          (Usable scope.indent o.depth o.suite
            ↔ (∀ part ∈ o.body, part.Silent) ∨ ∃ part ∈ o.body, part.Visible))) ∧
    ∀ body : List Statement, ∀ o ∈ openedIn scope.indent scope.depth (bodyParts body),
      (emitBody body scope).buffer.entries
        = scope.buffer.entries ++ o.before
          ++ (indentedLines scope.indent o.depth o.head.line ++ (o.suite ++ o.after)) ∧
      (Usable scope.indent o.depth o.suite
        ↔ (∀ part ∈ o.body, part.Silent) ∨ ∃ part ∈ o.body, part.Visible) := by
  have hstands {parts : List Part} {o : Opened}
      (ho : o ∈ openedIn scope.indent scope.depth parts) :=
    standsIn_openedIn scope.indent parts scope.depth o ho
  constructor
  · intro program o ho
    have hin := hstands ho
    constructor
    · rw [state_runBlock_eq_extendBy, Scope.extendBy, Scope.entries_extend, hin.entries,
        List.append_assoc]
    · intro hfits
      rw [hin.suite]
      exact usable_passIfNone_iff _ _ _ hfits
  · intro body o ho
    have hin := hstands ho
    constructor
    · rw [emitBody_eq_extendBy, Scope.extendBy, Scope.entries_extend, hin.entries,
        List.append_assoc]
    · have hfits := fitsIn_of_openedIn _ _ _ (fitsIn_bodyParts _ body _) o ho
      rw [hin.suite]
      exact usable_passIfNone_iff _ _ _ hfits

theorem eq_ok_of_isOk {verdict : Except PlanError Unit} (h : verdict.isOk = true) :
    verdict = .ok () := by
  cases verdict with
  | ok _ => rfl
  | error e => cases h

/-- An accepted plan with a loop whose body is one empty line: nothing stands below the header. -/
theorem unusable_suite_of_blank_line :
    Plan.validate
        { functions := [{ name := "f", body := [.loop (.whileTrue "x") [.line ""]] }] }
        { text := "", filename := "plan.json" } = .ok () ∧
    Plan.render { functions := [{ name := "f", body := [.loop (.whileTrue "x") [.line ""]] }] }
      = .ok "\n\ndef f() -> None:\n    while x:\n\n    return\n\n" ∧
    ∃ o ∈ openedIn .standard 1 (bodyParts [.loop (.whileTrue "x") [.line ""]]),
      o.depth = 1 ∧ o.head.line = "while x:" ∧ o.suite = [""] ∧
        ¬ Usable .standard o.depth o.suite := by
  refine ⟨?accepted, by rfl, _, List.mem_cons_self, rfl, by rfl, by rfl, ?unusable⟩
  case accepted => exact eq_ok_of_isOk (by decide +kernel)
  case unusable =>
    rintro ⟨blanks, line, rest, hsuite, -, hshows, -⟩
    have hline : line ∈ [""] := by
      have hmem : line ∈ blanks ++ line :: rest := List.mem_append_right _ List.mem_cons_self
      rwa [← hsuite] at hmem
    exact hshows.ne_empty (List.mem_singleton.mp hline)

end PlanScribe
