import PlanScribe.Layout.Scope
import PlanScribe.Proofs.Layout.Outline
import PlanScribe.Proofs.Text.SourceLines

/-!
# Margins

What a scope writes is empty lines and lines behind the margin of its depth that can be seen. A line
at the margin of a deeper scope is one at the margin of the scopes around it.
-/
namespace PlanScribe

/-! ## What can be seen -/

/-- Some character of the text is not white space. -/
def Shows (text : String) : Prop := Text.allBlank text.toList = false

instance (text : String) : Decidable (Shows text) := inferInstanceAs (Decidable (_ = _))

/-- An entry of a block: an empty line, or a line behind the margin of the block. -/
def IndentedAt (indent : Indent) (depth : Nat) (entry : String) : Prop :=
  entry = "" ∨ ∃ code, entry = indent.margin depth ++ code ∧ Shows code

theorem allBlank_append (a b : List Char) :
    Text.allBlank (a ++ b) = (Text.allBlank a && Text.allBlank b) := List.all_append

theorem Shows.append {first : String} (h : Shows first) (second : String) :
    Shows (first ++ second) := by
  unfold Shows at *
  rw [String.toList_append, allBlank_append, h, Bool.false_and]

/-- Line breaks are white space, so a text is blank exactly if all of its lines are. -/
theorem all_allBlank_lines (text : List Char) :
    (Text.lines text).all Text.allBlank = Text.allBlank text := by
  fun_induction Text.lines text
  case case1 => rfl
  case case2 rest ih => simp [ih, Text.isBlank]
  case case3 rest ih => simp [ih, Text.isBlank]
  case case4 ih => simp_all
  case case5 ih => simp_all [Bool.and_assoc]

theorem indentedLine_cases (indent : Indent) (depth : Nat) (line : String) :
    (¬ Shows line ∧ indentedLine indent depth line = "") ∨
      (Shows line ∧ indentedLine indent depth line = indent.margin depth ++ line) := by
  unfold indentedLine Shows
  cases Text.allBlank line.toList <;> simp

theorem Shows.ne_empty {text : String} (h : Shows text) : text ≠ "" := by
  rintro rfl
  cases h

theorem shows_margin_append (indent : Indent) (depth : Nat) {code : String} (h : Shows code) :
    Shows (indent.margin depth ++ code) := by
  unfold Shows at *
  rw [String.toList_append, allBlank_append, h, Bool.and_false]

theorem IndentedAt.shows_iff {indent : Indent} {depth : Nat} {entry : String}
    (h : IndentedAt indent depth entry) : Shows entry ↔ entry ≠ "" := by
  refine ⟨Shows.ne_empty, fun hne => ?_⟩
  rcases h with rfl | ⟨code, rfl, hcode⟩
  · exact absurd rfl hne
  · exact shows_margin_append indent depth hcode

theorem indentedAt_indentedLines (indent : Indent) (depth : Nat) (text : String) :
    ∀ entry ∈ indentedLines indent depth text, IndentedAt indent depth entry := by
  unfold indentedLines
  split_ifs
  · intro entry hentry
    exact .inl (List.mem_singleton.mp hentry)
  · intro entry hentry
    obtain ⟨line, -, rfl⟩ := List.mem_map.mp hentry
    rcases indentedLine_cases indent depth line with ⟨-, hline⟩ | ⟨hshows, hline⟩
    · exact .inl hline
    · exact .inr ⟨line, hline, hshows⟩

theorem margin_succ (indent : Indent) (depth : Nat) :
    indent.margin (depth + 1) = indent.margin depth ++ indent.unit := by
  unfold Indent.margin
  rw [List.replicate_succ', String.join_append]
  simp

theorem IndentedAt.of_deeper {indent : Indent} {depth : Nat} {entry : String}
    (h : IndentedAt indent (depth + 1) entry) : IndentedAt indent depth entry := by
  rcases h with rfl | ⟨code, rfl, hcode⟩
  · exact .inl rfl
  · refine .inr ⟨indent.unit ++ code, ?_, ?_⟩
    · rw [margin_succ, String.append_assoc]
    · have hmargin := shows_margin_append indent 1 hcode
      rwa [margin_succ, Indent.margin_zero, String.empty_append] at hmargin

/-- A text can be seen if one of its lines is not written as an empty one. -/
theorem exists_indentedLines_iff (indent : Indent) (depth : Nat) (text : String) :
    (∃ entry ∈ indentedLines indent depth text, entry ≠ "") ↔ Shows text := by
  by_cases htext : text = ""
  · rw [indentedLines, if_pos htext, htext]
    simp [Shows]
  · have hlines : (∃ line ∈ Text.physicalLines text, Shows line) ↔ Shows text := by
      unfold Shows
      rw [← all_allBlank_lines, List.all_eq_false]
      simp [Text.physicalLines]
    rw [indentedLines, if_neg htext, ← hlines]
    constructor
    · rintro ⟨entry, hentry, hne⟩
      obtain ⟨line, hline, rfl⟩ := List.mem_map.mp hentry
      rcases indentedLine_cases indent depth line with ⟨-, hempty⟩ | ⟨hshows, -⟩
      · exact absurd hempty hne
      · exact ⟨line, hline, hshows⟩
    · rintro ⟨line, hline, hshows⟩
      refine ⟨_, List.mem_map_of_mem hline, ?_⟩
      rcases indentedLine_cases indent depth line with ⟨hblank, -⟩ | ⟨-, hwritten⟩
      · exact absurd hshows hblank
      · rw [hwritten]
        exact (shows_margin_append indent depth hshows).ne_empty

theorem indentedLines_ne_nil (indent : Indent) (depth : Nat) (text : String) :
    indentedLines indent depth text ≠ [] := by
  unfold indentedLines
  split_ifs with htext
  · exact List.cons_ne_nil _ _
  · simpa [Text.physicalLines, Text.lines_eq_nil_iff] using htext

/-- What is written for a text is cut into lines completely. -/
theorem lineFeed_notMem_of_mem_indentedLines {indent : Indent} {depth : Nat} {text entry : String}
    (h : entry ∈ indentedLines indent depth text) : '\n' ∉ entry.toList := by
  unfold indentedLines at h
  split_ifs at h
  · rw [List.mem_singleton.mp h]
    exact List.not_mem_nil
  · obtain ⟨line, hline, rfl⟩ := List.mem_map.mp h
    rcases indentedLine_cases indent depth line with ⟨-, hempty⟩ | ⟨-, hwritten⟩
    · rw [hempty]
      exact List.not_mem_nil
    · rw [hwritten, String.toList_append, List.mem_append, not_or]
      refine ⟨fun hmargin => ?_, Text.lineFeed_notMem_of_mem_physicalLines hline⟩
      exact (oneLine_margin indent depth '\n' hmargin).1 rfl

/-! ## Scopes that grow -/

namespace Scope

/-- The scope with more entries at its end. -/
def extend (scope : Scope) (entries : List String) : Scope := scope.append (.ofEntries entries)

variable (scope : Scope) (first second : List String)

@[simp] theorem depth_extend : (scope.extend first).depth = scope.depth := rfl

@[simp] theorem indent_extend : (scope.extend first).indent = scope.indent := rfl

@[simp] theorem entries_extend :
    (scope.extend first).buffer.entries = scope.buffer.entries ++ first := rfl

@[simp] theorem extend_nil : scope.extend [] = scope := by
  unfold extend append Buffer.ofEntries
  congr 1
  exact congrArg Buffer.mk (List.append_nil _)

theorem extend_extend : (scope.extend first).extend second = scope.extend (first ++ second) := by
  unfold extend append Buffer.ofEntries
  congr 1
  exact congrArg Buffer.mk (List.append_assoc _ _ _)

theorem write_eq_extend (text : String) :
    scope.write text = scope.extend (indentedLines scope.indent scope.depth text) := rfl

end Scope

end PlanScribe
