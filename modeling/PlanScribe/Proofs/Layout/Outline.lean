import PlanScribe.Text.Lines
import PlanScribe.Layout.Indent
import Mathlib.Data.List.Basic

/-!
# Reading by indentation

A text is read by its indentation alone: the whole units that a line begins with are counted, and
each run of deeper lines is nested under the line before it. The reading undoes the writing of a
forest of lines, each behind the margin of its depth, if the lines have no indentation of their own.
-/
namespace PlanScribe

/-- A line and what is nested below it. -/
inductive Outline
  | node (line : String) (children : List Outline)

/-! ## Reading -/

/-- A line without its indentation, and its depth. -/
structure Row where
  depth : Nat
  line : String
deriving DecidableEq, Repr

/-- How many whole units the line begins with, and what follows them. -/
def dedent (unit line : List Char) : Nat × List Char :=
  if unit ≠ [] ∧ unit <+: line then
    let inner := dedent unit (line.drop unit.length)
    (inner.1 + 1, inner.2)
  else (0, line)
termination_by line.length
decreasing_by
  rename_i h
  have hunit := List.length_pos_of_ne_nil h.1
  have hline := h.2.length_le
  rw [List.length_drop]
  omega

def Row.ofLine (unit line : String) : Row :=
  let read := dedent unit.toList line.toList
  ⟨read.1, String.ofList read.2⟩

/-- The lines of a text as rows. -/
def readRows (unit text : String) : List Row := (Text.physicalLines text).map (Row.ofLine unit)

/-- Nests each run of deeper rows under the row before it. -/
def nest : List Row → List Outline
  | [] => []
  | row :: rest =>
    .node row.line (nest (rest.takeWhile fun later => row.depth < later.depth))
      :: nest (rest.dropWhile fun later => row.depth < later.depth)
termination_by rows => rows.length
decreasing_by
  · exact Nat.lt_succ_of_le (List.takeWhile_sublist _).length_le
  · exact Nat.lt_succ_of_le (List.dropWhile_sublist _).length_le

/-- The outline that a text shows by its indentation. -/
def readOutline (unit text : String) : List Outline := nest (readRows unit text)

/-! ## Outlines as rows -/

mutual

def Outline.rows (depth : Nat) : Outline → List Row
  | .node line children => ⟨depth, line⟩ :: forestRows (depth + 1) children
termination_by structural outline => outline

/-- The lines of a forest with their depths. -/
def forestRows (depth : Nat) : List Outline → List Row
  | [] => []
  | outline :: rest => outline.rows depth ++ forestRows depth rest
termination_by structural forest => forest

end

theorem forestRows_append (depth : Nat) (first second : List Outline) :
    forestRows depth (first ++ second) = forestRows depth first ++ forestRows depth second := by
  induction first with
  | nil => rfl
  | cons outline rest ih => rw [List.cons_append, forestRows, forestRows, ih, List.append_assoc]

mutual

theorem Outline.le_depth_rows : (outline : Outline) → (depth : Nat) →
    ∀ row ∈ outline.rows depth, depth ≤ row.depth
  | .node line children, depth, row, h => by
    rcases List.mem_cons.mp h with rfl | h
    · exact Nat.le_refl _
    · have hdeeper := le_depth_forestRows children (depth + 1) row h
      omega
termination_by structural outline => outline

theorem le_depth_forestRows : (forest : List Outline) → (depth : Nat) →
    ∀ row ∈ forestRows depth forest, depth ≤ row.depth
  | [], _, _, h => nomatch h
  | outline :: rest, depth, row, h => by
    rcases List.mem_append.mp h with h | h
    · exact outline.le_depth_rows depth row h
    · exact le_depth_forestRows rest depth row h
termination_by structural forest => forest

end

/-- A forest that is not empty starts at its own depth. -/
theorem head?_forestRows (depth : Nat) (forest : List Outline) :
    ∀ row ∈ (forestRows depth forest).head?, row.depth = depth := by
  cases forest with
  | nil => exact fun _ h => nomatch h
  | cons outline rest =>
    obtain ⟨line, children⟩ := outline
    rintro row ⟨⟩
    rfl

/-- The rows below a header are the deeper ones that follow it. -/
theorem span_forestRows (depth : Nat) (children rest : List Outline) :
    let rows := forestRows (depth + 1) children ++ forestRows depth rest
    rows.takeWhile (fun later => depth < later.depth) = forestRows (depth + 1) children ∧
      rows.dropWhile (fun later => depth < later.depth) = forestRows depth rest := by
  have hchildren : ∀ row ∈ forestRows (depth + 1) children, decide (depth < row.depth) = true := by
    intro row hrow
    have hdeeper := le_depth_forestRows children (depth + 1) row hrow
    exact decide_eq_true (by omega)
  have hrest : ∀ row ∈ (forestRows depth rest).head?, decide (depth < row.depth) = false := by
    intro row hrow
    have hdepth := head?_forestRows depth rest row hrow
    exact decide_eq_false (by omega)
  intro rows
  rw [List.takeWhile_append_of_pos hchildren, List.dropWhile_append_of_pos hchildren]
  cases hcases : forestRows depth rest with
  | nil => exact ⟨List.append_nil _, rfl⟩
  | cons row more =>
    rw [hcases] at hrest
    have hrow := hrest row rfl
    constructor
    · rw [List.takeWhile_cons_of_neg (by simp [hrow]), List.append_nil]
    · rw [List.dropWhile_cons_of_neg (by simp [hrow])]

mutual

theorem Outline.nest_rows_append : (outline : Outline) → (depth : Nat) → (rest : List Outline) →
    nest (outline.rows depth ++ forestRows depth rest) = outline :: nest (forestRows depth rest)
  | .node line children, depth, rest => by
    obtain ⟨htake, hdrop⟩ := span_forestRows depth children rest
    rw [Outline.rows, List.cons_append, nest, htake, hdrop, nest_forestRows children]
termination_by structural outline => outline

/-- Nesting the rows of a forest gives the forest. -/
theorem nest_forestRows : (forest : List Outline) → (depth : Nat) →
    nest (forestRows depth forest) = forest
  | [], _ => by rw [forestRows, nest]
  | outline :: rest, depth => by
    rw [forestRows, outline.nest_rows_append, nest_forestRows rest]
termination_by structural forest => forest

end

/-! ## Lines without indentation of their own -/

/-- The text has no line breaks. -/
def OneLine (text : String) : Prop := ∀ c ∈ text.toList, c ≠ '\n' ∧ c ≠ '\r'

/-- The text does not start with white space, and is not empty. -/
def StartsVisibly (text : String) : Prop :=
  ∃ c rest, text.toList = c :: rest ∧ Text.isBlank c = false

/-- The text is one line without indentation of its own. -/
structure Flush (text : String) : Prop where
  oneLine : OneLine text
  visible : StartsVisibly text

instance (text : String) : Decidable (OneLine text) :=
  List.decidableBAll (fun c => c ≠ '\n' ∧ c ≠ '\r') text.toList

theorem OneLine.append {first second : String} (hfirst : OneLine first) (hsecond : OneLine second) :
    OneLine (first ++ second) := by
  intro c hc
  rw [String.toList_append] at hc
  rcases List.mem_append.mp hc with hc | hc
  · exact hfirst c hc
  · exact hsecond c hc

theorem Flush.append {first second : String} (hfirst : Flush first) (hsecond : OneLine second) :
    Flush (first ++ second) := by
  refine ⟨hfirst.oneLine.append hsecond, ?_⟩
  obtain ⟨c, rest, hc, hblank⟩ := hfirst.visible
  exact ⟨c, rest ++ second.toList, by rw [String.toList_append, hc, List.cons_append], hblank⟩

/-! ## Rows of a text -/

namespace Indent

variable (indent : Indent)

theorem unit_ne_nil : indent.unit.toList ≠ [] := by
  cases indent with
  | tab => decide
  | spaces width =>
    have hwidth : effectiveWidth width ≠ 0 := by
      unfold effectiveWidth
      split_ifs with hrange
      · simp only [Bool.and_eq_true, decide_eq_true_eq] at hrange
        omega
      · omega
    simp [unit, hwidth]

theorem isBlank_unit : ∀ c ∈ indent.unit.toList, Text.isBlank c = true := by
  intro c hc
  cases indent with
  | tab =>
    obtain rfl := List.mem_singleton.mp hc
    decide
  | spaces width =>
    rw [unit, String.toList_ofList] at hc
    rw [List.eq_of_mem_replicate hc]
    decide

theorem toList_margin (depth : Nat) :
    (indent.margin depth).toList = (List.replicate depth indent.unit.toList).flatten := by
  induction depth with
  | zero => rfl
  | succ depth ih =>
    rw [margin, List.replicate_succ, String.join_cons, String.toList_append, List.replicate_succ,
      List.flatten_cons, ← ih, margin]

end Indent

/-- A line that starts visibly has as many units before it as its margin was made of. -/
theorem dedent_margin (indent : Indent) (depth : Nat) {line : String} (h : StartsVisibly line) :
    dedent indent.unit.toList ((indent.margin depth).toList ++ line.toList)
      = (depth, line.toList) := by
  rw [indent.toList_margin]
  induction depth with
  | zero =>
    obtain ⟨c, rest, hline, hvisible⟩ := h
    rw [List.replicate_zero, List.flatten_nil, List.nil_append, dedent, if_neg]
    rintro ⟨hunit, hstart⟩
    obtain ⟨first, more, hcons⟩ := List.exists_cons_of_ne_nil hunit
    rw [hcons, hline, List.cons_prefix_cons] at hstart
    have hblank := indent.isBlank_unit first (by rw [hcons]; exact List.mem_cons_self)
    rw [hstart.1, hvisible] at hblank
    cases hblank
  | succ depth ih =>
    rw [List.replicate_succ, List.flatten_cons, List.append_assoc, dedent,
      if_pos ⟨indent.unit_ne_nil, List.prefix_append _ _⟩, List.drop_left]
    simp only [ih]

theorem Row.ofLine_margin (indent : Indent) (depth : Nat) {line : String} (h : StartsVisibly line) :
    Row.ofLine indent.unit (indent.margin depth ++ line) = ⟨depth, line⟩ := by
  unfold Row.ofLine
  rw [String.toList_append, dedent_margin indent depth h]
  exact congrArg (Row.mk depth) String.ofList_toList

/-- A row as it is printed. -/
def Row.print (unit : String) (row : Row) : String :=
  String.join (List.replicate row.depth unit) ++ row.line ++ "\n"

/-- A line ends at the first line feed. -/
theorem lines_append_lineFeed {line : List Char} (h : ∀ c ∈ line, c ≠ '\n' ∧ c ≠ '\r')
    (rest : List Char) : Text.lines (line ++ '\n' :: rest) = line :: Text.lines rest := by
  induction line with
  | nil => exact Text.lines_lineFeed rest
  | cons c more ih =>
    obtain ⟨hc, hmore⟩ := List.forall_mem_cons.mp h
    rw [List.cons_append, Text.lines, ih hmore]
    · exact hc.1
    · intro after hcr
      exact absurd hcr hc.2

theorem physicalLines_append_lineFeed {line : String} (h : OneLine line) (rest : String) :
    Text.physicalLines (line ++ "\n" ++ rest) = line :: Text.physicalLines rest := by
  have htext : (line ++ "\n" ++ rest).toList = line.toList ++ '\n' :: rest.toList := by
    simp [String.toList_append]
  unfold Text.physicalLines
  rw [htext, lines_append_lineFeed h, List.map_cons, String.ofList_toList]

theorem oneLine_margin (indent : Indent) (depth : Nat) : OneLine (indent.margin depth) := by
  have hunit : OneLine indent.unit := by
    cases indent with
    | tab => decide
    | spaces width =>
      intro c hc
      rw [Indent.unit, String.toList_ofList] at hc
      rw [List.eq_of_mem_replicate hc]
      decide
  induction depth with
  | zero => exact fun _ hc => nomatch hc
  | succ depth ih =>
    rw [Indent.margin, List.replicate_succ, String.join_cons]
    exact hunit.append ih

theorem readRows_print (indent : Indent) (rows : List Row) (h : ∀ row ∈ rows, Flush row.line) :
    readRows indent.unit (String.join (rows.map (Row.print indent.unit))) = rows := by
  induction rows with
  | nil => rfl
  | cons row rest ih =>
    obtain ⟨hrow, hrest⟩ := List.forall_mem_cons.mp h
    have hline : OneLine (indent.margin row.depth ++ row.line) :=
      (oneLine_margin indent row.depth).append hrow.oneLine
    have hprint : row.print indent.unit = indent.margin row.depth ++ row.line ++ "\n" := rfl
    rw [List.map_cons, String.join_cons, hprint, readRows, physicalLines_append_lineFeed hline,
      List.map_cons, Row.ofLine_margin indent row.depth hrow.visible]
    exact congrArg _ (ih hrest)

end PlanScribe
