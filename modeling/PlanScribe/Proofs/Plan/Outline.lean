import PlanScribe.Proofs.Layout.Outline
import PlanScribe.Proofs.Plan.Names
import PlanScribe.Proofs.Plan.Printing

/-!
# Reading a body back

The outline of a body is the forest of its lines, each header with the lines of its suite below it.
Reading the text of a body by its indentation gives back its outline, so bodies with different
outlines never have the same text.
-/
namespace PlanScribe

/-! ## The outline of a body -/

mutual

def Statement.outline : Statement → List Outline
  | .line text => [.node text []]
  | .assign target value => [.node (assignment target.slot value) []]
  | .loop head body => [.node head.header (suiteOutline body)]
  | .cond condition body branches otherwise =>
    .node (ifHeader condition) (suiteOutline body)
      :: (branchesOutline branches ++ otherwiseOutline otherwise)
termination_by structural statement => statement

/-- One tree for each statement line, assignment and header, in order. -/
def bodyOutline : List Statement → List Outline
  | [] => []
  | statement :: rest => statement.outline ++ bodyOutline rest
termination_by structural body => body

/-- What stands below a header; an empty body is `pass`. -/
def suiteOutline : List Statement → List Outline
  | [] => [.node "pass" []]
  | statement :: rest => statement.outline ++ bodyOutline rest
termination_by structural body => body

def branchesOutline : List Branch → List Outline
  | [] => []
  | ⟨condition, body⟩ :: rest =>
    .node (elifHeader condition) (suiteOutline body) :: branchesOutline rest
termination_by structural branches => branches

def otherwiseOutline : Option (List Statement) → List Outline
  | none => []
  | some body => [.node elseHeader (suiteOutline body)]
termination_by structural body => body

end

/-! ## Readable bodies -/

theorem oneLine_toString (n : Int) : OneLine (toString n) := by
  have hnat (m : Nat) : OneLine m.repr := by
    intro c hc
    rw [Nat.toList_repr] at hc
    have hdigit := Nat.isDigit_of_mem_toDigits (by omega) (by omega) hc
    constructor <;> (rintro rfl; simp at hdigit)
  cases n with
  | ofNat m => exact hnat m
  | negSucc m =>
    have hminus : OneLine "-" := by decide
    exact hminus.append (hnat m.succ)

theorem isBlank_of_continuesName {c : Char} (h : continuesName c = true) :
    Text.isBlank c = false := by
  have hrange : 48 ≤ c.toNat ∧ c.toNat ≤ 122 := by
    rw [continuesName_iff] at h
    rcases h with ⟨hl, hu⟩ | ⟨hl, hu⟩ | ⟨hl, hu⟩ | rfl
    · rw [Char.le_def, UInt32.le_iff_toNat_le] at hl hu
      exact ⟨Nat.le_trans (by decide) hl, Nat.le_trans hu (by decide)⟩
    · rw [Char.le_def, UInt32.le_iff_toNat_le] at hl hu
      exact ⟨Nat.le_trans (by decide) hl, Nat.le_trans hu (by decide)⟩
    · rw [Char.le_def, UInt32.le_iff_toNat_le] at hl hu
      exact ⟨Nat.le_trans (by decide) hl, Nat.le_trans hu (by decide)⟩
    · decide
  unfold Text.isBlank
  simp
  omega

theorem startsName_continues {c : Char} (h : startsName c = true) : continuesName c = true := by
  rw [startsName_iff] at h
  rw [continuesName_iff]
  tauto

theorem flush_of_isIdentifier {name : String} (h : IsIdentifier name.toList) : Flush name := by
  have hvisible : ∀ c ∈ name.toList, Text.isBlank c = false := by
    cases hname : name.toList with
    | nil => exact fun _ hc => nomatch hc
    | cons first rest =>
      rw [hname, isIdentifier_cons] at h
      obtain ⟨hfirst, hrest⟩ := h
      intro c hc
      rcases List.mem_cons.mp hc with rfl | hc
      · exact isBlank_of_continuesName (startsName_continues hfirst)
      · exact isBlank_of_continuesName (hrest c hc)
  constructor
  · intro c hc
    have hblank := hvisible c hc
    constructor <;> (rintro rfl; cases hblank)
  · cases hname : name.toList with
    | nil =>
      rw [hname] at h
      exact absurd h not_isIdentifier_nil
    | cons first rest =>
      exact ⟨first, rest, hname, hvisible first (by rw [hname]; exact List.mem_cons_self)⟩

/-- The head of a loop whose texts are single lines and whose names are identifiers. -/
def Loop.Readable : Loop → Prop
  | whileTrue condition => OneLine condition
  | range counter _ _ => IsIdentifier counter.toList
  | enumerate index item iterable =>
    IsIdentifier index.toList ∧ IsIdentifier item.toList ∧ OneLine iterable

mutual

/-- The texts of the statement are single lines, its lines have no indentation of their own, and the
names that it binds are identifiers. -/
def Statement.Readable : Statement → Prop
  | .line text => Flush text
  | .assign target value =>
    IsIdentifier target.name.toList ∧ OneLine target.annotation ∧ OneLine value
  | .loop head body => head.Readable ∧ ReadableIn body
  | .cond condition body branches otherwise =>
    OneLine condition ∧ ReadableIn body ∧ ReadableInBranches branches
      ∧ ReadableInOtherwise otherwise
termination_by structural statement => statement

def ReadableIn : List Statement → Prop
  | [] => True
  | statement :: rest => statement.Readable ∧ ReadableIn rest
termination_by structural body => body

def ReadableInBranches : List Branch → Prop
  | [] => True
  | ⟨condition, body⟩ :: rest => OneLine condition ∧ ReadableIn body ∧ ReadableInBranches rest
termination_by structural branches => branches

def ReadableInOtherwise : Option (List Statement) → Prop
  | none => True
  | some body => ReadableIn body
termination_by structural body => body

end

theorem flush_ifHeader {condition : String} (h : OneLine condition) :
    Flush (ifHeader condition) := by
  have hif : Flush "if " := ⟨by decide, 'i', ['f', ' '], rfl, by decide⟩
  exact (hif.append h).append (by decide : OneLine ":")

theorem flush_elifHeader {condition : String} (h : OneLine condition) :
    Flush (elifHeader condition) := by
  have helif : Flush "elif " := ⟨by decide, 'e', ['l', 'i', 'f', ' '], rfl, by decide⟩
  exact (helif.append h).append (by decide : OneLine ":")

theorem flush_elseHeader : Flush elseHeader :=
  ⟨by decide, 'e', ['l', 's', 'e', ':'], rfl, by decide⟩

theorem flush_pass : Flush "pass" := ⟨by decide, 'p', ['a', 's', 's'], rfl, by decide⟩

theorem Loop.Readable.flush_header {head : Loop} (h : head.Readable) : Flush head.header := by
  have hfor : Flush "for " := ⟨by decide, 'f', ['o', 'r', ' '], rfl, by decide⟩
  cases head with
  | whileTrue condition =>
    have hwhile : Flush "while " := ⟨by decide, 'w', ['h', 'i', 'l', 'e', ' '], rfl, by decide⟩
    exact (hwhile.append h).append (by decide : OneLine ":")
  | range counter start stop =>
    have hcounter := hfor.append (flush_of_isIdentifier h).oneLine
    have hstart := (hcounter.append (by decide : OneLine " in range(")).append
      (oneLine_toString start.toInt)
    have hstop := (hstart.append (by decide : OneLine ", ")).append (oneLine_toString stop.toInt)
    exact hstop.append (by decide : OneLine "):")
  | enumerate index item iterable =>
    obtain ⟨hindex, hitem, hiterable⟩ := h
    have hindices := hfor.append (flush_of_isIdentifier hindex).oneLine
    have hitems := (hindices.append (by decide : OneLine ", ")).append
      (flush_of_isIdentifier hitem).oneLine
    have hover := (hitems.append (by decide : OneLine " in enumerate(")).append hiterable
    exact hover.append (by decide : OneLine "):")

theorem flush_assignment {target : ValueDef} {value : String}
    (hname : IsIdentifier target.name.toList) (htype : OneLine target.annotation)
    (hvalue : OneLine value) :
    Flush (assignment target.slot value) := by
  have hslot : Flush target.slot.asTarget := by
    have hflush := flush_of_isIdentifier hname
    unfold Slot.asTarget Slot.annotated
    split_ifs
    · exact hflush
    · exact (hflush.append (by decide : OneLine ": ")).append htype
  exact (hslot.append (by decide : OneLine " = ")).append hvalue

/-! ## Bodies print their outlines -/

theorem lines_of_oneLine {line : List Char} (h : ∀ c ∈ line, c ≠ '\n' ∧ c ≠ '\r')
    (hne : line ≠ []) : Text.lines line = [line] := by
  induction line with
  | nil => exact absurd rfl hne
  | cons c more ih =>
    obtain ⟨hc, hmore⟩ := List.forall_mem_cons.mp h
    rw [Text.lines]
    · cases more with
      | nil => rfl
      | cons next rest => rw [ih hmore (List.cons_ne_nil _ _)]
    · exact hc.1
    · intro after hcr
      exact absurd hcr hc.2

section Flush

variable {text : String}

theorem Flush.ne_empty (h : Flush text) : text ≠ "" := by
  obtain ⟨c, rest, htext, -⟩ := h.visible
  rintro rfl
  cases htext

theorem Flush.physicalLines_eq (h : Flush text) : Text.physicalLines text = [text] := by
  have hne : text.toList ≠ [] := by simpa using h.ne_empty
  unfold Text.physicalLines
  rw [lines_of_oneLine h.oneLine hne, List.map_singleton, String.ofList_toList]

theorem Flush.allBlank_eq (h : Flush text) : Text.allBlank text.toList = false := by
  obtain ⟨c, rest, htext, hvisible⟩ := h.visible
  rw [htext, Text.allBlank_cons, hvisible, Bool.false_and]

theorem printText_of_flush (h : Flush text) (unit : String) (depth : Nat) :
    printText unit depth text = Row.print unit ⟨depth, text⟩ := by
  rw [printText, if_neg h.ne_empty, h.physicalLines_eq, List.map_singleton, printLine,
    h.allBlank_eq]
  simp [Row.print]

/-- A line without indentation of its own is written as one line behind the margin. -/
theorem indentedLines_of_flush (h : Flush text) (indent : Indent) (depth : Nat) :
    indentedLines indent depth text = [indent.margin depth ++ text] := by
  rw [indentedLines, if_neg h.ne_empty, h.physicalLines_eq, List.map_singleton, indentedLine,
    h.allBlank_eq, if_neg Bool.false_ne_true]

end Flush

/-- The text prints the forest at a depth, and its lines can be read back. -/
structure Spells (unit : String) (depth : Nat) (forest : List Outline) (text : String) : Prop where
  text : text = String.join ((forestRows depth forest).map (Row.print unit))
  flush : ∀ row ∈ forestRows depth forest, Flush row.line

namespace Spells

variable {unit : String} {depth : Nat} {first second : List Outline} {a b : String}

theorem nil : Spells unit depth [] "" := by
  refine ⟨rfl, ?_⟩
  intro row hrow
  cases hrow

theorem append (ha : Spells unit depth first a) (hb : Spells unit depth second b) :
    Spells unit depth (first ++ second) (a ++ b) := by
  constructor
  · rw [forestRows_append, List.map_append, String.join_append, ← ha.text, ← hb.text]
  · intro row hrow
    rw [forestRows_append] at hrow
    rcases List.mem_append.mp hrow with hrow | hrow
    · exact ha.flush row hrow
    · exact hb.flush row hrow

/-- A line with what is nested below it. -/
theorem node {line : String} (hline : Flush line) (ha : Spells unit (depth + 1) first a) :
    Spells unit depth [.node line first] (printText unit depth line ++ a) := by
  have hrows : forestRows depth [.node line first]
      = ⟨depth, line⟩ :: forestRows (depth + 1) first := List.append_nil _
  constructor
  · rw [hrows, List.map_cons, String.join_cons, ← ha.text, printText_of_flush hline]
  · rw [hrows]
    exact List.forall_mem_cons.mpr ⟨hline, ha.flush⟩

theorem leaf {line : String} (hline : Flush line) :
    Spells unit depth [.node line []] (printText unit depth line) := by
  have hnothing : Spells unit (depth + 1) [] "" := nil
  have hnode := node hline hnothing
  rwa [String.append_empty] at hnode

end Spells

mutual

theorem Statement.spells_print (unit : String) : (statement : Statement) → statement.Readable →
    (depth : Nat) → Spells unit depth statement.outline (statement.print unit depth)
  | .line text, h, depth => .leaf h
  | .assign target value, ⟨hname, htype, hvalue⟩, depth =>
    .leaf (flush_assignment hname htype hvalue)
  | .loop head body, ⟨hhead, hbody⟩, depth =>
    .node hhead.flush_header (spells_printSuite unit body hbody (depth + 1))
  | .cond _ body branches otherwise, ⟨hcondition, hbody, hbranches, hotherwise⟩, depth => by
    have hif := Spells.node (flush_ifHeader hcondition)
      (spells_printSuite unit body hbody (depth + 1))
    have hchain := hif.append (spells_printBranches unit branches hbranches depth)
    have hall := hchain.append (spells_printOtherwise unit otherwise hotherwise depth)
    rw [List.append_assoc] at hall
    exact hall
termination_by structural statement => statement

theorem spells_printBody (unit : String) : (body : List Statement) → ReadableIn body →
    (depth : Nat) → Spells unit depth (bodyOutline body) (printBody unit depth body)
  | [], _, _ => .nil
  | statement :: rest, ⟨hstatement, hrest⟩, depth =>
    (statement.spells_print unit hstatement depth).append (spells_printBody unit rest hrest depth)
termination_by structural body => body

theorem spells_printSuite (unit : String) : (body : List Statement) → ReadableIn body →
    (depth : Nat) → Spells unit depth (suiteOutline body) (printSuite unit depth body)
  | [], _, _ => .leaf flush_pass
  | statement :: rest, ⟨hstatement, hrest⟩, depth =>
    (statement.spells_print unit hstatement depth).append (spells_printBody unit rest hrest depth)
termination_by structural body => body

theorem spells_printBranches (unit : String) : (branches : List Branch) →
    ReadableInBranches branches → (depth : Nat) →
    Spells unit depth (branchesOutline branches) (printBranches unit depth branches)
  | [], _, _ => .nil
  | ⟨_, body⟩ :: rest, ⟨hcondition, hbody, hrest⟩, depth =>
    (Spells.node (flush_elifHeader hcondition)
      (spells_printSuite unit body hbody (depth + 1))).append
        (spells_printBranches unit rest hrest depth)
termination_by structural branches => branches

theorem spells_printOtherwise (unit : String) : (otherwise : Option (List Statement)) →
    ReadableInOtherwise otherwise → (depth : Nat) →
    Spells unit depth (otherwiseOutline otherwise) (printOtherwise unit depth otherwise)
  | none, _, _ => .nil
  | some body, h, depth => .node flush_elseHeader (spells_printSuite unit body h (depth + 1))
termination_by structural otherwise => otherwise

end

theorem Spells.readRows_eq {indent : Indent} {depth : Nat} {forest : List Outline} {text : String}
    (h : Spells indent.unit depth forest text) :
    readRows indent.unit text = forestRows depth forest := by
  rw [h.text]
  exact readRows_print indent _ h.flush

theorem text_emitBody (body : List Statement) (depth : Nat) (indent : Indent) :
    (emitBody body (.atDepth depth indent)).text = printBody indent.unit depth body := 
  (writes_emitBody body (.atDepth depth indent)).text_buffer

/-- The text of a body shows its outline: the indentation of each line is its depth in it, and
nesting the lines accordingly gives the whole outline. So bodies with different outlines have
different texts, whatever the depths at which they are written. -/
theorem readOutline_emitBody (indent : Indent) (depth : Nat) (body : List Statement)
    (h : ReadableIn body) :
    let text := (emitBody body (.atDepth depth indent)).text
    readRows indent.unit text = forestRows depth (bodyOutline body) ∧
    readOutline indent.unit text = bodyOutline body ∧
    ∀ other otherDepth, ReadableIn other → bodyOutline other ≠ bodyOutline body →
      (emitBody other (.atDepth otherDepth indent)).text ≠ text := by
  have hread {body : List Statement} (h : ReadableIn body) (depth : Nat) :
      readRows indent.unit (emitBody body (.atDepth depth indent)).text
        = forestRows depth (bodyOutline body) := by
    rw [text_emitBody]
    exact (spells_printBody indent.unit body h depth).readRows_eq
  have hnest {body : List Statement} (h : ReadableIn body) (depth : Nat) :
      readOutline indent.unit (emitBody body (.atDepth depth indent)).text = bodyOutline body := by
    rw [readOutline, hread h, nest_forestRows]
  refine ⟨hread h depth, hnest h depth, ?_⟩
  intro other otherDepth hother hdifferent hsame
  have hboth := congrArg (readOutline indent.unit) hsame
  rw [hnest hother, hnest h] at hboth
  exact hdifferent hboth

theorem readOutline_emitBody_nested :
    let body : List Statement :=
      [.cond "a" [.line "f()"] [⟨"b", []⟩]
        (some [.loop (.enumerate "i" "x" "xs") [.assign ⟨"y", "int"⟩ "x"], .line "g()"])]
    ReadableIn body ∧
    readOutline Indent.standard.unit (emitBody body (.atDepth 1 .standard)).text
      = [.node "if a:" [.node "f()" []], .node "elif b:" [.node "pass" []],
          .node "else:"
            [.node "for i, x in enumerate(xs):" [.node "y: int = x" []], .node "g()" []]] := by
  intro body
  have hname (c : Char) (hc : startsName c = true) : IsIdentifier [c] :=
    (isIdentifier_cons c []).mpr ⟨hc, fun _ h => nomatch h⟩
  have hthen : Flush "f()" := ⟨by decide, 'f', ['(', ')'], rfl, by decide⟩
  have hlast : Flush "g()" := ⟨by decide, 'g', ['(', ')'], rfl, by decide⟩
  have hassign : Statement.Readable (.assign ⟨"y", "int"⟩ "x") :=
    ⟨hname 'y' (by decide), by decide, by decide⟩
  have hhead : Loop.Readable (.enumerate "i" "x" "xs") :=
    ⟨hname 'i' (by decide), hname 'x' (by decide), by decide⟩
  have hbody : ReadableIn body :=
    ⟨⟨by decide, ⟨hthen, trivial⟩, ⟨by decide, trivial, trivial⟩,
      ⟨hhead, hassign, trivial⟩, hlast, trivial⟩, trivial⟩
  exact ⟨hbody, (readOutline_emitBody .standard 1 body hbody).2.1⟩

end PlanScribe
