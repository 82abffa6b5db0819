import PlanScribe.Proofs.Plan.Lowering

/-!
# Printing in one pass

The output of a plan as one recursion over it. The printer carries the depth of the line that it is
at and keeps no buffers, and it prints every part where it stands: a suite right after its header, a
constructor and a method right inside their class. What lowering collects in scopes and splices
together is the same text.
-/
namespace PlanScribe

/-! ## The printer -/

/-- A physical line behind its margin; of a line of white space only the line feed is printed. -/
def printLine (unit : String) (depth : Nat) (line : String) : String :=
  if Text.allBlank line.toList then "\n"
  else String.join (List.replicate depth unit) ++ line ++ "\n"

/-- Every physical line of a text; the empty text is one empty line. -/
def printText (unit : String) (depth : Nat) (text : String) : String :=
  if text = "" then "\n" else String.join ((Text.physicalLines text).map (printLine unit depth))

/-- A list of texts, one after the other. -/
def printTexts (unit : String) (depth : Nat) (texts : List String) : String :=
  String.join (texts.map (printText unit depth))

def printDoc (unit : String) (depth : Nat) (doc : String) : String :=
  if doc = "" then "" else printText unit depth ("\"\"\"" ++ doc ++ "\"\"\"")

mutual

def Statement.print (unit : String) (depth : Nat) : Statement → String
  | .line text => printText unit depth text
  | .assign target value => printText unit depth (target.slot.asTarget ++ " = " ++ value)
  | .loop head body => printText unit depth head.header ++ printSuite unit (depth + 1) body
  | .cond condition body branches otherwise =>
    printText unit depth ("if " ++ condition ++ ":") ++ printSuite unit (depth + 1) body
      ++ printBranches unit depth branches ++ printOtherwise unit depth otherwise
termination_by structural statement => statement

def printBody (unit : String) (depth : Nat) : List Statement → String
  | [] => ""
  | statement :: rest => statement.print unit depth ++ printBody unit depth rest
termination_by structural body => body

/-- The body of a compound statement; an empty one is `pass`. -/
def printSuite (unit : String) (depth : Nat) : List Statement → String
  | [] => printText unit depth "pass"
  | statement :: rest => statement.print unit depth ++ printBody unit depth rest
termination_by structural body => body

def printBranches (unit : String) (depth : Nat) : List Branch → String
  | [] => ""
  | ⟨condition, body⟩ :: rest =>
    printText unit depth ("elif " ++ condition ++ ":") ++ printSuite unit (depth + 1) body
      ++ printBranches unit depth rest
termination_by structural branches => branches

def printOtherwise (unit : String) (depth : Nat) : Option (List Statement) → String
  | none => ""
  | some body => printText unit depth "else:" ++ printSuite unit (depth + 1) body
termination_by structural body => body

end

/-- A function around its printed body: the head, the documentation, the body, the return
statement. -/
def Function.print (unit : String) (depth : Nat) (f : Function) (body : String) : String :=
  printText unit depth f.signature ++ printDoc unit (depth + 1) (f.doc.getD "") ++ body
    ++ printText unit (depth + 1) f.returnStatement

def FunctionDef.print (unit : String) (depth : Nat) (receiver : List Slot) (f : FunctionDef) :
    String :=
  { f.declaration with parameters := receiver ++ f.params.map ValueDef.slot }.print unit depth
    (printBody unit (depth + 1) f.body)

/-- The constructor stores its arguments in the fields before it does anything else. -/
def ClassDef.printConstructor (unit : String) (c : ClassDef) : String :=
  { name := "__init__", parameters := .receiver :: c.fields.map ValueDef.slot : Function }.print
    unit 1
    (printTexts unit 2 (c.fieldNames.map fun name => "self." ++ name ++ " = " ++ name)
      ++ printBody unit 2 c.init)

def ClassDef.print (unit : String) (c : ClassDef) : String :=
  printText unit 0 ("class " ++ c.name ++ ":") ++ printDoc unit 1 c.doc ++ c.printConstructor unit
    ++ String.join (c.methods.map fun m => "\n" ++ m.print unit 1 [.receiver])

/-- The output file of a plan. -/
def Plan.print (plan : Plan) : String :=
  let unit := plan.document.options.indent.unit
  let comment := ((plan.document.header.map Text.physicalLines).getD []).map fun line =>
    Document.commentLine line ++ "\n"
  String.join comment
    ++ (printTexts unit 0 plan.headerTexts ++ "\n")
    ++ (printTexts unit 0 (plan.globals.map GlobalDef.text) ++ "\n")
    ++ String.join (plan.classes.map fun c => c.print unit ++ "\n")
    ++ String.join (plan.functions.map fun f => f.print unit 0 [] ++ "\n")

/-! ## Writing a text -/

theorem indentedLine_append (indent : Indent) (depth : Nat) (line : String) :
    indentedLine indent depth line ++ "\n" = printLine indent.unit depth line := by
  unfold indentedLine printLine Indent.margin
  split
  · rfl
  · rfl

/-- The lines that a scope writes for a text are those that are printed for it. -/
theorem join_indentedLines (indent : Indent) (depth : Nat) (text : String) :
    String.join ((indentedLines indent depth text).map fun entry => entry ++ "\n")
      = printText indent.unit depth text := by
  unfold indentedLines printText
  split
  · rfl
  · rw [List.map_map]
    exact congrArg String.join (List.map_congr_left fun line _ => indentedLine_append ..)

theorem printLine_ne_empty (unit : String) (depth : Nat) (line : String) :
    printLine unit depth line ≠ "" := by
  unfold printLine
  split <;> simp

/-- Every text has a line to print. -/
theorem printText_ne_empty (unit : String) (depth : Nat) (text : String) :
    printText unit depth text ≠ "" := by
  unfold printText
  split
  · simp
  · rename_i htext
    have hlines : Text.physicalLines text ≠ [] := by
      simpa [Text.physicalLines, Text.lines_eq_nil_iff] using htext
    obtain ⟨line, rest, hcons⟩ := List.exists_cons_of_ne_nil hlines
    rw [hcons, List.map_cons, String.join_cons]
    intro h
    exact printLine_ne_empty unit depth line (String.append_eq_empty_iff.mp h).1

/-- The second scope is the first with a text written at its end. -/
structure Scope.Writes (before after : Scope) (text : String) : Prop where
  depth : after.depth = before.depth
  indent : after.indent = before.indent
  text : after.text = before.text ++ text

namespace Scope.Writes

variable {a b c : Scope} {first second : String}

theorem refl (a : Scope) : Writes a a "" := ⟨rfl, rfl, by simp⟩

theorem trans (hab : Writes a b first) (hbc : Writes b c second) :
    Writes a c (first ++ second) where
  depth := hbc.depth.trans hab.depth
  indent := hbc.indent.trans hab.indent
  text := by rw [hbc.text, hab.text, String.append_assoc]

/-- What is printed next is at the depth of the first scope. -/
theorem andThen (print : String → Nat → String) (hab : Writes a b first)
    (hbc : Writes b c (print b.indent.unit b.depth)) :
    Writes a c (first ++ print a.indent.unit a.depth) := by
  rw [hab.indent, hab.depth] at hbc
  exact hab.trans hbc

end Scope.Writes

namespace Scope

theorem writes_write (scope : Scope) (text : String) :
    Writes scope (scope.write text) (printText scope.indent.unit scope.depth text) := by
  refine ⟨rfl, rfl, ?_⟩
  rw [← join_indentedLines]
  simp [Scope.text, Buffer.text]

theorem writes_append (scope : Scope) (buffer : Buffer) :
    Writes scope (scope.append buffer) buffer.text :=
  ⟨rfl, rfl, Buffer.text_append _ _⟩

theorem writes_writeBlank (scope : Scope) : Writes scope scope.writeBlank "\n" :=
  ⟨rfl, rfl, Buffer.text_push _ _⟩

theorem Writes.text_buffer {depth : Nat} {indent : Indent} {inner : Scope} {text : String}
    (h : Writes (.atDepth depth indent) inner text) : inner.buffer.text = text := by
  have htext := h.text
  rwa [show (Scope.atDepth depth indent).text = "" from rfl, String.empty_append] at htext

/-- What was written into a scope of its own joins another one as it is. -/
theorem writes_splice (scope : Scope) {depth : Nat} {indent : Indent} {inner : Scope}
    {text : String} (h : Writes (.atDepth depth indent) inner text) :
    Writes scope (scope.splice inner) text := by
  have happend := scope.writes_append inner.buffer
  rwa [h.text_buffer] at happend

theorem isEmpty_iff (scope : Scope) : scope.isEmpty = true ↔ scope.text = "" := by
  unfold isEmpty Buffer.isEmpty text Buffer.text
  cases scope.buffer.entries with
  | nil => simp
  | cons entry rest => simp [String.append_eq_empty_iff]

theorem writes_orPass {depth : Nat} {indent : Indent} {suite : Scope} {body : String}
    (h : Writes (.atDepth depth indent) suite body) :
    Writes (.atDepth depth indent) suite.orPass
      (if body = "" then printText indent.unit depth "pass" else body) := by
  have hempty : suite.isEmpty = true ↔ body = "" := by rw [isEmpty_iff, text, h.text_buffer]
  unfold orPass
  by_cases hb : body = ""
  · have hpass := h.andThen (printText · · "pass") (suite.writes_write _)
    rw [if_pos (hempty.mpr hb), if_pos hb]
    rwa [hb, String.empty_append] at hpass
  · rwa [if_neg (mt hempty.mp hb), if_neg hb]

theorem writes_writeAll (scope : Scope) (texts : List String) :
    Writes scope (scope.writeAll texts) (printTexts scope.indent.unit scope.depth texts) := by
  induction texts generalizing scope with
  | nil => exact .refl scope
  | cons text rest ih =>
    have hrest := (scope.writes_write text).trans (ih (scope.write text))
    rwa [printTexts, List.map_cons, String.join_cons]

theorem writes_writeDoc (scope : Scope) (doc : String) :
    Writes scope (scope.writeDoc doc) (printDoc scope.indent.unit scope.depth doc) := by
  unfold writeDoc printDoc
  split
  · exact .refl scope
  · exact scope.writes_write _

end Scope

/-! ## Statements -/

theorem Statement.print_ne_empty (unit : String) (depth : Nat) (statement : Statement) :
    statement.print unit depth ≠ "" := by
  cases statement with
  | line text => exact printText_ne_empty unit depth _
  | assign target value => exact printText_ne_empty unit depth _
  | loop head body =>
    simp [print, String.append_eq_empty_iff, printText_ne_empty]
  | cond condition body branches otherwise =>
    simp [print, String.append_eq_empty_iff, printText_ne_empty]

/-- Only a body without statements prints nothing, so it is `pass` where a suite is needed. -/
theorem printSuite_eq (unit : String) (depth : Nat) (body : List Statement) :
    printSuite unit depth body
      = if printBody unit depth body = "" then printText unit depth "pass"
        else printBody unit depth body := by
  cases body with
  | nil => rfl
  | cons statement rest =>
    rw [if_neg]
    · rfl
    · intro h
      exact statement.print_ne_empty unit depth (String.append_eq_empty_iff.mp h).1

theorem Scope.writes_enclose {scope suite : Scope} (header : String) {body : List Statement}
    (h : Writes scope.child suite (printBody scope.indent.unit (scope.depth + 1) body)) :
    Writes scope (scope.enclose header suite)
      (printText scope.indent.unit scope.depth header
        ++ printSuite scope.indent.unit (scope.depth + 1) body) := by
  rw [printSuite_eq]
  exact (scope.writes_write header).trans (writes_splice _ (writes_orPass h))

-- `Writes` keeps depth and indentation, so what follows a statement is printed at the same depth.
mutual

theorem Statement.writes_emit : (statement : Statement) → (scope : Scope) →
    scope.Writes (statement.emit scope) (statement.print scope.indent.unit scope.depth)
  | .line text, scope => scope.writes_write text
  | .assign target value, scope => scope.writes_write _
  | .loop head body, scope => Scope.writes_enclose head.header (writes_emitBody body scope.child)
  | .cond condition body branches otherwise, scope => by
    have hbody := Scope.writes_enclose (ifHeader condition) (writes_emitBody body scope.child)
    have hbranches := hbody.andThen (printBranches · · branches) (writes_emitBranches branches _)
    exact hbranches.andThen (printOtherwise · · otherwise) (writes_emitOtherwise otherwise _)
termination_by structural statement => statement

theorem writes_emitBody : (body : List Statement) → (scope : Scope) →
    scope.Writes (emitBody body scope) (printBody scope.indent.unit scope.depth body)
  | [], scope => .refl scope
  | statement :: rest, scope =>
    (statement.writes_emit scope).andThen (printBody · · rest) (writes_emitBody rest _)
termination_by structural body => body

theorem writes_emitBranches : (branches : List Branch) → (scope : Scope) →
    scope.Writes (emitBranches branches scope)
      (printBranches scope.indent.unit scope.depth branches)
  | [], scope => .refl scope
  | ⟨condition, body⟩ :: rest, scope =>
    (Scope.writes_enclose (elifHeader condition) (writes_emitBody body scope.child)).andThen
      (printBranches · · rest) (writes_emitBranches rest _)
termination_by structural branches => branches

theorem writes_emitOtherwise : (otherwise : Option (List Statement)) → (scope : Scope) →
    scope.Writes (emitOtherwise otherwise scope)
      (printOtherwise scope.indent.unit scope.depth otherwise)
  | none, scope => .refl scope
  | some body, scope => Scope.writes_enclose elseHeader (writes_emitBody body scope.child)
termination_by structural otherwise => otherwise

end

/-! ## Functions and classes -/

namespace Function

variable (f : Function) (depth : Nat) (indent : Indent)

theorem writes_block :
    Scope.Writes (.atDepth (depth + 1) indent) (f.block depth indent)
      (printDoc indent.unit (depth + 1) (f.doc.getD "")) :=
  (Scope.atDepth (depth + 1) indent).writes_writeDoc _

theorem text_close {inner : Scope} {body : String}
    (h : Scope.Writes (f.block depth indent) inner body) :
    (f.close depth indent inner).text = f.print indent.unit depth body := by
  have hinner := (f.writes_block depth indent).trans h
  have hreturned := hinner.andThen (printText · · f.returnStatement) (inner.writes_write _)
  have houter := (Scope.atDepth depth indent).writes_write f.signature
  have hclosed := houter.trans (Scope.writes_splice _ hreturned)
  rw [close, hclosed.text_buffer, print]
  simp only [String.append_assoc, Scope.atDepth]

theorem text_withStatements (body : List Statement) :
    (f.withStatements depth indent body).text
      = f.print indent.unit depth (printBody indent.unit (depth + 1) body) := by
  have hbody := writes_emitBody body (f.block depth indent)
  rw [(f.writes_block depth indent).indent, (f.writes_block depth indent).depth] at hbody
  exact f.text_close depth indent hbody

end Function

theorem FunctionDef.text_function (f : FunctionDef) (depth : Nat) (indent : Indent) :
    (f.declaration.withStatements depth indent f.body).text = f.print indent.unit depth [] :=
  f.declaration.text_withStatements depth indent f.body

theorem FunctionDef.text_method (f : FunctionDef) (depth : Nat) (indent : Indent) :
    (f.declaration.withReceiver.withStatements depth indent f.body).text
      = f.print indent.unit depth [.receiver] := by
  rw [f.withReceiver_declaration]
  exact Function.text_withStatements _ depth indent f.body

namespace ClassBuild

theorem writes_methods (scope : Scope) (methods : List Buffer) :
    scope.Writes (methods.foldl (fun scope text => scope.writeBlank.append text) scope)
      (String.join (methods.map fun method => "\n" ++ method.text)) := by
  induction methods generalizing scope with
  | nil => exact .refl scope
  | cons method rest ih =>
    have hmethod := scope.writes_writeBlank.trans (Scope.writes_append _ method)
    have hrest := hmethod.trans (ih (scope.writeBlank.append method))
    rwa [List.map_cons, String.join_cons]

theorem text_assemble (cls : ClassBuild) (constructor : Buffer) :
    (cls.assemble constructor).text
      = printText cls.indent.unit cls.depth ("class " ++ cls.name ++ ":")
        ++ printDoc cls.indent.unit (cls.depth + 1) cls.doc ++ constructor.text
        ++ String.join (cls.methods.map fun method => "\n" ++ method.text) := by
  have hdoc := (Scope.atDepth (cls.depth + 1) cls.indent).writes_writeDoc cls.doc
  have hopened := hdoc.trans (Scope.writes_append _ constructor)
  have hbody := hopened.trans (writes_methods _ cls.methods)
  have houter := (Scope.atDepth cls.depth cls.indent).writes_write s!"class {cls.name}:"
  have hclass := houter.trans (Scope.writes_splice _ hbody)
  exact hclass.text_buffer.trans (by simp only [String.append_assoc, Scope.atDepth]; rfl)

theorem writes_storing (cls : ClassBuild) (block : Scope) :
    block.Writes (cls.storing block)
      (printTexts block.indent.unit block.depth (cls.fields.map storeField) ++ cls.setup.text) :=
  (block.writes_writeAll _).trans (Scope.writes_append _ _)

/-- A class that can be rendered, from its head to its last method. -/
theorem text_assembled (cls : ClassBuild) :
    cls.assembled.text
      = printText cls.indent.unit cls.depth ("class " ++ cls.name ++ ":")
        ++ printDoc cls.indent.unit (cls.depth + 1) cls.doc
        ++ cls.constructor.print cls.indent.unit (cls.depth + 1)
          (printTexts cls.indent.unit (cls.depth + 2) (cls.fields.map storeField)
            ++ cls.setup.text)
        ++ String.join (cls.methods.map fun method => "\n" ++ method.text) := by
  have hbody := cls.writes_storing (cls.constructor.block (cls.depth + 1) cls.indent)
  rw [assembled, text_assemble, cls.constructor.text_close _ _ hbody]
  rfl

end ClassBuild

namespace ClassDef

variable (c : ClassDef) (indent : Indent)

theorem text_assembled : (c.lowered indent).assembled.text = c.print indent.unit := by
  have hfields : (c.lowered indent).fields.map ClassBuild.storeField
      = c.fieldNames.map fun name => "self." ++ name ++ " = " ++ name := by
    simp only [lowered, fieldNames, List.map_map]
    rfl
  have hsetup : (c.lowered indent).setup.text = printBody indent.unit 2 c.init :=
    (writes_emitBody c.init (.atDepth 2 indent)).text_buffer
  have hmethods : (c.lowered indent).methods.map (fun method => "\n" ++ method.text)
      = c.methods.map fun m => "\n" ++ m.print indent.unit 1 [.receiver] := by
    simp only [lowered, List.map_map, Function.comp_def, FunctionDef.text_method]
  rw [ClassBuild.text_assembled, hfields, hsetup, hmethods]
  rfl

end ClassDef

/-! ## The document -/

namespace Document

theorem text_headerComment (options : DocumentOptions) :
    (headerComment options).text
      = String.join (((options.header.map Text.physicalLines).getD []).map fun line =>
          commentLine line ++ "\n") := by
  simp only [headerComment, Buffer.ofEntries, Buffer.text, List.map_map, Function.comp_def]

theorem text_separated (items : List Buffer) :
    Buffer.text ⟨items.flatMap fun item => item.entries ++ [""]⟩
      = String.join (items.map fun item => item.text ++ "\n") := by
  induction items with
  | nil => rfl
  | cons item rest ih =>
    rw [List.map_cons, String.join_cons, ← ih]
    simp [Buffer.text, String.append_assoc]

end Document

namespace Plan

theorem text_built (plan : Plan) :
    (plan.built.assemble (plan.built.classes.map ClassBuild.assembled)).text = plan.print := by
  have hheader : plan.built.header.buffer.text
      = printTexts plan.document.options.indent.unit 0 plan.headerTexts :=
    (Scope.writes_writeAll (.atDepth 0 _) plan.headerTexts).text_buffer
  have hglobals : plan.built.globals.buffer.text
      = printTexts plan.document.options.indent.unit 0 (plan.globals.map GlobalDef.text) :=
    (Scope.writes_writeAll (.atDepth 0 _) _).text_buffer
  have hclasses : (plan.built.classes.map ClassBuild.assembled).map (fun cls => cls.text ++ "\n")
      = plan.classes.map fun c => c.print plan.document.options.indent.unit ++ "\n" := by
    have hbuilt : plan.built.classes
        = plan.classes.map fun c => c.lowered plan.document.options.indent := rfl
    rw [hbuilt, List.map_map, List.map_map]
    exact List.map_congr_left fun c _ => congrArg (· ++ "\n") (c.text_assembled _)
  have hfunctions : plan.built.functions.map (fun function => function.text ++ "\n")
      = plan.functions.map fun f => f.print plan.document.options.indent.unit 0 [] ++ "\n" := by
    have hbuilt : plan.built.functions = plan.functions.map fun f =>
        f.declaration.withStatements 0 plan.document.options.indent f.body := rfl
    rw [hbuilt, List.map_map]
    exact List.map_congr_left fun f _ => congrArg (· ++ "\n") (f.text_function 0 _)
  rw [Document.assemble, Buffer.text_append, Document.text_headerComment, Document.text_separated,
    List.map_cons, List.map_cons, List.map_append, hheader, hglobals, hclasses, hfunctions]
  simp only [String.join_cons, String.join_append, print, String.append_assoc]
  rfl

/-- A plan is rendered exactly if nothing in it clashes, and its output is what is printed for it in
one pass. -/
theorem render_eq_ok_iff_print (plan : Plan) (text : String) :
    plan.render = .ok text ↔ ¬ plan.Clashing ∧ text = plan.print := by
  constructor
  · intro hok
    have hclash : ¬ plan.Clashing := by
      intro hc
      obtain ⟨e, he⟩ :=
        Option.ne_none_iff_exists'.mp (mt plan.firstClash_eq_none_iff.mp (not_not.mpr hc))
      rw [(plan.render_eq_error_iff e).mpr he] at hok
      cases hok
    rw [plan.render_of_not_clashing hclash, plan.text_built] at hok
    exact ⟨hclash, (Except.ok.inj hok).symm⟩
  · rintro ⟨hclash, rfl⟩
    rw [plan.render_of_not_clashing hclash, plan.text_built]

example :
    ({ functions := [{ name := "f", body := [.loop (.whileTrue "x") []] }] } : Plan).print
      = "\n\ndef f() -> None:\n    while x:\n        pass\n    return\n\n" := by
  decide +kernel

end Plan

end PlanScribe
