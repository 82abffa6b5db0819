import PlanScribe.Plan.Lower
import PlanScribe.Proofs.Build.Completion
import PlanScribe.Proofs.Layout.Margins

/-!
# Parts of a block

What a block program or a described body leaves in its block is a forest of texts and compound
statements. It is written into the block in one go: each text at the depth of the block, each
header there too, and each suite one level deeper.
-/
namespace PlanScribe

/-! ## What is left in a block -/

/-- The head of a compound statement. -/
inductive Head
  | ifTrue (condition : String)
  | elifTrue (condition : String)
  | otherwise
  | loop (head : Loop)
deriving DecidableEq, Repr

/-- The header line. -/
def Head.line : Head → String
  | ifTrue condition => ifHeader condition
  | elifTrue condition => elifHeader condition
  | otherwise => elseHeader
  | loop head => head.header

/-- A part of a block: a text at the depth of the block, lines that are kept as they are, or a
compound statement. -/
inductive Part
  | text (text : String)
  | verbatim (lines : List String)
  | compound (head : Head) (suite : List Part)

mutual

/-- What a call leaves in its block if it does not fail. -/
def BlockStep.parts : BlockStep → List Part
  | .write text => [.text text]
  | .writeFilled template arguments =>
    match interpolate template (arguments.map Argument.written) with
    | .ok text => [.text text]
    | .error _ => []
  | .blank => [.text ""]
  | .append lines => [.verbatim lines]
  | .assign target expression => [.text (assignment target expression)]
  | .cond condition body branches otherwise =>
    .compound (.ifTrue condition) (partsIn body)
      :: (partsInBranches branches ++ partsInOtherwise otherwise)
  | .loop head body => [.compound (.loop head) (partsIn body)]
  | .peek | .fail _ => []
  | .attempt body => partsIn body
termination_by structural step => step

def partsIn : List BlockStep → List Part
  | [] => []
  | step :: rest => step.parts ++ partsIn rest
termination_by structural steps => steps

def partsInBranches : List BlockBranch → List Part
  | [] => []
  | ⟨condition, body⟩ :: rest =>
    .compound (.elifTrue condition) (partsIn body) :: partsInBranches rest
termination_by structural branches => branches

def partsInOtherwise : Option (List BlockStep) → List Part
  | none => []
  | some body => [.compound .otherwise (partsIn body)]
termination_by structural body => body

end

mutual

/-- What a described statement leaves in its block. -/
def Statement.parts : Statement → List Part
  | .line text => [.text text]
  | .assign target value => [.text (assignment target.slot value)]
  | .loop head body => [.compound (.loop head) (bodyParts body)]
  | .cond condition body branches otherwise =>
    .compound (.ifTrue condition) (bodyParts body)
      :: (branchParts branches ++ otherwiseParts otherwise)
termination_by structural statement => statement

def bodyParts : List Statement → List Part
  | [] => []
  | statement :: rest => statement.parts ++ bodyParts rest
termination_by structural body => body

def branchParts : List Branch → List Part
  | [] => []
  | ⟨condition, body⟩ :: rest =>
    .compound (.elifTrue condition) (bodyParts body) :: branchParts rest
termination_by structural branches => branches

def otherwiseParts : Option (List Statement) → List Part
  | none => []
  | some body => [.compound .otherwise (bodyParts body)]
termination_by structural body => body

end

/-- The entries of a suite; `pass` stands for none. -/
def passIfNone (indent : Indent) (depth : Nat) (entries : List String) : List String :=
  if entries = [] then indentedLines indent depth "pass" else entries

mutual

/-- The entries that a part adds to a block at the given depth. -/
def Part.entries (indent : Indent) (depth : Nat) : Part → List String
  | .text text => indentedLines indent depth text
  | .verbatim lines => lines
  | .compound head suite =>
    indentedLines indent depth head.line
      ++ passIfNone indent (depth + 1) (entriesOf indent (depth + 1) suite)
termination_by structural part => part

def entriesOf (indent : Indent) (depth : Nat) : List Part → List String
  | [] => []
  | part :: rest => part.entries indent depth ++ entriesOf indent depth rest
termination_by structural parts => parts

end

/-! ## Scopes that grow -/

namespace Scope

variable (scope : Scope)

theorem enclose_extend (header : String) (entries : List String) :
    scope.enclose header (scope.child.extend entries)
      = scope.extend (indentedLines scope.indent scope.depth header
          ++ passIfNone scope.indent (scope.depth + 1) entries) := by
  have hpass : (scope.child.extend entries).orPass.buffer
      = .ofEntries (passIfNone scope.indent (scope.depth + 1) entries) := by
    unfold orPass passIfNone
    cases entries <;> rfl
  rw [enclose, splice, hpass, write_eq_extend, ← extend_extend]
  rfl

end Scope

theorem entriesOf_append (indent : Indent) (depth : Nat) (first second : List Part) :
    entriesOf indent depth (first ++ second)
      = entriesOf indent depth first ++ entriesOf indent depth second := by
  induction first with
  | nil => rfl
  | cons part rest ih => rw [List.cons_append, entriesOf, entriesOf, ih, List.append_assoc]

theorem entriesOf_singleton (indent : Indent) (depth : Nat) (part : Part) :
    entriesOf indent depth [part] = part.entries indent depth := List.append_nil _

namespace Scope

variable (scope : Scope)

/-- Extends a scope by parts at its own depth. -/
def extendBy (parts : List Part) : Scope :=
  scope.extend (entriesOf scope.indent scope.depth parts)

theorem extendBy_append (first second : List Part) :
    scope.extendBy (first ++ second) = (scope.extendBy first).extendBy second := by
  unfold extendBy
  rw [entriesOf_append, ← extend_extend]
  rfl

theorem extendBy_compound (head : Head) (suite : List Part) :
    scope.extendBy [.compound head suite]
      = scope.enclose head.line (scope.child.extendBy suite) := by
  unfold extendBy
  rw [entriesOf_singleton, Part.entries, enclose_extend]
  rfl

theorem extendBy_text (text : String) : scope.extendBy [.text text] = scope.write text := by
  unfold extendBy
  rw [entriesOf_singleton]
  rfl

end Scope

/-! ## Programs leave their parts -/

theorem state_runFilled (template : String) (arguments : List Argument) (scope : Scope) :
    ((BlockStep.writeFilled template arguments).run scope).state
      = scope.extendBy (BlockStep.writeFilled template arguments).parts := by
  unfold BlockStep.run BlockStep.parts Scope.writeFilled
  cases interpolate template (arguments.map Argument.written) with
  | ok text => exact (scope.extendBy_text text).symm
  | error e => exact scope.extend_nil.symm

theorem state_nest_of_faultless {scope : Scope} (head : Head) {body : List BlockStep}
    (h : FaultlessIn body)
    (hbody : (runBlock body scope.child).state = scope.child.extendBy (partsIn body)) :
    (scope.nest head.line (runBlock body)).state
      = scope.extendBy [.compound head (partsIn body)] := by
  have hnone := (error_runBlock body scope.child).trans (raisedIn_of_faultless body h)
  rw [Scope.state_nest, if_pos hnone, hbody, scope.extendBy_compound]

-- No call fails, so each call goes on where the one before it has left the scope.
mutual

theorem BlockStep.state_run_of_faultless : (step : BlockStep) → step.Faultless →
    (scope : Scope) → (step.run scope).state = scope.extendBy step.parts
  | .write text, _, scope => (scope.extendBy_text text).symm
  | .writeFilled template arguments, _, scope => state_runFilled template arguments scope
  | .blank, _, scope => (scope.extendBy_text "").symm
  | .append lines, _, scope => by
    rw [BlockStep.parts, Scope.extendBy, entriesOf_singleton]
    rfl
  | .assign target expression, _, scope => (scope.extendBy_text _).symm
  | .cond condition body branches otherwise, ⟨hbody, hbranches, hotherwise⟩, scope => by
    have hif := state_nest_of_faultless (.ifTrue condition) hbody
      (state_runBlock_of_faultless body hbody scope.child)
    rw [state_runCond, if_pos (raisedIn_of_faultless body hbody),
      if_pos (raisedInBranches_of_faultless branches hbranches),
      state_runOtherwise_of_faultless otherwise hotherwise,
      state_runBranches_of_faultless branches hbranches,
      show ifHeader condition = (Head.ifTrue condition).line from rfl, hif,
      ← Scope.extendBy_append, ← Scope.extendBy_append, List.singleton_append, BlockStep.parts]
  | .loop head body, h, scope =>
    state_nest_of_faultless (.loop head) h (state_runBlock_of_faultless body h scope.child)
  | .peek, _, scope => scope.extend_nil.symm
  | .fail _, h, _ => h.elim
  | .attempt body, h, scope => by
    rw [BlockStep.run, Run.state_recovered, state_runBlock_of_faultless body h, BlockStep.parts]
termination_by structural step => step

theorem state_runBlock_of_faultless : (steps : List BlockStep) → FaultlessIn steps →
    (scope : Scope) → (runBlock steps scope).state = scope.extendBy (partsIn steps)
  | [], _, scope => scope.extend_nil.symm
  | step :: rest, ⟨hstep, hrest⟩, scope => by
    have hnone := (step.error_run scope).trans (step.raised_of_faultless hstep)
    rw [runBlock, Run.state_andThen, if_pos hnone, step.state_run_of_faultless hstep,
      state_runBlock_of_faultless rest hrest, ← Scope.extendBy_append, partsIn]
termination_by structural steps => steps

theorem state_runBranches_of_faultless : (branches : List BlockBranch) →
    FaultlessInBranches branches → (scope : Scope) →
    (runBranches branches scope).state = scope.extendBy (partsInBranches branches)
  | [], _, scope => scope.extend_nil.symm
  | ⟨condition, body⟩ :: rest, ⟨hbody, hrest⟩, scope => by
    have helif := state_nest_of_faultless (.elifTrue condition) hbody
      (state_runBlock_of_faultless body hbody scope.child)
    rw [state_runBranches_cons, if_pos (raisedIn_of_faultless body hbody),
      show elifHeader condition = (Head.elifTrue condition).line from rfl, helif,
      state_runBranches_of_faultless rest hrest, ← Scope.extendBy_append, List.singleton_append,
      partsInBranches]
termination_by structural branches => branches

theorem state_runOtherwise_of_faultless : (otherwise : Option (List BlockStep)) →
    FaultlessInOtherwise otherwise → (scope : Scope) →
    (runOtherwise otherwise scope).state = scope.extendBy (partsInOtherwise otherwise)
  | none, _, scope => scope.extend_nil.symm
  | some body, h, scope => by
    rw [state_runOtherwise_some]
    exact state_nest_of_faultless .otherwise h (state_runBlock_of_faultless body h scope.child)
termination_by structural otherwise => otherwise

end

/-- What a program leaves, whether it fails or not, are the parts of its completed calls. -/
theorem state_runBlock_eq_extendBy (program : List BlockStep) (scope : Scope) :
    (runBlock program scope).state = scope.extendBy (partsIn (completedIn program)) := by
  rw [← state_runBlock_completedIn program]
  exact state_runBlock_of_faultless _ (faultless_completedIn program) scope

mutual

theorem Statement.emit_eq_extendBy : (statement : Statement) → (scope : Scope) →
    statement.emit scope = scope.extendBy statement.parts
  | .line text, scope => (scope.extendBy_text text).symm
  | .assign target value, scope => (scope.extendBy_text _).symm
  | .loop head body, scope => by
    rw [Statement.emit, emitBody_eq_extendBy body]
    exact (scope.extendBy_compound (.loop head) (bodyParts body)).symm
  | .cond condition body branches otherwise, scope => by
    have hif := scope.extendBy_compound (.ifTrue condition) (bodyParts body)
    rw [Statement.emit, emitBody_eq_extendBy body, emitOtherwise_eq_extendBy otherwise,
      emitBranches_eq_extendBy branches,
      show ifHeader condition = (Head.ifTrue condition).line from rfl, ← hif,
      ← Scope.extendBy_append, ← Scope.extendBy_append, List.singleton_append, Statement.parts]
termination_by structural statement => statement

theorem emitBody_eq_extendBy : (body : List Statement) → (scope : Scope) →
    emitBody body scope = scope.extendBy (bodyParts body)
  | [], scope => scope.extend_nil.symm
  | statement :: rest, scope => by
    rw [emitBody, statement.emit_eq_extendBy, emitBody_eq_extendBy rest, ← Scope.extendBy_append,
      bodyParts]
termination_by structural body => body

theorem emitBranches_eq_extendBy : (branches : List Branch) → (scope : Scope) →
    emitBranches branches scope = scope.extendBy (branchParts branches)
  | [], scope => scope.extend_nil.symm
  | ⟨condition, body⟩ :: rest, scope => by
    have helif := scope.extendBy_compound (.elifTrue condition) (bodyParts body)
    rw [emitBranches, emitBody_eq_extendBy body,
      show elifHeader condition = (Head.elifTrue condition).line from rfl, ← helif,
      emitBranches_eq_extendBy rest, ← Scope.extendBy_append, List.singleton_append, branchParts]
termination_by structural branches => branches

theorem emitOtherwise_eq_extendBy : (otherwise : Option (List Statement)) → (scope : Scope) →
    emitOtherwise otherwise scope = scope.extendBy (otherwiseParts otherwise)
  | none, scope => scope.extend_nil.symm
  | some body, scope => by
    rw [emitOtherwise, emitBody_eq_extendBy body]
    exact (scope.extendBy_compound .otherwise (bodyParts body)).symm
termination_by structural otherwise => otherwise

end

end PlanScribe
