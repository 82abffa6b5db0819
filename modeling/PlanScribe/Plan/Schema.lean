import PlanScribe.Plan.Basic
import PlanScribe.Plan.Record

/-!
# The schema of plans

Every description is a record. A statement is told by the fields it has: it is the first of the
six kinds that fits all of it. Statements nest, so bodies are decoded from the leaves up: each node
of a tree is decoded in every role in which it may stand in a body, and its parent takes the roles
that it needs.
-/
namespace PlanScribe

/-- What the file format leaves to the schema. -/
inductive Format
  | toml
  | json
deriving DecidableEq, Repr

/-- An array that is read as a record may be longer than the record. -/
def Format.allowsSurplus : Format → Bool
  | toml => true
  | json => false

/-- The tree fills the place of a value that is not there. -/
def Format.isUnit : Format → Tree → Bool
  | toml, .table [] | toml, .array [] => true
  | json, .null => true
  | _, _ => false

namespace Tree

def isNull : Tree → Bool
  | null => true
  | _ => false

def text? : Tree → Option String
  | text value => some value
  | _ => none

def boolean? : Tree → Option Bool
  | boolean value => some value
  | _ => none

/-- An integer that fits into a signed word of 64 bits. -/
def word? : Tree → Option Int64
  | integer n =>
    if Int64.minValue.toInt ≤ n ∧ n ≤ Int64.maxValue.toInt then some (Int64.ofInt n) else none
  | _ => none

/-- An integer that fits into an unsigned byte. -/
def byte? : Tree → Option UInt8
  | integer n => if 0 ≤ n ∧ n < 256 then some (UInt8.ofNat n.toNat) else none
  | _ => none

/-- The items of an array, each read in the same way. -/
def list? {α : Type} (read : Tree → Option α) : Tree → Option (List α)
  | array items => items.mapM read
  | _ => none

/-- The fields of a record. -/
def fields? (surplus : Bool) (names : List String) : Tree → Option (List (Option Tree))
  | array items => Record.positional surplus names items
  | table entries => Record.named names entries
  | _ => none

end Tree

/-- What a node of a tree means in each of the places inside a body. -/
structure Roles where
  isNull : Bool := false
  text : Option String := none
  word : Option Int64 := none
  value : Option ValueDef := none
  body : Option (List Statement) := none
  branch : Option Branch := none
  branches : Option (List Branch) := none
  statement : Option Statement := none

namespace Roles

/-- The fields of a node that is a record, by their names. -/
abbrev Row := List String → Option (List (Option Roles))

def valueNames : List String := ["name", "type"]
def branchNames : List String := ["if", "then"]
def condNames : List String := ["if", "then", "elif", "else"]
def whileNames : List String := ["while", "body"]
def rangeNames : List String := ["for", "start", "end", "body"]
def enumerateNames : List String := ["enumerate", "index", "item", "body"]
def assignNames : List String := ["assign", "value"]

def value? (row : Row) : Option ValueDef :=
  match row valueNames with
  | some [name, annotation] => do
    return { name := ← Record.required text name,
             annotation := ← Record.orElse "" text annotation }
  | _ => none

def branch? (row : Row) : Option Branch :=
  match row branchNames with
  | some [condition, suite] => do
    return { condition := ← Record.required text condition, body := ← Record.orElse [] body suite }
  | _ => none

def cond? (row : Row) : Option Statement :=
  match row condNames with
  | some [condition, suite, more, otherwise] => do
    return .cond (← Record.required text condition) (← Record.orElse [] body suite)
      (← Record.orElse [] branches more) (← Record.optional isNull body otherwise)
  | _ => none

def while? (row : Row) : Option Statement :=
  match row whileNames with
  | some [condition, suite] => do
    return .loop (.whileTrue (← Record.required text condition)) (← Record.orElse [] body suite)
  | _ => none

def range? (row : Row) : Option Statement :=
  match row rangeNames with
  | some [counter, start, stop, suite] => do
    return .loop
      (.range (← Record.required text counter) (← Record.required word start)
        (← Record.required word stop))
      (← Record.orElse [] body suite)
  | _ => none

def enumerate? (row : Row) : Option Statement :=
  match row enumerateNames with
  | some [iterable, index, item, suite] => do
    let iterable ← Record.required text iterable
    return .loop
      (.enumerate (← Record.required text index) (← Record.required text item) iterable)
      (← Record.orElse [] body suite)
  | _ => none

def assign? (row : Row) : Option Statement :=
  match row assignNames with
  | some [target, expression] => do
    return .assign (← Record.required value target) (← Record.required text expression)
  | _ => none

/-- The statement that a record stands for. -/
def statement? (row : Row) : Option Statement :=
  cond? row <|> while? row <|> range? row <|> enumerate? row <|> assign? row

/-- The roles of a record. -/
def ofRow (row : Row) : Roles :=
  { value := value? row, branch := branch? row, statement := statement? row }

def ofArray (items : List Roles) : Roles :=
  { ofRow (fun names => Record.positional false names items) with
    body := items.mapM Roles.statement
    branches := items.mapM Roles.branch }

def ofTable (entries : List (String × Roles)) : Roles :=
  ofRow fun names => Record.named names entries

end Roles

mutual

/-- The roles of a tree. -/
def Tree.roles : Tree → Roles
  | .null => { isNull := true }
  | .text value => { text := some value, statement := some (.line value) }
  | .integer n => { word := (Tree.integer n).word? }
  | .boolean _ | .decimal _ | .moment _ => {}
  | .array items => .ofArray (rolesOfItems items)
  | .table entries => .ofTable (rolesOfEntries entries)
termination_by structural tree => tree

def rolesOfItems : List Tree → List Roles
  | [] => []
  | item :: rest => item.roles :: rolesOfItems rest
termination_by structural items => items

def rolesOfEntries : List (String × Tree) → List (String × Roles)
  | [] => []
  | (key, item) :: rest => (key, item.roles) :: rolesOfEntries rest
termination_by structural entries => entries

end

theorem rolesOfItems_eq (items : List Tree) : rolesOfItems items = items.map Tree.roles := by
  induction items <;> simp_all [rolesOfItems]

theorem rolesOfEntries_eq (entries : List (String × Tree)) :
    rolesOfEntries entries = entries.map fun e => (e.1, e.2.roles) := by
  induction entries <;> simp_all [rolesOfEntries]

namespace Schema

open Record

variable (format : Format)

/-- The fields of a description. -/
def row (names : List String) (tree : Tree) : Option (List (Option Tree)) :=
  tree.fields? format.allowsSurplus names

def texts : Tree → Option (List String) := Tree.list? Tree.text?

/-- The statements of a body. -/
def body (tree : Tree) : Option (List Statement) := tree.roles.body

/-- A text that may be left out or be null. -/
def optionalText : Option Tree → Option (Option String) := optional Tree.isNull Tree.text?

def value (tree : Tree) : Option ValueDef :=
  match row format ["name", "type"] tree with
  | some [name, annotation] => do
    return { name := ← required Tree.text? name,
             annotation := ← orElse "" Tree.text? annotation }
  | _ => none

def overwriteNamed : String → Option Overwrite
  | "always" => some .always
  | "if-missing" => some .ifMissing
  | _ => none

/-- The rule for existing files: its name, or its name as the only key of a table without a
value. -/
def overwrite : Tree → Option Overwrite
  | .text name => overwriteNamed name
  | .table [(name, payload)] => if format.isUnit payload then overwriteNamed name else none
  | _ => none

def document (tree : Tree) : Option DocumentConfig :=
  match row format ["indent", "tabs", "overwrite", "header"] tree with
  | some [indent, tabs, rule, header] => do
    return { indent := ← optional Tree.isNull Tree.byte? indent
             tabs := ← orElse false Tree.boolean? tabs
             overwrite := ← orElse .always (overwrite format) rule
             header := ← optionalText header }
  | _ => none

def fromImport (tree : Tree) : Option FromImport :=
  match row format ["module", "symbols"] tree with
  | some [moduleName, symbols] => do
    return { moduleName := ← required Tree.text? moduleName, symbols := ← required texts symbols }
  | _ => none

def global (tree : Tree) : Option GlobalDef :=
  match row format ["name", "type", "value"] tree with
  | some [name, annotation, expression] => do
    return { name := ← required Tree.text? name
             annotation := ← orElse "" Tree.text? annotation
             value := ← required Tree.text? expression }
  | _ => none

def function (tree : Tree) : Option FunctionDef :=
  match row format ["name", "doc", "params", "returns", "body"] tree with
  | some [name, doc, params, returns, suite] => do
    return { name := ← required Tree.text? name
             doc := ← optionalText doc
             params := ← orElse [] (Tree.list? (value format)) params
             returns := ← orElse [] (Tree.list? (value format)) returns
             body := ← orElse [] body suite }
  | _ => none

def classDef (tree : Tree) : Option ClassDef :=
  match row format ["name", "doc", "fields", "init", "methods"] tree with
  | some [name, doc, fields, init, methods] => do
    return { name := ← required Tree.text? name
             doc := ← orElse "" Tree.text? doc
             fields := ← orElse [] (Tree.list? (value format)) fields
             init := ← orElse [] body init
             methods := ← orElse [] (Tree.list? (function format)) methods }
  | _ => none

def planNames : List String :=
  ["document", "imports", "from_imports", "expressions", "globals", "functions", "classes"]

/-- The plan that a tree describes. -/
def plan (tree : Tree) : Option Plan :=
  match row format planNames tree with
  | some [config, imports, fromImports, expressions, globals, functions, classes] => do
    return { document := ← orElse {} (document format) config
             imports := ← orElse [] texts imports
             fromImports := ← orElse [] (Tree.list? (fromImport format)) fromImports
             expressions := ← orElse [] texts expressions
             globals := ← orElse [] (Tree.list? (global format)) globals
             functions := ← orElse [] (Tree.list? (function format)) functions
             classes := ← orElse [] (Tree.list? (classDef format)) classes }
  | _ => none

end Schema

end PlanScribe
