import PlanScribe.Build.Program
import PlanScribe.Storage.Sink
import PlanScribe.Storage.Destination

/-!
# Documents

A document collects the parts of one output file in four regions: the header lines (imports and
top-level statements), the globals, the classes and the functions. Once it is closed it takes no
further parts. A call that fails to add a class or a function leaves its mark on the document, which
is then not delivered unless it is closed by hand.
-/
namespace PlanScribe

/-- The choices that hold for a whole document. -/
structure DocumentOptions where
  indent : Indent := .standard
  header : Option String := none
deriving DecidableEq, Repr

/-- The parts of an output file, the sink for its text, and the stage it has reached. -/
structure Document where
  options : DocumentOptions
  header : Scope
  globals : Scope
  classes : List ClassBuild := []
  functions : List Buffer := []
  sink : Option Sink := none
  target : Option Path := none
  closed : Bool := false
  poisoned : Bool := false

namespace Document

/-- An empty document for a sink. Without a sink nothing is delivered. -/
def create (options : DocumentOptions) (sink : Option Sink) : Document :=
  { options, header := .atDepth 0 options.indent, globals := .atDepth 0 options.indent, sink }

/-- Makes a change if the document is still open. -/
def whenOpen (doc : Document) (change : Run Document) : Run Document :=
  if doc.closed then .fail doc .documentClosed else change

/-- Writes lines into the header region. -/
def writeHeader (doc : Document) (text : String) : Run Document :=
  doc.whenOpen (.done { doc with header := doc.header.write text })

def importModule (doc : Document) (moduleName : String) : Run Document :=
  doc.writeHeader ("import " ++ moduleName)

def importFrom (doc : Document) (moduleName : String) (symbols : List String) : Run Document :=
  doc.writeHeader ("from " ++ moduleName ++ " import " ++ ", ".intercalate symbols)

/-- Adds top-level text. -/
def addExpression (doc : Document) (text : String) : Run Document := doc.writeHeader text

/-- Adds a variable of the module. -/
def addGlobal (doc : Document) (target : Slot) (expression : String) : Run Document :=
  doc.whenOpen (.done { doc with globals := doc.globals.write (assignment target expression) })

/-- The document after a call that failed to add something to it. -/
def poison (doc : Document) : Document := { doc with poisoned := true }

/-- Adds a function; nothing of it is kept if its body fails. -/
def addFunction (doc : Document) (f : Function) (body : BlockBody) : Run Document :=
  doc.whenOpen
    ((f.render 0 doc.options.indent body).commit doc.poison fun text =>
      { doc with functions := doc.functions ++ [text] })

/-- Adds a class; nothing of it is kept if its body fails. -/
def addClass (doc : Document) (name classDoc : String) (body : ClassBody) : Run Document :=
  doc.whenOpen
    (((body { name, doc := classDoc, depth := 0, indent := doc.options.indent }).attempt.finish id
        [.logged .addedClass]).commit doc.poison fun cls =>
      { doc with classes := doc.classes ++ [cls] })

/-- A header line as a comment; a line that is one already is kept. -/
def commentLine (line : String) : String :=
  if line.toList.head? = some '#' then line else "# " ++ line

/-- The comment at the top of the output. -/
def headerComment (options : DocumentOptions) : Buffer :=
  .ofEntries (((options.header.map Text.physicalLines).getD []).map commentLine)

/-- The texts of the classes, in order. -/
def renderClasses : List ClassBuild → Attempt (List Buffer)
  | [] => { result := .ok [] }
  | cls :: rest =>
    cls.render.andThen fun text => (renderClasses rest).finish (text :: ·) []

/-- Joins the regions; the two upper ones and every class and function are followed by an empty
line. -/
def assemble (doc : Document) (classes : List Buffer) : Buffer :=
  let items := doc.header.buffer :: doc.globals.buffer :: (classes ++ doc.functions)
  headerComment doc.options ++ ⟨items.flatMap fun item => item.entries ++ [""]⟩

/-- The whole output file. -/
def render (doc : Document) : Attempt String :=
  (renderClasses doc.classes).finish (fun classes => (doc.assemble classes).text) []

end Document

end PlanScribe
