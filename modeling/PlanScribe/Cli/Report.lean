import PlanScribe.Plan.Lower

/-!
# Reports

What the commands print: the outcome of a rendering, and the outline of a checked plan.
-/
namespace PlanScribe.Cli

/-- Lines printed one below the other. -/
def printed (lines : List String) : String := String.join (lines.map (· ++ "\n"))

/-- A count with its noun; `more` is what the plural adds. -/
def counted (count : Nat) (noun more : String) : String :=
  toString count ++ " " ++ noun ++ (if count = 1 then "" else more)

/-- The sizes of a rendered module. -/
structure Summary where
  source : Option Path
  classes : Nat
  functions : Nat

namespace Summary

def contents (summary : Summary) : String :=
  counted summary.classes "class" "es" ++ ", " ++ counted summary.functions "function" "s"

/-- Tells that a file was written. -/
def written (summary : Summary) (path : Path) : String :=
  printed <|
    ["✓ Generated " ++ path]
      ++ (summary.source.map fun source => "  from: " ++ source).toList
      ++ ["  contents: " ++ summary.contents]

/-- Warns that a file was kept. -/
def kept (path : Path) : String :=
  printed ["warning: " ++ path ++ " already exists, left unchanged"]

/-- Shows the text that would be written. -/
def preview (summary : Summary) (text : String) : String :=
  printed
    ["── " ++ summary.source.getD "demo" ++ " ──",
      String.ofList (Text.trimEnd text.toList), "── Summary ──", summary.contents]

end Summary

/-- The outline of a method, with the receiver in front of its parameters. -/
def methodOutline (f : Function) : String :=
  let parameters := f.parameterList
  let all := if parameters = "" then receiverName else receiverName ++ ", " ++ parameters
  f.name ++ "(" ++ all ++ ") -> " ++ f.returnAnnotation

/-- The constructor of a described class, without its receiver. -/
def constructorOf (c : ClassDef) : Function :=
  { name := "__init__", parameters := c.fields.map ValueDef.slot }

/-- The outlines of the constructor and the methods of a class. -/
def classOutlines (c : ClassDef) : List String :=
  methodOutline (constructorOf c) :: c.methods.map fun f => methodOutline f.declaration

/-- The lines about one class. -/
def classLines (c : ClassDef) : List String :=
  ("  - " ++ c.name ++ " (" ++ counted c.fields.length "field" "s" ++ ")")
    :: (classOutlines c).map ("      " ++ ·)

/-- A heading with the number of its items, above them; nothing if there is no item. -/
def listed (heading : String) (count : Nat) (lines : List String) : List String :=
  if count = 0 then [] else (heading ++ " (" ++ toString count ++ "):") :: lines

/-- The lines about the functions of a plan, one for each. -/
def functionLines (plan : Plan) : List String :=
  plan.functions.map fun f => "  - " ++ f.declaration.outline

/-- The outline of a plan that was checked. -/
def checkReport (path : Path) (plan : Plan) : String :=
  let imports := plan.imports.length + plan.fromImports.length
  printed <|
    ["✓ " ++ path ++ " is valid", "", "Imports: " ++ toString imports,
      "Globals: " ++ toString plan.globals.length]
      ++ listed "Functions" plan.functions.length (functionLines plan)
      ++ listed "Classes" plan.classes.length (plan.classes.flatMap classLines)

end PlanScribe.Cli
