import PlanScribe.Build.Slot

/-!
# Function signatures

The head of a function and the return statement that closes its body, both made from the declared
slots.
-/
namespace PlanScribe

/-- The declaration of a function, without its body. -/
structure Function where
  name : String
  parameters : List Slot := []
  returns : List Slot := []
  doc : Option String := none
deriving DecidableEq, Repr

/-- The first text that also stands earlier in the list or among those already seen. -/
def firstRepeatedAfter (seen : List String) : List String → Option String
  | [] => none
  | name :: rest =>
    if seen.contains name then some name else firstRepeatedAfter (name :: seen) rest

/-- The first text that also stands earlier in the list. -/
def firstRepeated (names : List String) : Option String := firstRepeatedAfter [] names

namespace Function

def addParameters (f : Function) (slots : List Slot) : Function :=
  { f with parameters := f.parameters ++ slots }

def addReturns (f : Function) (slots : List Slot) : Function :=
  { f with returns := f.returns ++ slots }

def setDoc (f : Function) (doc : String) : Function := { f with doc := some doc }

/-- The function with the receiver as its first parameter. -/
def withReceiver (f : Function) : Function :=
  match f.parameters with
  | .receiver :: _ => f
  | _ => { f with parameters := .receiver :: f.parameters }

def parameterList (f : Function) : String :=
  ", ".intercalate (f.parameters.map Slot.asParameter)

/-- The annotation of the result: `None` for no return value, a tuple for several. -/
def returnAnnotation (f : Function) : String :=
  match f.returns with
  | [] => "None"
  | [slot] => slot.annotation
  | slots => "Tuple[" ++ ",".intercalate (slots.map Slot.annotation) ++ "]"

/-- The statement that closes the body. -/
def returnStatement (f : Function) : String :=
  match f.returns with
  | [] => "return"
  | [slot] => "return " ++ slot.name
  | slots => "return (" ++ ",".intercalate (slots.map Slot.name) ++ ")"

/-- The name, the parameters in parentheses and the annotation of the result. -/
def outline (f : Function) : String :=
  f.name ++ "(" ++ f.parameterList ++ ") -> " ++ f.returnAnnotation

/-- The line that opens the definition. -/
def signature (f : Function) : String := "def " ++ f.outline ++ ":"

/-- The first parameter that has the name of an earlier one. -/
def repeatedParameter? (f : Function) : Option String :=
  firstRepeated (f.parameters.map Slot.name)

end Function

end PlanScribe
