import PlanScribe.Document.Delivery

/-!
# The demonstration module

A small module with a greeting, a sum and a class, built by calls on a document.
-/
namespace PlanScribe.Cli

/-- Greets and counts. -/
def demoMain : List BlockStep :=
  [.write "print(\"hello world\")", .loop (.range "i" 1 10) [.write "i += 1"]]

/-- Declares a field and a method that assigns it. -/
def demoClass : List ClassStep :=
  [.field (.named "name" "str"),
    .method { name := "getIdn", returns := [.named "newName" "str"] }
      [.write "self.name = newName"]]

/-- Adds the demonstration to a document. -/
def buildDemo (doc : Document) : Run Document :=
  (((doc.importFrom "typing" ["List", "Literal", "Any"]).andThen fun doc =>
    doc.addFunction { name := "main", doc := some "hello world!" } (runBlock demoMain)).andThen
    fun doc =>
      doc.addFunction
        { name := "add", parameters := [.named "a" "int", .named "b" "int"],
          returns := [.named "s" "int"], doc := some "两数之和" }
        (runBlock [.write "s = a+b"])).andThen
    fun doc => doc.addClass "Dev" "" (runClass demoClass)

end PlanScribe.Cli
