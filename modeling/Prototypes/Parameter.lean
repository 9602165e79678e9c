import Prototypes.Error

/-!
# Parameters

A parameter list names the arguments of a method in order; its last member
may collect all that remain. A list is well formed when no name occurs twice
and nothing follows a collecting parameter.
-/

namespace Prototypes

/-- A parameter of a method. -/
inductive Parameter where
  | required (name : Symbol)
  /-- collects the remaining arguments into a table -/
  | rest (name : Symbol)
deriving DecidableEq, Inhabited

namespace Parameter

def name : Parameter → Symbol
  | required name => name
  | rest name => name

def isRest : Parameter → Bool
  | required _ => false
  | rest _ => true

/-- `@more` declares a parameter that collects the rest, any other text a required one. -/
def ofText (text : String) : Parameter :=
  match text.toList with
  | '@' :: name => rest ⟨String.ofList name⟩
  | _ => required ⟨text⟩

/-- The text `ofText` reads the parameter from. -/
def text : Parameter → String
  | required name => name.text
  | rest name => "@" ++ name.text

/--
Checks a parameter list of `method` from the left, `seen` being the names
before it: each member must be last if it collects, and must have a new name.
-/
def checkList (method : Symbol) (seen : List Symbol) : List Parameter → Except RuntimeError Unit
  | [] => .ok ()
  | parameter :: more =>
    if parameter.isRest && !more.isEmpty then
      .error (.illegalArgument (.restNotLast parameter.name method))
    else if parameter.name ∈ seen then
      .error (.duplicateSlot parameter.name)
    else
      checkList method (seen ++ [parameter.name]) more

/-- The arity of a method with these parameters. -/
def listArity (parameters : List Parameter) : Arity :=
  match parameters.getLast? with
  | some (rest _) => .atLeast (parameters.length - 1)
  | _ => .exact parameters.length

end Parameter

end Prototypes
