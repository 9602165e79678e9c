import Prototypes.Value.Text

/-!
# Methods

A method is made from a parameter list that is well formed, and is applied to
arguments its arity accepts. Binding then gives every parameter its argument;
a collecting parameter gets a new table of all that remain, so the required
values followed by the members of that table are exactly the arguments.
-/

namespace Prototypes

variable {κ : Type}

namespace Method

/-- A method with a checked parameter list. -/
def make (identity : Identity) (name : Symbol) (parameters : List Parameter) (body : Body κ) :
    Except RuntimeError (Method κ) :=
  match Parameter.checkList name [] parameters with
  | .ok () => .ok { identity, name, parameters, body }
  | .error e => .error e

/-- A method of the object model's own; its parameters are well formed as they stand. -/
def builtin (identity : Identity) (name : Symbol) (parameters : List Parameter) (body : Builtin) :
    Method κ :=
  { identity, name, parameters, body := .builtin body }

def arity (method : Method κ) : Arity := Parameter.listArity method.parameters

/--
Pairs parameters with the arguments in their places. A collecting parameter gets a table, with
`rest` as identity, of the argument in its place and all that follow. In a checked list it is the
last; parameters that stand behind it in another list get arguments that are in the table as well.
-/
def pair (rest : Identity) : List Parameter → List (Value κ) → List (Symbol × Value κ)
  | .required name :: more, value :: values => (name, value) :: pair rest more values
  | .rest name :: more, values => (name, .table rest values) :: pair rest more values.tail
  | _, _ => []

/-- Binds the parameters, unless the number of arguments is wrong. -/
def bindArguments (method : Method κ) (rest : Identity) (arguments : List (Value κ)) :
    Except RuntimeError (List (Symbol × Value κ)) :=
  if method.arity.accepts arguments.length then
    .ok (pair rest method.parameters arguments)
  else
    .error (.arityMismatch method.name method.arity arguments.length)

end Method

end Prototypes
