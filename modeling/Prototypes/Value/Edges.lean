import Prototypes.Value.Basic

/-!
# Handles inside values

The heap nodes a value refers to, in order and with repetitions. Host bodies
are opaque and hold no handles; a fragment holds those of its literals, of the
bodies of the methods it defines included. A far reference is counted like any
other handle, whoever owns its target.
-/

namespace Prototypes

variable {κ : Type}

mutual

/-- The handles a value holds. -/
def Value.edges : Value κ → List ObjectId
  | .object id => [id]
  | .table _ items => Value.edgesOfAll items
  | .closure _ closure => Closure.edges closure
  | .method method => Method.edges method
  | .field field => [field.host]
  | .context _ context => Context.edges context
  | .fragment _ fragment => Fragment.edges fragment
  | .farReference reference => [reference.target]
  | .nil | .bool _ | .fixnum _ | .float _ | .text _ | .symbol _ | .typeTag _ => []

def Value.edgesOfAll : List (Value κ) → List ObjectId
  | [] => []
  | value :: more => Value.edges value ++ Value.edgesOfAll more

def Context.edges : Context κ → List ObjectId
  | ⟨scope, receiver, superView⟩ => scope :: (Value.edges receiver ++ Value.edges superView)

def Closure.edges : Closure κ → List ObjectId
  | ⟨method, context⟩ => Method.edges method ++ Context.edges context

def Method.edges : Method κ → List ObjectId
  | ⟨_, _, _, body⟩ => Body.edges body

def Body.edges : Body κ → List ObjectId
  | .builtin _ => []
  | .host _ => []
  | .fragment body => Fragment.edges body

def Fragment.edges : Fragment κ → List ObjectId
  | .literal value => Value.edges value
  | .selfReference => []
  | .variableReference _ => []
  | .definition _ value => Fragment.edges value
  | .assignment _ value => Fragment.edges value
  | .methodDefinition method => Method.edges method
  | .messageSend receiver _ arguments => Fragment.edges receiver ++ Fragment.edgesOfAll arguments
  | .sequence statements => Fragment.edgesOfAll statements
  | .quotation body => Fragment.edges body
  | .unquotation body => Fragment.edges body

def Fragment.edgesOfAll : List (Fragment κ) → List ObjectId
  | [] => []
  | fragment :: more => Fragment.edges fragment ++ Fragment.edgesOfAll more

end

end Prototypes
