import Prototypes.Decimal.Writing
import Prototypes.Text.Quoted
import Prototypes.Value.Basic

/-!
# Values as text

A value has two texts. `display` is what the object model says about it in
errors and answers to `print`: short, with objects, closures and methods
named only. `describe` writes out how it is made up, code included.

A method's description shows its body as a quoted text, so every level of
methods inside methods adds a level of escapes.
-/

namespace Prototypes

/-! ## Shapes of descriptions -/

namespace Description

def list (items : List String) : String := "[" ++ ", ".intercalate items ++ "]"

/-- `Name(argument)`. -/
def unary (name argument : String) : String := name ++ "(" ++ argument ++ ")"

/-- A name, and named parts in braces. -/
def record (name : String) (parts : List (String × String)) : String :=
  name ++ " \x7b " ++ ", ".intercalate (parts.map fun part => part.1 ++ ": " ++ part.2) ++ " \x7d"

end Description

open Description

namespace Symbol

def describe (s : Symbol) : String := "#" ++ s.text

end Symbol

namespace ObjectId

def describe (id : ObjectId) : String := unary "ObjectId" (toString id.index)

end ObjectId

namespace CloneFamily

def describe (family : CloneFamily) : String := unary "CloneFamily" (toString family.number)

end CloneFamily

namespace NativeField

def describe (field : NativeField) : String :=
  record "NativeField" [("host", field.host.describe), ("name", field.name.describe)]

end NativeField

namespace FarReference

def describe (reference : FarReference) : String :=
  record "FarReference"
    [("target", reference.target.describe),
     ("owner", unary "ActorId" (toString reference.owner.number))]

end FarReference

namespace Parameter

def describe : Parameter → String
  | required name => unary "Required" name.describe
  | rest name => unary "Rest" name.describe

end Parameter

namespace TypeTag

mutual

def describe : TypeTag → String
  | ⟨_, name, supertypes⟩ =>
    record "TypeTag" [("name", name.describe), ("supertypes", list (describeAll supertypes))]

def describeAll : List TypeTag → List String
  | [] => []
  | tag :: more => describe tag :: describeAll more

end

end TypeTag

variable {κ : Type}

/-! ## Descriptions of values and code -/

mutual

def Value.describe : Value κ → String
  | .nil => "Nil"
  | .bool b => unary "Bool" (toString b)
  | .fixnum n => unary "Fixnum" (toString n.toInt)
  | .float x => unary "Float" x.exact
  | .text s => unary "Text" (Text.quoted s)
  | .symbol s => unary "Symbol" s.describe
  | .table _ items => unary "Table" (list (Value.describeAll items))
  | .object id => unary "Object" id.describe
  | .closure _ closure => unary "Closure" (Closure.describe closure)
  | .method method => unary "Method" (Method.describe method)
  | .field field => unary "Field" field.describe
  | .typeTag tag => unary "TypeTag" tag.describe
  | .context _ context => unary "Context" (Context.describe context)
  | .fragment _ fragment => unary "Fragment" (Fragment.describe fragment)
  | .farReference reference => unary "FarReference" reference.describe

def Value.describeAll : List (Value κ) → List String
  | [] => []
  | value :: more => Value.describe value :: Value.describeAll more

def Context.describe : Context κ → String
  | ⟨scope, receiver, superView⟩ =>
    record "Context"
      [("lexical_scope", scope.describe), ("receiver", Value.describe receiver),
       ("super_view", Value.describe superView)]

def Closure.describe : Closure κ → String
  | ⟨method, context⟩ =>
    record "Closure" [("method", Method.describe method), ("context", Context.describe context)]

def Method.describe : Method κ → String
  | ⟨_, name, parameters, body⟩ =>
    record "Method"
      [("name", name.describe), ("parameters", list (parameters.map Parameter.describe)),
       ("body", Text.quoted (Body.describe body))]

/-- Bodies that are no fragments show only that they are native to the host. -/
def Body.describe : Body κ → String
  | .builtin _ => "native"
  | .host _ => "native"
  | .fragment body => Fragment.describe body

def Fragment.describe : Fragment κ → String
  | .literal value => unary "Literal" (Value.describe value)
  | .selfReference => "SelfReference"
  | .variableReference name => unary "VariableReference" name.describe
  | .definition name value =>
    record "Definition" [("name", name.describe), ("value", Fragment.describe value)]
  | .assignment name value =>
    record "Assignment" [("name", name.describe), ("value", Fragment.describe value)]
  | .methodDefinition method => unary "MethodDefinition" (Method.describe method)
  | .messageSend receiver selector arguments =>
    record "MessageSend"
      [("receiver", Fragment.describe receiver), ("selector", selector.describe),
       ("arguments", list (Fragment.describeAll arguments))]
  | .sequence statements => unary "Sequence" (list (Fragment.describeAll statements))
  | .quotation body => unary "Quotation" (Fragment.describe body)
  | .unquotation body => unary "Unquotation" (Fragment.describe body)

def Fragment.describeAll : List (Fragment κ) → List String
  | [] => []
  | fragment :: more => Fragment.describe fragment :: Fragment.describeAll more

end

/-! ## What is said about a value -/

mutual

/-- The text of a value in errors and in answers to `print`. -/
def Value.display : Value κ → String
  | .nil => "nil"
  | .bool b => toString b
  | .fixnum n => toString n.toInt
  | .float x => x.plain
  | .text s => "\"" ++ s ++ "\""
  | .symbol s => "`" ++ s.text
  | .table _ items => list (Value.displayAll items)
  | .object id => id.display
  | .closure _ c => s!"<closure:{c.method.name}>"
  | .method m => s!"<method:{m.name}>"
  | .field f => s!"<field:{f.name} of object:{f.host}>"
  | .typeTag tag => s!"<type tag:{tag.name}>"
  | .context _ c => s!"<context scope:{c.scope}>"
  | .fragment _ f => s!"<fragment:{f.describe}>"
  | .farReference far =>
    s!"<far reference to object:{far.target} in actor {far.owner.number}>"

def Value.displayAll : List (Value κ) → List String
  | [] => []
  | value :: more => Value.display value :: Value.displayAll more

end

/-! ## Values that have to be of one kind -/

namespace Value

/-- The error for a value of the wrong kind, where `what` is expected. -/
def notExpected (what : String) (got : Value κ) : RuntimeError :=
  .illegalArgument (.expected what got.kindName got.display)

def expectObject (what : String) : Value κ → Except RuntimeError ObjectId
  | object id => .ok id
  | got => .error (notExpected what got)

def expectSymbol (what : String) : Value κ → Except RuntimeError Symbol
  | symbol s => .ok s
  | got => .error (notExpected what got)

def expectBool (what : String) : Value κ → Except RuntimeError Bool
  | bool b => .ok b
  | got => .error (notExpected what got)

def expectTable (what : String) : Value κ → Except RuntimeError (List (Value κ))
  | table _ items => .ok items
  | got => .error (notExpected what got)

def expectClosure (what : String) : Value κ → Except RuntimeError (Closure κ)
  | closure _ c => .ok c
  | got => .error (notExpected what got)

def expectMethod (what : String) : Value κ → Except RuntimeError (Method κ)
  | method m => .ok m
  | got => .error (notExpected what got)

def expectTypeTag (what : String) : Value κ → Except RuntimeError TypeTag
  | typeTag tag => .ok tag
  | got => .error (notExpected what got)

def expectContext (what : String) : Value κ → Except RuntimeError (Context κ)
  | context _ c => .ok c
  | got => .error (notExpected what got)

end Value

end Prototypes
