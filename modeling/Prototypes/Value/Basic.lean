import Prototypes.Decimal.Double
import Prototypes.Parameter
import Prototypes.Primitive

/-!
# Values, code and contexts

A value is an immediate (a number, a text, a selector), a handle to a heap
node, or a piece of immutable data that is compared by reference: a table, a
closure, a method, a type tag, a context, a fragment of code. Data of the last
kind carries an `Identity`.

Methods have one of three kinds of bodies. *Fragments* are code as a tree.
*Built-in* bodies are the few the object model makes by itself, each with a
constructor of its own. *Host* bodies are code of the embedding program; the
type parameter `κ` is that code as data, and what it does is supplied where
bodies are run. With `κ := Empty` there is no host code at all.
-/

namespace Prototypes

/-- A nominal tag attached to objects when they are created. -/
structure TypeTag where
  identity : Identity
  name : Symbol
  supertypes : List TypeTag

/-- A body the object model makes by itself. -/
inductive Builtin where
  /-- reads the field `name` of the scope it is applied in -/
  | accessor (name : Symbol)
  /-- writes the field `name` of the scope it is applied in -/
  | mutator (name : Symbol)
  /-- fails: the receiver does not understand `selector` -/
  | notUnderstood (selector : Symbol)
  /-- runs a primitive on the receiver -/
  | primitive (primitive : Primitive) (selector : Symbol)
  /-- sends `selector` on to the super view, the receiver staying the same -/
  | resend (selector : Symbol)
  /-- a mirror's default answer to `op`: its meaning on the mirror's base -/
  | performDefault (op : MetaOp)
  /-- binds a mirror to the mirage it is initialised with -/
  | bindBase
deriving DecidableEq, Inhabited

mutual

/-- A value of the object model. -/
inductive Value (κ : Type) where
  | nil
  | bool (b : Bool)
  | fixnum (n : Int64)
  | float (x : Double)
  | text (s : String)
  | symbol (s : Symbol)
  | table (identity : Identity) (items : List (Value κ))
  | object (id : ObjectId)
  | closure (identity : Identity) (closure : Closure κ)
  | method (method : Method κ)
  | field (field : NativeField)
  | typeTag (tag : TypeTag)
  | context (identity : Identity) (context : Context κ)
  | fragment (identity : Identity) (fragment : Fragment κ)
  | farReference (reference : FarReference)

/--
Where code runs: the lexical scope its free names are looked up in, the
receiver, and the parent of the object the running method was found in.
-/
structure Context (κ : Type) where
  scope : ObjectId
  receiver : Value κ
  superView : Value κ

/-- A method bound to the context it was found in. -/
structure Closure (κ : Type) where
  method : Method κ
  context : Context κ

/-- A named body with parameters. It captures nothing; a closure does. -/
structure Method (κ : Type) where
  identity : Identity
  name : Symbol
  parameters : List Parameter
  body : Body κ

/-- What runs when a method is applied. -/
inductive Body (κ : Type) where
  | builtin (body : Builtin)
  | host (code : κ)
  | fragment (body : Fragment κ)

/-- Code as a tree. -/
inductive Fragment (κ : Type) where
  | literal (value : Value κ)
  | selfReference
  | variableReference (name : Symbol)
  /-- defines a field of the current scope -/
  | definition (name : Symbol) (value : Fragment κ)
  /-- assigns to the nearest lexical definition -/
  | assignment (name : Symbol) (value : Fragment κ)
  /-- adds a method to the current scope -/
  | methodDefinition (method : Method κ)
  | messageSend (receiver : Fragment κ) (selector : Symbol) (arguments : List (Fragment κ))
  /-- answers what the last statement answers -/
  | sequence (statements : List (Fragment κ))
  /-- answers the inner fragment, its unquotations replaced by what they evaluate to -/
  | quotation (body : Fragment κ)
  /-- switches back to evaluation inside a quotation -/
  | unquotation (body : Fragment κ)

end

instance {κ : Type} : Inhabited (Value κ) := ⟨.nil⟩

instance {κ : Type} : Inhabited (Fragment κ) := ⟨.selfReference⟩

variable {κ : Type}

/-! ## Contexts -/

namespace Context

def withScope (context : Context κ) (scope : ObjectId) : Context κ := { context with scope }

def withReceiver (context : Context κ) (receiver superView : Value κ) : Context κ :=
  { context with receiver, superView }

end Context

/-! ## Type tags -/

namespace TypeTag

/-- Tags that are pushed on a stack take the room there that they took as a list. -/
theorem sizeOf_reverseAux (tags pending : List TypeTag) :
    sizeOf (tags.reverseAux pending) + 1 = sizeOf tags + sizeOf pending := by
  induction tags generalizing pending with
  | nil => simp only [List.reverseAux, List.nil.sizeOf_spec, Nat.add_comm]
  | cons tag tags ih =>
    rw [List.reverseAux, ih]
    simp only [List.cons.sizeOf_spec]
    omega

/--
Whether `other` is among pending tags or their supertypes, direct or not. The
supertypes of a tag that is looked at are pushed on the others, so that its last
one is the next to be looked at.
-/
def anyReaches (other : TypeTag) : (pending : List TypeTag) → Bool
  | [] => false
  | tag :: pending =>
    tag.identity == other.identity || anyReaches other (tag.supertypes.reverseAux pending)
termination_by pending => sizeOf pending
decreasing_by
  have hpushed := sizeOf_reverseAux tag.supertypes pending
  obtain ⟨identity, name, supertypes⟩ := tag
  simp only [List.cons.sizeOf_spec, mk.sizeOf_spec] at *
  omega

/-- Whether `other` is the tag itself or one of its supertypes, direct or not. -/
def isSubtypeOf (tag other : TypeTag) : Bool :=
  tag.identity == other.identity || anyReaches other (tag.supertypes.reverseAux [])

end TypeTag

/-! ## Kinds and identity -/

namespace Value

/-- The kind of a value, as errors name it. -/
def kindName : Value κ → String
  | nil => "nil"
  | bool _ => "boolean"
  | fixnum _ => "fixnum"
  | float _ => "float"
  | text _ => "text"
  | symbol _ => "symbol"
  | table _ _ => "table"
  | object _ => "object"
  | closure _ _ => "closure"
  | method _ => "method"
  | field _ => "field"
  | typeTag _ => "type tag"
  | context _ _ => "context"
  | fragment _ _ => "fragment"
  | farReference _ => "far reference"

def isNil : Value κ → Bool
  | nil => true
  | _ => false

/-- Values that cross an actor boundary by copy, no object being asked. -/
def isImmediate : Value κ → Bool
  | nil | bool _ | fixnum _ | float _ | text _ | symbol _ | typeTag _ => true
  | _ => false

/-- Immediates are the same when they are equal, floats when their bits are, all else by reference. -/
def isIdentical : Value κ → Value κ → Bool
  | nil, nil => true
  | bool a, bool b => a == b
  | fixnum a, fixnum b => a == b
  | float a, float b => a == b
  | text a, text b => a == b
  | symbol a, symbol b => a == b
  | object a, object b => a == b
  | table a _, table b _ => a == b
  | closure a _, closure b _ => a == b
  | method a, method b => a.identity == b.identity
  | field a, field b => a == b
  | typeTag a, typeTag b => a.identity == b.identity
  | context a _, context b _ => a == b
  | fragment a _, fragment b _ => a == b
  | farReference a, farReference b => a == b
  | _, _ => false

/-! ## Views of one kind -/

def asObject? : Value κ → Option ObjectId
  | object id => some id
  | _ => none

def asFixnum? : Value κ → Option Int64
  | fixnum n => some n
  | _ => none

end Value

end Prototypes
