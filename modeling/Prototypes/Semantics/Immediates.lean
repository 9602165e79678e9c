import Prototypes.Semantics.Delegation
import Prototypes.Semantics.Extension
import Prototypes.Semantics.Fragments

/-!
# Values outside the heap

Values that are no heap nodes have no slots and never change. Closures
understand `apply`; references to fields understand the messages a custom field
is sent. Everything else they answer is fixed: they are their own clones, are
related only to themselves, and fragments among them can be evaluated and
quoted.
-/

namespace Prototypes

variable {κ σ : Type}

namespace Value

/-- The messages a value understands by itself. -/
def understands (value : Value κ) (selector : Symbol) : Bool :=
  match value with
  | .closure .. => selector == Selector.apply
  | .field _ =>
    [Selector.name, Selector.readField, Selector.writeField, Selector.new].contains selector
  | _ => false

/-- How many arguments a message of the value's own takes. -/
def protocolArity (value : Value κ) (selector : Symbol) : Nat :=
  match value with
  | .field _ => if selector = Selector.name || selector = Selector.readField then 0 else 1
  | _ => 1

end Value

namespace Runtime

variable (rt : Runtime κ σ)

/-- A reference to a field answers as the field does. -/
def performOnField (field : NativeField) (selector : Symbol) (arguments : List (Value κ)) :
    Run κ σ (Value κ) := do
  if selector = Selector.name then return .symbol field.name
  else if selector = Selector.readField then rt.readSlot field.host field.name
  else
    match arguments with
    | [] => Run.halt .outOfBounds
    | argument :: _ =>
      if selector = Selector.writeField then
        rt.writeSlot field.host field.name argument
        return .nil
      else
        return .field ⟨← Run.check (argument.expectObject "field host"), field.name⟩

/-- Sends a value a message it understands by itself; nothing is answered to any other. -/
def valueProtocol (value : Value κ) (selector : Symbol) (arguments : List (Value κ)) :
    Run κ σ (Option (Value κ)) := do
  if !value.understands selector then return none
  let expected := value.protocolArity selector
  if arguments.length ≠ expected then
    Run.raise (.arityMismatch selector (.exact expected) arguments.length)
  match value, arguments with
  | .closure _ closure, table :: _ =>
    some <$> rt.apply closure (← Run.check (Message.readTable table))
  | .field field, arguments => some <$> rt.performOnField field selector arguments
  | _, _ => return none

/-- A closure that sends a message to a value in its own right. -/
def valueSelect (value receiver : Value κ) (selector : Symbol) : Run κ σ (Value κ) := do
  let method := Method.builtin (← Run.fresh) selector [.rest ⟨"arguments"⟩] (.resend selector)
  Run.newClosure ⟨method, ⟨(← get).lexicalRoot, receiver, value⟩⟩

/-- What a far reference stands for: the object itself in the actor that owns it. -/
def resolveReference (value : Value κ) : Run κ σ (Value κ) := do
  match value with
  | .farReference reference =>
    if reference.owner = (← get).actor then return .object reference.target else return value
  | value => return value

/-- Performs an operation on a value that is no heap node. -/
def performOnValue (value : Value κ) (message : Message κ) : Run κ σ (Value κ) := do
  match message with
  | .invoke receiver selector arguments =>
    match ← rt.valueProtocol value selector arguments with
    | some answer => return answer
    | none => rt.invokeFallback receiver selector arguments
  | .select receiver selector =>
    if value.understands selector then valueSelect value receiver selector
    else rt.selectFallback receiver selector
  | .clone | .pass => return value
  | .newInstance arguments =>
    discard <| rt.invoke value Selector.init arguments
    return value
  | .extend code => rt.extendWith value .isA code []
  | .share code => rt.extendWith value .sharesA code []
  | .doesNotUnderstand selector => Run.defaultHandler value selector
  | .isCloneOf other | .isRelatedTo other => return .bool (value.isIdentical other)
  | .respondsTo selector =>
    return .bool (value.understands selector || (Primitive.ofSelector? selector).isSome)
  | .eval context =>
    let context ← Run.check (context.expectContext "evaluation context")
    match value with
    | .fragment _ fragment => fragment.eval rt context
    | other => return other
  | .quote context =>
    let context ← Run.check (context.expectContext "evaluation context")
    match value with
    | .fragment _ fragment => (← fragment.quote rt context).toValue
    | other => return other
  | .resolve => resolveReference value
  | .print => return .text value.display
  | .isTaggedAs _ => return .bool false
  | .typeTags => Run.newTable []
  | .lookup _ | .call .. | .assignField .. | .assignVariable .. | .defineField .. | .addField _
  | .grabField _ | .listFields | .addMethod _ | .grabMethod _ | .listMethods | .addSlot _
  | .grabSlot _ | .removeSlot _ | .listSlots =>
    Run.raise (.illegalOperation (.unsupported value.kindName value.display message.op))

end Runtime

end Prototypes
