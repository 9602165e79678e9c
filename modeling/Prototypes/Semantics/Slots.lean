import Prototypes.Semantics.Runtime

/-!
# Using a slot

What happens once a search has found a slot. Fields are read and written in
place, custom fields are asked to do it. A field that holds a closure is
applied when it is invoked; any other value of a field is only read.

Selecting a field answers an *accessor*, a closure over the field's holder.
Applied as usual it runs in a frame nested in the holder, so the scope it
finds its field in is the frame's lexical parent.
-/

namespace Prototypes

variable {κ σ : Type}

namespace Runtime

variable (rt : Runtime κ σ)

/-! ## Reading and writing -/

/-- The value at an index of a node's fields. -/
def readIndex (holder : ObjectId) (index : Nat) : Run κ σ (Value κ) := do
  match (← Run.slots holder).read? index with
  | some value => return value
  | none => Run.halt .outOfBounds

/-- The value of the field or custom field `name` of a node. -/
def readSlot (holder : ObjectId) (name : Symbol) : Run κ σ (Value κ) := do
  let slots ← Run.slots holder
  match slots.fieldIndex? name with
  | some index => readIndex holder index
  | none =>
    match slots.custom? name with
    | some field => rt.invoke field Selector.readField []
    | none => Run.raise (notFoundFrom name holder)

/-- Gives the field or custom field `name` of a node another value. -/
def writeSlot (holder : ObjectId) (name : Symbol) (value : Value κ) : Run κ σ Unit := do
  let slots ← Run.slots holder
  match slots.fieldSlot? name with
  | some (index, writable) =>
    if writable then
      match slots.write? index value with
      | some slots => Run.setSlots holder slots
      | none => Run.halt .outOfBounds
    else
      Run.raise (.illegalOperation (.readOnlyField name holder))
  | none =>
    match slots.custom? name with
    | some field => discard <| rt.invoke field Selector.writeField [value]
    | none => Run.raise (notFoundFrom name holder)

/-- The field an assignment writes to. -/
def assignmentTarget (selector : Symbol) : Run κ σ Symbol :=
  match selector.assignmentTarget? with
  | some name => pure name
  | none => Run.raise (.internal (.notAssignment selector))

/-- Refuses an assignment to a read-only field. -/
def checkWritable (holder : ObjectId) (selector : Symbol) (writable : Bool) : Run κ σ Unit :=
  if writable then pure () else Run.raise (.illegalOperation (.noMutator selector holder))

/-! ## Closures over slots -/

/-- The scope whose field an accessor reads: around the frame it is applied in. -/
def slotOwner (context : Context κ) : Run κ σ ObjectId := do
  match ← Run.node context.scope with
  | .frame frame => return frame.lexicalParent
  | _ => return context.scope

/-- A closure that reads the field `name` of `holder`. -/
def accessor (holder : ObjectId) (receiver : Value κ) (name : Symbol) : Run κ σ (Value κ) := do
  let method := Method.builtin (← Run.fresh) name [] (.accessor name)
  Run.newClosure ⟨method, ⟨holder, receiver, .nil⟩⟩

/-- A closure that writes the field the assignment `selector` targets. -/
def mutator (holder : ObjectId) (receiver : Value κ) (selector : Symbol) : Run κ σ (Value κ) := do
  let name ← assignmentTarget selector
  let method := Method.builtin (← Run.fresh) selector [.required ⟨"value"⟩] (.mutator name)
  Run.newClosure ⟨method, ⟨holder, receiver, .nil⟩⟩

/-- A method bound to a receiver, the parent of its holder being the super view. -/
def methodClosure (holder : ObjectId) (method : Method κ) (receiver : Value κ) :
    Run κ σ (Closure κ) := do
  return ⟨method, ⟨holder, receiver, (← Run.node holder).dynamicParent⟩⟩

/-! ## Invoking -/

/-- Applies a closure found in a field; any other value is answered if there are no arguments. -/
def applyFieldValue (selector : Symbol) (value : Value κ) (arguments : List (Value κ)) :
    Run κ σ (Value κ) :=
  match value with
  | .closure _ closure => rt.apply closure arguments
  | value =>
    if arguments.isEmpty then pure value
    else Run.raise (.arityMismatch selector (.exact 0) arguments.length)

/-- Sends a message to the slot it was found to name. -/
def invokeSlot (holder : ObjectId) (slot : Slot κ) (receiver : Value κ) (selector : Symbol)
    (arguments : List (Value κ)) : Run κ σ (Value κ) := do
  match slot with
  | .field index _ => rt.applyFieldValue selector (← readIndex holder index) arguments
  | .custom field =>
    rt.applyFieldValue selector (← rt.invoke field Selector.readField []) arguments
  | .mutator .. | .customMutator _ =>
    match arguments with
    | [value] =>
      rt.writeSlot holder (← assignmentTarget selector) value
      return value
    | _ => Run.raise (.arityMismatch selector (.exact 1) arguments.length)
  | .method method => rt.apply (← methodClosure holder method receiver) arguments

end Runtime

end Prototypes
