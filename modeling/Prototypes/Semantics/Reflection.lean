import Prototypes.Semantics.Slots

/-!
# Slots as values

An object's slots can be listed, taken out as values and added to other
objects. A field travels as a reference to its host: adding it reads the
current value and whether it is writable there. A method travels as itself.
Anything else that is added as a field is a custom field: it is asked for its
name and for an instance for the new host.
-/

namespace Prototypes

variable {κ σ : Type}

namespace Runtime

variable (rt : Runtime κ σ)

/-! ## Fields -/

/-- Adds the custom field that `prototype` makes for `target`. -/
def addCustomField (target : ObjectId) (prototype : Value κ) : Run κ σ Unit := do
  let name ← Run.check ((← rt.invoke prototype Selector.name []).expectSymbol "field name")
  if (← Run.slots target).hasSlot name then
    Run.raise (.duplicateSlot name)
  let field ← rt.invoke prototype Selector.new [.object target]
  Run.setSlots target (← Run.check ((← Run.slots target).addCustom ⟨name, field⟩))

/-- Adds a copy of the field a reference names. -/
def addNativeField (target : ObjectId) (field : NativeField) : Run κ σ Unit := do
  let value ← rt.readSlot field.host field.name
  let writable := ((← Run.slots field.host).fieldSlot? field.name).all Prod.snd
  Run.putField target { name := field.name, writable, value }

/-- Adds a field to an object. -/
def defaultAddField (target : ObjectId) (field : Value κ) : Run κ σ Unit :=
  match field with
  | .field native => rt.addNativeField target native
  | .method _ | .closure .. => Run.raise (.illegalArgument (.notFieldValue field.display))
  | custom => rt.addCustomField target custom

/-- A field of an object as a value. -/
def defaultGrabField (target : ObjectId) (selector : Symbol) : Run κ σ (Value κ) := do
  let slots ← Run.slots target
  if (slots.fieldIndex? selector).isSome then return .field ⟨target, selector⟩
  else
    match slots.custom? selector with
    | some field => return field
    | none => Run.raise (notFoundFrom selector target)

/-- The fields of an object, custom fields last. -/
def defaultListFields (target : ObjectId) : Run κ σ (List (Value κ)) := do
  let slots ← Run.slots target
  return slots.fields.map (fun field => .field ⟨target, field.name⟩) ++
    slots.custom.map CustomField.field

/-! ## Methods -/

/-- Adds a method, or the method of a closure. -/
def defaultAddMethod (target : ObjectId) (method : Value κ) : Run κ σ Unit := do
  let method ← match method with
    | .closure _ closure => pure closure.method
    | other => Run.check (other.expectMethod "method")
  Run.setSlots target (← Run.check ((← Run.slots target).addMethod method))

def defaultGrabMethod (target : ObjectId) (selector : Symbol) : Run κ σ (Value κ) := do
  match (← Run.slots target).method? selector with
  | some method => return .method method
  | none => Run.raise (notFoundFrom selector target)

def defaultListMethods (target : ObjectId) : Run κ σ (List (Value κ)) := do
  return (← Run.slots target).methods.map .method

/-! ## Slots of any kind -/

/-- Adds a method or a field, whichever the value is. -/
def defaultAddSlot (target : ObjectId) (slot : Value κ) : Run κ σ Unit :=
  match slot with
  | .method _ | .closure .. => defaultAddMethod target slot
  | field => rt.defaultAddField target field

def defaultGrabSlot (target : ObjectId) (selector : Symbol) : Run κ σ (Value κ) := do
  if ((← Run.slots target).method? selector).isSome then defaultGrabMethod target selector
  else defaultGrabField target selector

/-- Removes a slot and answers a field's value, the method, or the custom field. -/
def defaultRemoveSlot (target : ObjectId) (selector : Symbol) : Run κ σ (Value κ) := do
  let slots ← Run.slots target
  match slots.removeField? (← Run.fresh) selector with
  | some (value, slots) =>
    Run.setSlots target slots
    return value
  | none =>
    match slots.removeMethod? selector with
    | some (method, slots) =>
      Run.setSlots target slots
      return .method method
    | none =>
      match slots.removeCustom? selector with
      | some (field, slots) =>
        Run.setSlots target slots
        return field
      | none => Run.raise (notFoundFrom selector target)

def defaultListSlots (target : ObjectId) : Run κ σ (List (Value κ)) := do
  return (← defaultListFields target) ++ (← defaultListMethods target)

end Runtime

end Prototypes
