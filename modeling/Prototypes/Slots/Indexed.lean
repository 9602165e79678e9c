import Mathlib.Data.List.Nodup
import Prototypes.Slots.Storage

/-!
# Slot storage with indices

How the slots of a node lie in memory. Fields and methods are vectors, each with
a hash map beside it that tells the place of a selector; the values of the fields
are in a vector of their own, and the custom fields in one that is searched from
the left. A vector indexed out of its bounds stops whoever does it.

Five containers stay aligned when a slot in the middle goes. What is behind it
moves up by one place, which is recorded in two ways: a field map is built anew
without the field, and in a method dictionary all later places are counted down.
-/

namespace Prototypes

variable {κ α : Type}

instance : Hashable Symbol := ⟨fun s => hash s.text⟩

/-- The places of selectors in a vector. -/
abbrev Places := Std.ExtHashMap Symbol Nat

/-! ## Vectors -/

namespace Indexed

/-- What is at an index. -/
def itemAt (items : List α) (index : Nat) : Except Halt α :=
  match items[index]? with
  | some item => .ok item
  | none => .error .outOfBounds

/-- The vector with another item at an index. -/
def withItemAt (items : List α) (index : Nat) (item : α) : Except Halt (List α) :=
  if index < items.length then .ok (items.set index item) else .error .outOfBounds

/-- The item at an index and the vector without it. -/
def takeItemAt (items : List α) (index : Nat) : Except Halt (α × List α) := do
  return (← itemAt items index, items.eraseIdx index)

end Indexed

/-! ## Fields without their values -/

/-- A layout with the place of each field. -/
structure FieldMap where
  fields : List FieldInfo
  places : Places

namespace FieldMap

def empty : FieldMap := ⟨[], ∅⟩

def place? (map : FieldMap) (name : Symbol) : Option Nat := map.places[name]?

def info (map : FieldMap) (index : Nat) : Except Halt FieldInfo := Indexed.itemAt map.fields index

/-- Adds a field at the end and answers its place. -/
def put (map : FieldMap) (field : FieldInfo) : Except RuntimeError (Nat × FieldMap) :=
  if map.places.contains field.name then .error (.duplicateSlot field.name)
  else
    let index := map.fields.length
    .ok (index, ⟨map.fields ++ [field], map.places.insert field.name index⟩)

/-- Adds a field unless it is there. -/
def extend (map : FieldMap) (field : FieldInfo) : FieldMap :=
  match map.put field with
  | .ok (_, extended) => extended
  | .error _ => map

/-- The map built anew without the field at an index. -/
def without (map : FieldMap) (removed : Nat) : FieldMap :=
  map.fields.zipIdx.foldl
    (fun rebuilt entry => if entry.2 = removed then rebuilt else rebuilt.extend entry.1) empty

end FieldMap

/-! ## Methods -/

/-- Methods in the order of definition, with the place of each. -/
structure MethodDictionary (κ : Type) where
  methods : List (Method κ)
  places : Places

namespace MethodDictionary

def empty : MethodDictionary κ := ⟨[], ∅⟩

def contains (dictionary : MethodDictionary κ) (name : Symbol) : Bool :=
  dictionary.places.contains name

def get (dictionary : MethodDictionary κ) (name : Symbol) : Except Halt (Option (Method κ)) :=
  match dictionary.places[name]? with
  | some index => some <$> Indexed.itemAt dictionary.methods index
  | none => .ok none

def insert (dictionary : MethodDictionary κ) (method : Method κ) : MethodDictionary κ :=
  ⟨dictionary.methods ++ [method],
    dictionary.places.insert method.name dictionary.methods.length⟩

/-- The places once the item at an index is gone. -/
def countDown (places : Places) (removed : Nat) : Places :=
  places.map fun _ place => if removed < place then place - 1 else place

/-- Removes a method and answers it. -/
def remove (dictionary : MethodDictionary κ) (name : Symbol) :
    Except Halt (Option (Method κ) × MethodDictionary κ) :=
  match dictionary.places[name]? with
  | none => .ok (none, dictionary)
  | some index => do
    let (method, methods) ← Indexed.takeItemAt dictionary.methods index
    return (some method, ⟨methods, countDown (dictionary.places.erase name) index⟩)

end MethodDictionary

/-! ## The storage -/

/-- The slots of one node as they lie in memory. -/
structure IndexedStorage (κ : Type) where
  layoutIdentity : Identity
  map : FieldMap
  values : List (Value κ)
  methods : MethodDictionary κ
  custom : List (CustomField κ)

namespace IndexedStorage

/-- No slots, and a layout shared with nobody. -/
def empty (layoutIdentity : Identity) : IndexedStorage κ :=
  { layoutIdentity, map := .empty, values := [], methods := .empty, custom := [] }

/-! ### What is there -/

def customIndex? (storage : IndexedStorage κ) (name : Symbol) : Option Nat :=
  storage.custom.findIdx? fun field => field.name == name

def hasSlot (storage : IndexedStorage κ) (name : Symbol) : Bool :=
  (storage.map.place? name).isSome || storage.methods.contains name ||
    (storage.customIndex? name).isSome

def fieldIndex? (storage : IndexedStorage κ) (name : Symbol) : Option Nat :=
  storage.map.place? name

def fieldInfo (storage : IndexedStorage κ) (index : Nat) : Except Halt FieldInfo :=
  storage.map.info index

/-- The value at an index. -/
def read (storage : IndexedStorage κ) (index : Nat) : Except Halt (Value κ) :=
  Indexed.itemAt storage.values index

def method? (storage : IndexedStorage κ) (name : Symbol) : Except Halt (Option (Method κ)) :=
  storage.methods.get name

/-- The object that stands for a custom field. -/
def custom? (storage : IndexedStorage κ) (name : Symbol) : Except Halt (Option (Value κ)) :=
  match storage.customIndex? name with
  | some index => (fun field => some field.field) <$> Indexed.itemAt storage.custom index
  | none => .ok none

/-! ### Changes

A change is made in place: what was done before it stops stays done.
-/

/-- A change of a storage that answers or stops. -/
abbrev Change (κ α : Type) := EStateM Halt (IndexedStorage κ) α

/-- Stops where a computation stops. -/
def orStop : Except Halt α → Change κ α
  | .ok answer => pure answer
  | .error reason => throw reason

/-- Stops unless the name is free. -/
def checkFree (name : Symbol) : Change κ Unit := do
  if (← get).hasSlot name then throw (.raised (.duplicateSlot name))

/-- Puts a value at an index. -/
def write (index : Nat) (value : Value κ) : Change κ Unit := do
  let values ← orStop (Indexed.withItemAt (← get).values index value)
  modify fun storage => { storage with values }

/--
Adds a field at the end and answers its index. The layout is made private first,
with `fresh` as its identity. The index has to be that of the value.
-/
def putField (fresh : Identity) (field : Field κ) : Change κ Nat := do
  checkFree field.name
  modify fun storage => { storage with layoutIdentity := fresh }
  let (index, map) ← orStop (((← get).map.put field.toFieldInfo).mapError .raised)
  modify fun storage => { storage with map }
  if index ≠ (← get).values.length then throw .outOfBounds
  modify fun storage => { storage with values := storage.values ++ [field.value] }
  return index

/-- Removes a field and answers its value, with `fresh` as the new layout's identity. -/
def removeField (fresh : Identity) (name : Symbol) : Change κ (Option (Value κ)) := do
  match (← get).map.place? name with
  | none => return none
  | some index =>
    modify fun storage =>
      { storage with layoutIdentity := fresh, map := storage.map.without index }
    let (value, values) ← orStop (Indexed.takeItemAt (← get).values index)
    modify fun storage => { storage with values }
    return some value

def addMethod (method : Method κ) : Change κ Unit := do
  checkFree method.name
  modify fun storage => { storage with methods := storage.methods.insert method }

def removeMethod (name : Symbol) : Change κ (Option (Method κ)) := do
  let (method, methods) ← orStop ((← get).methods.remove name)
  modify fun storage => { storage with methods }
  return method

def addCustom (field : CustomField κ) : Change κ Unit := do
  checkFree field.name
  modify fun storage => { storage with custom := storage.custom ++ [field] }

def removeCustom (name : Symbol) : Change κ (Option (Value κ)) := do
  match (← get).customIndex? name with
  | none => return none
  | some index =>
    let (field, custom) ← orStop (Indexed.takeItemAt (← get).custom index)
    modify fun storage => { storage with custom }
    return some field.field

/-- What a clone starts with, and the custom fields that stay behind. -/
def cloneLayout (storage : IndexedStorage κ) : IndexedStorage κ × List (CustomField κ) :=
  ({ storage with custom := [] }, storage.custom)

def sharesLayoutWith (a b : IndexedStorage κ) : Bool := a.layoutIdentity == b.layoutIdentity

end IndexedStorage

end Prototypes
