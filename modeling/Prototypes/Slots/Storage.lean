import Prototypes.Method
import Prototypes.Slots.Layout
import Prototypes.Value.Edges

/-!
# Slot storage

A node keeps its slots in three lists: fields with their values, methods, and
custom fields, which are objects that stand for a field and are asked to read
and write it. Each list is in the order of addition, and a selector names at
most one slot over all three.

A clone starts with the layout of its source. Two storages *share* their
layout from then on until either changes its own fields, which is recorded by
the layout's identity: cloning copies it, and adding or removing a field puts a
new one in its place.
-/

namespace Prototypes

variable {κ : Type}

/-- A field with its value. -/
structure Field (κ : Type) extends FieldInfo where
  value : Value κ

/-- A programmer-supplied object that stands for a field. -/
structure CustomField (κ : Type) where
  name : Symbol
  field : Value κ

/-- The slots of one node. -/
structure Storage (κ : Type) where
  layoutIdentity : Identity
  fields : List (Field κ)
  methods : List (Method κ)
  custom : List (CustomField κ)

namespace Storage

/-- No slots, and a layout shared with nobody. -/
def empty (layoutIdentity : Identity) : Storage κ :=
  { layoutIdentity, fields := [], methods := [], custom := [] }

/-! ## What is there -/

/-- The fields without their values. -/
def layout (storage : Storage κ) : Layout := ⟨storage.fields.map Field.toFieldInfo⟩

def values (storage : Storage κ) : List (Value κ) := storage.fields.map Field.value

/-- All selectors that name a slot. -/
def names (storage : Storage κ) : List Symbol :=
  storage.fields.map (fun field => field.name) ++ storage.methods.map Method.name ++
    storage.custom.map CustomField.name

def fieldIndex? (storage : Storage κ) (name : Symbol) : Option Nat :=
  storage.fields.findIdx? fun field => field.name == name

def field? (storage : Storage κ) (name : Symbol) : Option (Field κ) :=
  storage.fields.find? fun field => field.name == name

def method? (storage : Storage κ) (name : Symbol) : Option (Method κ) :=
  storage.methods.find? fun method => method.name == name

/-- The object that stands for a custom field. -/
def custom? (storage : Storage κ) (name : Symbol) : Option (Value κ) :=
  (storage.custom.find? fun field => field.name == name).map CustomField.field

def hasSlot (storage : Storage κ) (name : Symbol) : Bool :=
  (storage.field? name).isSome || (storage.method? name).isSome || (storage.custom? name).isSome

/-- The value at an index. -/
def read? (storage : Storage κ) (index : Nat) : Option (Value κ) :=
  storage.fields[index]?.map Field.value

/-- The handles in values, methods and custom fields, in this order. -/
def edges (storage : Storage κ) : List ObjectId :=
  storage.fields.flatMap (fun field => field.value.edges) ++
    storage.methods.flatMap Method.edges ++
    storage.custom.flatMap fun field => field.field.edges

/-! ## Changes -/

/-- Puts a value at an index, which must be there. -/
def write? (storage : Storage κ) (index : Nat) (value : Value κ) : Option (Storage κ) :=
  match storage.fields[index]? with
  | some field => some { storage with fields := storage.fields.set index { field with value } }
  | none => none

/-- Adds a field at the end, with `fresh` as the layout's new identity. -/
def putField (storage : Storage κ) (fresh : Identity) (field : Field κ) :
    Except RuntimeError (Storage κ) :=
  if storage.hasSlot field.name then .error (.duplicateSlot field.name)
  else .ok { storage with layoutIdentity := fresh, fields := storage.fields ++ [field] }

def addMethod (storage : Storage κ) (method : Method κ) : Except RuntimeError (Storage κ) :=
  if storage.hasSlot method.name then .error (.duplicateSlot method.name)
  else .ok { storage with methods := storage.methods ++ [method] }

def addCustom (storage : Storage κ) (field : CustomField κ) : Except RuntimeError (Storage κ) :=
  if storage.hasSlot field.name then .error (.duplicateSlot field.name)
  else .ok { storage with custom := storage.custom ++ [field] }

/-- Removes a field and answers its value, with `fresh` as the layout's new identity. -/
def removeField? (storage : Storage κ) (fresh : Identity) (name : Symbol) :
    Option (Value κ × Storage κ) :=
  (storage.field? name).map fun field =>
    (field.value, { storage with
      layoutIdentity := fresh
      fields := storage.fields.eraseP fun field => field.name == name })

def removeMethod? (storage : Storage κ) (name : Symbol) : Option (Method κ × Storage κ) :=
  (storage.method? name).map fun method =>
    (method, { storage with methods := storage.methods.eraseP fun method => method.name == name })

def removeCustom? (storage : Storage κ) (name : Symbol) : Option (Value κ × Storage κ) :=
  (storage.custom? name).map fun field =>
    (field, { storage with custom := storage.custom.eraseP fun field => field.name == name })

/-! ## Clones -/

/--
What a clone starts with: the same layout, values and methods. Custom fields
stay behind; the clone gets instances of its own.
-/
def cloneLayout (storage : Storage κ) : Storage κ := { storage with custom := [] }

def sharesLayoutWith (a b : Storage κ) : Bool := a.layoutIdentity == b.layoutIdentity

/-! ## The names taken -/

/-- A slot is there when its selector is among the names. -/
theorem hasSlot_iff {storage : Storage κ} {name : Symbol} :
    storage.hasSlot name = true ↔ name ∈ storage.names := by
  simp [hasSlot, names, field?, method?, custom?, or_assoc]

theorem names_cloneLayout (storage : Storage κ) :
    storage.cloneLayout.names =
      storage.fields.map (fun field => field.name) ++ storage.methods.map Method.name := by
  simp [names, cloneLayout]

end Storage

/-! ## Finding a slot -/

/-- What a selector names in one storage. -/
inductive Slot (κ : Type) where
  | field (index : Nat) (writable : Bool)
  /-- `x:=` where `x` is a field -/
  | mutator (index : Nat) (writable : Bool)
  | method (method : Method κ)
  | custom (field : Value κ)
  /-- `x:=` where `x` is a custom field -/
  | customMutator (field : Value κ)

namespace Storage

/-- The field a selector names, with its index. -/
def fieldSlot? (storage : Storage κ) (name : Symbol) : Option (Nat × Bool) :=
  match storage.fieldIndex? name with
  | none => none
  | some index => storage.fields[index]?.map fun field => (index, field.writable)

/--
What a selector names: a field, a method or a custom field of that name, or
else, for an assignment, the mutator of the field or custom field it targets.
-/
def find (storage : Storage κ) (selector : Symbol) : Option (Slot κ) :=
  (storage.fieldSlot? selector).map (fun found => .field found.1 found.2)
    <|> (storage.method? selector).map .method
    <|> (storage.custom? selector).map .custom
    <|> selector.assignmentTarget?.bind fun target =>
      (storage.fieldSlot? target).map (fun found => .mutator found.1 found.2)
        <|> (storage.custom? target).map .customMutator

end Storage

end Prototypes
