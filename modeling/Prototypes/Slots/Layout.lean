import Prototypes.Error

/-!
# Field layouts

The names of an object's fields in the order in which they were added, each
with the note whether it can be assigned to. A field's index is its place in
the list, and no name occurs twice.
-/

namespace Prototypes

/-- What is fixed about a field when it is added. -/
structure FieldInfo where
  name : Symbol
  writable : Bool
deriving DecidableEq, Inhabited

/-- The fields of an object without their values. -/
structure Layout where
  fields : List FieldInfo
deriving DecidableEq, Inhabited

namespace Layout

def empty : Layout := ⟨[]⟩

def size (layout : Layout) : Nat := layout.fields.length

def names (layout : Layout) : List Symbol := layout.fields.map FieldInfo.name

/-- The index of a field. -/
def index? (layout : Layout) (name : Symbol) : Option Nat :=
  layout.fields.findIdx? fun field => field.name == name

/-- The field at an index. -/
def info? (layout : Layout) (index : Nat) : Option FieldInfo := layout.fields[index]?

/-- Adds a field at the end, unless its name is taken. -/
def put (layout : Layout) (field : FieldInfo) : Except RuntimeError Layout :=
  match layout.index? field.name with
  | some _ => .error (.duplicateSlot field.name)
  | none => .ok ⟨layout.fields ++ [field]⟩

end Layout

end Prototypes
