import Prototypes.Slots.Indexed

/-!
# Operations on slots

The calls that change a storage, as data: adding a slot of one of the three kinds,
removing one, writing a field at the index its name is found at, and going on with a
clone. They are performed on the lists of a `Storage` and on an `IndexedStorage`; a
call that fails does not end a sequence of calls.
-/

namespace Prototypes

variable {κ α σ : Type}

inductive SlotKind where
  | field
  | method
  | custom
deriving DecidableEq, Inhabited

/-- What can be added to a storage. -/
inductive Entry (κ : Type) where
  | field (field : Field κ)
  | method (method : Method κ)
  | custom (field : CustomField κ)

namespace Entry

def kind : Entry κ → SlotKind
  | field _ => .field
  | method _ => .method
  | custom _ => .custom

def name : Entry κ → Symbol
  | field entry => entry.name
  | method entry => entry.name
  | custom entry => entry.name

end Entry

/-- A call on a storage; `fresh` is the identity of a layout that has to be made. -/
inductive SlotOperation (κ : Type) where
  | insert (fresh : Identity) (entry : Entry κ)
  | remove (fresh : Identity) (kind : SlotKind) (name : Symbol)
  /-- writes at the index the name is found at, if it is found -/
  | write (name : Symbol) (value : Value κ)
  /-- goes on with the clone -/
  | clone

/-- The selector a call is about. -/
def SlotOperation.name? : SlotOperation κ → Option Symbol
  | insert _ entry => some entry.name
  | remove _ _ name => some name
  | write name _ => some name
  | clone => none

/-- What a call answers. -/
inductive SlotAnswer (κ : Type) where
  | done
  | index (index : Nat)
  | value (value : Option (Value κ))
  | method (method : Option (Method κ))
  | behind (custom : List (CustomField κ))

namespace Storage

/-- A change of the lists that can fail. -/
def insertWith (storage : Storage κ) (answer : SlotAnswer κ)
    (changed : Except RuntimeError (Storage κ)) :
    EStateM.Result Halt (Storage κ) (SlotAnswer κ) :=
  match changed with
  | .ok changed => .ok answer changed
  | .error reason => .error (.raised reason) storage

/-- A change of the lists that answers what it removes. -/
def removeWith (storage : Storage κ) (answer : Option α → SlotAnswer κ)
    (changed : Option (α × Storage κ)) : EStateM.Result Halt (Storage κ) (SlotAnswer κ) :=
  match changed with
  | some (removed, changed) => .ok (answer (some removed)) changed
  | none => .ok (answer none) storage

/-- Performs a call on the lists. -/
def perform (storage : Storage κ) (operation : SlotOperation κ) :
    EStateM.Result Halt (Storage κ) (SlotAnswer κ) :=
  match operation with
  | .insert fresh (.field field) =>
    storage.insertWith (.index storage.fields.length) (storage.putField fresh field)
  | .insert _ (.method method) => storage.insertWith .done (storage.addMethod method)
  | .insert _ (.custom field) => storage.insertWith .done (storage.addCustom field)
  | .remove fresh .field name => storage.removeWith .value (storage.removeField? fresh name)
  | .remove _ .method name => storage.removeWith .method (storage.removeMethod? name)
  | .remove _ .custom name => storage.removeWith .value (storage.removeCustom? name)
  | .write name value =>
    match storage.fieldIndex? name with
    | none => .ok .done storage
    | some index =>
      match storage.write? index value with
      | some written => .ok .done written
      | none => .error .outOfBounds storage
  | .clone => .ok (.behind storage.custom) storage.cloneLayout

end Storage

namespace IndexedStorage

/-- A call on the containers. -/
def change (operation : SlotOperation κ) : Change κ (SlotAnswer κ) :=
  match operation with
  | .insert fresh (.field field) => .index <$> putField fresh field
  | .insert _ (.method method) => (fun _ => .done) <$> addMethod method
  | .insert _ (.custom field) => (fun _ => .done) <$> addCustom field
  | .remove fresh .field name => .value <$> removeField fresh name
  | .remove _ .method name => .method <$> removeMethod name
  | .remove _ .custom name => .value <$> removeCustom name
  | .write name value => do
    match (← get).fieldIndex? name with
    | none => return .done
    | some index => (fun _ => .done) <$> write index value
  | .clone => do
    let (clone, custom) := (← get).cloneLayout
    set clone
    return .behind custom

/-- Performs a call on the containers. -/
def perform (storage : IndexedStorage κ) (operation : SlotOperation κ) :
    EStateM.Result Halt (IndexedStorage κ) (SlotAnswer κ) :=
  (change operation).run storage

end IndexedStorage

/-- Performs calls one after the other, and answers what each of them answers or fails with. -/
def performAll (perform : σ → SlotOperation κ → EStateM.Result Halt σ (SlotAnswer κ))
    (storage : σ) : List (SlotOperation κ) → List (Except Halt (SlotAnswer κ)) × σ
  | [] => ([], storage)
  | operation :: more =>
    match perform storage operation with
    | .ok answer next =>
      let (answers, last) := performAll perform next more
      (.ok answer :: answers, last)
    | .error reason next =>
      let (answers, last) := performAll perform next more
      (.error reason :: answers, last)

end Prototypes
