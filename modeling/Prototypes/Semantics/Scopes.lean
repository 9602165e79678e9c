import Prototypes.Semantics.Slots

/-!
# Lexical scopes

Free names are looked up in a scope and those around it. A value found there
is answered as it is, a method as a closure whose receiver is the scope that
holds it. A mirage among the enclosing scopes answers for itself.
-/

namespace Prototypes

variable {κ σ : Type}

namespace Runtime

variable (rt : Runtime κ σ)

/-- The value of a slot found in a scope. -/
def lookupSlot (holder : ObjectId) (slot : Slot κ) (selector : Symbol) : Run κ σ (Value κ) := do
  let owner : Value κ := .object holder
  match slot with
  | .field index _ => readIndex holder index
  | .custom field => rt.invoke field Selector.readField []
  | .mutator _ writable =>
    checkWritable holder selector writable
    mutator holder owner selector
  | .customMutator _ => mutator holder owner selector
  | .method method => Run.newClosure (← methodClosure holder method owner)

/-- The value of a name. -/
def defaultLookup (scope : ObjectId) (selector : Symbol) : Run κ σ (Value κ) := do
  match ← Run.searchLexical scope selector with
  | .found holder slot => rt.lookupSlot holder slot selector
  | .delegate enclosing =>
    let enclosing ← Run.check (enclosing.expectObject "lexical scope")
    rt.send (.object enclosing) (.lookup selector)
  | .absent => Run.raise (notFoundFrom selector scope)

/-- Calls what a name stands for; without arguments, a value that is no closure answers itself. -/
def defaultCall (scope : ObjectId) (selector : Symbol) (arguments : List (Value κ)) :
    Run κ σ (Value κ) := do
  match ← rt.defaultLookup scope selector with
  | .closure _ closure => rt.apply closure arguments
  | value => if arguments.isEmpty then return value else rt.applyValue value arguments

/-- Assigns to the nearest definition of a name. -/
def defaultAssignVariable (scope : ObjectId) (selector : Symbol) (value : Value κ) :
    Run κ σ Unit := do
  match ← Run.searchLexical scope selector with
  | .found holder (.field ..) | .found holder (.custom _) => rt.writeSlot holder selector value
  | .found holder _ => Run.raise (.illegalOperation (.notVariable selector holder))
  | .delegate enclosing =>
    let enclosing ← Run.check (enclosing.expectObject "lexical scope")
    discard <| rt.send (.object enclosing) (.assignVariable selector value)
  | .absent => Run.raise (notFoundFrom selector scope)

/-- Adds a field to a scope or an object. -/
def defaultDefineField (target : ObjectId) (selector : Symbol) (value : Value κ) :
    Run κ σ Unit :=
  Run.putField target { name := selector, writable := true, value }

end Runtime

end Prototypes
