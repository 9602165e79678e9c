import Prototypes.Semantics.Mirrors
import Prototypes.Semantics.Slots

/-!
# Delegation along dynamic parents

Four operations look for a selector along the dynamic parents of an object:
sending a message, selecting a slot, assigning a field, and asking whether a
message is understood. They share one walk, `resolve`, and differ in what they
do at its end.

The walk passes plain objects without asking them. At a mirage whose mirror
would only perform the default meaning of the operation, it goes on inside the
mirror's base. Any other parent that answers for itself ends the walk and is
sent the operation.

When no slot is found, primitives answer; what is no primitive either is given
to the handler that the receiver supplies for messages it does not understand.
-/

namespace Prototypes

variable {κ σ : Type}

namespace Runtime

variable (rt : Runtime κ σ)

/-! ## The walk -/

/-- A mirage parent whose mirror would perform the default meaning of `op`: where to go on. -/
def delegatedDefault? (parent : Value κ) (op : MetaOp) : Run κ σ (Option ObjectId) := do
  match parent with
  | .object id => if (← Run.node id).isMirage then rt.defaultTarget? id op else return none
  | _ => return none

/--
The walk for `op` from `target`, entering at most `fuel` chains: the node at
which the last chain starts, and how the search along it ended.
-/
def resolveFrom (op : MetaOp) (selector : Symbol) :
    (fuel : Nat) → ObjectId → Run κ σ (ObjectId × Resolution κ)
  | 0, _ => Run.halt .exhausted
  | fuel + 1, target => do
    match ← Run.searchDynamic target selector with
    | .delegate parent =>
      match ← rt.delegatedDefault? parent op with
      | some base => resolveFrom op selector fuel base
      | none => return (target, .delegate parent)
    | ended => return (target, ended)

/-- The walk for `op` from `target`. -/
def resolve (op : MetaOp) (selector : Symbol) (target : ObjectId) :
    Run κ σ (ObjectId × Resolution κ) :=
  rt.resolveFrom op selector rt.fuel target

/-! ## When nothing is found -/

/-- Runs a primitive. -/
def callPrimitive (primitive : Primitive) (receiver : Value κ) (selector : Symbol)
    (arguments : List (Value κ)) : Run κ σ (Value κ) := do
  if !primitive.arity.accepts arguments.length then
    Run.raise (.arityMismatch selector primitive.arity arguments.length)
  match primitive, arguments with
  | .identical, value :: _ => return .bool (receiver.isIdentical value)
  | .notIdentical, value :: _ => return .bool (!receiver.isIdentical value)
  | .new, arguments => rt.send receiver (.newInstance arguments)
  | .init, _ => return .nil
  | _, [] => Run.halt .outOfBounds

/-- A message found nowhere: a primitive, or a matter for the receiver's handler. -/
def invokeFallback (receiver : Value κ) (selector : Symbol) (arguments : List (Value κ)) :
    Run κ σ (Value κ) := do
  match Primitive.ofSelector? selector with
  | some primitive => rt.callPrimitive primitive receiver selector arguments
  | none =>
    let handler ← rt.send receiver (.doesNotUnderstand selector)
    rt.applyValue handler arguments

/-- A selection found nowhere: a closure over a primitive, or the receiver's handler. -/
def selectFallback (receiver : Value κ) (selector : Symbol) : Run κ σ (Value κ) := do
  match Primitive.ofSelector? selector with
  | some primitive =>
    let method := Method.builtin (← Run.fresh) selector [.rest ⟨"arguments"⟩]
      (.primitive primitive selector)
    Run.newClosure ⟨method, ⟨(← get).lexicalRoot, receiver, .nil⟩⟩
  | none => rt.send receiver (.doesNotUnderstand selector)

/-! ## The operations -/

/-- Sends a message, the search starting at `target`. -/
def defaultInvoke (target : ObjectId) (receiver : Value κ) (selector : Symbol)
    (arguments : List (Value κ)) : Run κ σ (Value κ) := do
  match ← rt.resolve .invoke selector target with
  | (_, .found holder slot) => rt.invokeSlot holder slot receiver selector arguments
  | (_, .delegate parent) => rt.send parent (.invoke receiver selector arguments)
  | (_, .absent) => rt.invokeFallback receiver selector arguments

/-- A closure over the slot a search found. -/
def selectSlot (holder : ObjectId) (slot : Slot κ) (receiver : Value κ) (selector : Symbol) :
    Run κ σ (Value κ) := do
  match slot with
  | .field .. | .custom _ => accessor holder receiver selector
  | .mutator _ writable =>
    checkWritable holder selector writable
    mutator holder receiver selector
  | .customMutator _ => mutator holder receiver selector
  | .method method => Run.newClosure (← methodClosure holder method receiver)

/-- Answers a slot as a closure, the search starting at `target`. -/
def defaultSelect (target : ObjectId) (receiver : Value κ) (selector : Symbol) :
    Run κ σ (Value κ) := do
  match ← rt.resolve .select selector target with
  | (_, .found holder slot) => selectSlot holder slot receiver selector
  | (_, .delegate parent) => rt.send parent (.select receiver selector)
  | (_, .absent) => rt.selectFallback receiver selector

/-- Assigns to the nearest field of the name. -/
def defaultAssignField (target : ObjectId) (selector : Symbol) (value : Value κ) :
    Run κ σ Unit := do
  match ← rt.resolve .assignField selector target with
  | (_, .found holder (.field ..)) | (_, .found holder (.custom _)) =>
    rt.writeSlot holder selector value
  | (_, .found holder _) => Run.raise (.illegalOperation (.notField selector holder))
  | (_, .delegate parent) => discard <| rt.send parent (.assignField selector value)
  | (last, .absent) => Run.raise (notFoundFrom selector last)

/-- Asks a value whether it understands a message. -/
def respondsTo (value : Value κ) (selector : Symbol) : Run κ σ Bool := do
  Run.check ((← rt.send value (.respondsTo selector)).expectBool "respondsTo result")

/-- Whether a message is understood; read-only fields do not understand their mutator. -/
def defaultRespondsTo (target : ObjectId) (selector : Symbol) : Run κ σ Bool := do
  match ← rt.resolve .respondsTo selector target with
  | (_, .found _ (.mutator _ writable)) => return writable
  | (_, .found _ _) => return true
  | (_, .delegate parent) => rt.respondsTo parent selector
  | (_, .absent) => return (Primitive.ofSelector? selector).isSome

end Runtime

end Prototypes
