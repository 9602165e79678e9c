import Prototypes.Semantics.Cloning
import Prototypes.Semantics.Delegation
import Prototypes.Semantics.Extension
import Prototypes.Semantics.Reflection
import Prototypes.Semantics.Relations
import Prototypes.Semantics.Scopes

/-!
# Default meanings

What each meta operation does to a node by itself, whether or not the node has
a mirror. Plain objects always answer this way; mirages do when their mirror
falls back on the mirror root.

Mirrors answer values of any kind. `Value.promised` brings an answer back to
what the sender of an operation may rely on.
-/

namespace Prototypes

variable {κ σ : Type}

namespace Runtime

variable (rt : Runtime κ σ)

/-- Performs an operation on a node, its mirror left out of account. -/
def performDefault (id : ObjectId) : Message κ → Run κ σ (Value κ)
  | .invoke receiver selector arguments => rt.defaultInvoke id receiver selector arguments
  | .select receiver selector => rt.defaultSelect id receiver selector
  | .lookup selector => rt.defaultLookup id selector
  | .call selector arguments => rt.defaultCall id selector arguments
  | .assignField selector value => do
    rt.defaultAssignField id selector value
    return .nil
  | .assignVariable selector value => do
    rt.defaultAssignVariable id selector value
    return .nil
  | .defineField selector value => do
    defaultDefineField id selector value
    return .nil
  | .clone => .object <$> rt.defaultClone id
  | .newInstance arguments => rt.defaultNewInstance id arguments
  | .extend code => rt.extendWith (.object id) .isA code []
  | .share code => rt.extendWith (.object id) .sharesA code []
  | .doesNotUnderstand selector => Run.defaultHandler (.object id) selector
  | .isCloneOf other => .bool <$> defaultIsCloneOf id other
  | .isRelatedTo other => .bool <$> rt.defaultIsRelatedTo id other
  | .addField field => do
    rt.defaultAddField id field
    return .nil
  | .grabField selector => defaultGrabField id selector
  | .listFields => do Run.newTable (← defaultListFields id)
  | .addMethod method => do
    defaultAddMethod id method
    return .nil
  | .grabMethod selector => defaultGrabMethod id selector
  | .listMethods => do Run.newTable (← defaultListMethods id)
  | .addSlot slot => do
    rt.defaultAddSlot id slot
    return .nil
  | .grabSlot selector => defaultGrabSlot id selector
  | .removeSlot selector => defaultRemoveSlot id selector
  | .listSlots => do Run.newTable (← defaultListSlots id)
  | .respondsTo selector => .bool <$> rt.defaultRespondsTo id selector
  | .eval _ | .quote _ | .resolve => return .object id
  | .pass => rt.defaultPass id
  | .print => defaultPrint id
  | .isTaggedAs tag => .bool <$> rt.defaultIsTaggedAs id tag
  | .typeTags => do Run.newTable (← defaultTypeTags id)

/-- Reads the arguments of an operation and performs it. -/
def performWith (id : ObjectId) (op : MetaOp) (arguments : List (Value κ)) :
    Run κ σ (Value κ) := do
  rt.performDefault id (← Run.check (Message.read op arguments))

/-- A mirror's default answer to an operation: its meaning on the mirror's base. -/
def performOnBase (op : MetaOp) (mirror : Value κ) (arguments : List (Value κ)) :
    Run κ σ (Value κ) := do
  let base ← rt.mirrorBase mirror
  Run.trace (.performedDefault mirror.display op base)
  rt.performWith base op arguments

end Runtime

namespace Value

/-- The kind of the values an operation answers; mirrors have to keep to it. -/
def promised (op : MetaOp) (value : Value κ) : Except RuntimeError (Value κ) :=
  match op with
  | .isCloneOf | .isRelatedTo | .respondsTo | .isTaggedAs => do
    discard <| value.expectBool op.name
    return value
  | .listFields | .listMethods | .listSlots | .typeTags => do
    discard <| value.expectTable op.name
    return value
  | .print =>
    match value with
    | .text _ => .ok value
    | .symbol s => .ok (.text s.text)
    | other => .error (.illegalArgument (.notText other.kindName other.display))
  | _ => .ok value

end Value

end Prototypes
