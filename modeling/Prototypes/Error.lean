import Prototypes.Handle
import Prototypes.MetaOp

/-!
# Errors

An operation of the object model either answers or raises one of six kinds of
errors. The three open-ended kinds list their causes; what is said about each
is written in one place, `RuntimeError.message`. Values appear in errors by
their text, taken when the error arises.

An error is one of the ways in which a run stops without an answer (`Halt`).
The others are not part of the model's own vocabulary: a handle whose node has
been reclaimed is followed, an index lies outside of what it indexes, or the
steps granted to the run are used up.
-/

namespace Prototypes

/-- Things the target of an operation does not allow. -/
inductive IllegalOperation where
  /-- a call frame is only a lexical scope -/
  | onCallFrame (op : MetaOp) (frame : ObjectId)
  /-- values outside the heap have no slots -/
  | unsupported (kind value : String) (op : MetaOp)
  /-- the field is read-only -/
  | readOnlyField (name : Symbol) (holder : ObjectId)
  /-- the selector assigns to a read-only field -/
  | noMutator (selector : Symbol) (holder : ObjectId)
  /-- the slot found is no field -/
  | notField (selector : Symbol) (holder : ObjectId)
  /-- the slot found is no variable -/
  | notVariable (selector : Symbol) (holder : ObjectId)
  /-- the node has no body to copy -/
  | notCloneable (node : ObjectId)
  /-- the mirror answered itself when it was cloned -/
  | mirrorNotCloneable (mirror mirage : ObjectId)
  | mirageUnbound (mirage : ObjectId)
  | mirrorUnbound (mirror : String)
  | mirrorRootShared
  | mirrorAlreadyBound (mirror : String)
  /-- an unquotation makes sense only inside a quotation -/
  | strayUnquotation
  /-- raised by host code -/
  | host (message : String)
deriving DecidableEq, Inhabited

/-- Arguments that are not what they have to be. -/
inductive IllegalArgument where
  /-- a value of another kind stands where `what` is expected -/
  | expected (what kind value : String)
  | restNotLast (parameter method : Symbol)
  | notMirage (node : ObjectId)
  | mirageAlreadyBound (mirage : String)
  /-- only a mirage can be bound to a mirror -/
  | cannotReflect (value : String)
  /-- methods and closures are no fields -/
  | notFieldValue (value : String)
  | noMetaOperation (hostName : String)
  /-- a mirror answered no text to `print` -/
  | notText (kind value : String)
  /-- printing answered no text -/
  | printedNoText (kind value : String)
  /-- raised by host code -/
  | host (message : String)
deriving DecidableEq, Inhabited

/-- Things only the host can have got wrong. -/
inductive InternalFault where
  | hostName (name : String) (fault : HostName.Fault)
  | notAssignment (selector : Symbol)
  /-- raised by host code -/
  | host (message : String)
deriving DecidableEq, Inhabited

/-- What an operation raises. -/
inductive RuntimeError where
  | selectorNotFound (selector : Symbol) (receiver : String)
  | duplicateSlot (selector : Symbol)
  | arityMismatch (selector : Symbol) (expected : Arity) (got : Nat)
  | illegalOperation (cause : IllegalOperation)
  | illegalArgument (cause : IllegalArgument)
  | internal (cause : InternalFault)
deriving DecidableEq, Inhabited

/-! ## Wording -/

def IllegalOperation.message : IllegalOperation → String
  | onCallFrame op frame => s!"`{op}` cannot be applied to call frame {frame}"
  | unsupported kind value op => s!"{kind} {value} does not support `{op}`"
  | readOnlyField name holder => s!"field `{name}` of {holder.display} has no mutator"
  | noMutator selector holder => s!"`{selector}` of {holder.display} has no mutator"
  | notField selector holder => s!"`{selector}` of {holder.display} is not a field"
  | notVariable selector holder => s!"`{selector}` of {holder.display} is not a variable"
  | notCloneable node => s!"{node} cannot be cloned"
  | mirrorNotCloneable mirror mirage => s!"mirror {mirror} of {mirage.display} cannot be cloned"
  | mirageUnbound mirage => s!"mirage {mirage} is not bound to a mirror"
  | mirrorUnbound mirror => s!"{mirror} is not bound to a mirage"
  | mirrorRootShared => "the mirror root is shared and cannot be bound"
  | mirrorAlreadyBound mirror => s!"{mirror} is already bound"
  | strayUnquotation => "unquotation evaluated outside of a quotation"
  | host message => message

def IllegalArgument.message : IllegalArgument → String
  | expected what kind value => s!"expected {what}, got {kind} {value}"
  | restNotLast parameter method => s!"rest parameter `{parameter}` of `{method}` must come last"
  | notMirage node => s!"{node.display} is not a mirage"
  | mirageAlreadyBound mirage => s!"{mirage} already has a mirror"
  | cannotReflect value => s!"cannot reflect on {value}: not a mirage"
  | notFieldValue value => s!"{value} is not a field"
  | noMetaOperation hostName => s!"`{hostName}` names no meta operation"
  | notText kind value => s!"expected text from `print`, got {kind} {value}"
  | printedNoText kind value => s!"print answered {kind} {value} instead of text"
  | host message => message

def InternalFault.message : InternalFault → String
  | hostName name .noStratum => s!"`{name}` is neither a base-level nor a meta-level host name"
  | hostName name .noSelector => s!"host name `{name}` has an empty selector"
  | notAssignment selector => s!"`{selector}` is not an assignment"
  | host message => message

namespace RuntimeError

/-- The sentence an error is reported with. -/
def message : RuntimeError → String
  | selectorNotFound selector receiver => s!"selector `{selector}` not found in {receiver}"
  | duplicateSlot selector => s!"duplicate slot `{selector}`"
  | arityMismatch selector expected got => s!"`{selector}` expects {expected} argument(s), got {got}"
  | illegalOperation cause => s!"illegal operation: {cause.message}"
  | illegalArgument cause => s!"illegal argument: {cause.message}"
  | internal cause => s!"internal error: {cause.message}"

end RuntimeError

/-! ## Ways to stop -/

/-- Why a run stopped without an answer. -/
inductive Halt where
  /-- the object model raised an error -/
  | raised (error : RuntimeError)
  /-- a handle to a reclaimed node was followed -/
  | dangling (handle : ObjectId)
  /-- an index was outside of what it indexes -/
  | outOfBounds
  /-- the steps granted to the run are used up -/
  | exhausted
deriving DecidableEq, Inhabited

/-- Reads a host name, its faults as errors of the host. -/
def HostName.readOrFail (name : String) : Except RuntimeError (Stratum × Symbol) :=
  match HostName.read name with
  | .ok found => .ok found
  | .error fault => .error (.internal (.hostName name fault))

end Prototypes
