import Prototypes.Host.Program

/-!
# Running method bodies

Fragments are evaluated, built-in bodies do what they are named for, and host
code is looked up in a `Host`, which says for each piece of code what program
it is in the context and with the arguments it is run with.
-/

namespace Prototypes

variable {κ σ : Type}

/-- The meaning of host code. -/
structure Host (κ σ : Type) where
  program : κ → Context κ → List (Value κ) → Program κ σ (Value κ)

namespace Host

/-- The host without code. -/
def none : Host Empty σ := ⟨fun code => nomatch code⟩

end Host

namespace Runtime

variable (rt : Runtime κ σ)

/-- The first of the arguments, which a body's parameters have made sure of. -/
def firstArgument (arguments : List (Value κ)) : Run κ σ (Value κ) :=
  match arguments with
  | value :: _ => pure value
  | [] => Run.halt .outOfBounds

/-- Runs a built-in body. -/
def runBuiltin (body : Builtin) (context : Context κ) (arguments : List (Value κ)) :
    Run κ σ (Value κ) := do
  match body with
  | .accessor name => rt.readSlot (← slotOwner context) name
  | .mutator name =>
    let owner ← slotOwner context
    let value ← firstArgument arguments
    rt.writeSlot owner name value
    return value
  | .notUnderstood selector => Run.raise (notFound selector context.receiver)
  | .primitive primitive selector =>
    rt.callPrimitive primitive context.receiver selector arguments
  | .resend selector =>
    rt.send context.superView (.invoke context.receiver selector arguments)
  | .performDefault op => rt.performOnBase op context.receiver arguments
  | .bindBase =>
    Run.bindMirror context.receiver (← firstArgument arguments)
    return .nil

/-- Runs a method's body. -/
def runMethod (host : Host κ σ) (method : Method κ) (context : Context κ)
    (arguments : List (Value κ)) : Run κ σ (Value κ) :=
  match method.body with
  | .builtin body => rt.runBuiltin body context arguments
  | .host code => (host.program code context arguments).run rt
  | .fragment fragment => fragment.eval rt context

end Runtime

end Prototypes
