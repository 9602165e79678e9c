import Prototypes.World

/-!
# Re-entering the object model

Nearly every operation can lead back into the object model: a mirror answers
with a method, a method sends messages, a custom field is asked for its value.
The operations are therefore defined over a `Runtime`, the two calls through
which they re-enter: sending a message of the meta level to a value, and
running the body of a method. Nothing here is recursive; the knot is tied once,
over a number of steps, when all operations are there.

Applying a closure is defined on top. It binds the arguments in a new call
frame nested in the captured scope, or, for code that builds an object,
directly in a scope that is there already.
-/

namespace Prototypes

variable {κ σ : Type}

/-- The calls through which operations re-enter the object model. -/
structure Runtime (κ σ : Type) where
  /-- steps still granted to loops -/
  fuel : Nat
  /-- what a value answers to a message -/
  send : Value κ → Message κ → Run κ σ (Value κ)
  /-- what a method's body answers in a context, to arguments its parameters accept -/
  run : Method κ → Context κ → List (Value κ) → Run κ σ (Value κ)

namespace Runtime

variable (rt : Runtime κ σ)

/-- Sends an ordinary message. -/
def invoke (receiver : Value κ) (selector : Symbol) (arguments : List (Value κ)) :
    Run κ σ (Value κ) :=
  rt.send receiver (.invoke receiver selector arguments)

/-- Binds names in the slots of a frame, from the left. -/
def bindAll (frame : ObjectId) (bindings : List (Symbol × Value κ)) : Run κ σ Unit :=
  bindings.forM fun binding =>
    Run.putField frame { name := binding.1, writable := true, value := binding.2 }

/-- Applies a closure in a new call frame nested in its captured scope. -/
def apply (closure : Closure κ) (arguments : List (Value κ)) : Run κ σ (Value κ) := do
  let bindings ← Run.check (closure.method.bindArguments (← Run.fresh) arguments)
  let slots := Storage.empty (← Run.fresh)
  let frame ← Run.allocate (.frame { slots, lexicalParent := closure.context.scope })
  bindAll frame bindings
  rt.run closure.method (closure.context.withScope frame) arguments

/-- Defines the parameters of a closure in the scope of `context`, and runs its body there. -/
def applyInScope (closure : Closure κ) (arguments : List (Value κ)) (context : Context κ) :
    Run κ σ (Value κ) := do
  let bindings ← Run.check (closure.method.bindArguments (← Run.fresh) arguments)
  bindings.forM fun binding =>
    discard <| rt.send (.object context.scope) (.defineField binding.1 binding.2)
  rt.run closure.method context arguments

/-- Applies a closure directly and asks anything else to apply itself. -/
def applyValue (callee : Value κ) (arguments : List (Value κ)) : Run κ σ (Value κ) := do
  match callee with
  | .closure _ closure => rt.apply closure arguments
  | other => rt.invoke other Selector.apply [← Run.newTable arguments]

end Runtime

/-- The error for a selector that nothing answers. -/
def notFound (selector : Symbol) (receiver : Value κ) : RuntimeError :=
  .selectorNotFound selector receiver.display

/-- The error for a selector that names no slot in reach of a node. -/
def notFoundFrom (selector : Symbol) (node : ObjectId) : RuntimeError :=
  .selectorNotFound selector node.display

end Prototypes
