import Prototypes.Semantics.Defaults
import Prototypes.Semantics.Immediates

/-!
# Dispatch

A message of the meta level goes to whatever implements the target's meta
level: the default meanings for plain objects, the mirror for mirages, a fixed
protocol for values outside the heap. A call frame answers only as a lexical
scope.

A mirror that inherits the default meaning of an operation is passed over and
the operation performed on its base at once. Any other mirror is sent the
operation's selector, itself as receiver, with the message's arguments.
-/

namespace Prototypes

variable {κ σ : Type}

namespace Runtime

variable (rt : Runtime κ σ)

/-- Sends a mirror the message its mirage was sent. -/
def askMirror (mirror : ObjectId) (message : Message κ) : Run κ σ (Value κ) := do
  let arguments := message.arguments (← Run.fresh)
  let answer ← rt.invoke (.object mirror) message.op.selector arguments
  Run.check (answer.promised message.op)

/-- Hands a mirage's message over to its mirror. -/
def forward (mirage : ObjectId) (message : Message κ) : Run κ σ (Value κ) := do
  let mirror ← Run.mirrorOf mirage
  Run.trace (.forwarding message.op mirage)
  match ← rt.defaultTarget? mirage message.op with
  | some base => rt.performDefault base message
  | none => rt.askMirror mirror message

/-- What a value answers to a message of the meta level. -/
def dispatch (target : Value κ) (message : Message κ) : Run κ σ (Value κ) := do
  match target with
  | .object id =>
    match ← Run.node id with
    | .object _ => rt.performDefault id message
    | .mirage _ => rt.forward id message
    | .frame _ =>
      if message.op.appliesToFrames then rt.performDefault id message
      else Run.raise (.illegalOperation (.onCallFrame message.op id))
  | value => rt.performOnValue value message

end Runtime

end Prototypes
