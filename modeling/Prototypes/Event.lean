import Prototypes.Heap.Node

/-!
# Events

What an object world reports about itself while it runs. Events of the level
`trace` are reported only on request.
-/

namespace Prototypes

/-- How much an event matters. -/
inductive Level where
  | debug
  | trace
deriving DecidableEq, Inhabited

namespace Level

def label : Level → String
  | debug => "DEBUG"
  | trace => "TRACE"

end Level

/-- Things worth reporting. -/
inductive Event where
  | ready (actor : ActorId) (lexicalRoot mirrorRoot : ObjectId)
  | extended (parent : String) (child : ObjectId) (link : ParentLink)
  | cloned (source copy : ObjectId) (levels : Nat)
  | bound (mirror mirage : ObjectId)
  | clonedMirage (source copy mirror : ObjectId)
  | collected (live freed : Nat)
  /-- an operation reached a mirage and goes to its mirror -/
  | forwarding (op : MetaOp) (mirage : ObjectId)
  /-- a mirror applies the default meaning of an operation to its base -/
  | performedDefault (mirror : String) (op : MetaOp) (base : ObjectId)
deriving DecidableEq

namespace Event

def level : Event → Level
  | forwarding .. | performedDefault .. => .trace
  | _ => .debug

def message : Event → String
  | ready actor lexicalRoot mirrorRoot =>
    s!"vm for actor {actor.number} ready: lexical root {lexicalRoot}, mirror root {mirrorRoot}"
  | extended parent child link => s!"extended {parent} into {child} ({link.label})"
  | cloned source copy levels => s!"cloned {source} into {copy} ({levels} level(s))"
  | bound mirror mirage => s!"bound mirror {mirror} to mirage {mirage}"
  | clonedMirage source copy mirror =>
    s!"cloned mirage {source} into {copy} with mirror {mirror}"
  | collected live freed => s!"collected heap: {live} live, {freed} freed"
  | forwarding op mirage => s!"forwarding `{op}` on {mirage}"
  | performedDefault mirror op base => s!"mirror {mirror} performs default `{op}` on {base}"

/-- The event on one line. -/
def text (event : Event) : String := s!"{event.level.label} {event.message}"

end Event

end Prototypes
