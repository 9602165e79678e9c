import Prototypes.Event
import Prototypes.Heap.Collection
import Prototypes.Heap.Search
import Prototypes.Message

/-!
# Object worlds and runs

An object world is all that one actor owns: its heap, the two objects that are
there from the start, the supply of identities, what it has reported, and
what the embedding program remembers on its behalf.

A *run* is a computation over a world. It answers or halts, and either way
leaves a world behind: what was done before an error stays done.

Node 0 is the lexical root, the outermost scope. Node 1 is the mirror root,
the ancestor of all mirrors, which implements every meta operation by its
default meaning.
-/

namespace Prototypes

variable {κ σ α : Type}

/-- One actor's objects. `κ` is host code as data and `σ` what the host remembers. -/
structure World (κ σ : Type) where
  heap : Heap κ
  lexicalRoot : ObjectId
  mirrorRoot : ObjectId
  /-- the mirror root's methods for the meta operations, in the order of `MetaOp.all` -/
  mirrorDefaults : List (Method κ)
  /-- marks objects that leave their actor by copy -/
  isolateTag : TypeTag
  actor : ActorId
  /-- whether forwarding to mirrors is reported -/
  tracing : Bool
  /-- the serial number of the next identity -/
  supply : Nat
  log : Array Event
  host : σ

/-- How a world is set up. -/
structure WorldSettings where
  heap : HeapSettings
  tracing : Bool
  actor : ActorId
deriving DecidableEq, Inhabited

/-- A computation over a world. -/
abbrev Run (κ σ α : Type) := EStateM Halt (World κ σ) α

namespace World

/-! ## A new world -/

/-- The methods of the mirror root for the meta operations, with identities from `first` on. -/
def rootMethods (first : Nat) : List (Method κ) :=
  MetaOp.all.map fun op =>
    Method.builtin ⟨first + op.index⟩ op.selector
      (op.parameters.map fun name => .required ⟨name⟩) (.performDefault op)

/-- The method that binds a new mirror to the mirage it is initialised with. -/
def bindMethod (identity : Identity) : Method κ :=
  Method.builtin identity Selector.init [.required Selector.base] .bindBase

/--
A world with its two roots. The lexical root has the mirror root in a
read-only field; the mirror root has one method for each meta operation, the
method that binds mirrors, and a read-only `base` that holds nothing.
-/
def new (settings : WorldSettings) (host : σ) : World κ σ :=
  let lexicalRoot : ObjectId := ⟨0⟩
  let mirrorRoot : ObjectId := ⟨1⟩
  let defaults := rootMethods 3
  let scope : PrototypeObject κ :=
    { slots :=
        { Storage.empty ⟨0⟩ with
          fields := [{ name := ⟨"defaultMirror"⟩, writable := false, value := .object mirrorRoot }] }
      dynamicParent := .nil
      lexicalParent := none
      link := .isA
      typeTags := []
      family := ⟨1⟩
      flags := .none }
  let mirror : PrototypeObject κ :=
    { slots :=
        { Storage.empty ⟨1⟩ with
          fields := [{ name := Selector.base, writable := false, value := .nil }]
          methods := defaults ++ [bindMethod ⟨3 + MetaOp.all.length⟩] }
      dynamicParent := .nil
      lexicalParent := some lexicalRoot
      link := .isA
      typeTags := []
      family := ⟨2⟩
      flags := { singleton := true, mirrorRoot := true } }
  { heap :=
      { entries := #[some (.object scope), some (.object mirror)]
        free := []
        families := 2
        allocatedSinceCollect := 2
        settings := settings.heap }
    lexicalRoot
    mirrorRoot
    mirrorDefaults := defaults
    isolateTag := ⟨⟨2⟩, ⟨"Isolate"⟩, []⟩
    actor := settings.actor
    tracing := settings.tracing
    supply := 4 + MetaOp.all.length
    log := #[.ready settings.actor lexicalRoot mirrorRoot]
    host }

/-- A new world, unless room for its heap cannot be had. -/
def make? (settings : WorldSettings) (host : σ) : Option (World κ σ) :=
  if settings.heap.isAddressable then some (new settings host) else none

/-- The world without its log: reports go outward and are never read back. -/
def visible (world : World κ σ) : World κ σ := { world with log := #[] }

/-- Where code outside of any object runs. -/
def topContext (world : World κ σ) : Context κ :=
  ⟨world.lexicalRoot, .object world.lexicalRoot, .nil⟩

/--
Whether a method is the very one that the mirror root was made with for `op`. Another method
with the same body is not.
-/
def isMirrorDefault (world : World κ σ) (op : MetaOp) (method : Method κ) : Bool :=
  world.mirrorDefaults[op.index]?.any fun default => method.identity == default.identity

/-- Whether a value is a mirror root. -/
def isMirrorRoot (world : World κ σ) (value : Value κ) : Except Halt Bool :=
  match value with
  | .object id => do
    let node ← world.heap.get id
    return node.body?.any fun body => body.flags.mirrorRoot
  | _ => .ok false

/-- The mirror of a mirage. -/
def mirrorOf (world : World κ σ) (mirage : ObjectId) : Except Halt ObjectId := do
  match ← world.heap.get mirage with
  | .mirage ⟨_, some mirror⟩ => return mirror
  | .mirage ⟨_, none⟩ => .error (.raised (.illegalOperation (.mirageUnbound mirage)))
  | _ => .error (.raised (.illegalArgument (.notMirage mirage)))

end World

/-! ## Steps of runs -/

namespace Run

/-- Stops. -/
def halt (reason : Halt) : Run κ σ α := throw reason

/-- Stops with an error. -/
def raise (error : RuntimeError) : Run κ σ α := throw (.raised error)

/-- The answer of a check that can fail with an error. -/
def check : Except RuntimeError α → Run κ σ α
  | .ok a => pure a
  | .error e => raise e

/-- Looks at the world; what is seen can stop the run. -/
def observe (view : World κ σ → Except Halt α) : Run κ σ α := fun world =>
  match view world with
  | .ok a => .ok a world
  | .error reason => .error reason world

/-- Looks at the heap. -/
def ofHeap (view : Heap κ → Except Halt α) : Run κ σ α := observe fun world => view world.heap

/-- An identity nothing has. -/
def fresh : Run κ σ Identity := fun world =>
  .ok ⟨world.supply⟩ { world with supply := world.supply + 1 }

/-- Reports an event. -/
def report (event : Event) : Run κ σ Unit := fun world =>
  .ok () { world with log := world.log.push event }

/-- Reports an event if forwarding is reported. -/
def trace (event : Event) : Run κ σ Unit := fun world =>
  if world.tracing then .ok () { world with log := world.log.push event } else .ok () world

/-- Changes the heap, and answers what the change answers. -/
def changeHeap (change : Heap κ → α × Heap κ) : Run κ σ α := fun world =>
  let (answer, heap) := change world.heap
  .ok answer { world with heap }

/-- A new node. -/
def allocate (node : Node κ) : Run κ σ ObjectId := changeHeap fun heap => heap.allocate node

/-- A new family. -/
def newFamily : Run κ σ CloneFamily := changeHeap Heap.newFamily

/-- The node of a handle. -/
def node (id : ObjectId) : Run κ σ (Node κ) := ofHeap fun heap => heap.get id

/-- The slots of a node. -/
def slots (id : ObjectId) : Run κ σ (Storage κ) := Node.slots <$> node id

/-- Puts a node in the place of the one that was there. -/
def replace (id : ObjectId) (node : Node κ) : Run κ σ Unit :=
  changeHeap fun heap => ((), heap.replace id node)

/-- Gives a node other slots. -/
def setSlots (id : ObjectId) (slots : Storage κ) : Run κ σ Unit := do
  replace id ((← node id).withSlots slots)

/-- Adds a field to a node. -/
def putField (id : ObjectId) (field : Field κ) : Run κ σ Unit := do
  let slots ← slots id
  setSlots id (← check (slots.putField (← fresh) field))

/-- A table value. -/
def newTable (items : List (Value κ)) : Run κ σ (Value κ) := return .table (← fresh) items

/-- A closure value. -/
def newClosure (closure : Closure κ) : Run κ σ (Value κ) := return .closure (← fresh) closure

/-- Searches a node and its dynamic parents. -/
def searchDynamic (start : ObjectId) (selector : Symbol) : Run κ σ (Resolution κ) :=
  ofHeap fun heap => heap.searchDynamic start selector

/-- Searches a node and its lexical parents. -/
def searchLexical (start : ObjectId) (selector : Symbol) : Run κ σ (Resolution κ) :=
  ofHeap fun heap => heap.searchLexical start selector

/-- Reclaims all nodes but those the two roots and `extra` reach. -/
def collect (extra : List (Value κ)) : Run κ σ Collected := fun world =>
  match world.heap.collect (.object world.lexicalRoot :: .object world.mirrorRoot :: extra) with
  | .ok (collected, heap) =>
    .ok collected { world with
      heap, log := world.log.push (.collected collected.live collected.freed) }
  | .error reason => .error reason world

end Run

end Prototypes
