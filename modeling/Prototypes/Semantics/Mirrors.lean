import Prototypes.Semantics.Runtime

/-!
# Mirrors and their mirages

A mirror and the mirage it reflects on point at each other: the mirage holds
the mirror, and the mirror holds the mirage in its read-only field `base`.
They are bound to each other once.

Mirrors descend from the mirror root, whose methods perform the default
meaning of each operation on the mirror's base. A mirror that inherits such a
method unchanged need not be sent anything: `defaultTarget?` recognises it, by
what it is and not by what it does, and answers the base on which to perform
the operation directly.
-/

namespace Prototypes

variable {κ σ : Type}

namespace Run

/-! ## Making and binding -/

/-- A new object without slots. -/
def newBody (parent : Value κ) (link : ParentLink) (scope : Option ObjectId)
    (tags : List TypeTag) : Run κ σ (PrototypeObject κ) := do
  let family ← newFamily
  return {
    slots := Storage.empty (← fresh)
    dynamicParent := parent
    lexicalParent := scope
    link
    typeTags := tags
    family
    flags := .none }

/-- A mirage without a mirror. -/
def newMirage (parent : Value κ) (link : ParentLink) (scope : Option ObjectId)
    (tags : List TypeTag) : Run κ σ ObjectId := do
  allocate (.mirage ⟨← newBody parent link scope tags, none⟩)

/-- A mirror that nothing is bound to: a bare child of the mirror root. -/
def freshMirror : Run κ σ (Value κ) := do
  let world ← get
  let body ← newBody (.object world.mirrorRoot) .isA (some world.lexicalRoot) []
  return .object (← allocate (.object body))

/-- The mirror of a mirage. -/
def mirrorOf (mirage : ObjectId) : Run κ σ ObjectId := observe fun world => world.mirrorOf mirage

/-- Gives a mirage its mirror. -/
def setMirror (mirage mirror : ObjectId) : Run κ σ Unit := do
  replace mirage ((← node mirage).withMirror (some mirror))

/-- Fails unless a mirror can be bound to the node `id`, shown as `mirage`. -/
def checkUnbound (id : ObjectId) (mirage : Value κ) : Run κ σ Unit := do
  match ← node id with
  | .mirage ⟨_, none⟩ => return
  | .mirage _ => raise (.illegalArgument (.mirageAlreadyBound mirage.display))
  | _ => raise (.illegalArgument (.cannotReflect mirage.display))

/-- Ties a mirror to a mirage that has none. -/
def bindMirror (mirror mirage : Value κ) : Run κ σ Unit := do
  let mirrorId ← check (mirror.expectObject "mirror")
  let mirageId ← check (mirage.expectObject "mirage")
  checkUnbound mirageId mirage
  if mirrorId = (← get).mirrorRoot then
    raise (.illegalOperation .mirrorRootShared)
  if ((← slots mirrorId).fieldIndex? Selector.base).isSome then
    raise (.illegalOperation (.mirrorAlreadyBound mirror.display))
  putField mirrorId { name := Selector.base, writable := false, value := mirage }
  setMirror mirageId mirrorId
  report (.bound mirrorId mirageId)

end Run

namespace Runtime

variable (rt : Runtime κ σ)

/-! ## From a mirror to its base -/

/-- The value of a plain field `base` in reach of a plain mirror. -/
def storedBase? (mirror : Value κ) : Run κ σ (Option (Value κ)) := do
  match mirror with
  | .object id =>
    if (← Run.node id).isPlain then
      match ← Run.searchDynamic id Selector.base with
      | .found holder (.field index _) =>
        match (← Run.slots holder).read? index with
        | some value => return some value
        | none => Run.halt .outOfBounds
      | _ => return none
    else return none
  | _ => return none

/-- The mirage a mirror reflects on: its stored base, or else what it answers when asked for it. -/
def mirrorBase (mirror : Value κ) : Run κ σ ObjectId := do
  let base ← match ← storedBase? mirror with
    | some base => pure base
    | none => rt.invoke mirror Selector.base []
  match base with
  | .object id =>
    if (← Run.node id).isMirage then return id
    else Run.raise (.illegalOperation (.mirrorUnbound mirror.display))
  | _ => Run.raise (.illegalOperation (.mirrorUnbound mirror.display))

/-- Whether a search from a plain mirror finds the mirror root's own method for `op`. -/
def inheritsDefault (mirror : ObjectId) (op : MetaOp) : Run κ σ Bool := do
  match ← Run.searchDynamic mirror op.selector with
  | .found holder (.method method) =>
    let world ← get
    return holder = world.mirrorRoot && world.isMirrorDefault op method
  | _ => return false

/--
The base on which the mirror of `mirage` would perform the default meaning of
`op`, when that mirror is plain and inherits the mirror root's method for it.
-/
def defaultTarget? (mirage : ObjectId) (op : MetaOp) : Run κ σ (Option ObjectId) := do
  match ← Run.node mirage with
  | .mirage ⟨_, some mirror⟩ =>
    if (← Run.node mirror).isPlain then
      if ← inheritsDefault mirror op then
        let base ← rt.mirrorBase (.object mirror)
        Run.trace (.performedDefault mirror.display op base)
        return some base
      else return none
    else return none
  | _ => return none

end Runtime

end Prototypes
