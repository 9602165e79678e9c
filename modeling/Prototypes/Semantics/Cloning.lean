import Prototypes.Semantics.Mirrors
import Prototypes.Semantics.Slots

/-!
# Cloning

A clone has the layout, values, methods, tags and family of its source. Its parent
depends on the link: an is-a parent is cloned along, a shares-a parent is
kept. So cloning an object copies the whole stretch of plain is-a parents
above it, from the top down; a singleton, a mirage or a value above the stretch
is asked for its own clone.

Custom fields are made anew for each copy. A mirage is cloned together with its
mirror.
-/

namespace Prototypes

variable {κ σ : Type}

namespace Heap

/--
The plain is-a stretch that starts at `current`, over at most `fuel` parents:
the nodes from the bottom up.
-/
def stretchFrom (heap : Heap κ) : (fuel : Nat) → ObjectId → Except Halt (List ObjectId)
  | 0, _ => .error .exhausted
  | fuel + 1, current => do
    match (← heap.get current).body? with
    | some ⟨_, .object parent, _, .isA, _, _, _⟩ =>
      match ← heap.get parent with
      | .object body =>
        if body.flags.singleton then return [current]
        else return current :: (← heap.stretchFrom fuel parent)
      | _ => return [current]
    | _ => return [current]

/-- The node and the plain is-a parents that are cloned along with it, from the bottom up. -/
def stretch (heap : Heap κ) (id : ObjectId) : Except Halt (List ObjectId) :=
  heap.stretchFrom heap.walkLimit id

end Heap

namespace Runtime

variable (rt : Runtime κ σ)

/-- Makes the instances of custom fields for `copy` and adds them to it. -/
def renewCustom (copy : ObjectId) (fields : List (CustomField κ)) : Run κ σ Unit :=
  fields.forM fun field => do
    let made ← rt.invoke field.field Selector.new [.object copy]
    let slots ← Run.check ((← Run.slots copy).addCustom ⟨field.name, made⟩)
    Run.setSlots copy slots

/-- Copies one node onto `parent`, as the kind of node that `wrap` makes. -/
def cloneNode (source : ObjectId) (parent : Value κ) (wrap : PrototypeObject κ → Node κ) :
    Run κ σ ObjectId := do
  match (← Run.node source).body? with
  | none => Run.raise (.illegalOperation (.notCloneable source))
  | some body =>
    let copy ← Run.allocate
      (wrap { body with slots := body.slots.cloneLayout, dynamicParent := parent })
    rt.renewCustom copy body.slots.custom
    return copy

/-- The parent a copy of `id` gets. -/
def clonedParent (id : ObjectId) : Run κ σ (Value κ) := do
  match (← Run.node id).body? with
  | none => return .nil
  | some body =>
    match body.link with
    | .isA => rt.send body.dynamicParent .clone
    | .sharesA => return body.dynamicParent

/-- Makes `mirror` reflect on `copy`, whatever it reflected on before. -/
def rebase (mirror copy : ObjectId) : Run κ σ Unit := do
  let slots ← Run.slots mirror
  match slots.fieldIndex? Selector.base with
  | some index =>
    match slots.write? index (.object copy) with
    | some slots => Run.setSlots mirror slots
    | none => Run.halt .outOfBounds
  | none =>
    Run.putField mirror { name := Selector.base, writable := false, value := .object copy }

/-- A copy of a mirage, bound to a copy of its mirror. -/
def cloneMirage (id : ObjectId) : Run κ σ ObjectId := do
  let mirror ← Run.mirrorOf id
  let parent ← rt.clonedParent id
  let copy ← rt.cloneNode id parent fun object => .mirage ⟨object, none⟩
  let mirrorCopy ← Run.check ((← rt.send (.object mirror) .clone).expectObject "mirror clone")
  if mirrorCopy = mirror then
    Run.raise (.illegalOperation (.mirrorNotCloneable mirror id))
  rebase mirrorCopy copy
  Run.setMirror copy mirrorCopy
  Run.report (.clonedMirage id copy mirrorCopy)
  return copy

/-- Copies the nodes of a stretch, from the top down, the first one onto `parent`. -/
def cloneStretch : List ObjectId → (last : ObjectId) → (parent : Value κ) → Run κ σ ObjectId
  | [], last, _ => pure last
  | source :: more, _, parent => do
    let copy ← rt.cloneNode source parent .object
    cloneStretch more copy (.object copy)

/-- A copy of an object. -/
def defaultClone (id : ObjectId) : Run κ σ ObjectId := do
  match ← Run.node id with
  | .mirage _ => rt.cloneMirage id
  | node =>
    if node.body?.any fun body => body.flags.singleton then return id
    else
      let stretch ← Run.ofHeap fun heap => heap.stretch id
      let parent ← rt.clonedParent (stretch.getLast?.getD id)
      let copy ← rt.cloneStretch stretch.reverse id parent
      Run.report (.cloned id copy stretch.length)
      return copy

/-- Clones an object and initialises the clone. -/
def defaultNewInstance (id : ObjectId) (arguments : List (Value κ)) : Run κ σ (Value κ) := do
  let copy : Value κ := .object (← rt.defaultClone id)
  discard <| rt.invoke copy Selector.init arguments
  return copy

end Runtime

end Prototypes
