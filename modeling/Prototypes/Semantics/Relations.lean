import Prototypes.Semantics.Runtime

/-!
# Families, tags and actors

An object is a clone of those in its family, and related to whatever it or one
of its parents is a clone of. It is tagged by the tags it or one of its parents
was created with, subtypes counting for their supertypes. Both questions walk
over plain parents and are passed on to a parent that answers for itself.

An object leaves its actor as a far reference, unless it is tagged as an
isolate; then it travels itself.
-/

namespace Prototypes

variable {κ σ : Type}

/-! ## Walks over plain parents -/

namespace Heap

/-- The family of an object or a mirage. -/
def familyOf? (heap : Heap κ) (value : Value κ) : Except Halt (Option CloneFamily) :=
  match value with
  | .object id => do return (← heap.get id).body?.map PrototypeObject.family
  | _ => .ok none

/-- Whether a node and a value are of one family. -/
def isCloneOf (heap : Heap κ) (id : ObjectId) (other : Value κ) : Except Halt Bool := do
  match ← heap.familyOf? (.object id), ← heap.familyOf? other with
  | some a, some b => return a == b
  | _, _ => return false

/-- How a walk over plain parents ended. -/
inductive Walk (κ : Type) where
  | decided (answer : Bool)
  /-- the question goes to a parent that answers for itself -/
  | ask (parent : Value κ)

/-- Where a walk that is not decided at `node` goes next: to a plain parent, or to an end. -/
def parentStep (heap : Heap κ) (node : Node κ) : Except Halt (ObjectId ⊕ Walk κ) :=
  match node.dynamicParent with
  | .nil => .ok (.inr (.decided false))
  | .object parent => do
    if (← heap.get parent).isPlain then return .inl parent
    else return .inr (.ask (.object parent))
  | parent => .ok (.inr (.ask parent))

/-- Looks for a clone of `other` among a node and its plain parents. -/
def relatedFrom (heap : Heap κ) (other : Value κ) :
    (fuel : Nat) → ObjectId → Except Halt (Walk κ)
  | 0, _ => .error .exhausted
  | fuel + 1, current => do
    if ← heap.isCloneOf current other then return .decided true
    else
      match ← heap.parentStep (← heap.get current) with
      | .inl parent => heap.relatedFrom other fuel parent
      | .inr ended => return ended

/-- Looks for a subtype of `tag` on a node and its plain parents. -/
def taggedFrom (heap : Heap κ) (tag : TypeTag) : (fuel : Nat) → ObjectId → Except Halt (Walk κ)
  | 0, _ => .error .exhausted
  | fuel + 1, current => do
    let node ← heap.get current
    match node.body? with
    | none => return .decided false
    | some body =>
      if body.typeTags.any fun carried => carried.isSubtypeOf tag then return .decided true
      else
        match ← heap.parentStep node with
        | .inl parent => heap.taggedFrom tag fuel parent
        | .inr ended => return ended

end Heap

namespace Runtime

variable (rt : Runtime κ σ)

/-- Whether two objects are of one family. -/
def defaultIsCloneOf (id : ObjectId) (other : Value κ) : Run κ σ Bool :=
  Run.ofHeap fun heap => heap.isCloneOf id other

/-- Whether an object or one of its parents is a clone of `other`. -/
def defaultIsRelatedTo (id : ObjectId) (other : Value κ) : Run κ σ Bool := do
  match ← Run.ofHeap fun heap => heap.relatedFrom other heap.walkLimit id with
  | .decided answer => return answer
  | .ask parent =>
    Run.check ((← rt.send parent (.isRelatedTo other)).expectBool "isRelatedTo result")

/-! ## Tags -/

/-- Whether an object or one of its parents carries a subtype of `tag`. -/
def defaultIsTaggedAs (id : ObjectId) (tag : TypeTag) : Run κ σ Bool := do
  match ← Run.ofHeap fun heap => heap.taggedFrom tag heap.walkLimit id with
  | .decided answer => return answer
  | .ask parent =>
    Run.check ((← rt.send parent (.isTaggedAs tag)).expectBool "isTaggedAs result")

/-- The tags an object was created with. -/
def defaultTypeTags (id : ObjectId) : Run κ σ (List (Value κ)) := do
  match (← Run.node id).body? with
  | some body => return body.typeTags.map .typeTag
  | none => return []

/-! ## Leaving the actor, and print -/

/-- What is transmitted in place of an object. -/
def defaultPass (id : ObjectId) : Run κ σ (Value κ) := do
  let world ← get
  if ← rt.defaultIsTaggedAs id world.isolateTag then return .object id
  else return .farReference ⟨id, world.actor⟩

/-- The text of an object. -/
def defaultPrint (id : ObjectId) : Run κ σ (Value κ) := do
  match ← Run.node id with
  | .mirage _ => return .text s!"<mirage:{id}>"
  | .frame _ => return .text s!"<frame:{id}>"
  | .object _ => return .text s!"<object:{id}>"

end Runtime

end Prototypes
