import Prototypes.Slots.Storage

/-!
# Nodes of the heap

A node is an object, a mirage or a call frame. Objects and mirages have the
same body, with slots, a dynamic parent that is asked for slots they lack, and
a lexical parent in whose scope they were created. A mirage has besides a
mirror, an object that answers for it. A call frame holds the parameters and
local definitions of one application; it has only a lexical parent.

Nodes refer to each other by handles alone.
-/

namespace Prototypes

variable {κ : Type}

/-- How a child depends on its dynamic parent. -/
inductive ParentLink where
  /-- cloning the child clones the parent too -/
  | isA
  /-- clones of the child keep the parent -/
  | sharesA
deriving DecidableEq, Inhabited

namespace ParentLink

def label : ParentLink → String
  | isA => "IsA"
  | sharesA => "SharesA"

end ParentLink

/-- Marks of special objects. -/
structure ObjectFlags where
  /-- cloning answers the object itself -/
  singleton : Bool
  mirrorRoot : Bool
deriving DecidableEq, Inhabited

namespace ObjectFlags

def none : ObjectFlags := ⟨false, false⟩

/-- One for a singleton, two for the mirror root. -/
def bits (flags : ObjectFlags) : Nat := flags.singleton.toNat + 2 * flags.mirrorRoot.toNat

end ObjectFlags

/-- What objects and mirages have in common. -/
structure PrototypeObject (κ : Type) where
  slots : Storage κ
  dynamicParent : Value κ
  lexicalParent : Option ObjectId
  link : ParentLink
  typeTags : List TypeTag
  family : CloneFamily
  flags : ObjectFlags

/-- The activation of one method application. -/
structure CallFrame (κ : Type) where
  slots : Storage κ
  lexicalParent : ObjectId

/-- An object with a mirror; it has none only between being made and being bound. -/
structure Mirage (κ : Type) where
  object : PrototypeObject κ
  mirror : Option ObjectId

/-- A node of the heap. -/
inductive Node (κ : Type) where
  | object (body : PrototypeObject κ)
  | frame (frame : CallFrame κ)
  | mirage (mirage : Mirage κ)

namespace Node

/-! ## Kinds -/

def isPlain : Node κ → Bool
  | object _ => true
  | _ => false

def isMirage : Node κ → Bool
  | mirage _ => true
  | _ => false

def isFrame : Node κ → Bool
  | frame _ => true
  | _ => false

/-! ## Parts -/

/-- The body of an object or a mirage. -/
def body? : Node κ → Option (PrototypeObject κ)
  | object body => some body
  | mirage m => some m.object
  | frame _ => none

def slots : Node κ → Storage κ
  | object body => body.slots
  | mirage m => m.object.slots
  | frame f => f.slots

/-- Where a dynamic search goes on; frames end it. -/
def dynamicParent : Node κ → Value κ
  | object body => body.dynamicParent
  | mirage m => m.object.dynamicParent
  | frame _ => .nil

/-- Where a lexical search goes on. -/
def lexicalParent? : Node κ → Option ObjectId
  | object body => body.lexicalParent
  | mirage m => m.object.lexicalParent
  | frame f => some f.lexicalParent

/-! ## Changes -/

/-- The node with other slots. -/
def withSlots : Node κ → Storage κ → Node κ
  | object body, slots => object { body with slots }
  | mirage m, slots => mirage { m with object := { m.object with slots } }
  | frame f, slots => frame { f with slots }

/-- The node with a mirror, if it is a mirage. -/
def withMirror (mirror : Option ObjectId) : Node κ → Node κ
  | mirage m => mirage { m with mirror }
  | node => node

/-- The node with another dynamic parent, if it can have one. -/
def withDynamicParent (parent : Value κ) : Node κ → Node κ
  | object body => object { body with dynamicParent := parent }
  | mirage m => mirage { m with object := { m.object with dynamicParent := parent } }
  | node => node

theorem slots_withSlots (node : Node κ) (slots : Storage κ) :
    (node.withSlots slots).slots = slots := by
  cases node <;> rfl

theorem dynamicParent_withSlots (node : Node κ) (slots : Storage κ) :
    (node.withSlots slots).dynamicParent = node.dynamicParent := by
  cases node <;> rfl

theorem lexicalParent?_withSlots (node : Node κ) (slots : Storage κ) :
    (node.withSlots slots).lexicalParent? = node.lexicalParent? := by
  cases node <;> rfl

/-! ## Edges -/

/-- The handles a node holds: those of its slots, its parents and its mirror, in this order. -/
def edges : Node κ → List ObjectId
  | object body => body.slots.edges ++ body.dynamicParent.edges ++ body.lexicalParent.toList
  | mirage m =>
    m.object.slots.edges ++ m.object.dynamicParent.edges ++ m.object.lexicalParent.toList ++
      m.mirror.toList
  | frame f => f.slots.edges ++ [f.lexicalParent]

end Node

end Prototypes
