import Prototypes.Symbol

/-!
# Handles

Small numbers that stand for things: a node of the heap, a family of clones,
an actor, and the identity of a value that is compared by reference.
-/

namespace Prototypes

/--
What tells two equal-looking values apart.

Tables, closures, methods, type tags, contexts and fragments are compared by
reference. Every one that is made receives an identity no earlier one has,
and copies of the value carry it along.
-/
structure Identity where
  serial : Nat
deriving DecidableEq, Inhabited

/--
A node of the heap, by its index in the arena. The index is a number without a bound. One of 32
bits is the same number as long as the arena has no more than `2 ^ 32` entries.
-/
structure ObjectId where
  index : Nat
deriving DecidableEq, Inhabited

namespace ObjectId

instance : ToString ObjectId := ⟨fun id => toString id.index⟩

/-- The text of a value that refers to the node. -/
def display (id : ObjectId) : String := s!"<object:{id.index}>"

end ObjectId

/-- Shared by an object and all that is cloned from it; every other new object starts its own. -/
structure CloneFamily where
  number : Nat
deriving DecidableEq, Inhabited

/-- One actor; each owns an object world. -/
structure ActorId where
  number : Nat
deriving DecidableEq, Inhabited

/-- What an object that stays at home turns into when it leaves its actor. -/
structure FarReference where
  target : ObjectId
  owner : ActorId
deriving DecidableEq, Inhabited

/-- A reference to the field `name` of the object `host`, whether or not it is there. -/
structure NativeField where
  host : ObjectId
  name : Symbol
deriving DecidableEq, Inhabited

end Prototypes
