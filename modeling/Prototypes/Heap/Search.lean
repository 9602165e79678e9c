import Prototypes.Heap.Arena

/-!
# Searching along parents

A search looks for a selector in a node and then in its parents. It walks over
plain objects by itself. Where a parent answers for itself, because it is a
mirage or no heap object at all, the walk stops and says where to ask on.

A dynamic search follows dynamic parents and ends at a call frame; a lexical
search follows lexical parents through objects and frames. The node a search
starts at is always looked into, whatever its kind.
-/

namespace Prototypes

variable {κ : Type}

/-- How a search ended. -/
inductive Resolution (κ : Type) where
  /-- `holder` owns the slot -/
  | found (holder : ObjectId) (slot : Slot κ)
  /-- the search goes on at a value that answers for itself -/
  | delegate (next : Value κ)
  /-- the chain ended -/
  | absent

namespace Heap

/-- The search along dynamic parents, over at most `fuel` nodes. -/
def searchDynamicFrom (heap : Heap κ) (selector : Symbol) :
    (fuel : Nat) → ObjectId → Except Halt (Resolution κ)
  | 0, _ => .error .exhausted
  | fuel + 1, current => do
    let node ← heap.get current
    match node.slots.find selector with
    | some slot => return .found current slot
    | none =>
      match node.dynamicParent with
      | .nil => return .absent
      | .object parent =>
        if (← heap.get parent).isPlain then heap.searchDynamicFrom selector fuel parent
        else return .delegate (.object parent)
      | other => return .delegate other

/-- Searches a node and its dynamic parents. -/
def searchDynamic (heap : Heap κ) (start : ObjectId) (selector : Symbol) :
    Except Halt (Resolution κ) :=
  heap.searchDynamicFrom selector heap.walkLimit start

/-- The search along lexical parents, over at most `fuel` nodes. -/
def searchLexicalFrom (heap : Heap κ) (selector : Symbol) :
    (fuel : Nat) → ObjectId → Except Halt (Resolution κ)
  | 0, _ => .error .exhausted
  | fuel + 1, current => do
    let node ← heap.get current
    match node.slots.find selector with
    | some slot => return .found current slot
    | none =>
      match node.lexicalParent? with
      | none => return .absent
      | some parent =>
        if (← heap.get parent).isMirage then return .delegate (.object parent)
        else heap.searchLexicalFrom selector fuel parent

/-- Searches a node and its lexical parents. -/
def searchLexical (heap : Heap κ) (start : ObjectId) (selector : Symbol) :
    Except Halt (Resolution κ) :=
  heap.searchLexicalFrom selector heap.walkLimit start

/-- The node at which a dynamic search ends with a slot. -/
def holderOf? (heap : Heap κ) (start : ObjectId) (selector : Symbol) :
    Except Halt (Option ObjectId) := do
  match ← heap.searchDynamic start selector with
  | .found holder _ => return some holder
  | _ => return none

end Heap

end Prototypes
