import Prototypes.Heap.Arena

/-!
# Collecting garbage

A collection keeps the nodes that can be reached from the roots along edges
and reclaims all others, cycles included. Marking works off a stack of nodes
whose edges are still to be followed; a node is pushed once, when it is first
seen, so there are never more steps than nodes.

The reclaimed indices go onto the stack of free indices in ascending order.
-/

namespace Prototypes

variable {κ : Type}

/-- The nodes seen so far, and those of them whose edges are to be followed, the next first. -/
structure Marking where
  marked : Array Bool
  pending : List ObjectId

namespace Marking

/-- Notes that a node was seen. -/
def visit (marking : Marking) (id : ObjectId) : Except Halt Marking :=
  match marking.marked[id.index]? with
  | none => .error .outOfBounds
  | some true => .ok marking
  | some false =>
    .ok ⟨marking.marked.setIfInBounds id.index true, id :: marking.pending⟩

/-- Notes several nodes, from the left. -/
def visitAll (marking : Marking) (ids : List ObjectId) : Except Halt Marking :=
  ids.foldlM visit marking

end Marking

/-- What a collection did. -/
structure Collected where
  live : Nat
  freed : Nat
deriving DecidableEq, Inhabited

namespace Heap

/-- Follows the edges of pending nodes, at most `fuel` of them. -/
def mark (heap : Heap κ) : (fuel : Nat) → Marking → Except Halt Marking
  | 0, marking => .ok marking
  | fuel + 1, marking =>
    match marking.pending with
    | [] => .ok marking
    | id :: pending => do
      let node ← heap.get id
      let marking ← Marking.visitAll { marking with pending } node.edges
      heap.mark fuel marking

/-- The indices of nodes that were not marked, in ascending order. -/
def unmarked (heap : Heap κ) (marked : Array Bool) : List Nat :=
  (List.range heap.entries.size).filter fun index =>
    heap.contains ⟨index⟩ && !marked.getD index false

/-- Empties the given indices, one after the other. -/
def reclaim (heap : Heap κ) (indices : List Nat) : Heap κ :=
  { heap with
    entries := indices.foldl (fun entries index => entries.setIfInBounds index none) heap.entries
    free := indices.reverse ++ heap.free
    allocatedSinceCollect := 0 }

/-- Keeps what the handles of `roots` reach, and reclaims the rest. -/
def collect (heap : Heap κ) (roots : List (Value κ)) : Except Halt (Collected × Heap κ) := do
  let start : Marking := ⟨Array.replicate heap.entries.size false, []⟩
  let seen ← start.visitAll (Value.edgesOfAll roots)
  let marking ← heap.mark heap.entries.size seen
  let indices := heap.unmarked marking.marked
  let heap := heap.reclaim indices
  return (⟨heap.liveCount, indices.length⟩, heap)

end Heap

end Prototypes
