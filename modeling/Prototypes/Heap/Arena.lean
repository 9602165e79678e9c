import Prototypes.Heap.Node

/-!
# The arena

All nodes live in one array and are known by their indices. A reclaimed index
goes onto a stack and is handed out again, the one pushed last first; only when
the stack is empty does the array grow. So the index of every new node is
determined by the history of allocations and collections.

Following a handle whose node is gone stops the run.

Room for the first nodes is reserved when a heap is made. More room than a
machine can address is not to be had, and then there is no heap at all.
-/

namespace Prototypes

variable {κ : Type}

/-- Sizes that do not change what a heap holds, only how it uses memory. -/
structure HeapSettings where
  /-- the number of nodes room is reserved for at the start -/
  initialCapacity : Nat
  /-- allocations since the last collection from which on the next one is due -/
  collectThreshold : Nat
deriving DecidableEq

namespace HeapSettings

def standard : HeapSettings := ⟨1024, 64 * 1024⟩

instance : Inhabited HeapSettings := ⟨standard⟩

/-- The room reserved for a node, in bytes. -/
def nodeSize : Nat := 224

/-- Whether the room to be reserved at the start can be addressed. -/
def isAddressable (settings : HeapSettings) : Bool :=
  settings.initialCapacity * nodeSize < Nat.pow 2 63

end HeapSettings

/-- The nodes of one object world. -/
structure Heap (κ : Type) where
  entries : Array (Option (Node κ))
  /-- empty indices, the next to be used first -/
  free : List Nat
  /-- the number of the family made last -/
  families : Nat
  allocatedSinceCollect : Nat
  settings : HeapSettings

namespace Heap

def empty (settings : HeapSettings) : Heap κ :=
  { entries := #[], free := [], families := 0, allocatedSinceCollect := 0, settings }

instance : Inhabited (Heap κ) := ⟨empty default⟩

/-! ## Reading -/

/-- The node of a handle, if it is there. -/
def node? (heap : Heap κ) (id : ObjectId) : Option (Node κ) := heap.entries[id.index]?.join

def contains (heap : Heap κ) (id : ObjectId) : Bool := (heap.node? id).isSome

/-- The node of a handle. -/
def get (heap : Heap κ) (id : ObjectId) : Except Halt (Node κ) :=
  match heap.node? id with
  | some node => .ok node
  | none => .error (.dangling id)

def liveCount (heap : Heap κ) : Nat := heap.entries.size - heap.free.length

def shouldCollect (heap : Heap κ) : Bool :=
  heap.settings.collectThreshold ≤ heap.allocatedSinceCollect

/-- More steps than a walk along parents can take that never comes back to a node. -/
def walkLimit (heap : Heap κ) : Nat := heap.entries.size + 1

/-! ## Changes -/

/--
Adds a node at the next free index. Where the array has to grow, that is its new last index,
uncut: the array is taken to have no more than the `2 ^ 32` entries that handles of 32 bits
can tell apart.
-/
def allocate (heap : Heap κ) (node : Node κ) : ObjectId × Heap κ :=
  match heap.free with
  | index :: free =>
    (⟨index⟩, { heap with
      entries := heap.entries.setIfInBounds index (some node)
      free
      allocatedSinceCollect := heap.allocatedSinceCollect + 1 })
  | [] =>
    (⟨heap.entries.size⟩, { heap with
      entries := heap.entries.push (some node)
      allocatedSinceCollect := heap.allocatedSinceCollect + 1 })

/-- Puts a node in the place of the one that was there. -/
def replace (heap : Heap κ) (id : ObjectId) (node : Node κ) : Heap κ :=
  { heap with entries := heap.entries.setIfInBounds id.index (some node) }

/-- A family no object has. -/
def newFamily (heap : Heap κ) : CloneFamily × Heap κ :=
  (⟨heap.families + 1⟩, { heap with families := heap.families + 1 })

/-! ## What the changes read back as -/

theorem get_eq_ok_iff {heap : Heap κ} {id : ObjectId} {node : Node κ} :
    heap.get id = .ok node ↔ heap.node? id = some node := by
  unfold get
  cases heap.node? id <;> simp

/-- Following a handle fails only because its node is gone. -/
theorem get_eq_error_iff {heap : Heap κ} {id : ObjectId} {halt : Halt} :
    heap.get id = .error halt ↔ heap.node? id = none ∧ halt = .dangling id := by
  unfold get
  cases heap.node? id <;> simp [eq_comm]

/-- Replacing changes the node of one handle, and only if there is an entry for it. -/
theorem node?_replace (heap : Heap κ) (id other : ObjectId) (node : Node κ) :
    (heap.replace id node).node? other =
      if id = other ∧ id.index < heap.entries.size then some node else heap.node? other := by
  obtain ⟨i⟩ := id
  obtain ⟨j⟩ := other
  simp only [replace, node?, ObjectId.mk.injEq]
  rw [Array.getElem?_setIfInBounds]
  grind

end Heap

end Prototypes
