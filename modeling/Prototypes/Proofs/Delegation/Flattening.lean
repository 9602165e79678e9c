import Prototypes.Proofs.Mirrors.Frames
import Prototypes.Proofs.Slots.Writes

/-!
# Worlds without some of their mirages

To *flatten* nodes is to turn those of them that are mirages into plain objects
with the same bodies.  Slots, parents and the free list stay as they are, so
flattening moves past every change of the heap that does not tell mirages from
objects.

`Run.Indifferent` says of a run that it answers in a world what it answers in the
flattened one, or stops there for a reason of the same kind; it is closed under
sequencing.  What is done at a native slot is of this sort, up to where a method
is applied.

## Main results

* `Heap.node?_flattened`, `Heap.flattened_replace`, `Heap.flattened_allocate` —
  what flattening does to each node, and that it commutes with changes.
* `Heap.searchDynamic_flattened_of_found` — searches find what they found.
* `Run.Indifferent.bind`, `Run.Indifferent.node_bind`, `Run.Indifferent.setSlots` —
  runs that cannot tell.
-/

namespace Prototypes

variable {κ σ α β : Type}

/-! ## Nodes -/

namespace Node

/-- The node, or if it is a mirage a plain object with the same body. -/
def flattened : Node κ → Node κ
  | mirage m => object m.object
  | node => node

theorem slots_flattened (node : Node κ) : node.flattened.slots = node.slots := by
  cases node <;> rfl

theorem dynamicParent_flattened (node : Node κ) :
    node.flattened.dynamicParent = node.dynamicParent := by
  cases node <;> rfl

theorem isFrame_flattened (node : Node κ) : node.flattened.isFrame = node.isFrame := by
  cases node <;> rfl

theorem withSlots_flattened (node : Node κ) (slots : Storage κ) :
    node.flattened.withSlots slots = (node.withSlots slots).flattened := by
  cases node <;> rfl

end Node

/-! ## Heaps -/

namespace Heap

/-- The heap in which these nodes are no mirages. -/
def flattened (heap : Heap κ) (ids : List ObjectId) : Heap κ :=
  { heap with
    entries := heap.entries.mapIdx fun index entry =>
      if ⟨index⟩ ∈ ids then entry.map Node.flattened else entry }

variable {heap : Heap κ} {ids : List ObjectId} {id : ObjectId}

theorem node?_flattened (heap : Heap κ) (ids : List ObjectId) (id : ObjectId) :
    (heap.flattened ids).node? id =
      if id ∈ ids then (heap.node? id).map Node.flattened else heap.node? id := by
  simp only [node?, flattened, Array.getElem?_mapIdx]
  cases heap.entries[id.index]? with
  | none => simp
  | some entry => by_cases hmem : id ∈ ids <;> simp [hmem]

/-- A node is what it was, or a plain object with the same body. -/
theorem exists_node?_flattened {node : Node κ} (h : heap.node? id = some node) (ids : List ObjectId) :
    ∃ other, (heap.flattened ids).node? id = some other ∧
      (other = node ∨ other = node.flattened) := by
  rw [node?_flattened, h]
  by_cases hmem : id ∈ ids
  · exact ⟨node.flattened, if_pos hmem, .inr rfl⟩
  · exact ⟨node, if_neg hmem, .inl rfl⟩

/-- What a walk looks at is the same in both. -/
theorem exists_parts_flattened {node : Node κ} (h : heap.node? id = some node) (ids : List ObjectId) :
    ∃ other, (heap.flattened ids).node? id = some other ∧ other.slots = node.slots ∧
      other.dynamicParent = node.dynamicParent ∧ other.isFrame = node.isFrame := by
  obtain ⟨other, hother, rfl | rfl⟩ := exists_node?_flattened h ids
  · exact ⟨_, hother, rfl, rfl, rfl⟩
  · exact ⟨_, hother, node.slots_flattened, node.dynamicParent_flattened, node.isFrame_flattened⟩

theorem node?_flattened_eq_none (h : heap.node? id = none) :
    (heap.flattened ids).node? id = none := by
  rw [node?_flattened, h]
  split <;> rfl

/-- A plain object or a frame is what it was. -/
theorem node?_flattened_of_flat {node : Node κ} (h : heap.node? id = some node)
    (hflat : node.flattened = node) : (heap.flattened ids).node? id = some node := by
  obtain ⟨other, hother, rfl | rfl⟩ := exists_node?_flattened h ids
  · exact hother
  · rwa [hflat] at hother

/-- A mirage that is not among the nodes stays one. -/
theorem node?_flattened_of_not_mem (hmem : id ∉ ids) :
    (heap.flattened ids).node? id = heap.node? id := by
  rw [node?_flattened, if_neg hmem]

theorem contains_flattened (heap : Heap κ) (ids : List ObjectId) (id : ObjectId) :
    (heap.flattened ids).contains id = heap.contains id := by
  unfold contains
  rw [node?_flattened]
  split
  · rw [Option.isSome_map]
  · rfl

theorem FreeListExact.flattened (h : heap.FreeListExact) (ids : List ObjectId) :
    (heap.flattened ids).FreeListExact := by
  refine ⟨h.nodup, fun index => ?_⟩
  rw [contains_flattened]
  simpa [Heap.flattened] using h.mem_iff index

theorem slot?_flattened (heap : Heap κ) (ids : List ObjectId) (selector : Symbol) (id : ObjectId) :
    (heap.flattened ids).slot? selector id = heap.slot? selector id := by
  unfold slot?
  cases hnode : heap.node? id with
  | none => rw [node?_flattened_eq_none hnode]
  | some node =>
    obtain ⟨other, hother, hslots, -⟩ := exists_parts_flattened hnode ids
    rw [hother, Option.bind_some, Option.bind_some, hslots]

/-- A chain stays a chain. -/
theorem Chain.flattened {value : Value κ} {chain : List ObjectId} (h : heap.Chain value chain)
    (ids : List ObjectId) : (heap.flattened ids).Chain value chain := by
  induction h with
  | nil => exact .nil
  | cons hnode hframe _ ih =>
    obtain ⟨other, hother, -, hparent, hkind⟩ := exists_parts_flattened hnode ids
    exact .cons hother (hkind.trans hframe) (hparent ▸ ih)

/-! ### Changes -/

private theorem ext_entries {heap other : Heap κ} (hentries : heap.entries = other.entries)
    (hrest : other = { heap with entries := other.entries }) : heap = other := by
  rw [hrest, ← hentries]

/-- Replacing a node and flattening can be done in either order. -/
theorem flattened_replace (heap : Heap κ) (ids : List ObjectId) (id : ObjectId) (node : Node κ) :
    (heap.replace id node).flattened ids =
      (heap.flattened ids).replace id (if id ∈ ids then node.flattened else node) := by
  refine ext_entries ?_ rfl
  apply Array.ext_getElem?
  intro index
  simp only [flattened, replace, Array.getElem?_mapIdx, Array.getElem?_setIfInBounds,
    Array.size_mapIdx]
  by_cases hindex : id.index = index
  · subst hindex
    by_cases hlt : id.index < heap.entries.size
    · by_cases hmem : id ∈ ids <;> simp [hlt, hmem]
    · simp [hlt]
  · simp [hindex]

/-- So can allocating a node that is no mirage. -/
theorem flattened_allocate (heap : Heap κ) (ids : List ObjectId) {node : Node κ}
    (hflat : node.flattened = node) :
    (heap.allocate node).2.flattened ids = ((heap.flattened ids).allocate node).2 := by
  unfold allocate
  cases hfree : heap.free with
  | nil =>
    have hfree' : (heap.flattened ids).free = [] := hfree
    rw [hfree']
    refine ext_entries ?_ rfl
    simp [flattened, Array.mapIdx_push, hflat]
  | cons index free =>
    have hfree' : (heap.flattened ids).free = index :: free := hfree
    have hreplace := congrArg Heap.entries (flattened_replace heap ids ⟨index⟩ node)
    rw [hflat, ite_self] at hreplace
    rw [hfree']
    exact ext_entries hreplace rfl

/-! ### Searches -/

/-- What a search finds it finds in the flattened heap too. -/
theorem searchDynamic_flattened_of_found {selector : Symbol} {holder : ObjectId} {slot : Slot κ}
    (h : heap.searchDynamic id selector = .ok (.found holder slot)) (ids : List ObjectId) :
    (heap.flattened ids).searchDynamic id selector = .ok (.found holder slot) := by
  have hlimit : heap.walkLimit ≤ (heap.flattened ids).walkLimit := by
    simp [walkLimit, flattened]
  refine searchDynamicFrom_of_found (fun id node hnode => ?_) hlimit h
  obtain ⟨other, hother, rfl | rfl⟩ := exists_node?_flattened hnode ids
  · exact ⟨_, hother, rfl, rfl, fun hplain => hplain⟩
  · refine ⟨_, hother, node.slots_flattened, node.dynamicParent_flattened, fun hplain => ?_⟩
    cases node <;> first | rfl | exact hplain

end Heap

/-! ## Worlds -/

namespace World

/-- The world in whose heap these nodes are no mirages. -/
def flattened (world : World κ σ) (ids : List ObjectId) : World κ σ :=
  { world with heap := world.heap.flattened ids }

/-- The second world is the first one flattened, but for what was reported. -/
def FlattensTo (ids : List ObjectId) (v w : World κ σ) : Prop := (v.flattened ids).Alike w

theorem Sound.flattened {world : World κ σ} (h : world.Sound) (ids : List ObjectId) :
    (world.flattened ids).Sound where
  free := h.free.flattened ids
  defaults := h.defaults

theorem Alike.flattened {v w : World κ σ} (h : v.Alike w) (ids : List ObjectId) :
    (v.flattened ids).Alike (w.flattened ids) := by
  rw [h.eq_with_log]
  exact .with_log _ w.log

namespace FlattensTo

variable {ids : List ObjectId} {v w : World κ σ}

theorem of_alike {v' w' : World κ σ} (h : FlattensTo ids v w) (hv : v.Alike v') (hw : w.Alike w') :
    FlattensTo ids v' w' :=
  (hv.flattened ids).symm.trans (h.trans hw)

theorem heap_eq (h : FlattensTo ids v w) : w.heap = v.heap.flattened ids :=
  (congrArg World.heap h.eq_with_log :)

/-- Flattened worlds are the same but for their heaps and logs. -/
theorem eq_with (h : FlattensTo ids v w) :
    w = { v with heap := v.heap.flattened ids, log := w.log } :=
  h.eq_with_log

theorem enter (h : FlattensTo ids v w) (scope : ObjectId) (bindings : List (Symbol × Value κ)) :
    FlattensTo ids (v.enter scope bindings) (w.enter scope bindings) := by
  rw [h.eq_with]
  unfold FlattensTo World.flattened World.enter
  rw [Heap.flattened_allocate _ ids rfl]
  rfl

end FlattensTo

end World

/-! ## Runs that cannot tell -/

/-- The same reason, or the same selector not found, wherever it was looked for. -/
inductive Halt.SameKind : Halt → Halt → Prop
  | refl (reason : Halt) : SameKind reason reason
  | notFound (selector : Symbol) (receiver receiver' : String) :
      SameKind (.raised (.selectorNotFound selector receiver))
        (.raised (.selectorNotFound selector receiver'))

namespace Run

/-- The same answer, or reasons of the same kind, and the second world is the first one flattened. -/
inductive Matches (ids : List ObjectId) :
    EStateM.Result Halt (World κ σ) α → EStateM.Result Halt (World κ σ) α → Prop
  | ok (answer : α) {v w : World κ σ} :
      World.FlattensTo ids v w → Matches ids (.ok answer v) (.ok answer w)
  | error {reason reason' : Halt} {v w : World κ σ} : reason.SameKind reason' →
      World.FlattensTo ids v w → Matches ids (.error reason v) (.error reason' w)

/-- Flattened worlds are told apart no more by what runs go on with. -/
theorem Matches.bind_of {ids : List ObjectId} {x : Run κ σ α} {v w : World κ σ}
    (h : Matches ids (x v) (x w)) {f : α → Run κ σ β}
    (hnext : ∀ a v w, World.FlattensTo ids v w → Matches ids (f a v) (f a w)) :
    Matches ids ((x >>= f) v) ((x >>= f) w) := by
  show Matches ids (EStateM.bind x f v) (EStateM.bind x f w)
  unfold EStateM.bind
  generalize x v = first at h
  generalize x w = second at h
  cases h with
  | ok a hvw => exact hnext a _ _ hvw
  | error hsame hvw => exact .error hsame hvw

/-- The run does in flattened worlds what it does in the worlds themselves. -/
def Indifferent (ids : List ObjectId) (x : Run κ σ α) : Prop :=
  ∀ v w, World.FlattensTo ids v w → Matches ids (x v) (x w)

namespace Indifferent

variable {ids : List ObjectId}

theorem pure (a : α) : Indifferent ids (Pure.pure a : Run κ σ α) := fun _ _ h => .ok a h

theorem halt (reason : Halt) : Indifferent ids (Run.halt reason : Run κ σ α) :=
  fun _ _ h => .error (.refl reason) h

theorem raise (error : RuntimeError) : Indifferent ids (Run.raise error : Run κ σ α) :=
  halt (.raised error)

theorem bind {x : Run κ σ α} {f : α → Run κ σ β} (h : Indifferent ids x)
    (hnext : ∀ a, Indifferent ids (f a)) : Indifferent ids (x >>= f) :=
  fun v w hvw => (h v w hvw).bind_of hnext

theorem map {x : Run κ σ α} (f : α → β) (h : Indifferent ids x) : Indifferent ids (f <$> x) := by
  rw [← bind_pure_comp]
  exact h.bind fun a => pure (f a)

theorem fresh : Indifferent ids (Run.fresh : Run κ σ Identity) := by
  intro v w hvw
  rw [hvw.eq_with]
  exact .ok _ (World.Alike.with_log _ w.log)

theorem newClosure (closure : Closure κ) :
    Indifferent ids (Run.newClosure closure : Run κ σ (Value κ)) :=
  fresh.bind fun _ => pure _

/-- Looking at the parts of a world that are not flattened. -/
theorem get {f : World κ σ → Run κ σ α} (h : ∀ v, Indifferent ids (f v))
    (hsame : ∀ v w, World.FlattensTo ids v w → f w = f v) :
    Indifferent ids (MonadState.get >>= f) := by
  intro v w hvw
  show Matches ids (f v v) (f w w)
  rw [hsame v w hvw]
  exact h v v w hvw

/-- Looking at a node for nothing by which mirages differ from objects. -/
theorem node_bind (id : ObjectId) {f : Node κ → Run κ σ α} (h : ∀ node, Indifferent ids (f node))
    (hflat : ∀ node : Node κ, f node.flattened = f node) :
    Indifferent ids (Run.node id >>= f) := by
  intro v w hvw
  cases hnode : v.heap.node? id with
  | none =>
    have hnone : w.heap.node? id = none := by
      rw [hvw.heap_eq, Heap.node?_flattened_eq_none hnode]
    rw [Run.node_bind, Run.node_bind, Heap.get_eq_error_iff.mpr ⟨hnode, rfl⟩,
      Heap.get_eq_error_iff.mpr ⟨hnone, rfl⟩]
    exact .error (.refl _) hvw
  | some node =>
    obtain ⟨other, hother, hsame⟩ := Heap.exists_node?_flattened hnode ids
    rw [← hvw.heap_eq] at hother
    rw [node_bind_of_some hnode, node_bind_of_some hother]
    rcases hsame with rfl | rfl
    · exact h _ v w hvw
    · rw [hflat]
      exact h node v w hvw

theorem setSlots (id : ObjectId) (slots : Storage κ) :
    Indifferent ids (Run.setSlots id slots : Run κ σ Unit) := by
  intro v w hvw
  unfold Run.setSlots
  cases hnode : v.heap.node? id with
  | none =>
    have hnone : w.heap.node? id = none := by
      rw [hvw.heap_eq, Heap.node?_flattened_eq_none hnode]
    rw [Run.node_bind, Run.node_bind, Heap.get_eq_error_iff.mpr ⟨hnode, rfl⟩,
      Heap.get_eq_error_iff.mpr ⟨hnone, rfl⟩]
    exact .error (.refl _) hvw
  | some node =>
    have hother : w.heap.node? id = some (if id ∈ ids then node.flattened else node) := by
      rw [hvw.heap_eq, Heap.node?_flattened, hnode]
      split <;> rfl
    rw [node_bind_of_some hnode, node_bind_of_some hother, hvw.eq_with]
    refine .ok () ?_
    unfold World.FlattensTo World.flattened
    dsimp only
    rw [Heap.flattened_replace]
    split
    · rw [Node.withSlots_flattened]
      exact .with_log _ w.log
    · exact .with_log _ w.log

end Indifferent

end Run

end Prototypes
