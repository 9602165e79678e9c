import Mathlib.Data.Set.Card
import Prototypes.Heap.Collection

/-!
# The free list of the arena

A heap keeps a stack of empty indices.  Whatever the history of the heap, the
stack holds each empty index of the arena exactly once and no index of a node,
so that a new node is never put where another one is.

A history is any sequence of allocations, changes of nodes in place, new
families and collections (`Heap.Reached`).

## Main results

* `node?_allocate`, `node?_reclaim` — what the two operations that move the
  stack do to every handle.
* `FreeListExact.allocate`, `FreeListExact.reclaim` — both keep the stack exact.
* `freeListExact_of_reached` — it is exact after every history.
* `FreeListExact.liveCount_eq` — the number of nodes is read off the sizes of
  arena and stack.
-/

namespace Prototypes.Heap

variable {κ : Type}

/-! ## Reading after a change -/

theorem contains_iff {heap : Heap κ} {id : ObjectId} :
    heap.contains id = true ↔ ∃ node, heap.node? id = some node :=
  Option.isSome_iff_exists

theorem contains_of_node? {heap : Heap κ} {id : ObjectId} {node : Node κ}
    (h : heap.node? id = some node) : heap.contains id = true :=
  contains_iff.mpr ⟨node, h⟩

/-- A handle that leads to a node lies inside the arena. -/
theorem index_lt_of_contains {heap : Heap κ} {id : ObjectId}
    (h : heap.contains id = true) : id.index < heap.entries.size := by
  rcases Nat.lt_or_ge id.index heap.entries.size with hlt | hge
  · exact hlt
  · have hnone : heap.entries[id.index]? = none := Array.getElem?_eq_none hge
    simp [contains, node?, hnone] at h

/-- No more handles than the arena has places lead to nodes. -/
theorem length_le_of_nodup {heap : Heap κ} {ids : List ObjectId} (hnodup : ids.Nodup)
    (hlive : ∀ id ∈ ids, heap.contains id = true) : ids.length ≤ heap.entries.size := by
  have hindices : (ids.map ObjectId.index).Nodup :=
    hnodup.map fun _ _ hindex => congrArg ObjectId.mk hindex
  have hsubset : ids.map ObjectId.index ⊆ List.range heap.entries.size := by
    intro index hindex
    obtain ⟨id, hmem, rfl⟩ := List.mem_map.mp hindex
    exact List.mem_range.mpr (index_lt_of_contains (hlive id hmem))
  have hlength := (List.subperm_of_subset hindices hsubset).length_le
  simpa using hlength

/-! ## An exact stack of empty indices -/

/-- The stack holds every empty index of the arena once, and nothing else. -/
structure FreeListExact (heap : Heap κ) : Prop where
  nodup : heap.free.Nodup
  mem_iff : ∀ index, index ∈ heap.free ↔
    index < heap.entries.size ∧ heap.contains ⟨index⟩ = false

/-- The handle that the next node gets. -/
def nextId (heap : Heap κ) : ObjectId := ⟨heap.free.headD heap.entries.size⟩

theorem allocate_fst (heap : Heap κ) (node : Node κ) :
    (heap.allocate node).1 = heap.nextId := by
  unfold allocate nextId
  cases heap.free <;> rfl

theorem families_allocate (heap : Heap κ) (node : Node κ) :
    (heap.allocate node).2.families = heap.families := by
  unfold allocate
  cases heap.free <;> rfl

/-- The next handle leads nowhere yet. -/
theorem FreeListExact.not_contains_nextId {heap : Heap κ} (h : heap.FreeListExact) :
    heap.contains heap.nextId = false := by
  cases hfree : heap.free with
  | nil =>
    simp [contains, node?, nextId, hfree]
  | cons index free =>
    have hmem : index ∈ heap.free := by simp [hfree]
    simpa [nextId, hfree] using ((h.mem_iff index).mp hmem).2

theorem FreeListExact.node?_nextId {heap : Heap κ} (h : heap.FreeListExact) :
    heap.node? heap.nextId = none := by
  have hempty := h.not_contains_nextId
  rwa [contains, Option.isSome_eq_false_iff, Option.isNone_iff_eq_none] at hempty

/-- Allocating puts the node at the next handle and leaves all others alone. -/
theorem FreeListExact.node?_allocate {heap : Heap κ} (h : heap.FreeListExact) (node : Node κ)
    (other : ObjectId) :
    (heap.allocate node).2.node? other =
      if other = heap.nextId then some node else heap.node? other := by
  obtain ⟨j⟩ := other
  cases hfree : heap.free with
  | nil =>
    simp only [allocate, hfree, node?, nextId, List.headD_nil, ObjectId.mk.injEq]
    by_cases hj : j = heap.entries.size
    · subst hj; simp
    · rw [if_neg hj, Array.getElem?_push, if_neg hj]
  | cons index free =>
    have hlt : index < heap.entries.size := ((h.mem_iff index).mp (by simp [hfree])).1
    simp only [allocate, hfree, node?, nextId, List.headD_cons, ObjectId.mk.injEq]
    rw [Array.getElem?_setIfInBounds]
    by_cases hj : j = index
    · subst hj; simp [hlt]
    · rw [if_neg (Ne.symm hj), if_neg hj]

theorem FreeListExact.contains_allocate {heap : Heap κ} (h : heap.FreeListExact) (node : Node κ)
    (other : ObjectId) :
    (heap.allocate node).2.contains other = (decide (other = heap.nextId) || heap.contains other) := by
  unfold contains
  rw [h.node?_allocate]
  by_cases ho : other = heap.nextId <;> simp [ho]

theorem FreeListExact.allocate {heap : Heap κ} (h : heap.FreeListExact) (node : Node κ) :
    (heap.allocate node).2.FreeListExact := by
  have hcontains := h.contains_allocate node
  cases hfree : heap.free with
  | nil =>
    have hnone : ∀ index, ¬ (index < heap.entries.size ∧ heap.contains ⟨index⟩ = false) := by
      intro index hindex
      have hmem := (h.mem_iff index).mpr hindex
      simp [hfree] at hmem
    refine ⟨by simp [Heap.allocate, hfree], fun index => ?_⟩
    rw [hcontains]
    simp only [Heap.allocate, hfree, nextId, List.headD_nil, Array.size_push, ObjectId.mk.injEq,
      Bool.or_eq_false_iff, decide_eq_false_iff_not, List.not_mem_nil, false_iff]
    rintro ⟨hlt, hne, hfalse⟩
    exact hnone index ⟨by omega, hfalse⟩
  | cons first free =>
    have hnodup : (first :: free).Nodup := hfree ▸ h.nodup
    have hmem : ∀ index, index ∈ first :: free ↔
        index < heap.entries.size ∧ heap.contains ⟨index⟩ = false := hfree ▸ h.mem_iff
    refine ⟨by simpa [Heap.allocate, hfree] using (List.nodup_cons.mp hnodup).2, fun index => ?_⟩
    rw [hcontains]
    simp only [Heap.allocate, hfree, nextId, List.headD_cons, Array.size_setIfInBounds,
      ObjectId.mk.injEq, Bool.or_eq_false_iff, decide_eq_false_iff_not]
    constructor
    · intro hin
      have hne : index ≠ first := fun he => (List.nodup_cons.mp hnodup).1 (he ▸ hin)
      have hold := (hmem index).mp (List.mem_cons_of_mem first hin)
      exact ⟨hold.1, hne, hold.2⟩
    · rintro ⟨hlt, hne, hfalse⟩
      rcases List.mem_cons.mp ((hmem index).mpr ⟨hlt, hfalse⟩) with he | hin
      · exact absurd he hne
      · exact hin

/-! ## Changing a node in place -/

/-- Replacing a node that is there changes what its handle leads to and nothing else. -/
theorem node?_replace_of_contains {heap : Heap κ} {id : ObjectId} (hlive : heap.contains id = true)
    (node : Node κ) (other : ObjectId) :
    (heap.replace id node).node? other = if other = id then some node else heap.node? other := by
  rw [node?_replace]
  have hlt := index_lt_of_contains hlive
  by_cases ho : other = id
  · subst ho; simp [hlt]
  · rw [if_neg ho, if_neg (fun h => ho h.1.symm)]

theorem contains_replace_of_contains {heap : Heap κ} {id : ObjectId}
    (hlive : heap.contains id = true) (node : Node κ) (other : ObjectId) :
    (heap.replace id node).contains other = heap.contains other := by
  unfold contains at hlive ⊢
  rw [node?_replace_of_contains hlive]
  by_cases ho : other = id
  · subst ho; simpa using hlive.symm
  · rw [if_neg ho]

theorem FreeListExact.replace {heap : Heap κ} (h : heap.FreeListExact) {id : ObjectId}
    (hlive : heap.contains id = true) (node : Node κ) : (heap.replace id node).FreeListExact := by
  refine ⟨h.nodup, fun index => ?_⟩
  rw [contains_replace_of_contains hlive]
  simpa [Heap.replace] using h.mem_iff index

/-! ## Reclaiming indices -/

/-- Emptying a list of indices, read at one of them. -/
private theorem getElem?_foldl_clear (indices : List Nat) :
    ∀ (entries : Array (Option (Node κ))) (j : Nat),
      (indices.foldl (fun entries index => entries.setIfInBounds index none) entries)[j]?.join =
        if j ∈ indices then none else entries[j]?.join := by
  induction indices with
  | nil => intro entries j; simp
  | cons index indices ih =>
    intro entries j
    rw [List.foldl_cons, ih, Array.getElem?_setIfInBounds]
    by_cases hj : j = index
    · subst hj
      by_cases hlt : j < entries.size <;> simp [hlt]
    · rw [if_neg (Ne.symm hj)]
      simp [hj]

private theorem size_foldl_clear (indices : List Nat) :
    ∀ entries : Array (Option (Node κ)),
      (indices.foldl (fun entries index => entries.setIfInBounds index none) entries).size =
        entries.size := by
  induction indices with
  | nil => intro entries; rfl
  | cons index indices ih => intro entries; rw [List.foldl_cons, ih, Array.size_setIfInBounds]

theorem node?_reclaim (heap : Heap κ) (indices : List Nat) (id : ObjectId) :
    (heap.reclaim indices).node? id = if id.index ∈ indices then none else heap.node? id :=
  getElem?_foldl_clear indices heap.entries id.index

theorem size_reclaim (heap : Heap κ) (indices : List Nat) :
    (heap.reclaim indices).entries.size = heap.entries.size :=
  size_foldl_clear indices heap.entries

/-- Reclaiming keeps the stack exact when what is reclaimed was in use. -/
theorem FreeListExact.reclaim {heap : Heap κ} (h : heap.FreeListExact) {indices : List Nat}
    (hnodup : indices.Nodup) (hlive : ∀ index ∈ indices, heap.contains ⟨index⟩ = true) :
    (heap.reclaim indices).FreeListExact := by
  have hdisjoint : ∀ index ∈ indices, index ∉ heap.free := by
    intro index hin hfree
    have hfalse := ((h.mem_iff index).mp hfree).2
    simp [hlive index hin] at hfalse
  constructor
  · show (indices.reverse ++ heap.free).Nodup
    rw [List.nodup_append]
    refine ⟨List.nodup_reverse.mpr hnodup, h.nodup, ?_⟩
    rintro a ha b hb rfl
    exact hdisjoint a (List.mem_reverse.mp ha) hb
  · intro index
    have hlt : index ∈ indices → index < heap.entries.size :=
      fun hin => index_lt_of_contains (hlive index hin)
    have hcontains : (heap.reclaim indices).contains ⟨index⟩ =
        (decide (index ∉ indices) && heap.contains ⟨index⟩) := by
      unfold contains
      rw [node?_reclaim]
      by_cases hin : index ∈ indices <;> simp [hin]
    rw [hcontains, size_reclaim]
    show index ∈ indices.reverse ++ heap.free ↔ _
    rw [List.mem_append, List.mem_reverse, h.mem_iff index]
    by_cases hin : index ∈ indices
    · simp [hin, hlt hin]
    · simp [hin]

/-! ## Counting nodes -/

/-- The handles that lead to a node. -/
def live (heap : Heap κ) : Set ObjectId := {id | heap.contains id = true}

/-- The live handles are those of the live indices of the arena. -/
private theorem live_eq_image (heap : Heap κ) :
    heap.live = ObjectId.mk ''
      (((List.range heap.entries.size).filter fun index => heap.contains ⟨index⟩).toFinset : Set Nat) := by
  ext ⟨index⟩
  simp only [live, Set.mem_ofPred_eq, List.coe_toFinset, List.mem_filter, List.mem_range,
    Set.mem_image, ObjectId.mk.injEq, exists_eq_right]
  exact ⟨fun h => ⟨index_lt_of_contains h, h⟩, And.right⟩

theorem ncard_live (heap : Heap κ) :
    heap.live.ncard =
      ((List.range heap.entries.size).filter fun index => heap.contains ⟨index⟩).length := by
  rw [live_eq_image, Set.ncard_image_of_injective _ (fun a b h => congrArg ObjectId.index h),
    Set.ncard_coe_finset, List.toFinset_card_of_nodup]
  exact List.nodup_range.filter _

/-- Nodes and empty indices together fill the arena. -/
theorem FreeListExact.live_add_free {heap : Heap κ} (h : heap.FreeListExact) :
    heap.live.ncard + heap.free.length = heap.entries.size := by
  have hperm : heap.free.Perm
      ((List.range heap.entries.size).filter fun index => !heap.contains ⟨index⟩) := by
    rw [List.perm_ext_iff_of_nodup h.nodup (List.nodup_range.filter _)]
    intro index
    simp [h.mem_iff index]
  have hsplit := List.length_eq_length_filter_add (l := List.range heap.entries.size)
    fun index => heap.contains ⟨index⟩
  rw [List.length_range] at hsplit
  rw [ncard_live, hperm.length_eq]
  omega

theorem FreeListExact.liveCount_eq {heap : Heap κ} (h : heap.FreeListExact) :
    heap.liveCount = heap.live.ncard := by
  have hsum := h.live_add_free
  unfold liveCount
  omega

/-! ## Histories -/

/-- What can become of a heap at once. -/
inductive Follows (heap : Heap κ) : Heap κ → Prop
  | allocate (node : Node κ) : Follows heap (heap.allocate node).2
  | replace {id : ObjectId} (node : Node κ) :
      heap.contains id = true → Follows heap (heap.replace id node)
  | newFamily : Follows heap heap.newFamily.2
  | collect {after : Heap κ} {roots : List (Value κ)} {collected : Collected} :
      heap.collect roots = .ok (collected, after) → Follows heap after

/-- The heaps that allocations, changes in place, new families and collections lead to. -/
inductive Reached : Heap κ → Prop
  | empty (settings : HeapSettings) : Reached (Heap.empty settings)
  | follow {heap after : Heap κ} : Reached heap → heap.Follows after → Reached after

/-- What a collection reclaims was in use, and is reclaimed once. -/
theorem unmarked_live (heap : Heap κ) (marked : Array Bool) :
    (heap.unmarked marked).Nodup ∧
      ∀ index ∈ heap.unmarked marked, heap.contains ⟨index⟩ = true := by
  refine ⟨List.nodup_range.filter _, fun index hin => ?_⟩
  have hkept := (List.mem_filter.mp hin).2
  exact (Bool.and_eq_true_iff.mp hkept).1

/-- A collection reclaims the nodes that some marking has left out. -/
theorem exists_marked_of_collect {heap after : Heap κ} {roots : List (Value κ)}
    {collected : Collected} (h : heap.collect roots = .ok (collected, after)) :
    ∃ marked, after = heap.reclaim (heap.unmarked marked) := by
  simp only [collect, bind, Except.bind] at h
  split at h
  · cases h
  · split at h
    · cases h
    · rename_i marking _
      cases h
      exact ⟨marking.marked, rfl⟩

/-- Whatever becomes of a heap at once, its stack stays exact. -/
theorem FreeListExact.follows {heap after : Heap κ} (h : heap.FreeListExact)
    (hfollows : heap.Follows after) : after.FreeListExact := by
  cases hfollows with
  | allocate node => exact h.allocate node
  | replace node hlive => exact h.replace hlive node
  | newFamily => exact ⟨h.nodup, h.mem_iff⟩
  | collect hcollect =>
    obtain ⟨marked, rfl⟩ := exists_marked_of_collect hcollect
    obtain ⟨hnodup, hlive⟩ := heap.unmarked_live marked
    exact h.reclaim hnodup hlive

/-- After every history the stack holds exactly the empty indices. -/
theorem freeListExact_of_reached {heap : Heap κ} (h : heap.Reached) : heap.FreeListExact := by
  induction h with
  | empty settings => exact ⟨List.nodup_nil, fun index => by simp [Heap.empty]⟩
  | follow _ hfollows ih => exact ih.follows hfollows

end Prototypes.Heap
