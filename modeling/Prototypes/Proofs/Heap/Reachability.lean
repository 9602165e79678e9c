import Prototypes.Proofs.Heap.FreeList
import Prototypes.World

/-!
# What a collection keeps

Marking starts from the handles of the roots and follows edges until no node is
pending.  The loop keeps one invariant (`Marking.Sound`): what is marked is
reachable, what is pending is marked, and a marked node that is not pending has
all its edges marked.  Once nothing is pending, the marked nodes are closed
under edges and therefore are exactly the reachable ones, cycles or not.

Each step takes one node off the stack, and a node is pushed only when it turns
from unmarked to marked.  So unmarked entries and pending nodes together
(`Marking.measure`) go down by one in every step, and as many steps as there
are entries are enough.

## Main results

* `visitAll_spec` — noting several nodes never goes out of bounds and marks
  them and nothing else.
* `mark_spec` — the loop ends with nothing pending.
* `collect_ok_iff` — a collection succeeds just when nothing it reaches dangles.
* `node?_of_collect` — a collection that succeeds leaves the reachable nodes, even where
  edges elsewhere dangle.
* `collect_exact` — a collection succeeds, keeps the reachable nodes as they
  are, and counts what it keeps and frees.
-/

namespace Prototypes

variable {κ σ : Type}

namespace Heap

/-- The handles that can be reached from the handles of `roots` along the edges of nodes. -/
inductive Reaches (heap : Heap κ) (roots : List (Value κ)) : ObjectId → Prop
  | root {id : ObjectId} : id ∈ Value.edgesOfAll roots → Reaches heap roots id
  | edge {id target : ObjectId} {node : Node κ} :
      Reaches heap roots id → heap.node? id = some node → target ∈ node.edges →
        Reaches heap roots target

/-- Every edge of a node leads to a node. -/
def EdgesLive (heap : Heap κ) : Prop :=
  ∀ id node, heap.node? id = some node → ∀ target ∈ node.edges, heap.contains target = true

/-- Every handle among the roots leads to a node. -/
def RootsLive (heap : Heap κ) (roots : List (Value κ)) : Prop :=
  ∀ id ∈ Value.edgesOfAll roots, heap.contains id = true

/-- With live edges and roots, nothing dangling is reached. -/
theorem Reaches.contains {heap : Heap κ} {roots : List (Value κ)} {id : ObjectId}
    (h : heap.Reaches roots id) (hedges : heap.EdgesLive) (hroots : heap.RootsLive roots) :
    heap.contains id = true := by
  cases h with
  | root hmem => exact hroots id hmem
  | edge _ hnode htarget => exact hedges _ _ hnode id htarget

end Heap

/-! ## Noting nodes -/

namespace Marking

/-- The node was seen. -/
def Marked (marking : Marking) (id : ObjectId) : Prop := marking.marked[id.index]? = some true

/-- Unmarked entries and pending nodes. -/
def measure (marking : Marking) : Nat :=
  marking.marked.toList.count false + marking.pending.length

/-- `after` comes from noting exactly the nodes `ids`, each new one being pushed. -/
structure Noted (marking : Marking) (ids : List ObjectId) (after : Marking) : Prop where
  size : after.marked.size = marking.marked.size
  marked_iff : ∀ id, after.Marked id ↔ marking.Marked id ∨ id ∈ ids
  pending_iff : ∀ id, id ∈ after.pending ↔ id ∈ marking.pending ∨ (id ∈ ids ∧ ¬ marking.Marked id)
  measure : after.measure = marking.measure

/-- Noting one node inside the arena succeeds. -/
theorem visit_spec {marking : Marking} {id : ObjectId} (hlt : id.index < marking.marked.size) :
    ∃ after, marking.visit id = .ok after ∧ marking.Noted [id] after := by
  have hread : marking.marked[id.index]? = some marking.marked[id.index] :=
    Array.getElem?_eq_getElem hlt
  cases hbit : marking.marked[id.index] with
  | true =>
    have hmarked : marking.Marked id := by rw [Marked, hread, hbit]
    refine ⟨marking, by simp only [visit, hread, hbit], rfl, fun other => ?_, fun other => ?_, rfl⟩
    · constructor
      · exact Or.inl
      · rintro (h | h)
        · exact h
        · exact (List.mem_singleton.mp h) ▸ hmarked
    · constructor
      · exact Or.inl
      · rintro (h | ⟨h, hnot⟩)
        · exact h
        · exact absurd ((List.mem_singleton.mp h) ▸ hmarked) hnot
  | false =>
    have hnot : ¬ marking.Marked id := by simp [Marked, hread, hbit]
    refine ⟨⟨marking.marked.setIfInBounds id.index true, id :: marking.pending⟩,
      by simp only [visit, hread, hbit], by simp, fun other => ?_, fun other => ?_, ?_⟩
    · obtain ⟨j⟩ := other
      simp only [Marked, Array.getElem?_setIfInBounds, List.mem_singleton]
      by_cases hj : id.index = j
      · subst hj
        simp [hlt]
      · have hne : (⟨j⟩ : ObjectId) ≠ id := fun he => hj (he ▸ rfl)
        simp [hj, hne]
    · simp only [List.mem_cons, List.not_mem_nil, or_false]
      constructor
      · rintro (rfl | h)
        · exact Or.inr ⟨rfl, hnot⟩
        · exact Or.inl h
      · rintro (h | ⟨rfl, _⟩)
        · exact Or.inr h
        · exact Or.inl rfl
    · have hpos : 0 < marking.marked.toList.count false :=
        List.count_pos_iff.mpr (List.mem_of_getElem? (i := id.index) (by simpa [hbit] using hread))
      have hcount := List.count_set (a := true) (b := false) (l := marking.marked.toList)
        (i := id.index) (by simpa using hlt)
      simp only [Array.getElem_toList, hbit, BEq.rfl, if_true] at hcount
      have hflip : ((true == false) = true) = False := by simp
      simp only [measure, Array.toList_setIfInBounds, List.length_cons, hcount, hflip, if_false]
      omega

/-- Noting several nodes inside the arena succeeds, and marks those and nothing else. -/
theorem visitAll_spec (ids : List ObjectId) :
    ∀ {marking : Marking}, (∀ id ∈ ids, id.index < marking.marked.size) →
      ∃ after, marking.visitAll ids = .ok after ∧ marking.Noted ids after := by
  induction ids with
  | nil =>
    intro marking _
    exact ⟨marking, rfl, rfl, fun _ => by simp, fun _ => by simp, rfl⟩
  | cons id ids ih =>
    intro marking hlt
    obtain ⟨mid, hvisit, hmid⟩ := visit_spec (hlt id (List.mem_cons_self ..))
    have hltMid : ∀ other ∈ ids, other.index < mid.marked.size := by
      intro other hother
      rw [hmid.size]
      exact hlt other (List.mem_cons_of_mem id hother)
    obtain ⟨after, hrest, hafter⟩ := ih hltMid
    refine ⟨after, ?_, hafter.size.trans hmid.size, fun other => ?_, fun other => ?_,
      hafter.measure.trans hmid.measure⟩
    · unfold visitAll at hrest ⊢
      rw [List.foldlM_cons, hvisit]
      exact hrest
    · rw [hafter.marked_iff, hmid.marked_iff, List.mem_singleton, List.mem_cons, or_assoc]
    · rw [hafter.pending_iff, hmid.pending_iff, hmid.marked_iff, List.mem_singleton, List.mem_cons]
      by_cases hother : other = id
      · subst hother
        by_cases hmarked : marking.Marked other <;> simp [hmarked]
      · simp [hother]

/-- Where noting several nodes succeeds, they are inside the arena. -/
theorem noted_of_visitAll (ids : List ObjectId) :
    ∀ {marking after : Marking}, marking.visitAll ids = .ok after → marking.Noted ids after := by
  suffices hlt : ∀ {marking after : Marking}, marking.visitAll ids = .ok after →
      ∀ id ∈ ids, id.index < marking.marked.size by
    intro marking after h
    obtain ⟨noted, hnoted, hspec⟩ := visitAll_spec ids (hlt h)
    cases h.symm.trans hnoted
    exact hspec
  induction ids with
  | nil => exact fun _ _ hmem => nomatch hmem
  | cons first ids ih =>
    intro marking after h id hmem
    unfold visitAll at h ih
    rw [List.foldlM_cons] at h
    cases hvisit : marking.visit first with
    | error reason => simp only [hvisit, bind, Except.bind, reduceCtorEq] at h
    | ok mid =>
      have hfirst : first.index < marking.marked.size := by
        unfold visit at hvisit
        by_contra hge
        rw [Array.getElem?_eq_none (Nat.le_of_not_lt hge)] at hvisit
        cases hvisit
      obtain ⟨mid', hvisit', hmid⟩ := visit_spec hfirst
      cases hvisit.symm.trans hvisit'
      rw [hvisit] at h
      rcases List.mem_cons.mp hmem with rfl | hrest
      · exact hfirst
      · exact hmid.size ▸ ih h id hrest

/-! ## The invariant of the loop -/

/-- What holds whenever the next pending node is taken. -/
structure Sound (heap : Heap κ) (roots : List (Value κ)) (marking : Marking) : Prop where
  size : marking.marked.size = heap.entries.size
  roots_marked : ∀ id ∈ Value.edgesOfAll roots, marking.Marked id
  reachable : ∀ id, marking.Marked id → heap.Reaches roots id
  pending_marked : ∀ id ∈ marking.pending, marking.Marked id
  closed : ∀ id node, marking.Marked id → id ∉ marking.pending → heap.node? id = some node →
    ∀ target ∈ node.edges, marking.Marked target
  live : ∀ id, marking.Marked id → id ∉ marking.pending → heap.contains id = true

end Marking

namespace Heap

open Marking

/-- The marking before any root is noted. -/
def unseen (heap : Heap κ) : Marking := ⟨Array.replicate heap.entries.size false, []⟩

theorem not_marked_unseen (heap : Heap κ) (id : ObjectId) : ¬ heap.unseen.Marked id := by
  simp [Marked, unseen, Array.getElem?_replicate]

theorem measure_unseen (heap : Heap κ) : heap.unseen.measure = heap.entries.size := by
  simp [Marking.measure, unseen]

/-- Noting the roots establishes the invariant. -/
theorem sound_of_noted_roots {heap : Heap κ} {roots : List (Value κ)} {seen : Marking}
    (h : heap.unseen.Noted (Value.edgesOfAll roots) seen) : seen.Sound heap roots := by
  have hmarked : ∀ id, seen.Marked id ↔ id ∈ Value.edgesOfAll roots := by
    intro id
    rw [h.marked_iff]
    simp [heap.not_marked_unseen id]
  have hpending : ∀ id, id ∈ seen.pending ↔ id ∈ Value.edgesOfAll roots := by
    intro id
    rw [h.pending_iff]
    simp only [heap.not_marked_unseen id, not_false_eq_true, and_true]
    simp [unseen]
  refine
    { size := by rw [h.size]; simp [unseen]
      roots_marked := fun id hid => (hmarked id).mpr hid
      reachable := fun id hid => .root ((hmarked id).mp hid)
      pending_marked := fun id hid => (hmarked id).mpr ((hpending id).mp hid)
      closed := fun id _ hid hnot => absurd ((hpending id).mpr ((hmarked id).mp hid)) hnot
      live := fun id hid hnot => absurd ((hpending id).mpr ((hmarked id).mp hid)) hnot }

/-- Following the edges of the next pending node keeps the invariant. -/
theorem sound_of_noted_edges {heap : Heap κ} {roots : List (Value κ)} {marking after : Marking}
    {id : ObjectId} {pending : List ObjectId} {node : Node κ} (h : marking.Sound heap roots)
    (hpending : marking.pending = id :: pending) (hnode : heap.node? id = some node)
    (hnoted : Noted { marking with pending } node.edges after) : after.Sound heap roots := by
  have hid : marking.Marked id := h.pending_marked id (by simp [hpending])
  have hmarked : ∀ other, after.Marked other ↔ marking.Marked other ∨ other ∈ node.edges :=
    hnoted.marked_iff
  -- a node that is marked and no longer pending is the one just taken, or was done before
  have hdone : ∀ other, after.Marked other → other ∉ after.pending → other ≠ id →
      marking.Marked other ∧ other ∉ marking.pending := by
    intro other hother hnot hne
    have hnotPending : other ∉ pending := fun hin =>
      hnot ((hnoted.pending_iff other).mpr (.inl hin))
    refine ⟨?_, by simp [hpending, hne, hnotPending]⟩
    rcases (hmarked other).mp hother with hold | hnew
    · exact hold
    · by_contra hunmarked
      exact hnot ((hnoted.pending_iff other).mpr (.inr ⟨hnew, hunmarked⟩))
  refine
    { size := hnoted.size.trans h.size
      roots_marked := fun other hother => (hmarked other).mpr (.inl (h.roots_marked other hother))
      reachable := ?_
      pending_marked := ?_
      closed := ?_
      live := ?_ }
  · intro other hother
    rcases (hmarked other).mp hother with hold | hnew
    · exact h.reachable other hold
    · exact .edge (h.reachable id hid) hnode hnew
  · intro other hother
    rcases (hnoted.pending_iff other).mp hother with hold | ⟨hnew, _⟩
    · exact (hmarked other).mpr (.inl (h.pending_marked other (by simp [hpending, hold])))
    · exact (hmarked other).mpr (.inr hnew)
  · intro other otherNode hother hnot hotherNode target htarget
    by_cases heq : other = id
    · subst heq
      obtain rfl : node = otherNode := Option.some.inj (hnode.symm.trans hotherNode)
      exact (hmarked target).mpr (.inr htarget)
    · obtain ⟨hold, hbefore⟩ := hdone other hother hnot heq
      exact (hmarked target).mpr (.inl (h.closed other otherNode hold hbefore hotherNode target htarget))
  · intro other hother hnot
    by_cases heq : other = id
    · exact heq ▸ contains_of_node? hnode
    · obtain ⟨hold, hbefore⟩ := hdone other hother hnot heq
      exact h.live other hold hbefore

/--
With a step for every unmarked entry and pending node, the loop ends with nothing pending if
all that is reached is live.
-/
theorem mark_spec {heap : Heap κ} {roots : List (Value κ)}
    (hlive : ∀ id, heap.Reaches roots id → heap.contains id = true) (fuel : Nat) :
    ∀ {marking : Marking}, marking.Sound heap roots → marking.measure ≤ fuel →
      ∃ done, heap.mark fuel marking = .ok done ∧ done.Sound heap roots ∧ done.pending = [] := by
  induction fuel with
  | zero =>
    intro marking h hfuel
    refine ⟨marking, rfl, h, List.eq_nil_of_length_eq_zero ?_⟩
    unfold Marking.measure at hfuel
    omega
  | succ fuel ih =>
    intro marking h hfuel
    cases hpending : marking.pending with
    | nil => exact ⟨marking, by simp only [mark, hpending], h, hpending⟩
    | cons id pending =>
      have hid : marking.Marked id := h.pending_marked id (by simp [hpending])
      obtain ⟨node, hnode⟩ := contains_iff.mp (hlive id (h.reachable id hid))
      have hlt : ∀ target ∈ node.edges, target.index < marking.marked.size := by
        intro target htarget
        rw [h.size]
        exact index_lt_of_contains (hlive target (.edge (h.reachable id hid) hnode htarget))
      obtain ⟨after, hvisit, hnoted⟩ := @visitAll_spec node.edges { marking with pending } hlt
      have hmeasure : after.measure ≤ fuel := by
        rw [hnoted.measure]
        simp only [Marking.measure, hpending, List.length_cons] at hfuel ⊢
        omega
      obtain ⟨done, hmark, hsound, hnil⟩ := ih (sound_of_noted_edges h hpending hnode hnoted) hmeasure
      refine ⟨done, ?_, hsound, hnil⟩
      simp only [mark, hpending, get_eq_ok_iff.mpr hnode, hvisit, bind, Except.bind]
      exact hmark

/-- Where the loop succeeds, nothing is pending, whether or not there are dangling edges elsewhere. -/
theorem sound_of_mark {heap : Heap κ} {roots : List (Value κ)} {done : Marking} (fuel : Nat) :
    ∀ {marking : Marking}, marking.Sound heap roots → marking.measure ≤ fuel →
      heap.mark fuel marking = .ok done → done.Sound heap roots ∧ done.pending = [] := by
  induction fuel with
  | zero =>
    intro marking h hfuel hdone
    cases hdone
    refine ⟨h, List.eq_nil_of_length_eq_zero ?_⟩
    unfold Marking.measure at hfuel
    omega
  | succ fuel ih =>
    intro marking h hfuel hdone
    cases hpending : marking.pending with
    | nil =>
      simp only [mark, hpending] at hdone
      cases hdone
      exact ⟨h, hpending⟩
    | cons id pending =>
      simp only [mark, hpending, bind, Except.bind] at hdone
      cases hget : heap.get id with
      | error reason => simp only [hget, reduceCtorEq] at hdone
      | ok node =>
        cases hvisit : Marking.visitAll { marking with pending } node.edges with
        | error reason => simp only [hget, hvisit, reduceCtorEq] at hdone
        | ok after =>
          have hnoted := noted_of_visitAll node.edges hvisit
          have hmeasure : after.measure ≤ fuel := by
            rw [hnoted.measure]
            simp only [Marking.measure, hpending, List.length_cons] at hfuel ⊢
            omega
          simp only [hget, hvisit] at hdone
          exact ih (sound_of_noted_edges h hpending (get_eq_ok_iff.mp hget) hnoted) hmeasure hdone

/-- When nothing is pending, the marked nodes are the reachable ones. -/
theorem marked_iff_reaches {heap : Heap κ} {roots : List (Value κ)} {done : Marking}
    (h : done.Sound heap roots) (hnil : done.pending = []) (id : ObjectId) :
    done.Marked id ↔ heap.Reaches roots id := by
  refine ⟨h.reachable id, fun hid => ?_⟩
  induction hid with
  | root hmem => exact h.roots_marked _ hmem
  | edge _ hnode htarget ih => exact h.closed _ _ ih (by simp [hnil]) hnode _ htarget

/-- What is left out by the marks then are the nodes that are not reachable. -/
theorem mem_unmarked_iff {heap : Heap κ} {roots : List (Value κ)} {done : Marking}
    (h : done.Sound heap roots) (hnil : done.pending = []) (index : Nat) :
    index ∈ heap.unmarked done.marked ↔
      heap.contains ⟨index⟩ = true ∧ ¬ heap.Reaches roots ⟨index⟩ := by
  have hbit : done.marked.getD index false = true ↔ done.Marked ⟨index⟩ := by
    simp only [Marked, Array.getD_eq_getD_getElem?]
    cases done.marked[index]? <;> simp
  rw [← marked_iff_reaches h hnil, ← hbit]
  simp only [unmarked, List.mem_filter, List.mem_range, Bool.and_eq_true, Bool.not_eq_true']
  constructor
  · rintro ⟨_, hlive, hfalse⟩
    exact ⟨hlive, by simp [hfalse]⟩
  · rintro ⟨hlive, hfalse⟩
    exact ⟨index_lt_of_contains hlive, hlive, by simpa using hfalse⟩

/-- If all that is reached is live, a collection reclaims exactly the nodes that are not reached. -/
theorem collect_eq_reclaim_of_live {heap : Heap κ} {roots : List (Value κ)}
    (hlive : ∀ id, heap.Reaches roots id → heap.contains id = true) :
    ∃ indices : List Nat, indices.Nodup ∧
      (∀ index, index ∈ indices ↔
        heap.contains ⟨index⟩ = true ∧ ¬ heap.Reaches roots ⟨index⟩) ∧
      heap.collect roots =
        .ok (⟨(heap.reclaim indices).liveCount, indices.length⟩, heap.reclaim indices) := by
  have hlt : ∀ id ∈ Value.edgesOfAll roots, id.index < heap.unseen.marked.size := by
    intro id hid
    simpa [unseen] using index_lt_of_contains (hlive id (.root hid))
  obtain ⟨seen, hseen, hnoted⟩ := visitAll_spec (Value.edgesOfAll roots) hlt
  have hmeasure : seen.measure ≤ heap.entries.size := by rw [hnoted.measure, measure_unseen]
  obtain ⟨done, hdone, hsound, hnil⟩ :=
    mark_spec hlive heap.entries.size (sound_of_noted_roots hnoted) hmeasure
  refine ⟨heap.unmarked done.marked, (heap.unmarked_live done.marked).1,
    mem_unmarked_iff hsound hnil, ?_⟩
  unfold unseen at hseen
  simp only [collect, hseen, hdone, bind, Except.bind]
  rfl

/-- A collection from live roots reclaims exactly the nodes that are not reachable. -/
theorem collect_eq_reclaim {heap : Heap κ} {roots : List (Value κ)} (hedges : heap.EdgesLive)
    (hroots : heap.RootsLive roots) :
    ∃ indices : List Nat, indices.Nodup ∧
      (∀ index, index ∈ indices ↔
        heap.contains ⟨index⟩ = true ∧ ¬ heap.Reaches roots ⟨index⟩) ∧
      heap.collect roots =
        .ok (⟨(heap.reclaim indices).liveCount, indices.length⟩, heap.reclaim indices) :=
  collect_eq_reclaim_of_live fun _ hid => hid.contains hedges hroots

/-! ## Exactness -/

/-- After reclaiming what is not reachable, the reachable nodes are there as they were. -/
private theorem node?_reclaim_iff {heap : Heap κ} {roots : List (Value κ)} {indices : List Nat}
    (hindices : ∀ index, index ∈ indices ↔
      heap.contains ⟨index⟩ = true ∧ ¬ heap.Reaches roots ⟨index⟩) (id : ObjectId) (node : Node κ) :
    (heap.reclaim indices).node? id = some node ↔
      heap.node? id = some node ∧ heap.Reaches roots id := by
  rw [node?_reclaim]
  constructor
  · intro h
    split at h
    · cases h
    · rename_i hnot
      refine ⟨h, ?_⟩
      by_contra hunreached
      exact hnot ((hindices id.index).mpr ⟨contains_of_node? h, hunreached⟩)
  · rintro ⟨hnode, hreaches⟩
    have hnot : id.index ∉ indices := fun hin => ((hindices id.index).mp hin).2 hreaches
    rw [if_neg hnot, hnode]

/-- The marks a collection that succeeds goes by, with nothing pending any more. -/
private theorem exists_sound_of_collect {heap after : Heap κ} {roots : List (Value κ)}
    {collected : Collected} (h : heap.collect roots = .ok (collected, after)) :
    ∃ done : Marking, done.Sound heap roots ∧ done.pending = [] ∧
      after = heap.reclaim (heap.unmarked done.marked) := by
  simp only [collect, bind, Except.bind] at h
  split at h
  · cases h
  · rename_i seen hseen
    have hnoted : heap.unseen.Noted (Value.edgesOfAll roots) seen := noted_of_visitAll _ hseen
    split at h
    · cases h
    · rename_i done hdone
      have hmeasure : seen.measure ≤ heap.entries.size := by rw [hnoted.measure, measure_unseen]
      obtain ⟨hsound, hnil⟩ :=
        sound_of_mark heap.entries.size (sound_of_noted_roots hnoted) hmeasure hdone
      cases h
      exact ⟨done, hsound, hnil, rfl⟩

/-- A collection that succeeds, from whatever roots, leaves the reachable nodes as they were. -/
theorem node?_of_collect {heap after : Heap κ} {roots : List (Value κ)} {collected : Collected}
    (h : heap.collect roots = .ok (collected, after)) (id : ObjectId) (node : Node κ) :
    after.node? id = some node ↔ heap.node? id = some node ∧ heap.Reaches roots id := by
  obtain ⟨done, hsound, hnil, rfl⟩ := exists_sound_of_collect h
  exact node?_reclaim_iff (mem_unmarked_iff hsound hnil) id node

/-- A collection succeeds just when no handle it reaches dangles. -/
theorem collect_ok_iff {heap : Heap κ} {roots : List (Value κ)} :
    (∃ collected after, heap.collect roots = .ok (collected, after)) ↔
      ∀ id, heap.Reaches roots id → heap.contains id = true := by
  constructor
  · rintro ⟨collected, after, h⟩ id hid
    obtain ⟨done, hsound, hnil, _⟩ := exists_sound_of_collect h
    exact hsound.live id ((marked_iff_reaches hsound hnil id).mpr hid) (by simp [hnil])
  · intro hlive
    obtain ⟨indices, _, _, hcollect⟩ := collect_eq_reclaim_of_live hlive
    exact ⟨_, _, hcollect⟩

/-- Noting several nodes fails only at one of them that lies beyond the arena. -/
private theorem exists_of_visitAll_error (ids : List ObjectId) {halt : Halt} :
    ∀ {marking : Marking}, marking.visitAll ids = .error halt →
      halt = .outOfBounds ∧ ∃ id ∈ ids, marking.marked.size ≤ id.index := by
  intro marking h
  have hbeyond : ∃ id ∈ ids, marking.marked.size ≤ id.index := by
    by_contra hnone
    push Not at hnone
    obtain ⟨after, hafter, _⟩ := visitAll_spec ids hnone
    cases h.symm.trans hafter
  refine ⟨?_, hbeyond⟩
  clear hbeyond
  induction ids generalizing marking with
  | nil => cases h
  | cons first ids ih =>
    unfold visitAll at h ih
    rw [List.foldlM_cons] at h
    cases hvisit : marking.visit first with
    | ok mid =>
      rw [hvisit] at h
      exact ih h
    | error reason =>
      rw [hvisit] at h
      cases h
      unfold visit at hvisit
      split at hvisit <;> cases hvisit
      rfl

/-- A handle that lies beyond the arena leads nowhere. -/
theorem not_contains_of_le {heap : Heap κ} {id : ObjectId} (h : heap.entries.size ≤ id.index) :
    heap.contains id = false := by
  cases hcontains : heap.contains id with
  | false => rfl
  | true => exact absurd (index_lt_of_contains hcontains) (Nat.not_lt.mpr h)

/-- The loop fails at a dangling handle that it has reached. -/
private theorem exists_dangling_of_mark {heap : Heap κ} {roots : List (Value κ)} {halt : Halt}
    (fuel : Nat) : ∀ {marking : Marking}, marking.Sound heap roots →
      heap.mark fuel marking = .error halt →
      ∃ id, heap.Reaches roots id ∧ heap.contains id = false ∧
        (halt = .dangling id ∨ halt = .outOfBounds) := by
  induction fuel with
  | zero => exact fun _ h => nomatch h
  | succ fuel ih =>
    intro marking hsound h
    cases hpending : marking.pending with
    | nil =>
      simp only [mark, hpending, reduceCtorEq] at h
    | cons id pending =>
      have hid : heap.Reaches roots id :=
        hsound.reachable id (hsound.pending_marked id (by simp [hpending]))
      simp only [mark, hpending, bind, Except.bind] at h
      cases hget : heap.get id with
      | error reason =>
        obtain ⟨hnone, rfl⟩ := get_eq_error_iff.mp hget
        simp only [hget, Except.error.injEq] at h
        exact ⟨id, hid, by simp [contains, hnone], .inl h.symm⟩
      | ok node =>
        have hnode := get_eq_ok_iff.mp hget
        cases hvisit : Marking.visitAll { marking with pending } node.edges with
        | error reason =>
          obtain ⟨rfl, target, htarget, hbeyond⟩ := exists_of_visitAll_error node.edges hvisit
          simp only [hget, hvisit, Except.error.injEq] at h
          exact ⟨target, .edge hid hnode htarget, not_contains_of_le (hsound.size ▸ hbeyond),
            .inr h.symm⟩
        | ok after =>
          simp only [hget, hvisit] at h
          exact ih (sound_of_noted_edges hsound hpending hnode (noted_of_visitAll _ hvisit)) h

/-- A collection fails at a dangling handle that it reaches, inside of the arena or beyond it. -/
theorem exists_dangling_of_collect {heap : Heap κ} {roots : List (Value κ)} {halt : Halt}
    (h : heap.collect roots = .error halt) :
    ∃ id, heap.Reaches roots id ∧ heap.contains id = false ∧
      (halt = .dangling id ∨ halt = .outOfBounds) := by
  simp only [collect, bind, Except.bind] at h
  split at h
  · rename_i reason hseen
    obtain ⟨rfl, id, hid, hbeyond⟩ := exists_of_visitAll_error _ hseen
    cases h
    exact ⟨id, .root hid, not_contains_of_le (by simpa using hbeyond), .inr rfl⟩
  · rename_i seen hseen
    have hnoted : heap.unseen.Noted (Value.edgesOfAll roots) seen := noted_of_visitAll _ hseen
    split at h
    · rename_i reason hmark
      cases h
      exact exists_dangling_of_mark _ (sound_of_noted_roots hnoted) hmark
    · cases h

/-- What is reclaimed are the nodes that are gone afterwards. -/
private theorem length_eq_ncard_gone {heap : Heap κ} {indices : List Nat} (hnodup : indices.Nodup)
    (hlive : ∀ index ∈ indices, heap.contains ⟨index⟩ = true) :
    indices.length = (heap.live \ (heap.reclaim indices).live).ncard := by
  have hgone : heap.live \ (heap.reclaim indices).live =
      ObjectId.mk '' (indices.toFinset : Set Nat) := by
    ext ⟨index⟩
    simp only [Heap.live, Set.mem_sdiff, Set.mem_ofPred_eq, contains, node?_reclaim,
      List.coe_toFinset, Set.mem_image, ObjectId.mk.injEq, exists_eq_right]
    by_cases hin : index ∈ indices
    · have hthere := hlive index hin
      unfold contains at hthere
      simp [hin, hthere]
    · cases hnode : heap.node? ⟨index⟩ <;> simp [hin]
  rw [hgone, Set.ncard_image_of_injective _ (fun a b h => congrArg ObjectId.index h),
    Set.ncard_coe_finset, List.toFinset_card_of_nodup hnodup]

/--
After every history the free list is exact, so allocating overwrites nothing.
If besides all edges are live, a collection from live roots succeeds, keeps
exactly the reachable nodes, each unchanged and under its handle, answers how
many it kept and freed, and leaves live edges behind.
-/
theorem collect_exact {heap : Heap κ} (reached : heap.Reached) :
    heap.FreeListExact ∧
    (∀ node other, heap.contains (heap.allocate node).1 = false ∧
      (heap.allocate node).2.node? other =
        if other = (heap.allocate node).1 then some node else heap.node? other) ∧
    (heap.EdgesLive → ∀ roots, heap.RootsLive roots →
      ∃ collected after, heap.collect roots = .ok (collected, after) ∧
        (∀ id node, after.node? id = some node ↔
          heap.node? id = some node ∧ heap.Reaches roots id) ∧
        collected.live = after.live.ncard ∧
        collected.freed = (heap.live \ after.live).ncard ∧
        after.EdgesLive) := by
  have hfree := freeListExact_of_reached reached
  refine ⟨hfree, fun node other => ?_, fun hedges roots hroots => ?_⟩
  · rw [allocate_fst]
    exact ⟨hfree.not_contains_nextId, hfree.node?_allocate node other⟩
  · obtain ⟨indices, hnodup, hindices, hcollect⟩ := collect_eq_reclaim hedges hroots
    have hlive : ∀ index ∈ indices, heap.contains ⟨index⟩ = true :=
      fun index hin => ((hindices index).mp hin).1
    have hsurvive := node?_reclaim_iff hindices
    refine ⟨_, _, hcollect, hsurvive, ?_, length_eq_ncard_gone hnodup hlive, ?_⟩
    · exact (hfree.reclaim hnodup hlive).liveCount_eq
    · intro id node hnode target htarget
      obtain ⟨hold, hreaches⟩ := (hsurvive id node).mp hnode
      have htargetReached : heap.Reaches roots target := .edge hreaches hold htarget
      obtain ⟨targetNode, htargetNode⟩ := contains_iff.mp (hedges id node hold target htarget)
      exact contains_of_node? ((hsurvive target targetNode).mpr ⟨htargetNode, htargetReached⟩)

/-- An object with a parent and nothing else. -/
private def childOf (parent : Value Empty) : Node Empty :=
  .object
    { slots := Storage.empty ⟨0⟩
      dynamicParent := parent
      lexicalParent := none
      link := .isA
      typeTags := []
      family := ⟨1⟩
      flags := .none }

/-- An orphan beside two objects that are each other's parent. -/
private def orphanBesideCycle : Heap Empty :=
  (((Heap.empty .standard).allocate (childOf .nil)).2.allocate (childOf (.object ⟨2⟩))).2.allocate
    (childOf (.object ⟨1⟩)) |>.2

/-- From one object of the cycle, the cycle is kept and the orphan freed. -/
theorem collect_exact_cycle :
    orphanBesideCycle.Reached ∧ orphanBesideCycle.EdgesLive ∧
      orphanBesideCycle.RootsLive [.object ⟨1⟩] ∧
      ∃ collected after, orphanBesideCycle.collect [.object ⟨1⟩] = .ok (collected, after) ∧
        collected = ⟨2, 1⟩ ∧ after.EdgesLive ∧
        ∀ id node, after.node? id = some node ↔
          orphanBesideCycle.node? id = some node ∧ orphanBesideCycle.Reaches [.object ⟨1⟩] id := by
  have hreached : orphanBesideCycle.Reached :=
    .follow (.follow (.follow (.empty .standard) (.allocate _)) (.allocate _)) (.allocate _)
  have hroots : orphanBesideCycle.RootsLive [.object ⟨1⟩] := by
    intro id hid
    simp only [Value.edgesOfAll, Value.edges, List.append_nil, List.mem_singleton] at hid
    subst hid
    rfl
  have hedges : orphanBesideCycle.EdgesLive := by
    rintro ⟨i⟩ node hnode target htarget
    match i with
    | 0 =>
      obtain rfl := Option.some.inj hnode
      cases htarget
    | 1 =>
      obtain rfl := Option.some.inj hnode
      obtain rfl := List.mem_singleton.mp htarget
      rfl
    | 2 =>
      obtain rfl := Option.some.inj hnode
      obtain rfl := List.mem_singleton.mp htarget
      rfl
    | n + 3 => cases hnode
  obtain ⟨collected, after, hcollect, hsurvive, _, _, hedgesAfter⟩ :=
    (collect_exact hreached).2.2 hedges _ hroots
  refine ⟨hreached, hedges, hroots, collected, after, hcollect, ?_, hedgesAfter, hsurvive⟩
  have hrun : (orphanBesideCycle.collect [.object ⟨1⟩]).map Prod.fst = .ok ⟨2, 1⟩ := by rfl
  rw [hcollect] at hrun
  exact Except.ok.inj hrun

end Heap

/-! ## Collections of a world -/

namespace World

/-- The roots of a collection: the two objects that are there from the start, and `extra`. -/
def roots (world : World κ σ) (extra : List (Value κ)) : List (Value κ) :=
  .object world.lexicalRoot :: .object world.mirrorRoot :: extra

end World

namespace Run

/-- A collection of a world is one of its heap. -/
theorem collect_eq_ok_iff {world after : World κ σ} {extra : List (Value κ)} {collected : Collected} :
    Run.collect extra world = .ok collected after ↔
      ∃ heap, world.heap.collect (world.roots extra) = .ok (collected, heap) ∧
        after = { world with
          heap, log := world.log.push (.collected collected.live collected.freed) } := by
  unfold Run.collect World.roots
  split
  · rename_i hcollect
    rw [hcollect]
    constructor
    · intro h
      cases h
      exact ⟨_, rfl, rfl⟩
    · rintro ⟨heap, hheap, rfl⟩
      cases hheap
      rfl
  · rename_i hcollect
    simp [hcollect]

theorem collect_eq_error_iff {world after : World κ σ} {extra : List (Value κ)} {halt : Halt} :
    Run.collect extra world = .error halt after ↔
      world.heap.collect (world.roots extra) = .error halt ∧ after = world := by
  unfold Run.collect World.roots
  split
  · rename_i hcollect
    simp [hcollect]
  · rename_i hcollect
    rw [hcollect]
    constructor
    · intro h
      cases h
      exact ⟨rfl, rfl⟩
    · rintro ⟨h, rfl⟩
      cases h
      rfl

end Run

end Prototypes
