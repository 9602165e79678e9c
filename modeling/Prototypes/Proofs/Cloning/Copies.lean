import Mathlib.Logic.Function.Basic
import Prototypes.Proofs.Cloning.Stretches

/-!
# Copies of a stretch

A heap with copies of some nodes (`Heap.Copies`) keeps all nodes there were and
has one more for each of those.  A copy is its source but for the parent: where the
source's parent is copied too, the copy's parent is that copy.

A search from a copy goes the way of the search from its source, from copy to copy
as long as there are any and through the same nodes from then on.

## Main results

* `Copies.nil`, `Copies.cons` — copies are made one by one, the parent's first.
* `Chain.exists_stretch` — a chain of plain objects begins with a stretch.
* `Chain.searchDynamic_of_corresponds` — what a search from a copy ends with.
-/

namespace Prototypes

variable {κ : Type}

/-- The value after handles have been moved. -/
def Value.relocated (matching : ObjectId → ObjectId) : Value κ → Value κ
  | .object id => .object (matching id)
  | value => value

/-- How a search ends after handles have been moved. -/
def Resolution.relocated (matching : ObjectId → ObjectId) : Resolution κ → Resolution κ
  | .found holder slot => .found (matching holder) slot
  | .delegate next => .delegate (next.relocated matching)
  | .absent => .absent

/-- A value that is none of the handles that are moved stays. -/
theorem Value.relocated_eq_self {matching : ObjectId → ObjectId} {value : Value κ}
    (h : ∀ id, value = .object id → matching id = id) : value.relocated matching = value := by
  cases value with
  | object id => exact congrArg Value.object (h id rfl)
  | _ => rfl

theorem Value.relocated_id (value : Value κ) : value.relocated id = value :=
  relocated_eq_self fun _ _ => rfl

theorem Resolution.relocated_id (resolution : Resolution κ) : resolution.relocated id = resolution := by
  cases resolution with
  | delegate next => exact congrArg Resolution.delegate (Value.relocated_id next)
  | _ => rfl

theorem Value.relocated_congr {matching matching' : ObjectId → ObjectId} {value : Value κ}
    (h : ∀ id, value = .object id → matching id = matching' id) :
    value.relocated matching = value.relocated matching' := by
  cases value with
  | object id => exact congrArg Value.object (h id rfl)
  | _ => rfl

namespace Heap

/-- A plain object without custom fields. -/
def Bare (heap : Heap κ) (id : ObjectId) : Prop :=
  ∃ body, heap.node? id = some (.object body) ∧ body.slots.custom = []

/-! ## Heaps with copies -/

/-- The second heap has copies of these nodes of the first, `matching` a node with its copy. -/
structure Copies (before after : Heap κ) (sources : List ObjectId)
    (matching : ObjectId → ObjectId) : Prop where
  free : after.FreeListExact
  keeps : before.Keeps after
  /-- nodes that are not copied match themselves -/
  others : ∀ id, id ∉ sources → matching id = id
  /-- no copy was there before -/
  new : ∀ id ∈ sources, before.contains (matching id) = false
  injective : ∀ first ∈ sources, ∀ second ∈ sources, matching first = matching second → first = second
  /-- nothing else is new -/
  contains_iff : ∀ id, after.contains id = true ↔
    before.contains id = true ∨ ∃ source ∈ sources, matching source = id
  copied : ∀ id ∈ sources, ∃ body, before.node? id = some (.object body) ∧
    after.node? (matching id) =
      some (.object { body with dynamicParent := body.dynamicParent.relocated matching })

namespace Copies

variable {before after : Heap κ} {sources : List ObjectId} {matching : ObjectId → ObjectId}

/-- Nothing is copied. -/
theorem nil (hfree : before.FreeListExact) : before.Copies before [] id where
  free := hfree
  keeps := .refl before
  others _ _ := rfl
  new _ hmem := nomatch hmem
  injective _ hmem := nomatch hmem
  contains_iff id := by simp
  copied _ hmem := nomatch hmem

/-- One more node is copied, which none of those that have been copied descend from. -/
theorem cons (h : before.Copies after sources matching) {id : ObjectId}
    {body : PrototypeObject κ} (hnode : before.node? id = some (.object body)) (hnew : id ∉ sources)
    (hself : body.dynamicParent ≠ .object id)
    (hparents : ∀ source ∈ sources, ∀ body, before.node? source = some (.object body) →
      body.dynamicParent ≠ .object id) :
    before.Copies
      (after.allocate
        (.object { body with dynamicParent := body.dynamicParent.relocated matching })).2
      (id :: sources) (Function.update matching id after.nextId) := by
  have hempty := h.free.not_contains_nextId
  have hmatching : ∀ source ∈ sources,
      Function.update matching id after.nextId source = matching source := fun source hmem =>
    Function.update_of_ne (ne_of_mem_of_not_mem hmem hnew) _ _
  have hunused : ∀ source ∈ sources, matching source ≠ after.nextId := by
    intro source hmem hsame
    have hthere := (h.contains_iff (matching source)).mpr (.inr ⟨source, hmem, rfl⟩)
    rw [hsame, hempty] at hthere
    cases hthere
  have hbefore : before.contains after.nextId = false := by
    by_contra hthere
    rw [Bool.not_eq_false] at hthere
    rw [(h.contains_iff _).mpr (.inl hthere)] at hempty
    cases hempty
  have hrelocated : ∀ other : PrototypeObject κ, other.dynamicParent ≠ .object id →
      other.dynamicParent.relocated (Function.update matching id after.nextId) =
        other.dynamicParent.relocated matching := by
    intro other hother
    refine Value.relocated_congr fun parent hparent => Function.update_of_ne ?_ _ _
    rintro rfl
    exact hother hparent
  refine
    { free := h.free.allocate _
      keeps := h.keeps.trans (.allocate h.free _)
      others := ?_
      new := ?_
      injective := ?_
      contains_iff := ?_
      copied := ?_ }
  · intro other hother
    rw [List.mem_cons, not_or] at hother
    rw [Function.update_of_ne hother.1, h.others other hother.2]
  · intro source hmem
    rcases List.mem_cons.mp hmem with rfl | hmem
    · rwa [Function.update_self]
    · rw [hmatching source hmem]
      exact h.new source hmem
  · intro first hfirst second hsecond hsame
    rcases List.mem_cons.mp hfirst with hfirst | hfirst <;>
      rcases List.mem_cons.mp hsecond with hsecond | hsecond
    · exact hfirst.trans hsecond.symm
    · rw [hfirst, Function.update_self, hmatching second hsecond] at hsame
      exact absurd hsame.symm (hunused second hsecond)
    · rw [hsecond, Function.update_self, hmatching first hfirst] at hsame
      exact absurd hsame (hunused first hfirst)
    · rw [hmatching first hfirst, hmatching second hsecond] at hsame
      exact h.injective first hfirst second hsecond hsame
  · intro other
    rw [h.free.contains_allocate, Bool.or_eq_true, decide_eq_true_iff, h.contains_iff]
    simp only [List.mem_cons, exists_eq_or_imp, Function.update_self]
    constructor
    · rintro (rfl | hold | ⟨source, hmem, rfl⟩)
      · exact .inr (.inl rfl)
      · exact .inl hold
      · exact .inr (.inr ⟨source, hmem, hmatching source hmem⟩)
    · rintro (hold | rfl | ⟨source, hmem, rfl⟩)
      · exact .inr (.inl hold)
      · exact .inl rfl
      · exact .inr (.inr ⟨source, hmem, (hmatching source hmem).symm⟩)
  · intro source hmem
    rcases List.mem_cons.mp hmem with rfl | hmem
    · refine ⟨body, hnode, ?_⟩
      rw [Function.update_self, h.free.node?_allocate, if_pos rfl, hrelocated body hself]
    · obtain ⟨other, hother, hcopy⟩ := h.copied source hmem
      refine ⟨other, hother, ?_⟩
      rw [hmatching source hmem, h.free.node?_allocate, if_neg (hunused source hmem), hcopy,
        hrelocated other (hparents source hmem other hother)]

/-- What a node matches has its slots. -/
theorem exists_slots (h : before.Copies after sources matching) {id : ObjectId} {node : Node κ}
    (hnode : before.node? id = some node) :
    ∃ copy, after.node? (matching id) = some copy ∧ copy.slots = node.slots := by
  by_cases hmem : id ∈ sources
  · obtain ⟨body, hbody, hcopy⟩ := h.copied id hmem
    obtain rfl := Option.some.inj (hnode.symm.trans hbody)
    exact ⟨_, hcopy, rfl⟩
  · refine ⟨node, ?_, rfl⟩
    rw [h.others id hmem]
    exact h.keeps id node hnode

end Copies

/-! ## Chains and stretches -/

section Chains

variable {heap : Heap κ} {id : ObjectId} {ids : List ObjectId}

/-- A chain of plain objects begins with the stretch above its first node. -/
theorem Chain.exists_stretch (h : heap.Chain (.object id) ids)
    (hbare : ∀ other ∈ ids, heap.Bare other) :
    ∃ stretch, heap.Stretch id stretch ∧ stretch <+: ids := by
  induction ids generalizing id with
  | nil => cases h
  | cons first ids ih =>
    cases h with
    | cons hnode _ hrest =>
      obtain ⟨body, hbody, -⟩ := hbare first (List.mem_cons_self ..)
      obtain rfl := Option.some.inj (hnode.symm.trans hbody)
      have htop (h : heap.clonedAlong? first = .ok none) :
          ∃ stretch, heap.Stretch first stretch ∧ stretch <+: first :: ids :=
        ⟨[first], .top h, List.prefix_append [first] ids⟩
      cases hparent : heap.clonedAlong? first with
      | error reason =>
        obtain ⟨-, parent, habove, hget⟩ := exists_of_clonedAlong?_error hparent hbody rfl
        dsimp only [Node.dynamicParent] at hrest
        rw [habove] at hrest
        cases hrest with
        | cons hparentNode _ _ =>
          rw [get_eq_ok_iff.mpr hparentNode] at hget
          cases hget
      | ok above =>
        cases above with
        | none => exact htop hparent
        | some parent =>
          obtain ⟨_, _, _, hnode', hbody', -, habove, -, -⟩ := clonedAlong?_eq_some_iff.mp hparent
          obtain rfl := Option.some.inj (hnode.symm.trans hnode')
          obtain rfl := Option.some.inj hbody'
          dsimp only [Node.dynamicParent] at hrest
          rw [habove] at hrest
          obtain ⟨stretch, hstretch, hfront⟩ :=
            ih hrest fun other hmem => hbare other (List.mem_cons_of_mem first hmem)
          exact ⟨first :: stretch, .step hparent hstretch, (List.prefix_cons_inj first).mpr hfront⟩

theorem Chain.stretch_prefix {stretch : List ObjectId} (h : heap.Chain (.object id) ids)
    (hbare : ∀ other ∈ ids, heap.Bare other) (hstretch : heap.Stretch id stretch) :
    stretch <+: ids := by
  obtain ⟨stretch', hstretch', hfront⟩ := h.exists_stretch hbare
  rwa [(hstretch.unique hstretch').1]

end Chains

/-! ## Searching -/

section Searching

variable {before after : Heap κ} {sources ids : List ObjectId} {matching : ObjectId → ObjectId}
  {id : ObjectId}

/--
Plain nodes correspond if selectors name the same in both and the one's parent is
the other's that has been moved.
-/
def Corresponds (before after : Heap κ) (matching : ObjectId → ObjectId) (id : ObjectId) : Prop :=
  ∃ body body', before.node? id = some (.object body) ∧
    after.node? (matching id) = some (.object body') ∧
    body'.dynamicParent = body.dynamicParent.relocated matching ∧
    ∀ selector, body'.slots.find selector = body.slots.find selector

/-- Every node of a chain that begins with what is copied corresponds to one of the other heap. -/
theorem Copies.corresponds (h : before.Copies after sources matching)
    (hchain : before.Chain (.object id) ids) (hbare : ∀ other ∈ ids, before.Bare other)
    (hfront : sources <+: ids) : ∀ other ∈ ids, before.Corresponds after matching other := by
  obtain ⟨rest, rfl⟩ := hfront
  intro other hmem
  rcases List.mem_append.mp hmem with hsource | hrest
  · obtain ⟨body, hnode, hcopy⟩ := h.copied other hsource
    exact ⟨body, _, hnode, hcopy, rfl, fun _ => rfl⟩
  · obtain ⟨body, hnode, -⟩ := hbare other hmem
    obtain ⟨front, behind, rfl⟩ := List.append_of_mem hrest
    have hnodup := hchain.nodup
    rw [← List.append_assoc] at hchain
    have hkept : ∀ kept ∈ front ++ other :: behind, matching kept = kept := fun kept hkept =>
      h.others kept fun hsource => (List.nodup_append.mp hnodup).2.2 kept hsource kept hkept rfl
    have hsame : matching other = other := hkept other (by simp)
    refine ⟨body, body, hnode, by rw [hsame]; exact h.keeps other _ hnode, ?_, fun _ => rfl⟩
    refine (Value.relocated_eq_self fun parent hparent => ?_).symm
    obtain ⟨more, hbehind, -⟩ := hchain.of_append.next hnode hparent
    obtain rfl := (List.cons.inj hbehind).2
    exact hkept parent (by simp)

theorem Corresponds.slot?_eq {other : ObjectId} (h : before.Corresponds after matching other)
    (selector : Symbol) : after.slot? selector (matching other) = before.slot? selector other := by
  obtain ⟨body, body', hbefore, hafter, -, hfind⟩ := h
  rw [slot?_of_node? hbefore, slot?_of_node? hafter]
  exact hfind selector

theorem Chain.of_corresponds {value : Value κ} (h : before.Chain value ids)
    (hcorresponds : ∀ other ∈ ids, before.Corresponds after matching other) :
    after.Chain (value.relocated matching) (ids.map matching) := by
  induction h with
  | nil => exact .nil
  | @cons first node ids hnode _ _ ih =>
    obtain ⟨body, body', hbefore, hafter, hparent, -⟩ := hcorresponds first (List.mem_cons_self ..)
    obtain rfl := Option.some.inj (hnode.symm.trans hbefore)
    have hrest := ih fun other hmem => hcorresponds other (List.mem_cons_of_mem _ hmem)
    refine .cons hafter rfl ?_
    rw [show (Node.object body').dynamicParent = _ from hparent]
    exact hrest

/-- Along corresponding chains a search ends in the same way. -/
theorem Chain.searchDynamic_of_corresponds (h : before.Chain (.object id) ids)
    (hcorresponds : ∀ other ∈ ids, before.Corresponds after matching other) (selector : Symbol) :
    ∃ resolution, before.searchDynamic id selector = .ok resolution ∧
      after.searchDynamic (matching id) selector = .ok (resolution.relocated matching) := by
  induction ids generalizing id with
  | nil => cases h
  | cons first ids ih =>
    have hchain := h
    have hmatched := h.of_corresponds hcorresponds
    have hslots := (hcorresponds first (by cases h; exact List.mem_cons_self ..)).slot?_eq selector
    cases h with
    | @cons _ node _ hnode _ hrest =>
      obtain ⟨body, body', hbefore, hafter, hmoved, -⟩ := hcorresponds first (List.mem_cons_self ..)
      obtain rfl := Option.some.inj (hnode.symm.trans hbefore)
      cases hslot : before.slot? selector first with
      | some slot =>
        exact ⟨_, searchDynamic_of_slot hslot, searchDynamic_of_slot (hslots.trans hslot)⟩
      | none =>
        have hlacks := hslots.trans hslot
        generalize hparent : (Node.object body).dynamicParent = parent at hrest
        cases hrest with
        | nil =>
          have hend : body'.dynamicParent = .nil := by
            rw [hmoved, show body.dynamicParent = .nil from hparent]
            rfl
          exact ⟨_, searchDynamic_of_end hbefore hparent hslot, searchDynamic_of_end hafter hend hlacks⟩
        | @cons next nextNode more hnext hnextFrame hmore =>
          obtain ⟨nextBody, nextBody', hnextBefore, hnextAfter, -, -⟩ :=
            hcorresponds next (List.mem_cons_of_mem _ (List.mem_cons_self ..))
          rw [hchain.searchDynamic_of_plain hnextBefore hslot,
            hmatched.searchDynamic_of_plain hnextAfter hlacks]
          exact ih (.cons hnext hnextFrame hmore) fun other hmem =>
            hcorresponds other (List.mem_cons_of_mem _ hmem)

end Searching

end Heap

end Prototypes
