import Mathlib.Data.List.Nodup
import Prototypes.Heap.Search
import Prototypes.Proofs.Heap.FreeList

/-!
# Chains of dynamic parents

A chain is the list of nodes that dynamic parents lead through from a value,
itself first, until nil.  A chain that ends has no node twice, so the limit on
the steps of a search is never felt on it: a search along a chain is decided
node by node.

## Main results

* `Chain.nodup`, `Chain.length_le` — a chain is at most as long as the arena.
* `searchDynamic_of_slot`, `Chain.searchDynamic_of_plain`,
  `Chain.searchDynamic_of_mirage` — what a search does at the first node of a
  chain.
* `Nearest`, `Chain.exists_nearest` — the slot that is nearest by the chain alone.
-/

namespace Prototypes.Heap

variable {κ : Type}

/-- What a selector names in one node. -/
def slot? (heap : Heap κ) (selector : Symbol) (id : ObjectId) : Option (Slot κ) :=
  (heap.node? id).bind fun node => node.slots.find selector

/-- The objects and mirages that dynamic parents lead through from a value until nil. -/
inductive Chain (heap : Heap κ) : Value κ → List ObjectId → Prop
  | nil : heap.Chain .nil []
  | cons {id : ObjectId} {node : Node κ} {ids : List ObjectId} :
      heap.node? id = some node → node.isFrame = false → heap.Chain node.dynamicParent ids →
        heap.Chain (.object id) (id :: ids)

theorem slot?_of_node? {heap : Heap κ} {id : ObjectId} {node : Node κ}
    (h : heap.node? id = some node) (selector : Symbol) :
    heap.slot? selector id = node.slots.find selector := by
  rw [slot?, h]
  rfl

/-- Every node of the one heap is in the other as it was. -/
def Keeps (heap other : Heap κ) : Prop :=
  ∀ id node, heap.node? id = some node → other.node? id = some node

namespace Keeps

variable {heap middle other : Heap κ}

theorem refl (heap : Heap κ) : heap.Keeps heap := fun _ _ h => h

theorem trans (h : heap.Keeps middle) (h' : middle.Keeps other) : heap.Keeps other :=
  fun id node hnode => h' id node (h id node hnode)

/-- What is not there was not there before. -/
theorem node?_eq_none (h : heap.Keeps other) {id : ObjectId} (hnone : other.node? id = none) :
    heap.node? id = none := by
  cases hnode : heap.node? id with
  | none => rfl
  | some node => cases hnone.symm.trans (h id node hnode)

theorem not_contains (h : heap.Keeps other) {id : ObjectId} (hnew : other.contains id = false) :
    heap.contains id = false := by
  by_contra hlive
  obtain ⟨node, hnode⟩ := contains_iff.mp (Bool.not_eq_false _ ▸ hlive)
  rw [contains_of_node? (h id node hnode)] at hnew
  cases hnew

/-- A new node is put where none was. -/
theorem allocate (hfree : heap.FreeListExact) (node : Node κ) : heap.Keeps (heap.allocate node).2 := by
  intro id kept hkept
  have hother : id ≠ heap.nextId := by
    rintro rfl
    have hempty := hfree.not_contains_nextId
    rw [contains_of_node? hkept] at hempty
    cases hempty
  rw [hfree.node?_allocate, if_neg hother, hkept]

end Keeps

namespace Chain

variable {heap : Heap κ} {value : Value κ} {ids : List ObjectId}

theorem unique {ids' : List ObjectId} (h : heap.Chain value ids) (h' : heap.Chain value ids') :
    ids = ids' := by
  induction h generalizing ids' with
  | nil =>
    cases h'
    rfl
  | cons hnode _ _ ih =>
    cases h' with
    | cons hnode' _ hrest =>
      obtain rfl := Option.some.inj (hnode.symm.trans hnode')
      rw [ih hrest]

theorem mem_self {id : ObjectId} (h : heap.Chain (.object id) ids) : id ∈ ids := by
  cases h with
  | cons _ _ _ => exact List.mem_cons_self ..

/-- Every node of a chain starts a chain that is no longer. -/
theorem exists_of_mem {id : ObjectId} (h : heap.Chain value ids) (hmem : id ∈ ids) :
    ∃ ids', heap.Chain (.object id) ids' ∧ ids'.length ≤ ids.length := by
  induction h with
  | nil => cases hmem
  | @cons first node ids hnode hframe hrest ih =>
    rcases List.mem_cons.mp hmem with rfl | hmem
    · exact ⟨_, .cons hnode hframe hrest, Nat.le_refl _⟩
    · obtain ⟨ids', hchain, hle⟩ := ih hmem
      exact ⟨ids', hchain, by simp only [List.length_cons]; omega⟩

theorem nodup (h : heap.Chain value ids) : ids.Nodup := by
  induction h with
  | nil => exact List.nodup_nil
  | @cons first node ids hnode hframe hrest ih =>
    refine List.nodup_cons.mpr ⟨fun hmem => ?_, ih⟩
    obtain ⟨ids', hchain, hle⟩ := hrest.exists_of_mem hmem
    have hsame := hchain.unique (.cons hnode hframe hrest)
    rw [hsame, List.length_cons] at hle
    omega

theorem contains_of_mem {id : ObjectId} (h : heap.Chain value ids) (hmem : id ∈ ids) :
    heap.contains id = true := by
  induction h with
  | nil => cases hmem
  | cons hnode _ _ ih =>
    rcases List.mem_cons.mp hmem with rfl | hmem
    · exact contains_of_node? hnode
    · exact ih hmem

/-- What follows the first node of a chain is a chain. -/
theorem next {id next : ObjectId} {node : Node κ} (h : heap.Chain (.object id) ids)
    (hnode : heap.node? id = some node) (hparent : node.dynamicParent = .object next) :
    ∃ more, ids = id :: next :: more ∧ heap.Chain (.object next) (next :: more) := by
  cases h with
  | cons hnode' _ hrest =>
    obtain rfl := Option.some.inj (hnode.symm.trans hnode')
    rw [hparent] at hrest
    have hchain := hrest
    cases hrest with
    | cons _ _ _ => exact ⟨_, rfl, hchain⟩

/-- A node of a chain and what follows it are a chain. -/
theorem of_append {id : ObjectId} {front behind : List ObjectId}
    (h : heap.Chain value (front ++ id :: behind)) : heap.Chain (.object id) (id :: behind) := by
  induction front generalizing value with
  | nil =>
    have hchain := h
    cases h with
    | cons _ _ _ => exact hchain
  | cons first front ih =>
    cases h with
    | cons _ _ hrest => exact ih hrest

/-- No node of a chain has its first node for a parent. -/
theorem parent_ne {id other : ObjectId} {node : Node κ} (h : heap.Chain (.object id) ids)
    (hmem : other ∈ ids) (hnode : heap.node? other = some node) :
    node.dynamicParent ≠ .object id := by
  intro hparent
  obtain ⟨ids', hchain, hle⟩ := h.exists_of_mem hmem
  cases hchain with
  | cons hnode' _ hrest =>
    obtain rfl := Option.some.inj (hnode.symm.trans hnode')
    rw [hparent] at hrest
    rw [hrest.unique h] at hle
    exact absurd hle (Nat.not_succ_le_self _)

theorem length_le (h : heap.Chain value ids) : ids.length ≤ heap.entries.size :=
  length_le_of_nodup h.nodup fun _ hmem => h.contains_of_mem hmem

theorem of_keeps {other : Heap κ} (h : heap.Chain value ids) (hkeeps : heap.Keeps other) :
    other.Chain value ids := by
  induction h with
  | nil => exact .nil
  | cons hnode hframe _ ih => exact .cons (hkeeps _ _ hnode) hframe ih

theorem slot?_of_keeps {other : Heap κ} (h : heap.Chain value ids) (hkeeps : heap.Keeps other)
    (selector : Symbol) {id : ObjectId} (hmem : id ∈ ids) :
    other.slot? selector id = heap.slot? selector id := by
  obtain ⟨node, hnode⟩ := contains_iff.mp (h.contains_of_mem hmem)
  rw [slot?_of_node? hnode, slot?_of_node? (hkeeps id node hnode)]

end Chain

/-! ## Searching along a chain -/

variable {heap : Heap κ} {selector : Symbol} {id : ObjectId} {ids : List ObjectId}

theorem searchDynamicFrom_of_slot {slot : Slot κ} (h : heap.slot? selector id = some slot)
    (fuel : Nat) : heap.searchDynamicFrom selector (fuel + 1) id = .ok (.found id slot) := by
  obtain ⟨node, hnode, hslot⟩ := Option.bind_eq_some_iff.mp h
  rw [searchDynamicFrom, get_eq_ok_iff.mpr hnode]
  simp only [bind, Except.bind, hslot]
  rfl

/-- The first node of a chain lacks the selector: how the search goes on. -/
theorem searchDynamicFrom_of_none {parent : ObjectId} {node parentNode : Node κ}
    (hnode : heap.node? id = some node) (hparent : node.dynamicParent = .object parent)
    (hparentNode : heap.node? parent = some parentNode) (h : heap.slot? selector id = none)
    (fuel : Nat) :
    heap.searchDynamicFrom selector (fuel + 1) id =
      if parentNode.isPlain then heap.searchDynamicFrom selector fuel parent
      else .ok (.delegate (.object parent)) := by
  rw [slot?_of_node? hnode] at h
  rw [searchDynamicFrom, get_eq_ok_iff.mpr hnode]
  simp only [bind, Except.bind, h, hparent, get_eq_ok_iff.mpr hparentNode]
  rfl

theorem searchDynamicFrom_of_end {node : Node κ} (hnode : heap.node? id = some node)
    (hparent : node.dynamicParent = .nil) (h : heap.slot? selector id = none) (fuel : Nat) :
    heap.searchDynamicFrom selector (fuel + 1) id = .ok .absent := by
  rw [slot?_of_node? hnode] at h
  rw [searchDynamicFrom, get_eq_ok_iff.mpr hnode]
  simp only [bind, Except.bind, h, hparent]
  rfl

/--
A search along a chain is the same in every heap that keeps its nodes, and with
any number of steps that reaches its end.
-/
theorem Chain.searchDynamicFrom_eq (h : heap.Chain (.object id) ids) {other : Heap κ}
    (hkeeps : heap.Keeps other) (selector : Symbol) {fuel fuel' : Nat} (hle : ids.length ≤ fuel)
    (hle' : ids.length ≤ fuel') :
    other.searchDynamicFrom selector fuel' id = heap.searchDynamicFrom selector fuel id := by
  induction ids generalizing id fuel fuel' with
  | nil => cases h
  | cons first ids ih =>
    rw [List.length_cons] at hle hle'
    obtain ⟨fuel, rfl⟩ : ∃ k, fuel = k + 1 := ⟨fuel - 1, by omega⟩
    obtain ⟨fuel', rfl⟩ : ∃ k, fuel' = k + 1 := ⟨fuel' - 1, by omega⟩
    have hslots := h.slot?_of_keeps hkeeps selector (List.mem_cons_self ..)
    cases h with
    | @cons _ node _ hnode _ hrest =>
      cases hslot : heap.slot? selector first with
      | some slot =>
        rw [searchDynamicFrom_of_slot hslot, searchDynamicFrom_of_slot (hslots.trans hslot)]
      | none =>
        have hslot' := hslots.trans hslot
        generalize hparent : node.dynamicParent = parent at hrest
        cases hrest with
        | nil =>
          rw [searchDynamicFrom_of_end hnode hparent hslot,
            searchDynamicFrom_of_end (hkeeps _ _ hnode) hparent hslot']
        | cons hparentNode hframe hmore =>
          rw [searchDynamicFrom_of_none hnode hparent hparentNode hslot,
            searchDynamicFrom_of_none (hkeeps _ _ hnode) hparent (hkeeps _ _ hparentNode) hslot',
            ih (.cons hparentNode hframe hmore) (Nat.le_of_succ_le_succ hle)
              (Nat.le_of_succ_le_succ hle')]

/-- So is an unlimited one. -/
theorem Chain.searchDynamic_of_keeps (h : heap.Chain (.object id) ids) {other : Heap κ}
    (hkeeps : heap.Keeps other) (selector : Symbol) :
    other.searchDynamic id selector = heap.searchDynamic id selector := by
  have hlength := h.length_le
  have hlength' := (h.of_keeps hkeeps).length_le
  unfold searchDynamic walkLimit
  exact h.searchDynamicFrom_eq hkeeps selector (by omega) (by omega)

theorem searchDynamic_of_slot {slot : Slot κ} (h : heap.slot? selector id = some slot) :
    heap.searchDynamic id selector = .ok (.found id slot) :=
  searchDynamicFrom_of_slot h _

/-- A scope that has the slot ends the search. -/
theorem searchLexical_of_slot {slot : Slot κ} (h : heap.slot? selector id = some slot) :
    heap.searchLexical id selector = .ok (.found id slot) := by
  obtain ⟨node, hnode, hfind⟩ := Option.bind_eq_some_iff.mp h
  rw [searchLexical, walkLimit, searchLexicalFrom, get_eq_ok_iff.mpr hnode]
  simp only [bind, Except.bind, hfind]
  rfl

theorem searchDynamic_of_end {node : Node κ} (hnode : heap.node? id = some node)
    (hparent : node.dynamicParent = .nil) (h : heap.slot? selector id = none) :
    heap.searchDynamic id selector = .ok .absent :=
  searchDynamicFrom_of_end hnode hparent h _

/-- A node without the slot is passed when its parent is plain. -/
theorem Chain.searchDynamic_of_plain {next : ObjectId} {body : PrototypeObject κ}
    (h : heap.Chain (.object id) (id :: next :: ids)) (hnext : heap.node? next = some (.object body))
    (hslot : heap.slot? selector id = none) :
    heap.searchDynamic id selector = heap.searchDynamic next selector := by
  have hlength := h.length_le
  cases h with
  | @cons _ node _ hnode _ hrest =>
    generalize hparent : node.dynamicParent = parent at hrest
    have hchain := hrest
    cases hrest with
    | cons _ _ _ =>
      rw [List.length_cons] at hlength
      have hplain : (Node.object body).isPlain = true := rfl
      unfold searchDynamic walkLimit
      rw [searchDynamicFrom_of_none hnode hparent hnext hslot, if_pos hplain]
      exact hchain.searchDynamicFrom_eq (.refl heap) selector (by omega) (by omega)

/-- A search stops at a mirage behind a node without the slot. -/
theorem Chain.searchDynamic_of_mirage {next : ObjectId} {mirage : Mirage κ}
    (h : heap.Chain (.object id) (id :: next :: ids)) (hnext : heap.node? next = some (.mirage mirage))
    (hslot : heap.slot? selector id = none) :
    heap.searchDynamic id selector = .ok (.delegate (.object next)) := by
  cases h with
  | @cons _ node _ hnode _ hrest =>
    generalize hparent : node.dynamicParent = parent at hrest
    cases hrest with
    | cons _ _ _ =>
      unfold searchDynamic walkLimit
      have hplain : ¬ (Node.mirage mirage).isPlain = true := Bool.false_ne_true
      rw [searchDynamicFrom_of_none hnode hparent hnext hslot, if_neg hplain]

/-- A search along a chain does not leave it. -/
theorem Chain.mem_of_searchDynamic {holder : ObjectId} {slot : Slot κ}
    (h : heap.Chain (.object id) ids)
    (hsearch : heap.searchDynamic id selector = .ok (.found holder slot)) : holder ∈ ids := by
  induction ids generalizing id with
  | nil => cases h
  | cons first ids ih =>
    have hchain := h
    cases h with
    | @cons _ node _ hnode _ hrest =>
      cases hslot : heap.slot? selector first with
      | some found =>
        cases (searchDynamic_of_slot hslot).symm.trans hsearch
        exact List.mem_cons_self ..
      | none =>
        generalize hparent : node.dynamicParent = parent at hrest
        cases hrest with
        | nil => cases (searchDynamic_of_end hnode hparent hslot).symm.trans hsearch
        | @cons next nextNode more hnext hframe hmore =>
          match nextNode with
          | .object body =>
            rw [hchain.searchDynamic_of_plain hnext hslot] at hsearch
            exact List.mem_cons_of_mem first (ih (.cons hnext hframe hmore) hsearch)
          | .mirage mirage =>
            cases (hchain.searchDynamic_of_mirage hnext hslot).symm.trans hsearch
          | .frame frame => cases hframe

/-- What a search finds is a slot of the node it ends at. -/
theorem slot?_of_searchDynamic {holder : ObjectId} {slot : Slot κ}
    (h : heap.searchDynamic id selector = .ok (.found holder slot)) :
    heap.slot? selector holder = some slot := by
  unfold searchDynamic at h
  generalize heap.walkLimit = fuel at h
  induction fuel generalizing id with
  | zero => cases h
  | succ fuel ih =>
    cases hslot : heap.slot? selector id with
    | some found =>
      rw [searchDynamicFrom_of_slot hslot] at h
      cases h
      exact hslot
    | none =>
      unfold searchDynamicFrom at h
      cases hnode : heap.node? id with
      | none =>
        rw [get_eq_error_iff.mpr ⟨hnode, rfl⟩] at h
        cases h
      | some node =>
        rw [slot?_of_node? hnode] at hslot
        simp only [bind, Except.bind, get_eq_ok_iff.mpr hnode, hslot] at h
        split at h
        · cases h
        · rename_i parent _
          cases hparent : heap.node? parent with
          | none =>
            rw [get_eq_error_iff.mpr ⟨hparent, rfl⟩] at h
            cases h
          | some parentNode =>
            rw [get_eq_ok_iff.mpr hparent] at h
            dsimp only at h
            split at h
            · exact ih h
            · cases h
        · cases h

/--
What a search finds it finds in every heap that has the nodes it comes past, with the same
slots and parents, where what was a plain object still is one.
-/
theorem searchDynamicFrom_of_found {other : Heap κ} {holder : ObjectId} {slot : Slot κ}
    (hread : ∀ id node, heap.node? id = some node → ∃ later, other.node? id = some later ∧
      later.slots = node.slots ∧ later.dynamicParent = node.dynamicParent ∧
        (node.isPlain = true → later.isPlain = true))
    {fuel fuel' : Nat} (hle : fuel ≤ fuel')
    (h : heap.searchDynamicFrom selector fuel id = .ok (.found holder slot)) :
    other.searchDynamicFrom selector fuel' id = .ok (.found holder slot) := by
  induction fuel generalizing id fuel' with
  | zero => cases h
  | succ fuel ih =>
    obtain ⟨fuel', rfl⟩ : ∃ k, fuel' = k + 1 := ⟨fuel' - 1, by omega⟩
    unfold searchDynamicFrom at h ⊢
    cases hnode : heap.node? id with
    | none =>
      rw [get_eq_error_iff.mpr ⟨hnode, rfl⟩] at h
      cases h
    | some node =>
      obtain ⟨later, hlater, hslots, hparents, -⟩ := hread id node hnode
      rw [get_eq_ok_iff.mpr hnode] at h
      rw [get_eq_ok_iff.mpr hlater]
      simp only [bind, Except.bind, hslots, hparents] at h ⊢
      cases hfind : node.slots.find selector with
      | some found =>
        rw [hfind] at h
        exact h
      | none =>
        rw [hfind] at h
        dsimp only at h ⊢
        split at h
        · cases h
        · rename_i parent _
          cases hparent : heap.node? parent with
          | none =>
            rw [get_eq_error_iff.mpr ⟨hparent, rfl⟩] at h
            cases h
          | some parentNode =>
            obtain ⟨laterParent, hlaterParent, -, -, hplain⟩ := hread parent parentNode hparent
            rw [get_eq_ok_iff.mpr hparent] at h
            rw [get_eq_ok_iff.mpr hlaterParent]
            dsimp only at h ⊢
            split at h
            · rename_i hisPlain
              rw [if_pos (hplain hisPlain)]
              exact ih (Nat.le_of_succ_le_succ hle) h
            · cases h
        · cases h

/-! ## The nearest slot -/

/--
The walk from a node to the nearest slot by dynamic parents alone, whatever the
nodes are: those that come after the first, the last of which holds the slot.
-/
inductive Nearest (heap : Heap κ) (selector : Symbol) :
    ObjectId → List ObjectId → ObjectId → Slot κ → Prop
  | here {id : ObjectId} {slot : Slot κ} :
      heap.slot? selector id = some slot → heap.Nearest selector id [] id slot
  | further {id next holder : ObjectId} {node : Node κ} {ahead : List ObjectId} {slot : Slot κ} :
      heap.node? id = some node → heap.slot? selector id = none →
        node.dynamicParent = .object next → heap.Nearest selector next ahead holder slot →
          heap.Nearest selector id (next :: ahead) holder slot

/-- A chain that has a slot has a nearest one. -/
theorem Chain.exists_nearest (h : heap.Chain (.object id) ids)
    (hheld : ∃ holder ∈ ids, heap.slot? selector holder ≠ none) :
    ∃ ahead holder slot, heap.Nearest selector id ahead holder slot ∧ id :: ahead <+: ids := by
  induction ids generalizing id with
  | nil => cases h
  | cons first ids ih =>
    cases h with
    | @cons _ node _ hnode _ hrest =>
      cases hslot : heap.slot? selector first with
      | some slot => exact ⟨[], first, slot, .here hslot, List.prefix_append [first] ids⟩
      | none =>
        obtain ⟨holder, hmem, hholder⟩ := hheld
        have hmem : holder ∈ ids := by
          rcases List.mem_cons.mp hmem with rfl | hmem
          · exact absurd hslot hholder
          · exact hmem
        generalize hparent : node.dynamicParent = parent at hrest
        cases parent with
        | object next =>
          obtain ⟨ahead, last, slot, hnearest, hfront⟩ := ih hrest ⟨holder, hmem, hholder⟩
          exact ⟨next :: ahead, last, slot, .further hnode hslot hparent hnearest,
            (List.prefix_cons_inj first).mpr hfront⟩
        | nil =>
          cases hrest
          cases hmem
        | _ => cases hrest

namespace Nearest

variable {holder : ObjectId} {slot : Slot κ} {ahead : List ObjectId}

theorem unique {ahead' : List ObjectId} {holder' : ObjectId} {slot' : Slot κ}
    (h : heap.Nearest selector id ahead holder slot)
    (h' : heap.Nearest selector id ahead' holder' slot') :
    ahead = ahead' ∧ holder = holder' ∧ slot = slot' := by
  induction h generalizing ahead' with
  | here hslot =>
    cases h' with
    | here hslot' => exact ⟨rfl, rfl, Option.some.inj (hslot.symm.trans hslot')⟩
    | further _ hnone _ _ => cases hslot.symm.trans hnone
  | further hnode hnone hparent _ ih =>
    cases h' with
    | here hslot' => cases hnone.symm.trans hslot'
    | further hnode' _ hparent' hrest' =>
      obtain rfl := Option.some.inj (hnode.symm.trans hnode')
      cases hparent.symm.trans hparent'
      obtain ⟨rfl, rfl, rfl⟩ := ih hrest'
      exact ⟨rfl, rfl, rfl⟩

theorem of_keeps {other : Heap κ} (h : heap.Nearest selector id ahead holder slot)
    (hkeeps : heap.Keeps other) : other.Nearest selector id ahead holder slot := by
  induction h with
  | here hslot =>
    obtain ⟨node, hnode, hfind⟩ := Option.bind_eq_some_iff.mp hslot
    exact .here (by rw [slot?_of_node? (hkeeps _ node hnode), hfind])
  | further hnode hslot hparent _ ih =>
    rw [slot?_of_node? hnode] at hslot
    exact .further (hkeeps _ _ hnode) (by rw [slot?_of_node? (hkeeps _ _ hnode), hslot]) hparent ih

/-- A search that has a slot ahead does not come to an end without one. -/
theorem searchDynamic_ne_absent (h : heap.Nearest selector id ahead holder slot)
    (hchain : heap.Chain (.object id) ids) : heap.searchDynamic id selector ≠ .ok .absent := by
  induction h generalizing ids with
  | here hslot =>
    rw [searchDynamic_of_slot hslot]
    exact fun habsent => nomatch habsent
  | further hnode hslot hparent _ ih =>
    obtain ⟨more, rfl, hrest⟩ := hchain.next hnode hparent
    have hlater := ih hrest
    cases hrest with
    | @cons _ nextNode _ hnext hframe _ =>
      match nextNode with
      | .object body => rwa [hchain.searchDynamic_of_plain hnext hslot]
      | .mirage mirage =>
        rw [hchain.searchDynamic_of_mirage hnext hslot]
        exact fun habsent => nomatch habsent
      | .frame frame => cases hframe

end Nearest

end Prototypes.Heap
