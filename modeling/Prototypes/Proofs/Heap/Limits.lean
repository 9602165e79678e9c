import Prototypes.Proofs.Heap.Ancestry

/-!
# Steps enough for a search

A search is given as many steps as the arena has places, and one more.  That is always
enough: a search that has gone through more nodes than there are has come to one of them
twice, and from there it goes in a circle and never ends, however many steps it is given.
So how a search ends does not depend on the steps, once they are enough, and a search that
begins one node further on, with one step less, ends the same way.

## Main results

* `passes_or_ends` — what a search does at a node.
* `decides_of_searchAlong` — what a search answers is so.
* `searchAlong_of_circle` — a search that comes to a circle never ends.
* `searchAlong_of_size_le` — more steps than enough make no difference.
-/

namespace Prototypes.Heap

variable {κ : Type} {heap : Heap κ} {route : Route κ} {selector : Symbol} {start : ObjectId}

/-- A search ends rightly, and in one way however many steps are left. -/
def EndsAlike (heap : Heap κ) (route : Route κ) (selector : Symbol) (start : ObjectId)
    (search : Nat → Except Halt (Resolution κ)) : Prop :=
  ∃ result, result ≠ .error .exhausted ∧
    (∀ resolution, result = .ok resolution → heap.Decides route selector start resolution) ∧
    ∀ fuel, search fuel = result

theorem Decides.endsAlike {resolution : Resolution κ} (h : heap.Decides route selector start resolution)
    {search : Nat → Except Halt (Resolution κ)} (hends : ∀ fuel, search fuel = .ok resolution) :
    heap.EndsAlike route selector start search := by
  refine ⟨.ok resolution, ?_, ?_, hends⟩
  · rintro ⟨⟩
  · rintro _ ⟨⟩
    exact h

theorem endsAlike_of_dangling (id : ObjectId) {search : Nat → Except Halt (Resolution κ)}
    (hends : ∀ fuel, search fuel = .error (.dangling id)) :
    heap.EndsAlike route selector start search := by
  refine ⟨.error (.dangling id), ?_, ?_, hends⟩
  · rintro ⟨⟩
  · rintro _ ⟨⟩

/-- A search goes on from a node, or ends there however many steps are left. -/
theorem passes_or_ends (heap : Heap κ) (route : Route κ) (selector : Symbol) (start : ObjectId) :
    (∃ next, heap.Passes route selector start next) ∨
      heap.EndsAlike route selector start fun fuel =>
        heap.searchAlong route selector (fuel + 1) start := by
  cases hnode : heap.node? start with
  | none =>
    refine .inr (endsAlike_of_dangling start fun fuel => ?_)
    rw [searchAlong, get_eq_error_iff.mpr ⟨hnode, rfl⟩]
    rfl
  | some node =>
    cases hslot : node.slots.find selector with
    | some slot =>
      have hfound := (slot?_of_node? hnode selector).trans hslot
      exact .inr (Decides.endsAlike (.found .refl hfound) (searchAlong_of_slot hfound))
    | none =>
      have hdelegate (hleaves : heap.Leaves route (route.parent node)) :
          heap.Decides route selector start (.delegate (route.parent node)) :=
        .delegate .refl hnode hslot hleaves
      simp only [searchAlong, get_eq_ok_iff.mpr hnode, bind, Except.bind, hslot]
      cases hparent : route.parent node with
      | nil => exact .inr (Decides.endsAlike (.absent .refl hnode hslot hparent) fun _ => rfl)
      | object next =>
        rw [hparent] at hdelegate
        cases hnext : heap.node? next with
        | none =>
          refine .inr (endsAlike_of_dangling next fun _ => ?_)
          simp only [get_eq_error_iff.mpr ⟨hnext, rfl⟩]
        | some nextNode =>
          cases hpasses : route.passes nextNode with
          | true =>
            exact .inl ⟨next, (slot?_of_node? hnode selector).trans hslot, ⟨node, hnode, hparent⟩,
              nextNode, hnext, hpasses⟩
          | false =>
            refine .inr ((hdelegate ⟨rfl, ?_⟩).endsAlike fun _ => ?_)
            · rintro id ⟨⟩
              exact ⟨nextNode, hnext, hpasses⟩
            · simp only [get_eq_ok_iff.mpr hnext, hpasses]
              rfl
      | _ =>
        rw [hparent] at hdelegate
        refine .inr ((hdelegate ⟨rfl, ?_⟩).endsAlike fun _ => rfl)
        rintro id ⟨⟩

/-- However a search answers, it is decided that way. -/
theorem decides_of_searchAlong {fuel : Nat} {resolution : Resolution κ}
    (h : heap.searchAlong route selector fuel start = .ok resolution) :
    heap.Decides route selector start resolution := by
  induction fuel generalizing start with
  | zero => cases h
  | succ fuel ih =>
    rcases heap.passes_or_ends route selector start with ⟨next, hpasses⟩ | ⟨result, -, hdecides, hends⟩
    · rw [hpasses.searchAlong] at h
      exact hpasses.decides (ih h)
    · exact hdecides resolution ((hends fuel).symm.trans h)

/-- A search that is decided began at a node. -/
theorem Decides.contains {resolution : Resolution κ}
    (h : heap.Decides route selector start resolution) : heap.contains start = true := by
  have hpath {last : ObjectId} (hlast : heap.contains last = true)
      (hpath : Relation.ReflTransGen (heap.Passes route selector) start last) :
      heap.contains start = true := by
    rcases hpath.cases_head with rfl | ⟨next, ⟨-, ⟨node, hnode, -⟩, -⟩, -⟩
    · exact hlast
    · exact contains_of_node? hnode
  cases h with
  | found hstart hslot =>
    obtain ⟨node, hnode, -⟩ := Option.bind_eq_some_iff.mp hslot
    exact hpath (contains_of_node? hnode) hstart
  | delegate hstart hnode => exact hpath (contains_of_node? hnode) hstart
  | absent hstart hnode => exact hpath (contains_of_node? hnode) hstart

theorem Decides.slot?_eq {holder : ObjectId} {slot : Slot κ}
    (h : heap.Decides route selector start (.found holder slot)) : heap.slot? selector holder = some slot := by
  cases h with
  | found _ hslot => exact hslot

theorem decides_of_searchDynamic {resolution : Resolution κ}
    (h : heap.searchDynamic start selector = .ok resolution) :
    heap.Decides .dynamic selector start resolution := by
  rw [searchDynamic, searchDynamicFrom_eq] at h
  exact decides_of_searchAlong h

theorem decides_of_searchLexical {resolution : Resolution κ}
    (h : heap.searchLexical start selector = .ok resolution) :
    heap.Decides .lexical selector start resolution := by
  rw [searchLexical, searchLexicalFrom_eq] at h
  exact decides_of_searchAlong h

/-- What has ended ends the same way with more steps. -/
theorem searchAlong_of_le {fuel more : Nat} (hle : fuel ≤ more)
    (hended : heap.searchAlong route selector fuel start ≠ .error .exhausted) :
    heap.searchAlong route selector more start = heap.searchAlong route selector fuel start := by
  induction fuel generalizing start more with
  | zero => exact absurd rfl hended
  | succ fuel ih =>
    obtain ⟨more, rfl⟩ : ∃ n, more = n + 1 := ⟨more - 1, by omega⟩
    rcases heap.passes_or_ends route selector start with ⟨next, hpasses⟩ | ⟨result, -, -, hends⟩
    · rw [hpasses.searchAlong] at hended ⊢
      rw [hpasses.searchAlong]
      exact ih (Nat.le_of_succ_le_succ hle) hended
    · exact (hends more).trans (hends fuel).symm

/-- A search that is out of steps has gone through a node at each of them. -/
theorem exists_passed_of_exhausted (hlive : heap.contains start = true) {fuel : Nat}
    (h : heap.searchAlong route selector fuel start = .error .exhausted) :
    ∃ more : List ObjectId, more.length = fuel ∧
      (start :: more).IsChain (heap.Passes route selector) ∧
        ∀ id ∈ start :: more, heap.contains id = true ∧
          Relation.ReflTransGen (heap.Passes route selector) start id := by
  induction fuel generalizing start with
  | zero =>
    refine ⟨[], rfl, .singleton start, fun id hmem => ?_⟩
    obtain rfl := List.mem_singleton.mp hmem
    exact ⟨hlive, .refl⟩
  | succ fuel ih =>
    rcases heap.passes_or_ends route selector start with ⟨next, hpasses⟩ | ⟨result, hended, -, hends⟩
    · obtain ⟨nextNode, hnext, -⟩ := hpasses.2.2
      rw [hpasses.searchAlong] at h
      obtain ⟨more, rfl, hchain, hmore⟩ := ih (contains_of_node? hnext) h
      refine ⟨next :: more, rfl, .cons_cons hpasses hchain, fun id hmem => ?_⟩
      rcases List.mem_cons.mp hmem with rfl | hmem
      · exact ⟨hlive, .refl⟩
      · exact ⟨(hmore id hmem).1, .head hpasses (hmore id hmem).2⟩
    · exact absurd ((hends fuel).symm.trans h) hended

/-- On the way to a circle and in it, there is always a next node. -/
private theorem exists_next_of_circle {turn : ObjectId}
    (hpath : Relation.ReflTransGen (heap.Passes route selector) start turn)
    (hcircle : Relation.TransGen (heap.Passes route selector) turn turn) :
    ∃ next, heap.Passes route selector start next ∧
      Relation.ReflTransGen (heap.Passes route selector) next turn := by
  rcases hpath.cases_head with rfl | hahead
  · exact Relation.TransGen.head'_iff.mp hcircle
  · exact hahead

/-- A search that comes to a circle never ends. -/
theorem searchAlong_of_circle {turn : ObjectId}
    (hpath : Relation.ReflTransGen (heap.Passes route selector) start turn)
    (hcircle : Relation.TransGen (heap.Passes route selector) turn turn) (fuel : Nat) :
    heap.searchAlong route selector fuel start = .error .exhausted := by
  induction fuel generalizing start with
  | zero => rfl
  | succ fuel ih =>
    obtain ⟨next, hpasses, hrest⟩ := exists_next_of_circle hpath hcircle
    rw [hpasses.searchAlong]
    exact ih hrest

/-- As many steps as the arena has places are as good as any more. -/
theorem searchAlong_of_size_le (hlive : heap.contains start = true) {fuel more : Nat}
    (hfuel : heap.entries.size ≤ fuel) (hle : fuel ≤ more) :
    heap.searchAlong route selector more start = heap.searchAlong route selector fuel start := by
  by_cases hended : heap.searchAlong route selector fuel start = .error .exhausted
  · obtain ⟨passed, rfl, hchain, hpassed⟩ := exists_passed_of_exhausted hlive hended
    have hcircle : ∃ turn ∈ start :: passed,
        Relation.TransGen (heap.Passes route selector) turn turn := by
      by_contra hnone
      have hahead : (start :: passed).Pairwise (Relation.TransGen (heap.Passes route selector)) :=
        List.isChain_iff_pairwise.mp (hchain.imp fun _ _ => .single)
      have hnodup : (start :: passed).Nodup :=
        hahead.imp_of_mem fun {first second} hmem _ hbehind => by
          rintro rfl
          exact hnone ⟨first, hmem, hbehind⟩
      have hlength := length_le_of_nodup hnodup fun id hmem => (hpassed id hmem).1
      simp only [List.length_cons] at hlength
      omega
    obtain ⟨turn, hmem, hcircle⟩ := hcircle
    rw [hended, searchAlong_of_circle (hpassed turn hmem).2 hcircle]
  · exact searchAlong_of_le hle hended

end Prototypes.Heap
