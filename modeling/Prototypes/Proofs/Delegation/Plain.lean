import Prototypes.Proofs.Delegation.Transparency

/-!
# Walks along plain objects

Where a chain consists of plain objects, a walk is one search, and it ends with the slot
that is nearest by the chain.  The first object then does what the operation does at the
end of its walk, in the world as it is: nothing has been asked or reported on the way.

## Main results

* `Heap.Chain.searchDynamic_eq_nearest` — the search.
* `Walk.Operation.send_of_search`, `Walk.Operation.send_of_plain` — what the first object of the chain
  answers.
* `Runtime.invokeFallback_of_none` — what becomes of a message that no slot and no
  primitive answers.
-/

namespace Prototypes

variable {κ σ α : Type}

/-- Along plain objects a search finds the nearest slot. -/
theorem Heap.Chain.searchDynamic_eq_nearest {heap : Heap κ} {id : ObjectId} {ids : List ObjectId}
    (h : heap.Chain (.object id) ids)
    (hplain : ∀ other ∈ ids, ∃ body, heap.node? other = some (.object body)) (selector : Symbol) :
    heap.searchDynamic id selector = .ok (heap.nearest selector ids) := by
  obtain ⟨ending, hpath, hending⟩ := h.exists_path (fun other hmem node hnode => by
    obtain ⟨body, hbody⟩ := hplain other hmem
    cases hnode.symm.trans hbody
    rfl) selector
  unfold searchDynamic
  rw [← hending, ← map_snd_searchVisitingFrom]
  rcases hpath.searchVisitingFrom_cases (h.visited_ne_nil selector) (h.length_visited_le selector) with
    hended | ⟨front, next, behind, -, hvisited, -, ⟨mirage, hmirage⟩, -⟩
  · rw [hended]
    rfl
  · -- there is no mirage to stop at
    have hnext : next ∈ heap.visited selector ids := by
      rw [hvisited]
      exact List.mem_append_right front (List.mem_cons_self ..)
    obtain ⟨body, hbody⟩ := hplain next ((heap.visited_initial selector ids).subset hnext)
    cases hmirage.symm.trans hbody

namespace Walk.Operation

variable {walk : Walk κ σ α} (hwalk : walk.Operation) (host : Host κ σ) {world : World κ σ}
  {id : ObjectId}

include hwalk

/-- Where the search from an object ends of itself, the object does what is done there. -/
theorem send_of_search {body : PrototypeObject κ} (hbody : world.heap.node? id = some (.object body))
    {resolution : Resolution κ} (hsearch : world.heap.searchDynamic id walk.selector = .ok resolution)
    (hended : ∀ parent, resolution ≠ .delegate parent) (steps : Nat) :
    (Runtime.ofFuel host (steps + 2)).send (.object id) walk.message world =
      (walk.answer <$> walk.conclude (Runtime.ofFuel host (steps + 1)) id resolution) world := by
  rw [Runtime.send_plain host (steps + 1) hbody, hwalk.performs.inPlace, Walk.inPlace, Runtime.resolve,
    Runtime.fuel_ofFuel, walk.resolveFrom_succ, map_bind, Run.searchDynamic_bind, hsearch]
  cases resolution with
  | found holder slot => rfl
  | absent => rfl
  | delegate parent => exact absurd rfl (hended parent)

/-- With a single step there is no search. -/
theorem send_exhausted {body : PrototypeObject κ} (hbody : world.heap.node? id = some (.object body)) :
    (Runtime.ofFuel host 1).send (.object id) walk.message world = .error .exhausted world := by
  rw [Runtime.send_plain host 0 hbody, hwalk.performs.inPlace]
  rfl

/-- The first object of a chain of plain objects does what is done at the nearest slot. -/
theorem send_of_plain {ids : List ObjectId} (hchain : world.heap.Chain (.object id) ids)
    (hplain : ∀ other ∈ ids, ∃ body, world.heap.node? other = some (.object body)) (steps : Nat) :
    (Runtime.ofFuel host (steps + 2)).send (.object id) walk.message world =
      (walk.answer <$> walk.conclude (Runtime.ofFuel host (steps + 1)) id
        (world.heap.nearest walk.selector ids)) world := by
  obtain ⟨body, hbody⟩ := hplain id hchain.mem_self
  exact hwalk.send_of_search host hbody (hchain.searchDynamic_eq_nearest hplain walk.selector)
    (world.heap.nearest_ne_delegate _ ids) steps

end Walk.Operation

/-- A message to it does what is done at the nearest slot. -/
theorem Runtime.invoke_of_plain (host : Host κ σ) {world : World κ σ} {id : ObjectId}
    {ids : List ObjectId} (hchain : world.heap.Chain (.object id) ids)
    (hplain : ∀ other ∈ ids, ∃ body, world.heap.node? other = some (.object body)) (selector : Symbol)
    (arguments : List (Value κ)) (steps : Nat) :
    (ofFuel host (steps + 2)).invoke (.object id) selector arguments world =
      (Walk.invoke (.object id) selector arguments).conclude (ofFuel host (steps + 1)) id
        (world.heap.nearest selector ids) world := by
  have hsend := (Walk.Operation.invoke (.object id) selector arguments).send_of_plain host hchain
    hplain steps
  dsimp only [Walk.invoke] at hsend
  rwa [id_map'] at hsend

/--
A message that nothing answers fails for want of its selector, after the handler of its
receiver has been applied in a frame for the arguments.
-/
theorem Runtime.invokeFallback_of_none (host : Host κ σ) {world : World κ σ} (hsound : world.Sound)
    {id : ObjectId} {body : PrototypeObject κ} (hnode : world.heap.node? id = some (.object body))
    {selector : Symbol} (hprimitive : Primitive.ofSelector? selector = none)
    (arguments : List (Value κ)) (steps : Nat) :
    (ofFuel host (steps + 1)).invokeFallback (.object id) selector arguments world =
      .error (.raised (notFound selector (Value.object (κ := κ) id)))
        ({ world with supply := world.supply + 2 }.enter id
          [(⟨"arguments"⟩, .table ⟨world.supply + 2⟩ arguments)]) := by
  have hsend := send_plain host steps hnode (.doesNotUnderstand selector)
  unfold invokeFallback
  rw [hprimitive]
  dsimp only
  rw [Run.bind_eq_of_eq hsend]
  exact applyValue_defaultHandler host steps hsound (.object id) selector arguments

end Prototypes
