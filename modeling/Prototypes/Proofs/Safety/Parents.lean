import Prototypes.Proofs.Safety.Careful

/-!
# Parents are for ever

A world *arises* from a new one by requests that use live handles, one after the other.
They run code of any host and may fail; between them garbage may be collected, from any
roots, and its handles are given to new nodes.

In a world that has arisen nobody is their own ancestor, although the order of handles is
not the order in which nodes were made.  So a search ends from every node, and what it
answers is decided by the nearest node that knows.

## Main results

* `World.Arises.sane` — worlds that have arisen are well-formed.
* `World.Arises.parents_for_ever` — what no request and no collection changes, and what
  searches answer.
-/

namespace Prototypes

variable {κ σ α : Type}

/-! ## Collections -/

/-- A collection leaves a sane world, since what it keeps was reached and so were its edges. -/
theorem World.Sane.collect {rules : Rules κ} {v w : World κ σ} {extra : List (Value κ)}
    {collected : Collected} (hv : v.Sane rules) (h : Run.collect extra v = .ok collected w) :
    w.Sane rules := by
  obtain ⟨heap, hcollect, rfl⟩ := Run.collect_eq_ok h
  have hleft := Heap.node?_of_collect hcollect
  have hroot {id : ObjectId} (hlive : v.heap.contains id = true)
      (hmem : id ∈ Value.edgesOfAll (.object v.lexicalRoot :: .object v.mirrorRoot :: extra)) :
      heap.contains id = true := by
    obtain ⟨node, hnode⟩ := Heap.contains_iff.mp hlive
    exact Heap.contains_of_node? ((hleft id node).mpr ⟨hnode, .root hmem⟩)
  exact {
    edges := fun id node hnode target htarget => by
      obtain ⟨hold, hreached⟩ := (hleft id node).mp hnode
      obtain ⟨above, habove⟩ := Heap.contains_iff.mp (hv.edges id node hold target htarget)
      exact Heap.contains_of_node? ((hleft target above).mpr ⟨habove, hreached.edge hold htarget⟩)
    names := fun id node hnode => hv.names id node ((hleft id node).mp hnode).1
    dynamic := hv.dynamic.collect hcollect
    lexical := hv.lexical.collect hcollect
    lexicalRoot := hroot hv.lexicalRoot (by simp [Value.edgesOfAll, Value.edges])
    mirrorRoot := hroot hv.mirrorRoot (by simp [Value.edgesOfAll, Value.edges])
    free := hv.free.follows (.collect hcollect)
    defaults := hv.defaults
    natives := fun id node hnode => hv.natives id node ((hleft id node).mp hnode).1 }

/-- A collection that fails leaves the world as it was. -/
theorem World.Sane.after_collect {rules : Rules κ} {v : World κ σ} (hv : v.Sane rules)
    (roots : List (Value κ)) : (Run.after (Run.collect roots) v).Sane rules :=
  Run.after_collect hv fun _ _ hcollect => hv.collect hcollect

/-! ## Requests on live handles -/

theorem World.Alike.sameNodes {v w : World κ σ} (h : v.Alike w) : v.SameNodes w := by
  rw [h.eq_with_log]
  exact ⟨rfl, rfl, rfl, rfl, rfl⟩

/-- The request ends with a number of steps, and only live handles are used until then. -/
def Request.Heeds (host : Host κ σ) (steps : Nat) (request : Request κ) (world : World κ σ) : Prop :=
  Run.Ended (request.runCareful (Runtime.careful host steps)) world

/-- Such a request keeps every node and leaves a sane world. -/
theorem Request.Heeds.keeps {host : Host κ σ} {steps : Nat} {request : Request κ} {v : World κ σ}
    (h : request.Heeds host steps v) (hv : v.Sane (Rules.lenient κ)) :
    v.Grows (Run.after (request.run (Runtime.ofFuel host steps)) v) ∧
      (Run.after (request.run (Runtime.ofFuel host steps)) v).Sane (Rules.lenient κ) := by
  have hsafe := request.runCareful_safe (Runtime.careful_safe host steps) v hv (.nil v)
  have hbelow := request.runCareful_below (Runtime.careful_below host steps)
  have hsame := (hbelow.after_alike h).sameNodes
  exact ⟨hsafe.after.1.trans hsame.grows, hsame.sane hsafe.after.2⟩

/-! ## Worlds that have arisen -/

/-- The worlds that come about by requests on live handles, collections, and the host's own doings. -/
inductive World.Arises (host : Host κ σ) : World κ σ → Prop
  | new (settings : WorldSettings) (memory : σ) : Arises host (World.new settings memory)
  | request {v : World κ σ} (request : Request κ) (steps : Nat) : Arises host v →
      request.Heeds host steps v → Arises host (Run.after (request.run (Runtime.ofFuel host steps)) v)
  | collect {v : World κ σ} (roots : List (Value κ)) : Arises host v →
      Arises host (Run.after (Run.collect roots) v)
  | remember {v : World κ σ} (update : σ → σ) : Arises host v →
      Arises host { v with host := update v.host }
  | identity {v : World κ σ} : Arises host v → Arises host { v with supply := v.supply + 1 }

namespace World.Arises

variable {host : Host κ σ} {w : World κ σ}

theorem sane (h : World.Arises host w) : w.Sane (Rules.lenient κ) := by
  induction h with
  | new settings memory => exact World.sane_new (Rules.lenient κ) settings memory
  | request request steps _ hheeds ih => exact (hheeds.keeps ih).2
  | collect roots _ ih => exact ih.after_collect roots
  | @remember v _ _ ih => exact World.SameNodes.sane (v := v) ⟨rfl, rfl, rfl, rfl, rfl⟩ ih
  | @identity v _ ih => exact World.SameNodes.sane (v := v) ⟨rfl, rfl, rfl, rfl, rfl⟩ ih

/--
In a world that has arisen, a request on live handles leaves every node what it was made as
and where it is, and a collection keeps nodes as they are.  Nobody is their own ancestor,
neither by dynamic parents nor by lexical ones.  So from every node a search for a selector
ends; and it ends with the slot of the nearest node that has one, with the parent at which
it leaves the nodes it may pass, if it gets there before, and with nothing if there is no
parent left.
-/
theorem parents_for_ever (h : World.Arises host w) :
    (∀ (request : Request κ) steps, request.Heeds host steps w →
      ∀ id node, w.heap.node? id = some node →
        ∃ after, (Run.after (request.run (Runtime.ofFuel host steps)) w).heap.node? id = some after ∧
          node.Stays after) ∧
    (∀ extra collected u, Run.collect extra w = .ok collected u →
      ∀ id node, u.heap.node? id = some node → w.heap.node? id = some node) ∧
    w.heap.AcyclicAlong .dynamic ∧ w.heap.AcyclicAlong .lexical ∧
    ∀ start, w.heap.contains start = true → ∀ selector,
      (∃ resolution, w.heap.searchDynamic start selector = .ok resolution) ∧
      (∃ resolution, w.heap.searchLexical start selector = .ok resolution) ∧
      ∀ resolution,
        (w.heap.searchDynamic start selector = .ok resolution ↔
          w.heap.Decides .dynamic selector start resolution) ∧
        (w.heap.searchLexical start selector = .ok resolution ↔
          w.heap.Decides .lexical selector start resolution) := by
  have hw := h.sane
  refine ⟨fun request steps hheeds id node hnode => (hheeds.keeps hw).1.nodes hnode,
    fun extra collected u hcollect id node hnode => ?_,
    hw.dynamic, hw.lexical, fun start hstart selector => ?_⟩
  · obtain ⟨heap, hheap, rfl⟩ := Run.collect_eq_ok hcollect
    exact ((Heap.node?_of_collect hheap id node).mp hnode).1
  · obtain ⟨ended, hended, -⟩ := hw.dynamic.exists_searchAlong hw.edges selector hstart
    obtain ⟨ended', hended', -⟩ := hw.lexical.exists_searchAlong hw.edges selector hstart
    simp only [Heap.searchDynamic, Heap.searchDynamicFrom_eq, Heap.searchLexical,
      Heap.searchLexicalFrom_eq]
    exact ⟨⟨ended, hended⟩, ⟨ended', hended'⟩, fun resolution =>
      ⟨hw.dynamic.searchAlong_eq_ok_iff hw.edges selector hstart,
        hw.lexical.searchAlong_eq_ok_iff hw.edges selector hstart⟩⟩

/-- A new world with an object. -/
private def withObject : World Empty Unit :=
  Run.after (Request.newObject.run (Runtime.ofFuel Host.none 0)) (World.new default ())

/-- It is reclaimed. -/
private def withNothing : World Empty Unit := Run.after (Run.collect []) withObject

/-- A mirror is made in its place. -/
private def withMirrorInPlace : World Empty Unit :=
  Run.after (Request.freshMirror.run (Runtime.ofFuel Host.none 0)) withNothing

theorem parents_for_ever_in_place :
    World.Arises Host.none withMirrorInPlace ∧ withMirrorInPlace.heap.contains ⟨2⟩ = true ∧
      withObject.heap.contains ⟨2⟩ = true ∧ withNothing.heap.contains ⟨2⟩ = false ∧
      withMirrorInPlace.heap.Decides .dynamic Selector.base ⟨2⟩ (.found ⟨1⟩ (.field 0 false)) := by
  have hobject : World.Arises Host.none withObject :=
    (new default ()).request .newObject 0 fun after hexhausted => by cases hexhausted
  have hmirror : World.Arises Host.none withMirrorInPlace :=
    (hobject.collect []).request .freshMirror 0 fun after hexhausted => by cases hexhausted
  have hlive : withMirrorInPlace.heap.contains ⟨2⟩ = true := rfl
  obtain ⟨-, -, -, -, hsearch⟩ := parents_for_ever hmirror
  obtain ⟨-, -, hdecided⟩ := hsearch ⟨2⟩ hlive Selector.base
  exact ⟨hmirror, hlive, rfl, rfl, (hdecided _).1.mp rfl⟩

end World.Arises

end Prototypes
