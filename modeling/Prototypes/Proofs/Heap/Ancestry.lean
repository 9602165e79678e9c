import Mathlib.Data.List.Chain
import Mathlib.Logic.Relation
import Prototypes.Proofs.Heap.Chains
import Prototypes.Proofs.Heap.Reachability

/-!
# Ways up

Searches go up from node to node, by dynamic parents or by lexical ones, through nodes
that they pass and until they come to one that they do not.  A `Route` is such a way; a
node's slots and its mirror have no part in it.

Indices of reclaimed nodes are handed out again, so that a parent may well have a higher
index than its child.  What rules circles out is how nodes come to be: nothing refers to a
new node yet, and what it refers to is there already.  From then on it goes up the same
way for as long as it is there.

## Main results

* `AcyclicAlong.allocate`, `AcyclicAlong.replace`, `AcyclicAlong.collect` — no step of a
  heap makes a circle.
* `searchAlong_eq_ok_iff`, `AcyclicAlong.exists_searchAlong` — where there is none, a search
  ends, and at the nearest node that is decisive.
-/

namespace Prototypes

variable {κ : Type}

/-! ## What stays of a node -/

/-- The one node has become the other: its slots may be others, and its mirror if it has one. -/
structure Node.Stays (node after : Node κ) : Prop where
  plain : after.isPlain = node.isPlain
  mirage : after.isMirage = node.isMirage
  dynamicParent : after.dynamicParent = node.dynamicParent
  lexicalParent : after.lexicalParent? = node.lexicalParent?
  link : after.body?.map PrototypeObject.link = node.body?.map PrototypeObject.link
  tags : after.body?.map PrototypeObject.typeTags = node.body?.map PrototypeObject.typeTags
  family : after.body?.map PrototypeObject.family = node.body?.map PrototypeObject.family
  flags : after.body?.map PrototypeObject.flags = node.body?.map PrototypeObject.flags

namespace Node.Stays

theorem refl (node : Node κ) : node.Stays node := ⟨rfl, rfl, rfl, rfl, rfl, rfl, rfl, rfl⟩

theorem trans {first second third : Node κ} (h : first.Stays second) (h' : second.Stays third) :
    first.Stays third where
  plain := h'.plain.trans h.plain
  mirage := h'.mirage.trans h.mirage
  dynamicParent := h'.dynamicParent.trans h.dynamicParent
  lexicalParent := h'.lexicalParent.trans h.lexicalParent
  link := h'.link.trans h.link
  tags := h'.tags.trans h.tags
  family := h'.family.trans h.family
  flags := h'.flags.trans h.flags

theorem withSlots (node : Node κ) (slots : Storage κ) : node.Stays (node.withSlots slots) := by
  cases node <;> exact ⟨rfl, rfl, rfl, rfl, rfl, rfl, rfl, rfl⟩

theorem withMirror (node : Node κ) (mirror : Option ObjectId) : node.Stays (node.withMirror mirror) := by
  cases node <;> exact ⟨rfl, rfl, rfl, rfl, rfl, rfl, rfl, rfl⟩

end Node.Stays

/-! ## Routes -/

/-- A way up from node to node. -/
structure Route (κ : Type) where
  /-- where it goes from a node; nil ends it -/
  parent : Node κ → Value κ
  /-- whether a parent of this kind is gone through, instead of being asked -/
  passes : Node κ → Bool
  mem_edges : ∀ {node next}, parent node = .object next → next ∈ node.edges
  stays : ∀ {node after : Node κ}, node.Stays after → parent after = parent node

namespace Route

/-- By dynamic parents through plain objects. -/
def dynamic : Route κ where
  parent := Node.dynamicParent
  passes := Node.isPlain
  mem_edges {node next} h := by
    cases node with
    | frame frame => cases h
    | object body =>
      change body.dynamicParent = _ at h
      simp [Node.edges, h, Value.edges]
    | mirage m =>
      change m.object.dynamicParent = _ at h
      simp [Node.edges, h, Value.edges]
  stays := Node.Stays.dynamicParent

/-- By lexical parents through plain objects and frames. -/
def lexical : Route κ where
  parent node := node.lexicalParent?.elim .nil .object
  passes node := !node.isMirage
  mem_edges {node next} h := by
    have hparent : node.lexicalParent? = some next := by
      cases hparent : node.lexicalParent? with
      | none =>
        rw [hparent] at h
        cases h
      | some parent =>
        rw [hparent] at h
        cases h
        rfl
    cases node <;> simp_all [Node.lexicalParent?, Node.edges]
  stays h := by rw [h.lexicalParent]

end Route

namespace Heap

variable {heap after : Heap κ} {route : Route κ}

/-- The one node is next after the other. -/
def Ascends (heap : Heap κ) (route : Route κ) (id next : ObjectId) : Prop :=
  ∃ node, heap.node? id = some node ∧ route.parent node = .object next

/-- Whoever goes this way never comes back to a node. -/
def AcyclicAlong (route : Route κ) (heap : Heap κ) : Prop :=
  ∀ id, ¬ Relation.TransGen (heap.Ascends route) id id

/-! ## No circles -/

theorem EdgesLive.ascends (h : heap.EdgesLive) {id next : ObjectId}
    (hnext : heap.Ascends route id next) : heap.contains next = true := by
  obtain ⟨node, hnode, hparent⟩ := hnext
  exact h id node hnode next (route.mem_edges hparent)

namespace AcyclicAlong

theorem of_rank (rank : ObjectId → Nat)
    (h : ∀ id next, heap.Ascends route id next → rank next < rank id) : heap.AcyclicAlong route := by
  have hlower : ∀ id next, Relation.TransGen (heap.Ascends route) id next → rank next < rank id := by
    intro id next hnext
    induction hnext with
    | single hstep => exact h _ _ hstep
    | tail _ hstep ih => exact Nat.lt_trans (h _ _ hstep) ih
  exact fun id hcircle => Nat.lt_irrefl _ (hlower id id hcircle)

theorem of_ascends (h : heap.AcyclicAlong route)
    (hsub : ∀ id next, after.Ascends route id next → heap.Ascends route id next) :
    after.AcyclicAlong route :=
  fun id hcircle => h id (Relation.TransGen.mono hsub id id hcircle)

/-- Nothing leads to a new node, and from it one gets to nodes that were there. -/
theorem allocate (h : heap.AcyclicAlong route) (hfree : heap.FreeListExact) (hedges : heap.EdgesLive)
    {node : Node κ} (hnode : ∀ target ∈ node.edges, heap.contains target = true) :
    (heap.allocate node).2.AcyclicAlong route := by
  have hnew : heap.contains heap.nextId = false := hfree.not_contains_nextId
  have hsplit {id next : ObjectId} (hstep : (heap.allocate node).2.Ascends route id next) :
      heap.contains next = true ∧ (id ≠ heap.nextId → heap.Ascends route id next) := by
    obtain ⟨found, hfound, hparent⟩ := hstep
    rw [hfree.node?_allocate] at hfound
    by_cases hid : id = heap.nextId
    · rw [if_pos hid] at hfound
      obtain rfl := Option.some.inj hfound
      exact ⟨hnode next (route.mem_edges hparent), fun hne => absurd hid hne⟩
    · rw [if_neg hid] at hfound
      exact ⟨hedges.ascends ⟨found, hfound, hparent⟩, fun _ => ⟨found, hfound, hparent⟩⟩
  have hold {id : ObjectId} (hlive : heap.contains id = true) : id ≠ heap.nextId := by
    rintro rfl
    rw [hnew] at hlive
    cases hlive
  have hpath {id next : ObjectId}
      (hnext : Relation.TransGen ((heap.allocate node).2.Ascends route) id next) :
      heap.contains next = true ∧
        (id ≠ heap.nextId → Relation.TransGen (heap.Ascends route) id next) := by
    induction hnext with
    | single hstep => exact ⟨(hsplit hstep).1, fun hid => .single ((hsplit hstep).2 hid)⟩
    | tail _ hstep ih =>
      exact ⟨(hsplit hstep).1, fun hid => (ih.2 hid).tail ((hsplit hstep).2 (hold ih.1))⟩
  intro id hcircle
  obtain ⟨hlive, hcircle⟩ := hpath hcircle
  exact h id (hcircle (hold hlive))

/-- A node that has become another one goes the same way. -/
theorem replace (h : heap.AcyclicAlong route) {id : ObjectId} {node new : Node κ}
    (hnode : heap.node? id = some node) (hstays : node.Stays new) :
    (heap.replace id new).AcyclicAlong route := by
  refine h.of_ascends fun other next ⟨found, hfound, hparent⟩ => ?_
  rw [node?_replace_of_contains (contains_of_node? hnode)] at hfound
  by_cases hother : other = id
  · rw [if_pos hother] at hfound
    obtain rfl := Option.some.inj hfound
    exact ⟨node, hother ▸ hnode, (route.stays hstays).symm.trans hparent⟩
  · rw [if_neg hother] at hfound
    exact ⟨found, hfound, hparent⟩

/-- What a collection leaves goes the way it went. -/
theorem collect (h : heap.AcyclicAlong route) {roots : List (Value κ)} {collected : Collected}
    (hcollect : heap.collect roots = .ok (collected, after)) : after.AcyclicAlong route :=
  h.of_ascends fun id _ ⟨node, hnode, hparent⟩ =>
    ⟨node, ((node?_of_collect hcollect id node).mp hnode).1, hparent⟩

end AcyclicAlong

/-! ## Searching along a route -/

/-- The search along a route, over at most `fuel` nodes. -/
def searchAlong (route : Route κ) (heap : Heap κ) (selector : Symbol) :
    (fuel : Nat) → ObjectId → Except Halt (Resolution κ)
  | 0, _ => .error .exhausted
  | fuel + 1, current => do
    let node ← heap.get current
    match node.slots.find selector with
    | some slot => return .found current slot
    | none =>
      match route.parent node with
      | .nil => return .absent
      | .object parent =>
        if route.passes (← heap.get parent) then heap.searchAlong route selector fuel parent
        else return .delegate (.object parent)
      | other => return .delegate other

theorem searchDynamicFrom_eq (heap : Heap κ) (selector : Symbol) (fuel : Nat) (start : ObjectId) :
    heap.searchDynamicFrom selector fuel start = heap.searchAlong .dynamic selector fuel start := by
  induction fuel generalizing start with
  | zero => rfl
  | succ fuel ih =>
    unfold searchDynamicFrom searchAlong
    simp only [ih]
    rfl

theorem searchLexicalFrom_eq (heap : Heap κ) (selector : Symbol) (fuel : Nat) (start : ObjectId) :
    heap.searchLexicalFrom selector fuel start = heap.searchAlong .lexical selector fuel start := by
  induction fuel generalizing start with
  | zero => rfl
  | succ fuel ih =>
    unfold searchLexicalFrom searchAlong
    refine congrArg _ (funext fun node => ?_)
    cases node.slots.find selector with
    | some slot => rfl
    | none =>
      simp only [Route.lexical]
      cases node.lexicalParent? with
      | none => rfl
      | some parent =>
        show (heap.get parent >>= _) = (heap.get parent >>= _)
        refine congrArg _ (funext fun above => ?_)
        show (if above.isMirage then _ else _) =
          if !above.isMirage then heap.searchAlong .lexical selector fuel parent else _
        rw [ih]
        cases above.isMirage <;> rfl

/-- What a search finds is a slot of the node it started at, or of one that it went through. -/
theorem exists_node_of_searchAlong {selector : Symbol} {fuel : Nat} {start holder : ObjectId}
    {slot : Slot κ} (h : heap.searchAlong route selector fuel start = .ok (.found holder slot)) :
    ∃ node, heap.node? holder = some node ∧ node.slots.find selector = some slot ∧
      (holder = start ∨ route.passes node = true) := by
  induction fuel generalizing start with
  | zero => cases h
  | succ fuel ih =>
    rw [searchAlong] at h
    cases hnode : heap.node? start with
    | none =>
      rw [get_eq_error_iff.mpr ⟨hnode, rfl⟩] at h
      cases h
    | some node =>
      simp only [get_eq_ok_iff.mpr hnode, bind, Except.bind] at h
      cases hslot : node.slots.find selector with
      | some found =>
        rw [hslot] at h
        cases h
        exact ⟨node, hnode, hslot, .inl rfl⟩
      | none =>
        simp only [hslot] at h
        split at h
        · cases h
        · rename_i next _
          cases hnext : heap.node? next with
          | none =>
            rw [get_eq_error_iff.mpr ⟨hnext, rfl⟩] at h
            cases h
          | some nextNode =>
            simp only [get_eq_ok_iff.mpr hnext] at h
            split at h
            · rename_i hpasses
              obtain ⟨held, hheld, hfind, rfl | hthrough⟩ := ih h
              · cases hnext.symm.trans hheld
                exact ⟨nextNode, hnext, hfind, .inr hpasses⟩
              · exact ⟨held, hheld, hfind, .inr hthrough⟩
            · cases h
        · cases h

/-- A search for the selector goes on from the one node to the other. -/
def Passes (heap : Heap κ) (route : Route κ) (selector : Symbol) (id next : ObjectId) : Prop :=
  heap.slot? selector id = none ∧ heap.Ascends route id next ∧
    ∃ node, heap.node? next = some node ∧ route.passes node = true

/-- There is something ahead, and a search does not go through it. -/
def Leaves (heap : Heap κ) (route : Route κ) (next : Value κ) : Prop :=
  next.isNil = false ∧
    ∀ id, next = .object id → ∃ node, heap.node? id = some node ∧ route.passes node = false

/-- How a search ends, by the nearest node that is decisive. -/
inductive Decides (heap : Heap κ) (route : Route κ) (selector : Symbol) (start : ObjectId) :
    Resolution κ → Prop
  | found {holder : ObjectId} {slot : Slot κ} :
      Relation.ReflTransGen (heap.Passes route selector) start holder →
        heap.slot? selector holder = some slot → Decides heap route selector start (.found holder slot)
  | delegate {last : ObjectId} {node : Node κ} :
      Relation.ReflTransGen (heap.Passes route selector) start last →
        heap.node? last = some node → node.slots.find selector = none →
          heap.Leaves route (route.parent node) →
            Decides heap route selector start (.delegate (route.parent node))
  | absent {last : ObjectId} {node : Node κ} :
      Relation.ReflTransGen (heap.Passes route selector) start last →
        heap.node? last = some node → node.slots.find selector = none →
          route.parent node = .nil → Decides heap route selector start .absent

/-! ### One step of a search -/

variable {selector : Symbol} {start : ObjectId}

theorem searchAlong_of_slot {slot : Slot κ} (h : heap.slot? selector start = some slot) (fuel : Nat) :
    heap.searchAlong route selector (fuel + 1) start = .ok (.found start slot) := by
  obtain ⟨node, hnode, hslot⟩ := Option.bind_eq_some_iff.mp h
  rw [searchAlong, get_eq_ok_iff.mpr hnode]
  simp only [bind, Except.bind, hslot]
  rfl

/-- What a search does at a node without the slot. -/
inductive Step (heap : Heap κ) (route : Route κ) (selector : Symbol) (fuel : Nat) (start : ObjectId) :
    Except Halt (Resolution κ) → Prop
  | further {next : ObjectId} : heap.Passes route selector start next →
      Step heap route selector fuel start (heap.searchAlong route selector fuel next)
  | ended {resolution : Resolution κ} : heap.Decides route selector start resolution →
      Step heap route selector fuel start (.ok resolution)

/-- Where edges are live, a search goes on or is decided. -/
theorem EdgesLive.step (h : heap.EdgesLive) (hlive : heap.contains start = true) (route : Route κ)
    (selector : Symbol) (fuel : Nat) :
    heap.Step route selector fuel start (heap.searchAlong route selector (fuel + 1) start) := by
  obtain ⟨node, hnode⟩ := contains_iff.mp hlive
  cases hslot : node.slots.find selector with
  | some slot =>
    have hfound := (slot?_of_node? hnode selector).trans hslot
    rw [searchAlong_of_slot hfound]
    exact .ended (.found .refl hfound)
  | none =>
    have hnone := (slot?_of_node? hnode selector).trans hslot
    have hdelegate (hleaves : heap.Leaves route (route.parent node)) :
        heap.Decides route selector start (.delegate (route.parent node)) :=
      .delegate .refl hnode hslot hleaves
    rw [searchAlong, get_eq_ok_iff.mpr hnode]
    simp only [bind, Except.bind, hslot]
    cases hparent : route.parent node with
    | nil => exact .ended (.absent .refl hnode hslot hparent)
    | object next =>
      obtain ⟨nextNode, hnextNode⟩ := contains_iff.mp (h.ascends ⟨node, hnode, hparent⟩)
      simp only [get_eq_ok_iff.mpr hnextNode]
      cases hpasses : route.passes nextNode with
      | true => exact .further ⟨hnone, ⟨node, hnode, hparent⟩, nextNode, hnextNode, hpasses⟩
      | false =>
        rw [hparent] at hdelegate
        refine .ended (hdelegate ⟨rfl, fun id hid => ?_⟩)
        cases hid
        exact ⟨nextNode, hnextNode, hpasses⟩
    | _ =>
      rw [hparent] at hdelegate
      exact .ended (hdelegate ⟨rfl, fun _ hid => by cases hid⟩)

/-- A search that goes on is decided where it is decided from the next node on. -/
theorem Passes.decides {next : ObjectId} {resolution : Resolution κ}
    (h : heap.Passes route selector start next) (hrest : heap.Decides route selector next resolution) :
    heap.Decides route selector start resolution := by
  cases hrest with
  | found hpath hslot => exact .found (.head h hpath) hslot
  | delegate hpath hnode hslot hleaves => exact .delegate (.head h hpath) hnode hslot hleaves
  | absent hpath hnode hslot hend => exact .absent (.head h hpath) hnode hslot hend

/-- Where edges are live a search is decided as it answers, or has come past `fuel` nodes. -/
theorem EdgesLive.searchAlong_cases (h : heap.EdgesLive) (route : Route κ) (selector : Symbol)
    (fuel : Nat) (hlive : heap.contains start = true) :
    (∃ resolution, heap.searchAlong route selector fuel start = .ok resolution ∧
      heap.Decides route selector start resolution) ∨
    ∃ passed : List ObjectId, passed.length = fuel ∧ passed.IsChain (heap.Ascends route) ∧
      (∀ id ∈ passed, heap.contains id = true) ∧ ∀ first ∈ passed.head?, first = start := by
  induction fuel generalizing start with
  | zero =>
    refine .inr ⟨[], rfl, .nil, fun id hmem => ?_, fun first hmem => ?_⟩
    · cases hmem
    · cases hmem
  | succ fuel ih =>
    have hstep := h.step hlive route selector fuel
    generalize heap.searchAlong route selector (fuel + 1) start = result at hstep
    cases hstep with
    | ended hdecides => exact .inl ⟨_, rfl, hdecides⟩
    | @further next hpasses =>
      rcases ih (h.ascends hpasses.2.1) with ⟨resolution, hok, hdecides⟩ |
        ⟨passed, rfl, hchain, hpassed, hfirst⟩
      · exact .inl ⟨resolution, hok, hpasses.decides hdecides⟩
      · refine .inr ⟨start :: passed, rfl, List.isChain_cons.mpr ⟨fun first hmem => ?_, hchain⟩, ?_, ?_⟩
        · obtain rfl := hfirst first hmem
          exact hpasses.2.1
        · intro id hmem
          rcases List.mem_cons.mp hmem with rfl | hmem
          · exact hlive
          · exact hpassed id hmem
        · intro first hmem
          exact (Option.some.inj hmem).symm

/-! ### A search without circles -/

/-- Without circles nobody goes past more nodes than there are. -/
theorem AcyclicAlong.length_lt_walkLimit (h : heap.AcyclicAlong route) {passed : List ObjectId}
    (hchain : passed.IsChain (heap.Ascends route)) (hpassed : ∀ id ∈ passed, heap.contains id = true) :
    passed.length < heap.walkLimit := by
  have hancestors : passed.Pairwise (Relation.TransGen (heap.Ascends route)) :=
    List.isChain_iff_pairwise.mp (hchain.imp fun _ _ => .single)
  have hnodup : passed.Nodup := by
    refine hancestors.imp fun {first second} hancestor hsame => ?_
    exact h first (hsame ▸ hancestor)
  exact Nat.lt_succ_of_le (length_le_of_nodup hnodup hpassed)

/-- Without circles a search that may pass as many nodes as there are is decided. -/
theorem AcyclicAlong.exists_searchAlong (h : heap.AcyclicAlong route) (hedges : heap.EdgesLive)
    (selector : Symbol) (hlive : heap.contains start = true) :
    ∃ resolution, heap.searchAlong route selector heap.walkLimit start = .ok resolution ∧
      heap.Decides route selector start resolution := by
  rcases hedges.searchAlong_cases route selector heap.walkLimit hlive with hdecided |
    ⟨passed, hlength, hchain, hpassed, -⟩
  · exact hdecided
  · exact absurd hlength (h.length_lt_walkLimit hchain hpassed).ne

/-- There is one next node at most. -/
theorem passes_rightUnique (heap : Heap κ) (route : Route κ) (selector : Symbol) :
    Relator.RightUnique (heap.Passes route selector) := by
  rintro id next other ⟨-, ⟨node, hnode, hparent⟩, -⟩ ⟨-, ⟨node', hnode', hparent'⟩, -⟩
  obtain rfl := Option.some.inj (hnode.symm.trans hnode')
  exact Value.object.inj (hparent.symm.trans hparent')

/-- A search that goes on from a node takes a step more. -/
theorem Passes.searchAlong {id next : ObjectId} (h : heap.Passes route selector id next) (fuel : Nat) :
    heap.searchAlong route selector (fuel + 1) id = heap.searchAlong route selector fuel next := by
  obtain ⟨hnone, ⟨node, hnode, hparent⟩, nextNode, hnext, hpasses⟩ := h
  rw [slot?_of_node? hnode] at hnone
  rw [Heap.searchAlong, get_eq_ok_iff.mpr hnode]
  simp only [bind, Except.bind, hnone, hparent, get_eq_ok_iff.mpr hnext, hpasses, if_true]

/-- A decided search is decided at its last node in one step. -/
private theorem Decides.exists_last {resolution : Resolution κ}
    (h : heap.Decides route selector start resolution) :
    ∃ last, Relation.ReflTransGen (heap.Passes route selector) start last ∧
      heap.searchAlong route selector 1 last = .ok resolution := by
  cases h with
  | @found holder slot hpath hslot => exact ⟨holder, hpath, searchAlong_of_slot hslot 0⟩
  | @absent last node hpath hnode hslot hend =>
    refine ⟨last, hpath, ?_⟩
    rw [Heap.searchAlong, get_eq_ok_iff.mpr hnode]
    simp only [bind, Except.bind, hslot, hend]
    rfl
  | @delegate last node hpath hnode hslot hleaves =>
    refine ⟨last, hpath, ?_⟩
    rw [Heap.searchAlong, get_eq_ok_iff.mpr hnode]
    simp only [bind, Except.bind, hslot]
    obtain ⟨hthere, hblocked⟩ := hleaves
    cases hparent : route.parent node with
    | nil =>
      rw [hparent] at hthere
      cases hthere
    | object next =>
      obtain ⟨nextNode, hnext, hpasses⟩ := hblocked next hparent
      simp only [get_eq_ok_iff.mpr hnext, hpasses]
      rfl
    | _ => rfl

/-- A search is decided in one way. -/
theorem Decides.unique {resolution resolution' : Resolution κ}
    (h : heap.Decides route selector start resolution)
    (h' : heap.Decides route selector start resolution') : resolution = resolution' := by
  obtain ⟨last, hpath, hlast⟩ := h.exists_last
  obtain ⟨last', hpath', hlast'⟩ := h'.exists_last
  have hstuck {first second : ObjectId} {ending : Resolution κ}
      (hfirst : heap.searchAlong route selector 1 first = .ok ending)
      (hbetween : Relation.ReflTransGen (heap.Passes route selector) first second) :
      first = second := by
    rcases hbetween.cases_head with hsame | ⟨next, hstep, -⟩
    · exact hsame
    · cases (hstep.searchAlong 0).symm.trans hfirst
  have hsame : last = last' := by
    rcases hpath.total_of_right_unique (heap.passes_rightUnique route selector) hpath' with
      hbetween | hbetween
    · exact hstuck hlast hbetween
    · exact (hstuck hlast' hbetween).symm
  rw [hsame, hlast'] at hlast
  exact (Except.ok.inj hlast).symm

/-- Without circles a search answers as it is decided. -/
theorem AcyclicAlong.searchAlong_eq_ok_iff (h : heap.AcyclicAlong route) (hedges : heap.EdgesLive)
    (selector : Symbol) (hlive : heap.contains start = true) {resolution : Resolution κ} :
    heap.searchAlong route selector heap.walkLimit start = .ok resolution ↔
      heap.Decides route selector start resolution := by
  obtain ⟨answer, hanswer, hdecides⟩ := h.exists_searchAlong hedges selector hlive
  constructor
  · intro hresolution
    cases hanswer.symm.trans hresolution
    exact hdecides
  · intro hdecides'
    rw [hanswer, hdecides.unique hdecides']

end Heap

end Prototypes
