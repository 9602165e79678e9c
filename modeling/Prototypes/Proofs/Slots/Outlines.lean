import Prototypes.Proofs.Approximation.Machine
import Prototypes.Proofs.Heap.Ancestry

/-!
# What searches and selections see

A search looks at the names of slots and at parents, and at what kind of node a parent is.  The
values of fields have no part in it, and none either in what a slot is selected as.  So what is
selected in a world without mirages is the same in every world that differs from it in the
values of fields alone.

## Main results

* `Node.outline` — all of a node but what its fields hold.
* `Heap.SameOutline.searchAlong_eq` — searches end alike.
* `Runtime.select_looksAlike` — slots are selected alike.
-/

namespace Prototypes

variable {κ σ α β : Type}

/-! ## Outlines -/

namespace Node

variable {node other : Node κ}

/-- All of a node but what its fields hold: what it is besides its slots, and how these are named. -/
def outline (node : Node κ) : Node κ × (Symbol → Option (Slot κ)) :=
  (node.withSlots (.empty ⟨0⟩), node.slots.find)

theorem outline_withSlots {slots : Storage κ} (h : ∀ selector, slots.find selector = node.slots.find selector) :
    (node.withSlots slots).outline = node.outline := by
  have hfind : slots.find = node.slots.find := funext h
  unfold outline
  rw [slots_withSlots, hfind]
  cases node <;> rfl

theorem find_of_outline (h : node.outline = other.outline) : node.slots.find = other.slots.find :=
  congrArg Prod.snd h

theorem dynamicParent_of_outline (h : node.outline = other.outline) :
    node.dynamicParent = other.dynamicParent := by
  have hparent := congrArg (fun seen => seen.1.dynamicParent) h
  simpa only [outline, dynamicParent_withSlots] using hparent

theorem lexicalParent?_of_outline (h : node.outline = other.outline) :
    node.lexicalParent? = other.lexicalParent? := by
  have hparent := congrArg (fun seen => seen.1.lexicalParent?) h
  simpa only [outline, lexicalParent?_withSlots] using hparent

theorem isPlain_of_outline (h : node.outline = other.outline) : node.isPlain = other.isPlain := by
  cases node <;> cases other <;> first | rfl | cases congrArg Prod.fst h

theorem isMirage_of_outline (h : node.outline = other.outline) : node.isMirage = other.isMirage := by
  cases node <;> cases other <;> first | rfl | cases congrArg Prod.fst h

theorem isFrame_of_outline (h : node.outline = other.outline) : node.isFrame = other.isFrame := by
  cases node <;> cases other <;> first | rfl | cases congrArg Prod.fst h

end Node

namespace Heap

/-- The heaps have the same nodes but for what fields hold. -/
structure SameOutline (heap other : Heap κ) : Prop where
  size : heap.entries.size = other.entries.size
  nodes : ∀ id, (heap.node? id).map Node.outline = (other.node? id).map Node.outline

namespace SameOutline

variable {heap other : Heap κ}

theorem symm (h : heap.SameOutline other) : other.SameOutline heap :=
  ⟨h.size.symm, fun id => (h.nodes id).symm⟩

/-- A handle leads nowhere in both heaps, or to nodes that look the same. -/
theorem get_cases (h : heap.SameOutline other) (id : ObjectId) :
    (heap.get id = .error (.dangling id) ∧ other.get id = .error (.dangling id)) ∨
      ∃ node node', heap.get id = .ok node ∧ other.get id = .ok node' ∧ node.outline = node'.outline := by
  have hnodes := h.nodes id
  unfold get
  generalize heap.node? id = found at hnodes ⊢
  generalize other.node? id = found' at hnodes ⊢
  cases found with
  | none =>
    cases found' with
    | none => exact .inl ⟨rfl, rfl⟩
    | some node' => cases hnodes
  | some node =>
    cases found' with
    | none => cases hnodes
    | some node' => exact .inr ⟨node, node', rfl, rfl, Option.some.inj hnodes⟩

/-- Searches end alike along a route that looks at outlines. -/
theorem searchAlong_eq (h : heap.SameOutline other) {route : Route κ}
    (hroute : ∀ {node node' : Node κ}, node.outline = node'.outline →
      route.parent node = route.parent node' ∧ route.passes node = route.passes node')
    (selector : Symbol) (fuel : Nat) (start : ObjectId) :
    heap.searchAlong route selector fuel start = other.searchAlong route selector fuel start := by
  induction fuel generalizing start with
  | zero => rfl
  | succ fuel ih =>
    unfold searchAlong
    rcases h.get_cases start with ⟨hnone, hnone'⟩ | ⟨node, node', hnode, hnode', houtline⟩
    · rw [hnone, hnone']
      rfl
    · rw [hnode, hnode']
      simp only [bind, Except.bind, Node.find_of_outline houtline, (hroute houtline).1]
      cases node'.slots.find selector with
      | some slot => rfl
      | none =>
        cases route.parent node' with
        | object next =>
          rcases h.get_cases next with ⟨hnone, hnone'⟩ | ⟨above, above', habove, habove', houtline⟩
          · simp only [hnone, hnone']
          · simp only [habove, habove', (hroute houtline).2, ih]
        | _ => rfl

theorem searchDynamic_eq (h : heap.SameOutline other) (start : ObjectId) (selector : Symbol) :
    heap.searchDynamic start selector = other.searchDynamic start selector := by
  simp only [searchDynamic, searchDynamicFrom_eq, walkLimit, h.size]
  exact h.searchAlong_eq
    (fun houtline => ⟨Node.dynamicParent_of_outline houtline, Node.isPlain_of_outline houtline⟩) _ _ _

theorem searchLexical_eq (h : heap.SameOutline other) (start : ObjectId) (selector : Symbol) :
    heap.searchLexical start selector = other.searchLexical start selector := by
  simp only [searchLexical, searchLexicalFrom_eq, walkLimit, h.size]
  refine h.searchAlong_eq (fun houtline => ⟨?_, ?_⟩) _ _ _
  · simp only [Route.lexical, Node.lexicalParent?_of_outline houtline]
  · simp only [Route.lexical, Node.isMirage_of_outline houtline]

end SameOutline

end Heap

/-! ## Worlds that look alike -/

/-- There are no mirages, and but for what fields hold a selection finds the same in both worlds. -/
structure World.LooksAlike (v w : World κ σ) : Prop where
  heap : v.heap.SameOutline w.heap
  unmirrored : ∀ id node, v.heap.node? id = some node → node.isMirage = false
  supply : v.supply = w.supply
  lexicalRoot : v.lexicalRoot = w.lexicalRoot

namespace World.LooksAlike

variable {v w : World κ σ}

theorem symm (h : v.LooksAlike w) : w.LooksAlike v where
  heap := h.heap.symm
  unmirrored id node hnode := by
    rcases h.heap.get_cases id with ⟨-, hnone⟩ | ⟨node', other, hnode', hother, houtline⟩
    · cases hnone.symm.trans (Heap.get_eq_ok_iff.mpr hnode)
    · obtain rfl := Except.ok.inj (hother.symm.trans (Heap.get_eq_ok_iff.mpr hnode))
      rw [← Node.isMirage_of_outline houtline]
      exact h.unmirrored id node' (Heap.get_eq_ok_iff.mp hnode')
  supply := h.supply.symm
  lexicalRoot := h.lexicalRoot.symm

end World.LooksAlike

namespace Run

/-- What a run answered, or why it halted. -/
def answerOf : EStateM.Result Halt (World κ σ) α → Except Halt α
  | .ok answer _ => .ok answer
  | .error reason _ => .error reason

/-- In worlds that look alike a run that is not disturbed by it answers the same. -/
theorem Below.answerOf_eq {x : Run κ σ α} (h : Steady World.LooksAlike x) {v w : World κ σ}
    (hvw : v.LooksAlike w) : answerOf (x v) = answerOf (x w) := by
  have hfirst := h v w hvw
  have hsecond := h w v hvw.symm
  generalize x v = first at hfirst hsecond
  generalize x w = second at hfirst hsecond
  cases hfirst with
  | ok answer _ => rfl
  | error reason _ => rfl
  | exhausted =>
    cases hsecond with
    | exhausted => rfl
    | error _ _ => rfl

end Run

namespace World.LooksAlike

open Run (Steady)

theorem fresh : Steady LooksAlike (Run.fresh : Run κ σ Identity) := by
  intro v w hvw
  unfold Run.fresh
  rw [hvw.supply]
  exact .ok _ ⟨hvw.heap, hvw.unmirrored, rfl, hvw.lexicalRoot⟩

theorem newClosure (closure : Closure κ) :
    Steady LooksAlike (Run.newClosure closure : Run κ σ (Value κ)) :=
  fresh.bind fun _ => .pure _

theorem searchDynamic (start : ObjectId) (selector : Symbol) :
    Steady LooksAlike (Run.searchDynamic start selector : Run κ σ (Resolution κ)) := by
  intro v w hvw
  unfold Run.searchDynamic Run.ofHeap Run.observe
  dsimp only
  rw [hvw.heap.searchDynamic_eq]
  cases w.heap.searchDynamic start selector with
  | ok resolution => exact .ok _ hvw
  | error reason => exact .error _ hvw

/-- What is done with a node does the same if it depends on how the node looks. -/
theorem node_bind {id : ObjectId} {f : Node κ → Run κ σ α}
    (h : ∀ node other : Node κ, node.outline = other.outline → node.isMirage = false →
      Run.Below LooksAlike (f node) (f other)) :
    Steady LooksAlike (Run.node id >>= f) := by
  intro v w hvw
  rw [Run.node_bind, Run.node_bind]
  rcases hvw.heap.get_cases id with ⟨hnone, hnone'⟩ | ⟨node, other, hnode, hother, houtline⟩
  · rw [hnone, hnone']
    exact .error _ hvw
  · rw [hnode, hother]
    exact h node other houtline (hvw.unmirrored id node (Heap.get_eq_ok_iff.mp hnode)) v w hvw

/-! ## Selecting -/

theorem accessor (holder : ObjectId) (receiver : Value κ) (name : Symbol) :
    Steady LooksAlike (Runtime.accessor holder receiver name : Run κ σ (Value κ)) :=
  fresh.bind fun _ => newClosure _

theorem mutator (holder : ObjectId) (receiver : Value κ) (selector : Symbol) :
    Steady LooksAlike (Runtime.mutator holder receiver selector : Run κ σ (Value κ)) :=
  (Runtime.Steady.assignmentTarget selector).bind fun _ => fresh.bind fun _ => newClosure _

theorem methodClosure (holder : ObjectId) (method : Method κ) (receiver : Value κ) :
    Steady LooksAlike (Runtime.methodClosure holder method receiver : Run κ σ (Closure κ)) := by
  refine node_bind fun node other houtline _ => ?_
  rw [Node.dynamicParent_of_outline houtline]
  exact .pure _

theorem selectSlot (holder : ObjectId) (slot : Slot κ) (receiver : Value κ) (selector : Symbol) :
    Steady LooksAlike (Runtime.selectSlot holder slot receiver selector : Run κ σ (Value κ)) := by
  cases slot with
  | field | custom => exact accessor holder receiver selector
  | mutator index writable =>
    exact (Runtime.Steady.checkWritable holder selector writable).bind fun _ =>
      mutator holder receiver selector
  | customMutator => exact mutator holder receiver selector
  | method method =>
    exact (methodClosure holder method receiver).bind fun _ => newClosure _

/-- There is no mirage to go on at. -/
theorem delegatedDefault? (rt : Runtime κ σ) (parent : Value κ) (op : MetaOp) :
    Steady LooksAlike (rt.delegatedDefault? parent op) := by
  cases parent with
  | object id =>
    refine node_bind fun node other houtline hmirage => ?_
    rw [← Node.isMirage_of_outline houtline, hmirage]
    exact .pure none
  | _ => exact .pure none

theorem resolveFrom (rt : Runtime κ σ) (op : MetaOp) (selector : Symbol) (fuel : Nat) (target : ObjectId) :
    Steady LooksAlike (rt.resolveFrom op selector fuel target) := by
  induction fuel generalizing target with
  | zero => exact .exhausted _
  | succ fuel ih =>
    refine (searchDynamic target selector).bind fun resolution => ?_
    cases resolution with
    | delegate parent =>
      refine (delegatedDefault? rt parent op).bind fun continued => ?_
      cases continued with
      | some base => exact ih base
      | none => exact .pure _
    | found holder slot => exact .pure _
    | absent => exact .pure _

end World.LooksAlike

namespace Runtime

open Run (Steady)

/-- A message is answered alike if objects perform it alike; frames do not answer it. -/
theorem send_looksAlike (host : Host κ σ) (steps : Nat) {id : ObjectId} {message : Message κ}
    (hframes : message.op.appliesToFrames = false)
    (h : ∀ rest, rest < steps → Steady World.LooksAlike ((ofFuel host rest).performDefault id message)) :
    Steady World.LooksAlike ((ofFuel host steps).send (.object id) message) := by
  cases steps with
  | zero => exact .exhausted _
  | succ steps =>
    refine World.LooksAlike.node_bind fun node other houtline hmirage => ?_
    have hplain := Node.isPlain_of_outline houtline
    cases node with
    | object body =>
      cases other with
      | object body' => exact h steps (Nat.lt_succ_self steps)
      | frame | mirage => cases hplain
    | frame frame =>
      have hframe := Node.isFrame_of_outline houtline
      cases other with
      | frame frame' =>
        dsimp only
        rw [hframes]
        exact .raise _
      | object | mirage => cases hframe
    | mirage m => cases hmirage

theorem doesNotUnderstand_looksAlike (host : Host κ σ) (steps : Nat) (id : ObjectId) (selector : Symbol) :
    Steady World.LooksAlike
      ((ofFuel host steps).send (.object id) (.doesNotUnderstand selector) : Run κ σ (Value κ)) := by
  refine send_looksAlike host steps rfl fun rest _ => ?_
  exact World.LooksAlike.fresh.bind fun _ => .get fun v w hvw => World.LooksAlike.newClosure _

theorem selectFallback_looksAlike (host : Host κ σ) (steps : Nat) (id : ObjectId) (selector : Symbol) :
    Steady World.LooksAlike ((ofFuel host steps).selectFallback (.object id) selector) := by
  unfold selectFallback
  cases Primitive.ofSelector? selector with
  | some primitive =>
    refine World.LooksAlike.fresh.bind fun _ => .get fun v w hvw => ?_
    rw [hvw.lexicalRoot]
    exact World.LooksAlike.newClosure _
  | none => exact doesNotUnderstand_looksAlike host steps id selector

/-- Values outside the heap select alike. -/
theorem selectAmong_looksAlike (host : Host κ σ) (steps : Nat) {value : Value κ}
    (hvalue : ∀ id, value ≠ .object id) (id : ObjectId) (selector : Symbol) :
    Steady World.LooksAlike ((ofFuel host steps).send value (.select (.object id) selector)) := by
  cases steps with
  | zero => exact .exhausted _
  | succ steps =>
    have hvalueSelect : Steady World.LooksAlike
        ((ofFuel host steps).performOnValue value (.select (.object id) selector)) := by
      unfold performOnValue
      dsimp only
      split
      · refine World.LooksAlike.fresh.bind fun _ => .get fun v w hvw => ?_
        rw [hvw.lexicalRoot]
        exact World.LooksAlike.newClosure _
      · exact selectFallback_looksAlike host steps id selector
    cases value with
    | object other => exact absurd rfl (hvalue other)
    | _ => exact hvalueSelect

/-- A slot is selected alike in worlds that look alike. -/
theorem select_looksAlike (host : Host κ σ) (steps : Nat) (id start : ObjectId) (selector : Symbol) :
    Steady World.LooksAlike ((ofFuel host steps).send (.object start) (.select (.object id) selector)) := by
  induction steps using Nat.strong_induction_on generalizing start with
  | _ steps ih =>
    refine send_looksAlike host steps rfl fun rest hrest => ?_
    refine (World.LooksAlike.resolveFrom _ _ _ _ _).bind fun ended => ?_
    obtain ⟨last, resolution⟩ := ended
    cases resolution with
    | found holder slot => exact World.LooksAlike.selectSlot holder slot _ selector
    | absent => exact selectFallback_looksAlike host rest id selector
    | delegate parent =>
      cases parent with
      | object next => exact ih rest hrest next
      | _ => exact selectAmong_looksAlike host rest (fun _ h => by cases h) id selector

end Runtime

end Prototypes
