import Mathlib.Data.Fintype.Card
import Prototypes.Proofs.Heap.Ancestry

/-!
# Paths of a selector

A path of a selector leads along dynamic parents to the nearest node that has a slot of that
name, or as far as nodes answer.  Objects answer, and mirages that have a mirror.  A path can
end before a value that is no node, and before a node that does not answer: a call frame, or
a mirage that has yet to be bound.

A `Chain` is the way to nil and the same for all selectors; a path is there for any value that
ends the chain, and stops at the slot.

## Main results

* `AcyclicAlong.exists_path` — where parents are there and lead round in no circle, every node
  has a path.
* `Path.length_lt_walkLimit` — the limit on the steps of a search is not felt on it.
* `Path.endsAt` — what there is at its end.
-/

namespace Prototypes

variable {κ : Type}

/-- Whether a node answers what it is asked: an object does, and a mirage that has a mirror. -/
def Node.answers : Node κ → Bool
  | .object _ => true
  | .mirage body => body.mirror.isSome
  | .frame _ => false

namespace Heap

variable {heap : Heap κ} {route : Route κ} {selector : Symbol} {id : ObjectId} {ids : List ObjectId}

/-! ## Ways up that end -/

/-- Wherever a node goes up to, there is a node. -/
def LiveAlong (route : Route κ) (heap : Heap κ) : Prop :=
  ∀ id next, heap.Ascends route id next → heap.contains next = true

/-- Without circles there is no way up for ever, for there are finitely many nodes. -/
theorem AcyclicAlong.wellFounded (h : heap.AcyclicAlong route) :
    WellFounded fun next id : { id // heap.contains id = true } =>
      Relation.TransGen (heap.Ascends route) id.1 next.1 := by
  let place (id : { id // heap.contains id = true }) : Fin heap.entries.size :=
    ⟨id.1.index, index_lt_of_contains id.2⟩
  have hplace : Function.Injective place := by
    intro id other hsame
    have hindex : id.1.index = other.1.index := congrArg Fin.val hsame
    exact Subtype.ext (congrArg ObjectId.mk hindex)
  have := Finite.of_injective place hplace
  have : IsTrans { id // heap.contains id = true } fun next id =>
      Relation.TransGen (heap.Ascends route) id.1 next.1 :=
    ⟨fun _ _ _ habove hbelow => hbelow.trans habove⟩
  have : Std.Irrefl fun next id : { id // heap.contains id = true } =>
      Relation.TransGen (heap.Ascends route) id.1 next.1 := ⟨fun id => h id.1⟩
  exact Finite.wellFounded_of_trans_of_irrefl _

/-- What holds of a node if it holds of the next one holds of all nodes. -/
theorem AcyclicAlong.induction (h : heap.AcyclicAlong route) (hlive : heap.LiveAlong route)
    {motive : ObjectId → Prop}
    (step : ∀ id, heap.contains id = true → (∀ next, heap.Ascends route id next → motive next) →
      motive id) (hid : heap.contains id = true) : motive id := by
  refine h.wellFounded.induction (C := fun id => motive id.1) ⟨id, hid⟩ fun id ih => ?_
  exact step id.1 id.2 fun next hnext => ih ⟨next, hlive id.1 next hnext⟩ (.single hnext)

/-! ## Paths -/

/-- Where a path ends. -/
inductive Ending (κ : Type) where
  /-- at a slot of a node -/
  | found (holder : ObjectId) (slot : Slot κ)
  /-- before a value that is no node -/
  | value (value : Value κ)
  /-- before a node that does not answer -/
  | barred (id : ObjectId)

/-- Paths can end there: the slot is one of the node, the value is no node, the node does not answer. -/
def EndsAt (heap : Heap κ) (selector : Symbol) : Ending κ → Prop
  | .found holder slot => heap.slot? selector holder = some slot
  | .value last => last.asObject? = none
  | .barred id => ∃ node, heap.node? id = some node ∧ node.answers = false

/-- The nodes of a path from a value, and where it ends. -/
inductive Path (heap : Heap κ) (selector : Symbol) : Value κ → List ObjectId → Ending κ → Prop
  | value {value : Value κ} :
      value.asObject? = none → heap.Path selector value [] (.value value)
  | barred {id : ObjectId} {node : Node κ} :
      heap.node? id = some node → node.answers = false →
        heap.Path selector (.object id) [] (.barred id)
  | found {id : ObjectId} {node : Node κ} {slot : Slot κ} :
      heap.node? id = some node → node.answers = true → node.slots.find selector = some slot →
        heap.Path selector (.object id) [id] (.found id slot)
  | pass {id : ObjectId} {node : Node κ} {ids : List ObjectId} {ending : Ending κ} :
      heap.node? id = some node → node.answers = true → node.slots.find selector = none →
        heap.Path selector node.dynamicParent ids ending →
          heap.Path selector (.object id) (id :: ids) ending

/-- Every node has a path. -/
theorem AcyclicAlong.exists_path (h : heap.AcyclicAlong .dynamic) (hlive : heap.LiveAlong .dynamic)
    (selector : Symbol) (hid : heap.contains id = true) :
    ∃ ids ending, heap.Path selector (.object id) ids ending := by
  refine h.induction hlive (motive := fun id => ∃ ids ending, heap.Path selector (.object id) ids ending)
    (fun id hid ih => ?_) hid
  obtain ⟨node, hnode⟩ := contains_iff.mp hid
  cases hanswers : node.answers with
  | false => exact ⟨[], .barred id, .barred hnode hanswers⟩
  | true =>
    cases hslot : node.slots.find selector with
    | some slot => exact ⟨[id], .found id slot, .found hnode hanswers hslot⟩
    | none =>
      have hparent : ∃ ids ending, heap.Path selector node.dynamicParent ids ending := by
        generalize hparent : node.dynamicParent = parent
        cases parent with
        | object next => exact ih next ⟨node, hnode, hparent⟩
        | _ => exact ⟨[], _, .value rfl⟩
      obtain ⟨ids, ending, hpath⟩ := hparent
      exact ⟨id :: ids, ending, .pass hnode hanswers hslot hpath⟩

namespace Path

variable {value : Value κ} {ending : Ending κ}

theorem head?_eq (h : heap.Path selector value ids ending) {first : ObjectId}
    (hfirst : first ∈ ids.head?) : value = .object first := by
  cases h with
  | value _ => cases hfirst
  | barred _ _ => cases hfirst
  | found _ _ _ => exact congrArg Value.object (Option.some.inj hfirst)
  | pass _ _ _ _ => exact congrArg Value.object (Option.some.inj hfirst)

/-- A path from a node leads through it, or is barred there. -/
theorem mem_or_barred (h : heap.Path selector (.object id) ids ending) :
    id ∈ ids ∨ ids = [] ∧ ending = .barred id := by
  cases h with
  | value hvalue => cases hvalue
  | barred _ _ => exact .inr ⟨rfl, rfl⟩
  | found _ _ _ => exact .inl (List.mem_cons_self ..)
  | pass _ _ _ _ => exact .inl (List.mem_cons_self ..)

/-- From each node of a path it goes up to the next. -/
theorem isChain (h : heap.Path selector value ids ending) : ids.IsChain (heap.Ascends .dynamic) := by
  induction h with
  | value _ => exact .nil
  | barred _ _ => exact .nil
  | found _ _ _ => exact .singleton _
  | pass hnode _ _ hrest ih =>
    exact List.isChain_cons.mpr ⟨fun next hnext => ⟨_, hnode, hrest.head?_eq hnext⟩, ih⟩

/-- All nodes of a path answer. -/
theorem exists_answering (h : heap.Path selector value ids ending) (hmem : id ∈ ids) :
    ∃ node, heap.node? id = some node ∧ node.answers = true := by
  induction h with
  | value _ => cases hmem
  | barred _ _ => cases hmem
  | found hnode hanswers _ =>
    obtain rfl := List.mem_singleton.mp hmem
    exact ⟨_, hnode, hanswers⟩
  | pass hnode hanswers _ _ ih =>
    rcases List.mem_cons.mp hmem with rfl | hmem
    · exact ⟨_, hnode, hanswers⟩
    · exact ih hmem

/-- Without circles a path has no more nodes than there are. -/
theorem length_lt_walkLimit (h : heap.Path selector value ids ending)
    (hacyclic : heap.AcyclicAlong .dynamic) : ids.length < heap.walkLimit :=
  hacyclic.length_lt_walkLimit h.isChain fun _ hmem =>
    let ⟨_, hnode, _⟩ := h.exists_answering hmem
    contains_of_node? hnode

/-- A path ends where it says. -/
theorem endsAt (h : heap.Path selector value ids ending) : heap.EndsAt selector ending := by
  induction h with
  | value hvalue => exact hvalue
  | barred hnode hanswers => exact ⟨_, hnode, hanswers⟩
  | found hnode _ hslot => exact (slot?_of_node? hnode selector).trans hslot
  | pass _ _ _ _ ih => exact ih

end Path

/-- How a search ends that comes to the end of a path. -/
def Ending.resolution : Ending κ → Resolution κ
  | .found holder slot => .found holder slot
  | .value .nil => .absent
  | .value last => .delegate last
  | .barred id => .delegate (.object id)

end Heap

end Prototypes
