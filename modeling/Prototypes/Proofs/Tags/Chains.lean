import Prototypes.Proofs.Mirrors.Frames
import Prototypes.Proofs.Tags.Subtypes

/-!
# Tags along a chain

An object is tagged as something when it, or an object that dynamic parents lead to, was created
with a subtype.  Along a chain of plain objects nobody is asked for that: the walk is decided
within the heap, and its limit is never felt.

Whether an object may leave its actor is the same question for the actor's own tag.

## Main results

* `Heap.Tags` — the tags along a chain of plain objects.
* `Runtime.send_isTaggedAs`, `Runtime.send_pass` — what is answered at the foot of such a chain.
* `Runtime.send_resolve` — a far reference comes home.
-/

namespace Prototypes

variable {κ σ : Type}

/-- One of these lists of tags has a subtype of the tag. -/
def TypeTag.isCarriedBy (tag : TypeTag) (carried : List (List TypeTag)) : Bool :=
  carried.any fun tags => tags.any fun own => own.isSubtypeOf tag

theorem TypeTag.isCarriedBy_iff {tag : TypeTag} {carried : List (List TypeTag)} :
    tag.isCarriedBy carried = true ↔ ∃ tags ∈ carried, ∃ own ∈ tags, own.isSubtypeOf tag = true := by
  simp only [isCarriedBy, List.any_eq_true]

namespace Heap

/--
The tags of the plain objects that dynamic parents lead through from a value until nil, for each
object those that it was created with.
-/
inductive Tags (heap : Heap κ) : Value κ → List (List TypeTag) → Prop
  | nil : heap.Tags .nil []
  | object {id : ObjectId} {body : PrototypeObject κ} {above : List (List TypeTag)} :
      heap.node? id = some (.object body) → heap.Tags body.dynamicParent above →
        heap.Tags (.object id) (body.typeTags :: above)

namespace Tags

variable {heap : Heap κ} {value : Value κ} {id : ObjectId} {carried : List (List TypeTag)}

/-- Only nil and plain objects have tags along their chain. -/
theorem node (h : heap.Tags (.object id) carried) :
    ∃ body above, heap.node? id = some (.object body) ∧ heap.Tags body.dynamicParent above ∧
      carried = body.typeTags :: above := by
  cases h with
  | object hnode habove => exact ⟨_, _, hnode, habove, rfl⟩

theorem exists_chain (h : heap.Tags value carried) :
    ∃ ids, heap.Chain value ids ∧ ids.length = carried.length := by
  induction h with
  | nil => exact ⟨[], .nil, rfl⟩
  | object hnode _ ih =>
    obtain ⟨ids, hchain, hlength⟩ := ih
    exact ⟨_, .cons hnode rfl hchain, congrArg Nat.succ hlength⟩

theorem length_lt (h : heap.Tags value carried) : carried.length < heap.walkLimit := by
  obtain ⟨ids, hchain, hlength⟩ := h.exists_chain
  exact hlength ▸ Nat.lt_succ_of_le hchain.length_le

/-- The walk goes up the chain until it comes to a subtype. -/
theorem taggedFrom_eq (h : heap.Tags (.object id) carried) (tag : TypeTag) {fuel : Nat}
    (hle : carried.length ≤ fuel) :
    heap.taggedFrom tag fuel id = .ok (.decided (tag.isCarriedBy carried)) := by
  generalize hvalue : (.object id : Value κ) = value at h
  induction h generalizing id fuel with
  | nil => cases hvalue
  | @object first body above hnode habove ih =>
    cases hvalue
    obtain ⟨fuel, rfl⟩ := Nat.exists_eq_add_of_le' (Nat.le_trans (Nat.le_add_left 1 _) hle)
    have hget := get_eq_ok_iff.mpr hnode
    rw [taggedFrom, hget]
    simp only [bind, Except.bind, Node.body?, TypeTag.isCarriedBy, List.any_cons]
    cases hown : body.typeTags.any fun own => own.isSubtypeOf tag with
    | true => rfl
    | false =>
      simp only [Bool.false_or, Bool.false_eq_true, if_false]
      generalize hparent : body.dynamicParent = parent at habove ih
      cases habove with
      | nil =>
        simp only [parentStep, Node.dynamicParent, hparent]
        rfl
      | @object next nextBody more hnext _ =>
        simp only [parentStep, Node.dynamicParent, hparent, get_eq_ok_iff.mpr hnext]
        exact ih (Nat.le_of_succ_le_succ hle) rfl

end Tags

end Heap

namespace Runtime

variable {world : World κ σ} {id : ObjectId} {carried : List (List TypeTag)}

theorem defaultIsTaggedAs_eq (rt : Runtime κ σ) (h : world.heap.Tags (.object id) carried) (tag : TypeTag) :
    rt.defaultIsTaggedAs id tag world = .ok (tag.isCarriedBy carried) world := by
  have hwalk : (Run.ofHeap fun heap => heap.taggedFrom tag heap.walkLimit id) world =
      .ok (.decided (tag.isCarriedBy carried)) world := by
    simp only [Run.ofHeap, Run.observe, h.taggedFrom_eq tag h.length_lt.le]
  rw [defaultIsTaggedAs, Run.bind_of_ok hwalk]
  rfl

/-- An object is tagged as what a node of its chain has a subtype of. -/
theorem send_isTaggedAs (host : Host κ σ) (steps : Nat) (h : world.heap.Tags (.object id) carried)
    (tag : TypeTag) :
    (ofFuel host (steps + 1)).send (.object id) (.isTaggedAs tag) world =
      .ok (.bool (tag.isCarriedBy carried)) world := by
  obtain ⟨body, -, hnode, -, -⟩ := h.node
  rw [send_plain host steps hnode]
  show (Value.bool <$> (ofFuel host steps).defaultIsTaggedAs id tag) world = _
  rw [← bind_pure_comp]
  exact Run.bind_of_ok (defaultIsTaggedAs_eq _ h tag) _

/-- An object leaves its actor itself if it is tagged as an isolate, and else as a reference. -/
theorem send_pass (host : Host κ σ) (steps : Nat) (h : world.heap.Tags (.object id) carried) :
    (ofFuel host (steps + 1)).send (.object id) .pass world =
      .ok (if world.isolateTag.isCarriedBy carried then .object id
        else .farReference ⟨id, world.actor⟩) world := by
  obtain ⟨body, -, hnode, -, -⟩ := h.node
  rw [send_plain host steps hnode]
  show ((ofFuel host steps).defaultIsTaggedAs id world.isolateTag >>= fun tagged =>
    if tagged then pure (.object id) else pure (.farReference ⟨id, world.actor⟩) :
      Run κ σ (Value κ)) world = _
  rw [Run.bind_of_ok (defaultIsTaggedAs_eq _ h world.isolateTag)]
  split <;> rfl

/-- Where it comes from a reference is the object it is to. -/
theorem send_resolve (host : Host κ σ) (steps : Nat) (id : ObjectId) (world : World κ σ) :
    (ofFuel host (steps + 1)).send (.farReference ⟨id, world.actor⟩) .resolve world =
      .ok (.object id) world := by
  show (if world.actor = world.actor then pure (.object id)
    else pure (.farReference ⟨id, world.actor⟩) : Run κ σ (Value κ)) world = _
  rw [if_pos rfl]
  rfl

end Runtime

end Prototypes
