import Prototypes.Proofs.Heap.Limits
import Prototypes.Proofs.Mirrors.Frames

/-!
# Looking names up

An object or a frame looks a name up by itself, along the scopes around it, and only a mirage
among them is asked.  So what is found from a scope is found from every frame nested in it
that has no such name of its own; only the error for a name that is found nowhere tells the
two apart.

## Main results

* `Runtime.send_scope` — objects and frames answer for themselves.
* `Runtime.lookup_nested` — a frame without the name, and the scope it is nested in.
-/

namespace Prototypes

variable {κ σ α : Type}

namespace Heap

variable {heap : Heap κ} {id next : ObjectId} {node nextNode : Node κ} {selector : Symbol}

/-- A mirage around a scope is asked. -/
theorem searchLexical_of_mirage (hnode : heap.node? id = some node)
    (hslot : node.slots.find selector = none) (hparent : node.lexicalParent? = some next)
    (hnext : heap.node? next = some nextNode) (hmirage : nextNode.isMirage = true) :
    heap.searchLexical id selector = .ok (.delegate (.object next)) := by
  rw [searchLexical, walkLimit, searchLexicalFrom, get_eq_ok_iff.mpr hnode]
  simp only [bind, Except.bind, hslot, hparent, get_eq_ok_iff.mpr hnext, hmirage]
  rfl

/-- Past any other scope the search goes on as it would have begun there. -/
theorem searchLexical_of_passed (hnode : heap.node? id = some node)
    (hslot : node.slots.find selector = none) (hparent : node.lexicalParent? = some next)
    (hnext : heap.node? next = some nextNode) (hmirage : nextNode.isMirage = false) :
    heap.searchLexical id selector = heap.searchLexical next selector := by
  have hpasses : heap.Passes .lexical selector id next := by
    refine ⟨(slot?_of_node? hnode selector).trans hslot, ⟨node, hnode, ?_⟩, nextNode, hnext, ?_⟩
    · simp only [Route.lexical, hparent]
      rfl
    · simp only [Route.lexical, hmirage]
      rfl
  simp only [searchLexical, searchLexicalFrom_eq, walkLimit]
  rw [hpasses.searchAlong]
  exact (searchAlong_of_size_le (contains_of_node? hnext) (Nat.le_refl _) (Nat.le_succ _)).symm

end Heap

namespace Runtime

variable (host : Host κ σ) {world : World κ σ} {id scope : ObjectId} {node : Node κ} {selector : Symbol}

/-- Objects and frames do by default what is asked of scopes. -/
theorem send_scope (steps : Nat) (hnode : world.heap.node? id = some node)
    (hkind : node.isMirage = false) {message : Message κ} (hop : message.op.appliesToFrames = true) :
    (ofFuel host (steps + 1)).send (.object id) message world =
      (ofFuel host steps).performDefault id message world := by
  show (Run.node id >>= _) world = _
  rw [Run.node_bind_of_some hnode]
  cases node with
  | object body => rfl
  | mirage m => cases hkind
  | frame frame =>
    dsimp only
    rw [if_pos hop]

theorem lookup_of_scope (steps : Nat) (hnode : world.heap.node? id = some node)
    (hkind : node.isMirage = false) (selector : Symbol) :
    (ofFuel host (steps + 1)).send (.object id) (.lookup selector) world =
      (ofFuel host steps).defaultLookup id selector world :=
  send_scope host steps hnode hkind rfl

/--
The one scope answers for a name what the other does, or neither finds it, and then the errors
are that it cannot be found from the one, and from the other.
-/
def LooksUpAlike (world : World κ σ) (selector : Symbol) (first second : ObjectId) : Prop :=
  Run.SameOutcome (fun steps => (ofFuel host steps).send (.object first) (.lookup selector)) world
      (fun steps => (ofFuel host steps).send (.object second) (.lookup selector)) world ∨
    ∀ id ∈ [first, second], ∀ steps,
      (ofFuel host (steps + 1)).send (.object id) (.lookup selector) world =
        .error (.raised (notFoundFrom selector id)) world

/-- A frame without the name looks it up as the scope does that it is nested in. -/
theorem lookup_nested {frame : CallFrame κ} (hframe : world.heap.node? id = some (.frame frame))
    (hscope : world.heap.contains frame.lexicalParent = true)
    (hslot : frame.slots.find selector = none) :
    LooksUpAlike host world selector id frame.lexicalParent := by
  obtain ⟨node, hnode⟩ := Heap.contains_iff.mp hscope
  have hfrom (steps : Nat) := lookup_of_scope host steps hframe rfl selector
  cases hkind : node.isMirage with
  | true =>
    -- the mirage is asked, with one step less
    have hsearch := Heap.searchLexical_of_mirage hframe hslot rfl hnode hkind
    refine .inl (Run.SameOutcome.of_eq_shift
      (fun n m hle => (ofFuel_below host hle).send _ _) 1 fun steps => ?_)
    rw [hfrom, defaultLookup, Run.searchLexical_bind_of_ok hsearch]
    rfl
  | false =>
    have hsearch := Heap.searchLexical_of_passed hframe hslot rfl hnode hkind
    have hto (steps : Nat) := lookup_of_scope host steps hnode hkind selector
    cases hend : world.heap.searchLexical frame.lexicalParent selector with
    | error reason =>
      rw [hend] at hsearch
      refine .inl (.of_eq fun steps => ?_)
      cases steps with
      | zero => rfl
      | succ steps =>
        rw [hfrom, hto, defaultLookup, defaultLookup, Run.searchLexical_bind_of_error hsearch,
          Run.searchLexical_bind_of_error hend]
    | ok resolution =>
      rw [hend] at hsearch
      cases resolution with
      | absent =>
        refine .inr fun other hother steps => ?_
        rcases List.mem_pair.mp hother with rfl | rfl
        · rw [hfrom, defaultLookup, Run.searchLexical_bind_of_ok hsearch]
          rfl
        · rw [hto, defaultLookup, Run.searchLexical_bind_of_ok hend]
          rfl
      | _ =>
        refine .inl (.of_eq fun steps => ?_)
        cases steps with
        | zero => rfl
        | succ steps =>
          rw [hfrom, hto, defaultLookup, defaultLookup, Run.searchLexical_bind_of_ok hsearch,
            Run.searchLexical_bind_of_ok hend]

end Runtime

end Prototypes
