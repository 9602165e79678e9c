import Prototypes.Proofs.Approximation.Machine
import Prototypes.Proofs.Binding.Clones

/-!
# Machines that keep to the rules

Mirrors and mirages stay tied only as long as three rules are kept: nothing but a plain
object is bound as a mirror, no slot named `base` is removed, and nothing is reclaimed
while an operation is under way.  Host code can break any of them.

The machine here is the actual one but for stopping short of what would break a rule, as
though it had run out of steps (`Run.allowed`).  So it is below the actual machine, and
a run that comes to an end on it has kept to the rules all the way down and ends in the
same way on the actual machine.

## Main results

* `Runtime.abiding_below` — where the rules are kept, this machine does what the actual one
  does.
* `Runtime.abiding_bonding` — no call of it loosens what is tied.
* `Program.runAbiding_below` — the same of whole programs, which may collect garbage between
  their requests.
-/

namespace Prototypes

variable {κ σ α β : Type}

open Run (Steady Ends)

/-! ## Rules -/

namespace World

/-- Nothing but a plain object may be bound as a mirror, if the binding leads to a node at all. -/
def mayBind (mirror : Value κ) (world : World κ σ) : Bool :=
  match mirror with
  | .object id => (world.heap.node? id).all Node.isPlain
  | _ => true

/-- A slot named `base` may not be removed. -/
def mayRemove (id : ObjectId) (selector : Symbol) (world : World κ σ) : Bool :=
  !(selector == Selector.base && (world.heap.node? id).any fun node => node.slots.hasSlot selector)

end World

/-- A run that stops where it would break a rule, as if it were out of steps. -/
def Run.allowed (rule : World κ σ → Bool) (x : Run κ σ α) : Run κ σ α := fun world =>
  if rule world then x world else .error .exhausted world

/-! ## The machine -/

/-- Answers a request, if mirrors are bound by the rules. -/
def Request.runAbiding (rt : Runtime κ σ) : Request κ → Run κ σ (Value κ)
  | .bindMirror mirror mirage => do
    Run.allowed (World.mayBind mirror) (Run.bindMirror mirror mirage)
    return .nil
  | request => request.run rt

/-- Runs a program whose requests keep to the rules, and which collects in a given way. -/
def Program.runAbiding (rt : Runtime κ σ) (collection : List (Value κ) → Run κ σ Collected)
    (program : Program κ σ α) : Run κ σ α :=
  program.runBy (fun request => request.runAbiding rt) collection

namespace Runtime

/-- Performs an operation on a node, if no slot named `base` is removed. -/
def performAbiding (rt : Runtime κ σ) (id : ObjectId) : Message κ → Run κ σ (Value κ)
  | .removeSlot selector =>
    Run.allowed (World.mayRemove id selector) (defaultRemoveSlot id selector)
  | message => rt.performDefault id message

/-- Runs a method's body.  Host code may not collect, since the operation that runs it is not over. -/
def runMethodAbiding (rt : Runtime κ σ) (host : Host κ σ) (method : Method κ) (context : Context κ)
    (arguments : List (Value κ)) : Run κ σ (Value κ) :=
  match method.body with
  | .builtin .bindBase => do
    let mirage ← firstArgument arguments
    Run.allowed (World.mayBind context.receiver) (Run.bindMirror context.receiver mirage)
    return .nil
  | .host code =>
    (host.program code context arguments).runAbiding rt fun _ => Run.halt .exhausted
  | _ => rt.runMethodBy rt.performAbiding host method context arguments

/-- The runtime with a number of steps that keeps to the rules. -/
def abiding (host : Host κ σ) : Nat → Runtime κ σ
  | 0 => idle
  | fuel + 1 =>
    let rt := abiding host fuel
    { fuel := fuel + 1
      send := rt.dispatchBy rt.performAbiding
      run := rt.runMethodAbiding host }

end Runtime

/-! ## Below the actual machine -/

theorem Run.Below.allowed {R : World κ σ → World κ σ → Prop} {x y : Run κ σ α} (h : Run.Below R x y)
    (rule : World κ σ → Bool) : Run.Below R (Run.allowed rule x) y := by
  intro v w hvw
  unfold Run.allowed
  split
  · exact h v w hvw
  · exact .exhausted v _

/-- A rule that does not read the log stops both of two runs, or neither. -/
theorem Run.Below.both_allowed {R : World κ σ → World κ σ → Prop} [World.Affinity R] {x y : Run κ σ α}
    (h : Run.Below R x y) {rule : World κ σ → Bool} (hrule : ∀ w, rule w.visible = rule w) :
    Run.Below R (Run.allowed rule x) (Run.allowed rule y) := by
  intro v w hvw
  have hsame : rule v = rule w := by rw [← hrule v, ← hrule w, World.Affinity.visible hvw]
  unfold Run.allowed
  rw [hsame]
  split
  · exact h v w hvw
  · exact .exhausted v _

section Actual

variable {rt rt' : Runtime κ σ}

theorem Request.runAbiding_below (h : rt.Below World.Alike rt') (request : Request κ) :
    Run.Below World.Alike (request.runAbiding rt) (request.run rt') := by
  have hrequest := h.request request
  cases request with
  | bindMirror mirror mirage =>
    exact ((Runtime.Steady.bindMirror mirror mirage).allowed _).bind fun _ => .pure _
  | _ => exact hrequest

theorem Program.runAbiding_below (h : rt.Below World.Alike rt')
    {collection : List (Value κ) → Run κ σ Collected}
    (hcollection : ∀ roots, Run.Below World.Alike (collection roots) (Run.collect roots))
    (program : Program κ σ α) :
    Run.Below World.Alike (program.runAbiding rt collection) (program.run rt') := by
  rw [Program.run_eq_runBy]
  exact program.runBy_below (Request.runAbiding_below h) hcollection

namespace Runtime

theorem performAbiding_below (h : rt.Below World.Alike rt') (id : ObjectId) (message : Message κ) :
    Run.Below World.Alike (rt.performAbiding id message) (rt'.performDefault id message) := by
  have hperform := Below.performDefault h id message
  cases message with
  | removeSlot selector =>
    have hremove : Steady World.Alike (defaultRemoveSlot id selector : Run κ σ (Value κ)) :=
      (Below.performDefault h id (.removeSlot selector) :)
    exact hremove.allowed _
  | _ => exact hperform

theorem runMethodAbiding_below (h : rt.Below World.Alike rt') (host : Host κ σ) (method : Method κ)
    (context : Context κ) (arguments : List (Value κ)) :
    Run.Below World.Alike (rt.runMethodAbiding host method context arguments)
      (rt'.runMethod host method context arguments) := by
  have hother : Run.Below World.Alike (rt.runMethodBy rt.performAbiding host method context arguments)
      (rt'.runMethod host method context arguments) := by
    rw [← runMethodBy_performDefault]
    exact h.runMethodBy (performAbiding_below h) host method context arguments
  obtain ⟨identity, name, parameters, body⟩ := method
  match body with
  | .builtin .bindBase =>
    exact (Steady.firstArgument arguments).bind fun mirage =>
      ((Steady.bindMirror context.receiver mirage).allowed _).bind fun _ => .pure _
  | .host code =>
    exact Program.runAbiding_below h (fun _ => .exhausted _) (host.program code context arguments)
  | .fragment fragment => exact hother
  | .builtin (.accessor name) => exact hother
  | .builtin (.mutator name) => exact hother
  | .builtin (.notUnderstood selector) => exact hother
  | .builtin (.primitive primitive selector) => exact hother
  | .builtin (.resend selector) => exact hother
  | .builtin (.performDefault op) => exact hother

/-- Where the rules are kept, the machine does what the actual one does. -/
theorem abiding_below (host : Host κ σ) (n : Nat) :
    Below World.Alike (abiding host n) (ofFuel host n) := by
  induction n with
  | zero => exact .idle _
  | succ n ih =>
    exact
      { fuel := Nat.le_refl _
        send := ih.dispatchBy (performAbiding_below ih)
        run := runMethodAbiding_below ih host }

end Runtime

end Actual

/-! ## Nothing tied is loosened -/

namespace Run

/-- Binding by the rules keeps the ties. -/
theorem steady_allowedBind (mirror mirage : Value κ) (start : World κ σ) :
    Steady (World.Bonds start) (Run.allowed (World.mayBind mirror) (Run.bindMirror mirror mirage)) := by
  refine Ends.steady (fun v hv => ⟨fun _ _ => True, ?_⟩) start
  unfold Run.allowed
  split
  · rename_i hmay
    refine .bindMirror hv fun id node hmirror hnode => ?_
    simpa [World.mayBind, hmirror, hnode] using hmay
  · exact .exhausted v

/-- Removing a slot by the rules keeps the ties. -/
theorem steady_allowedRemove (id : ObjectId) (selector : Symbol) (start : World κ σ) :
    Steady (World.Bonds start)
      (Run.allowed (World.mayRemove id selector)
        (Runtime.defaultRemoveSlot id selector : Run κ σ (Value κ))) := by
  rintro v _ ⟨rfl, hv⟩
  unfold Run.allowed
  split
  · rename_i hmay
    refine Runtime.Steady.agrees_defaultRemoveSlot (World.Kinship.editable _) ⟨rfl, hv⟩ ?_
    rintro v' _ node identity value rest ⟨rfl, hv', hstart⟩ hheap hnode hremoved
    have hne : selector ≠ Selector.base := by
      rintro rfl
      have hslot : node.slots.hasSlot Selector.base = true := by
        obtain ⟨field, hfield, -⟩ := Option.map_eq_some_iff.mp hremoved
        simp [Storage.hasSlot, hfield]
      simp [World.mayRemove, hnode, hslot] at hmay
    have hnode' := (congrArg (Heap.node? · id) hheap).trans hnode
    rw [setSlots_of_node hnode']
    exact .ok () (World.Bonds.replace_becomes hv' hstart hnode'
      (Node.becomes_withSlots fun _ hbase => hbase.removeField hne hremoved)
      (node.mirror?_withSlots rest) rfl)
  · exact .exhausted v _

end Run

section Bonding

variable {rt : Runtime κ σ}

theorem Request.runAbiding_steady (hrt : rt.Bonding) (request : Request κ) (start : World κ σ) :
    Steady (World.Bonds start) (request.runAbiding rt) := by
  have hrequest := (hrt start).request_of request fun mirage => Run.steady_bindFresh mirage start
  cases request with
  | bindMirror mirror mirage => exact (Run.steady_allowedBind mirror mirage start).bind fun _ => .pure _
  | _ => exact hrequest fun _ _ h => nomatch h

namespace Runtime

theorem performAbiding_steady (hrt : rt.Bonding) (hafresh : rt.ClonesAfresh) (id : ObjectId)
    (message : Message κ) (start : World κ σ) :
    Steady (World.Bonds start) (rt.performAbiding id message) := by
  have hmirage := Ends.steady (fun v hv => ⟨_, hrt.cloneMirage hafresh hv id⟩) start
  have hperform := (hrt start).performDefault_of hmirage message
  cases message with
  | removeSlot selector => exact Run.steady_allowedRemove id selector start
  | _ => exact hperform fun _ h => nomatch h

theorem runMethodAbiding_steady (hrt : rt.Bonding) (hafresh : rt.ClonesAfresh) (host : Host κ σ)
    (method : Method κ) (context : Context κ) (arguments : List (Value κ)) (start : World κ σ) :
    Steady (World.Bonds start) (rt.runMethodAbiding host method context arguments) := by
  have hother := (hrt start).runMethodBy_of
    (fun id message => performAbiding_steady hrt hafresh id message start) host method context arguments
  obtain ⟨identity, name, parameters, body⟩ := method
  match body with
  | .builtin .bindBase =>
    exact (Steady.firstArgument arguments).bind fun mirage =>
      (Run.steady_allowedBind context.receiver mirage start).bind fun _ => .pure _
  | .host code =>
    exact Program.runBy_below (fun request => request.runAbiding_steady hrt start)
      (fun _ => .exhausted _) (host.program code context arguments)
  | .fragment fragment => exact hother (fun h => nomatch h) fun _ h => nomatch h
  | .builtin (.accessor name) => exact hother (fun h => nomatch h) fun _ h => nomatch h
  | .builtin (.mutator name) => exact hother (fun h => nomatch h) fun _ h => nomatch h
  | .builtin (.notUnderstood selector) => exact hother (fun h => nomatch h) fun _ h => nomatch h
  | .builtin (.primitive primitive selector) => exact hother (fun h => nomatch h) fun _ h => nomatch h
  | .builtin (.resend selector) => exact hother (fun h => nomatch h) fun _ h => nomatch h
  | .builtin (.performDefault op) => exact hother (fun h => nomatch h) fun _ h => nomatch h

/-- No call of the machine loosens what is tied, and mirrors are cloned afresh. -/
theorem abiding_bonding (host : Host κ σ) (n : Nat) :
    (abiding host n).Bonding ∧ (abiding host n).ClonesAfresh := by
  induction n with
  | zero => exact ⟨fun _ => .idle _, fun _ _ _ h => nomatch h⟩
  | succ n ih =>
    obtain ⟨hrt, hafresh⟩ := ih
    refine ⟨fun start => ?_, fun {v w mirror mirage node answer} hv hnode hholds hanswer => ?_⟩
    · exact
        { fuel := Nat.le_refl _
          send := (hrt start).dispatchBy fun id message =>
            performAbiding_steady hrt hafresh id message start
          run := fun method context arguments =>
            runMethodAbiding_steady hrt hafresh host method context arguments start }
    · cases node with
      | mirage m => cases hholds.plain
      | frame frame => cases hholds.plain
      | object body =>
        change (abiding host n).dispatchBy _ (.object mirror) .clone v = _ at hanswer
        rw [dispatchBy_plain _ _ hnode] at hanswer
        change (Value.object <$> (abiding host n).defaultClone mirror) v = _ at hanswer
        rw [← bind_pure_comp] at hanswer
        obtain ⟨copy, u, hcopy, hrest⟩ := Run.eq_ok_of_bind hanswer
        cases hrest
        rcases hrt.defaultClone hv hnode hholds hcopy with rfl | ⟨new, hfresh, hnew, hnewHolds⟩
        · exact .inl rfl
        · exact .inr ⟨copy, new, rfl, hfresh, hnew, hnewHolds⟩

end Runtime

end Bonding

end Prototypes
