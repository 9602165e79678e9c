import Prototypes.Proofs.Delegation.Transparency
import Prototypes.Proofs.Heap.Paths

/-!
# Whether a message is understood

An object is asked whether it understands a message, or for a closure over the slot the
message names.  Both walk along the same path, and an object that understands a message is
one that answers a closure of its own making.  Where it does not, it answers the handler for
messages that are not understood, or refuses to have a read-only field assigned.

A path may end before a value that is no node.  Closures and references to fields understand
a few messages themselves; besides there are the primitives, which all values understand.
Where nodes bar the path, both questions fail.

## Main results

* `Walk.Operation.send_along` — the first node of a path does what is done at its end.
* `World.Selects` — what is selected, by whether the message is understood.
* `Runtime.respondsTo_predicts_select` — being asked tells what would be selected.
-/

namespace Prototypes

variable {κ σ α : Type}

/-! ## To the end of the path -/

/-- The first node of a path does what is done at the end of it. -/
theorem Walk.Operation.send_along {walk : Walk κ σ α} (hwalk : walk.Operation) (host : Host κ σ)
    {world : World κ σ} (hacyclic : world.heap.AcyclicAlong .dynamic) {id : ObjectId}
    {ids : List ObjectId} {ending : Heap.Ending κ}
    (hpath : world.heap.Path walk.selector (.object id) ids ending) (hmem : id ∈ ids)
    {ops : List MetaOp} (hop : walk.message.op ∈ ops) (hplainlike : ∀ id ∈ ids, world.Plainlike ops id)
    {steps : Nat} (hsteps : ids.length ≤ steps) :
    ∃ last after, world.Alike after ∧
      (Runtime.ofFuel host (steps + 1)).send (.object id) walk.message world =
        (walk.answer <$> walk.conclude (Runtime.ofFuel host steps) last ending.resolution) after := by
  obtain ⟨asked, hasked, hsend⟩ := Runtime.send_plainlike host steps (hplainlike id hmem) hop
  have hheap : world.heap = asked.heap := World.Affinity.heap_eq hasked
  have hresolves : (Runtime.ofFuel host steps).Resolves walk.message.op walk.selector id asked ids
      ending.resolution :=
    Runtime.resolveVisiting_path _ hop (hheap ▸ hpath) (List.ne_nil_of_mem hmem)
      (fun id hmem => (hplainlike id hmem).of_alike hasked)
      (hheap ▸ Nat.le_of_lt (hpath.length_lt_walkLimit hacyclic)) (by rwa [Runtime.fuel_ofFuel])
  obtain ⟨last, after, hafter, hperform⟩ := hwalk.performDefault_of_resolves hresolves
  exact ⟨last, after, hasked.trans hafter, hsend.trans hperform⟩

/-! ## What is selected -/

/-- A slot understands the message that names it, unless that assigns a read-only field. -/
def Slot.understood : Slot κ → Bool
  | .mutator _ writable => writable
  | _ => true

/-- Whether a message is understood at the end of its path. -/
def Heap.Ending.understood (selector : Symbol) : Heap.Ending κ → Bool
  | .found _ slot => slot.understood
  | .value last => last.understands selector || (Primitive.ofSelector? selector).isSome
  | .barred _ => false

/-- The handler that a node answers by default for a message it does not understand. -/
def World.handler (world : World κ σ) (id : ObjectId) (selector : Symbol) : Value κ :=
  .closure ⟨world.supply + 1⟩
    ⟨.builtin ⟨world.supply⟩ selector [.rest ⟨"arguments"⟩] (.notUnderstood selector),
      ⟨id, .object id, .nil⟩⟩

/-- Reports do not go into a handler. -/
theorem World.Alike.handler_eq {v w : World κ σ} (h : v.Alike w) (id : ObjectId) (selector : Symbol) :
    v.handler id selector = w.handler id selector := by
  rw [h.eq_with_log]
  rfl

/--
What comes of selecting a message of a node's: a closure that is not the handler if the
message is understood; if it is not, the handler, or an error about a read-only field.
-/
inductive World.Selects (world : World κ σ) (id : ObjectId) (selector : Symbol) :
    Bool → EStateM.Result Halt (World κ σ) (Value κ) → Prop
  | closure {identity : Identity} {closure : Closure κ} {after : World κ σ} :
      .closure identity closure ≠ world.handler id selector →
        world.Selects id selector true (.ok (.closure identity closure) after)
  | handler {after : World κ σ} :
      world.Selects id selector false (.ok (world.handler id selector) after)
  | readOnly {holder : ObjectId} {index : Nat} {after : World κ σ} :
      world.heap.slot? selector holder = some (.mutator index false) →
        world.Selects id selector false
          (.error (.raised (.illegalOperation (.noMutator selector holder))) after)

namespace Runtime

variable (host : Host κ σ) {world : World κ σ} {id : ObjectId} {selector : Symbol} {ops : List MetaOp}

/-- A node that does the default thing answers the default handler. -/
theorem send_doesNotUnderstand_eq_handler (h : world.Plainlike ops id) (hop : .doesNotUnderstand ∈ ops)
    (selector : Symbol) (steps : Nat) :
    ∃ after, (ofFuel host (steps + 1)).send (.object id) (.doesNotUnderstand selector) world =
      .ok (world.handler id selector) after := by
  have hsends (message : Message κ) (hmessage : message.op ∈ ops) :=
    send_plainlike host steps h hmessage
  obtain ⟨after, halike, hsend⟩ := hsends (.doesNotUnderstand selector) hop
  rw [halike.handler_eq id selector]
  exact ⟨{ after with supply := after.supply + 2 }, hsend⟩

/-- Where nothing is found, primitives are understood. -/
theorem selects_selectFallback (h : world.Plainlike ops id) (hop : .doesNotUnderstand ∈ ops)
    (selector : Symbol) (steps : Nat) :
    world.Selects id selector (Primitive.ofSelector? selector).isSome
      ((ofFuel host (steps + 1)).selectFallback (.object id) selector world) := by
  unfold selectFallback
  cases Primitive.ofSelector? selector with
  | some primitive => exact .closure fun hsame => nomatch hsame
  | none =>
    obtain ⟨after, hhandler⟩ := send_doesNotUnderstand_eq_handler host h hop selector steps
    dsimp only
    rw [hhandler]
    exact .handler

/-- What a slot that is found is selected as. -/
theorem selects_selectSlot {holder : ObjectId} {slot : Slot κ}
    (h : world.heap.slot? selector holder = some slot) (id : ObjectId) :
    world.Selects id selector slot.understood (selectSlot holder slot (.object id) selector world) := by
  obtain ⟨node, hnode, hfind⟩ := Option.bind_eq_some_iff.mp h
  cases Storage.names_of_find hfind with
  | field _ => exact .closure fun hsame => by cases hsame
  | custom _ _ => exact .closure fun hsame => by cases hsame
  | @mutator target index writable htarget _ =>
    simp only [selectSlot, mutator, assignmentTarget, htarget]
    cases writable with
    | true => exact .closure fun hsame => by cases hsame
    | false => exact .readOnly h
  | customMutator htarget _ _ =>
    simp only [selectSlot, mutator, assignmentTarget, htarget]
    exact .closure fun hsame => by cases hsame
  | method _ =>
    simp only [selectSlot, methodClosure, bind_assoc]
    rw [Run.node_bind_of_some hnode]
    -- the method may be that of a handler, but the closure has an identity of its own
    refine .closure fun hsame => ?_
    have hidentity : world.supply = world.supply + 1 :=
      congrArg Identity.serial (Value.closure.inj hsame).1
    exact absurd hidentity.symm (Nat.succ_ne_self _)

/-- A value is sent what it answers outside the heap. -/
theorem send_of_asObject?_eq_none {value : Value κ} (h : value.asObject? = none) (message : Message κ)
    (steps : Nat) : (ofFuel host (steps + 1)).send value message =
      (ofFuel host steps).performOnValue value message := by
  cases value with
  | object id => cases h
  | _ => rfl

/-- A search that comes to a value that is no node goes on there, unless it is nil. -/
theorem resolution_value {last : Value κ} (h : last.asObject? = none) :
    last = .nil ∨ (Heap.Ending.value last).resolution = .delegate last := by
  cases last with
  | nil => exact .inl rfl
  | object id => cases h
  | _ => exact .inr rfl

/-- Where a path ends before a value, its own messages are understood, and primitives. -/
theorem selects_value (h : world.Plainlike ops id) (hop : .doesNotUnderstand ∈ ops) {last : Value κ}
    (hlast : last.asObject? = none) (selector : Symbol) (start : ObjectId) (steps : Nat) :
    world.Selects id selector (last.understands selector || (Primitive.ofSelector? selector).isSome)
      ((Walk.select (.object id) selector).conclude (ofFuel host (steps + 2)) start
        (Heap.Ending.value last).resolution world) := by
  rcases resolution_value hlast with rfl | hresolution
  · exact selects_selectFallback host h hop selector (steps + 1)
  · rw [hresolution]
    show world.Selects id selector _
      (((ofFuel host (steps + 2)).send last (.select (.object id) selector) >>= pure) world)
    rw [bind_pure, send_of_asObject?_eq_none host hlast]
    show world.Selects id selector _ ((if last.understands selector then
      valueSelect last (.object id) selector else
        (ofFuel host (steps + 1)).selectFallback (.object id) selector) world)
    cases last.understands selector with
    | true => exact .closure fun hsame => nomatch hsame
    | false => exact selects_selectFallback host h hop selector steps

/-- What is selected at the end of a path that is not barred. -/
theorem selects_conclude (h : world.Plainlike ops id) (hop : .doesNotUnderstand ∈ ops)
    {ending : Heap.Ending κ} (hends : world.heap.EndsAt selector ending)
    (hfree : ∀ barrier, ending ≠ .barred barrier) (start : ObjectId) (steps : Nat) :
    world.Selects id selector (ending.understood selector)
      ((Walk.select (.object id) selector).conclude (ofFuel host (steps + 2)) start ending.resolution
        world) := by
  cases ending with
  | barred barrier => exact absurd rfl (hfree barrier)
  | found holder slot => exact selects_selectSlot hends id
  | value last => exact selects_value host h hop hends selector start steps

/-- What is answered there to the question whether the message is understood. -/
theorem responds_conclude {ending : Heap.Ending κ} (hends : world.heap.EndsAt selector ending)
    (hfree : ∀ barrier, ending ≠ .barred barrier) (start : ObjectId) (steps : Nat) :
    (Walk.respondsTo selector).conclude (ofFuel host (steps + 1)) start ending.resolution world =
      .ok (ending.understood selector) world := by
  cases ending with
  | barred barrier => exact absurd rfl (hfree barrier)
  | found holder slot => cases slot <;> rfl
  | value last =>
    rcases resolution_value hends with rfl | hresolution
    · rfl
    · rw [hresolution]
      show ((ofFuel host (steps + 1)).send last (.respondsTo selector) >>= _) world = _
      rw [send_of_asObject?_eq_none host hends]
      rfl

/-- A node that bars a path fails what it is asked on it. -/
theorem send_barrier {barrier : ObjectId} (h : world.heap.EndsAt selector (.barred barrier))
    (message : Message κ) (hframes : message.op.appliesToFrames = false) (steps : Nat) :
    ∃ reason, (∀ selector holder, reason ≠ .noMutator selector holder) ∧
      (ofFuel host (steps + 1)).send (.object barrier) message world =
        .error (.raised (.illegalOperation reason)) world := by
  obtain ⟨node, hnode, hanswers⟩ := h
  have hsend : (ofFuel host (steps + 1)).send (.object barrier) message world = _ :=
    Run.node_bind_of_some hnode _
  cases node with
  | object body => cases hanswers
  | frame frame =>
    refine ⟨.onCallFrame message.op barrier, fun _ _ hsame => (by cases hsame), hsend.trans ?_⟩
    simp only [hframes]
    rfl
  | mirage mirage =>
    obtain ⟨body, _ | mirror⟩ := mirage
    · have hmirror : Run.mirrorOf barrier world =
          .error (.raised (.illegalOperation (.mirageUnbound barrier))) world := by
        simp only [Run.mirrorOf, Run.observe, World.mirrorOf, Heap.get_eq_ok_iff.mpr hnode, bind,
          Except.bind]
      exact ⟨.mirageUnbound barrier, fun _ _ hsame => (by cases hsame),
        hsend.trans (Run.bind_of_error hmirror _)⟩
    · cases hanswers

end Runtime

/-! ## From the first node -/

namespace World.Selects

variable {v w : World κ σ} {id : ObjectId} {selector : Symbol} {understood : Bool}
  {result : EStateM.Result Halt (World κ σ) (Value κ)}

theorem of_alike (h : v.Selects id selector understood result) (hvw : v.Alike w) :
    w.Selects id selector understood result := by
  have hhandler := hvw.handler_eq id selector
  cases h with
  | closure hother => exact .closure (hhandler ▸ hother)
  | handler =>
    rw [hhandler]
    exact .handler
  | readOnly hslot => exact .readOnly (World.Affinity.heap_eq hvw ▸ hslot)

end World.Selects

section Asking

variable (host : Host κ σ) {world : World κ σ} (hacyclic : world.heap.AcyclicAlong .dynamic)
  {id : ObjectId} {ids : List ObjectId} {ops : List MetaOp}

include hacyclic

/-- Where a path is barred a walk fails, and nothing has been changed. -/
theorem Walk.Operation.send_barred {walk : Walk κ σ α} (hwalk : walk.Operation) {barrier : ObjectId}
    (hpath : world.heap.Path walk.selector (.object id) ids (.barred barrier))
    (hop : walk.message.op ∈ ops) (hframes : walk.message.op.appliesToFrames = false)
    (hplainlike : ∀ id ∈ ids, world.Plainlike ops id) {steps : Nat} (hsteps : ids.length ≤ steps) :
    ∃ reason after, world.Alike after ∧ (∀ selector holder, reason ≠ .noMutator selector holder) ∧
      (Runtime.ofFuel host (steps + 2)).send (.object id) walk.message world =
        .error (.raised (.illegalOperation reason)) after := by
  rcases hpath.mem_or_barred with hmem | ⟨-, hfirst⟩
  · obtain ⟨last, after, halike, hsend⟩ := hwalk.send_along host hacyclic hpath hmem hop
      hplainlike (Nat.le_succ_of_le hsteps)
    have hends : after.heap.EndsAt walk.selector (.barred barrier) :=
      World.Affinity.heap_eq halike ▸ hpath.endsAt
    obtain ⟨reason, hreason, hbarrier⟩ := Runtime.send_barrier host hends walk.message hframes steps
    refine ⟨reason, after, halike, hreason, hsend.trans ?_⟩
    rw [← bind_pure_comp]
    exact Run.bind_of_error (Run.bind_of_error hbarrier _) _
  · cases hfirst
    obtain ⟨reason, hreason, hbarrier⟩ :=
      Runtime.send_barrier host hpath.endsAt walk.message hframes (steps + 1)
    exact ⟨reason, world, .refl world, hreason, hbarrier⟩

variable {selector : Symbol} {ending : Heap.Ending κ}
  (hpath : world.heap.Path selector (.object id) ids ending) (hmem : id ∈ ids)
  (hfree : ∀ barrier, ending ≠ .barred barrier) (hplainlike : ∀ id ∈ ids, world.Plainlike ops id)
  {steps : Nat} (hsteps : ids.length ≤ steps + 2)

include hpath hmem hfree hplainlike hsteps

/-- What the first node of a path selects. -/
theorem Runtime.selects_send (hop : .select ∈ ops) (hhandler : .doesNotUnderstand ∈ ops) :
    world.Selects id selector (ending.understood selector)
      ((ofFuel host (steps + 3)).send (.object id) (.select (.object id) selector) world) := by
  obtain ⟨last, after, halike, hsend⟩ :=
    (Walk.Operation.select (.object id) selector).send_along host hacyclic hpath hmem hop hplainlike
      hsteps
  have hends : after.heap.EndsAt selector ending := World.Affinity.heap_eq halike ▸ hpath.endsAt
  have hconclude := selects_conclude host ((hplainlike id hmem).of_alike halike) hhandler hends hfree
    last steps
  simp only [Walk.select, id_map'] at hsend
  rw [hsend]
  exact hconclude.of_alike halike.symm

/-- What it answers to the question. -/
theorem Runtime.respondsTo_send (hop : .respondsTo ∈ ops) :
    ∃ after, (ofFuel host (steps + 3)).respondsTo (.object id) selector world =
      .ok (ending.understood selector) after := by
  obtain ⟨last, after, halike, hsend⟩ :=
    (Walk.Operation.respondsTo selector).send_along host hacyclic hpath hmem hop hplainlike hsteps
  have hends : after.heap.EndsAt selector ending := World.Affinity.heap_eq halike ▸ hpath.endsAt
  have hconclude := responds_conclude host hends hfree last (steps + 1)
  refine ⟨after, ?_⟩
  rw [← bind_pure_comp, Run.bind_of_ok hconclude] at hsend
  exact Run.bind_of_ok hsend _

end Asking

/-! ## Being asked tells what is selected -/

/-- Of an answer, a selection and a handler: what the answer tells of the selection. -/
structure Runtime.Predicts (world : World κ σ) (selector : Symbol)
    (responds : EStateM.Result Halt (World κ σ) Bool)
    (selected handler : EStateM.Result Halt (World κ σ) (Value κ)) : Prop where
  /-- it is yes just when a closure is selected that is not the handler -/
  yes : (∃ after, responds = .ok true after) ↔
    ∃ identity closure after, selected = .ok (.closure identity closure) after ∧
      ∀ other, handler ≠ .ok (.closure identity closure) other
  /-- it is no just when the handler is selected, or the mutator of a read-only field refused -/
  no : (∃ after, responds = .ok false after) ↔
    (∃ value after other, selected = .ok value after ∧ handler = .ok value other) ∨
      ∃ holder index after, world.heap.slot? selector holder = some (.mutator index false) ∧
        selected = .error (.raised (.illegalOperation (.noMutator selector holder))) after

namespace Runtime.Predicts

variable {world : World κ σ} {id : ObjectId} {selector : Symbol}
  {selected : EStateM.Result Halt (World κ σ) (Value κ)}

theorem of_selects {understood : Bool} (h : world.Selects id selector understood selected)
    (after other : World κ σ) :
    Predicts world selector (.ok understood after) selected
      (.ok (world.handler id selector) other) := by
  cases h with
  | @closure identity closure reached hother =>
    constructor
    · refine ⟨fun _ => ⟨identity, closure, reached, rfl, fun _ hsame => ?_⟩, fun _ => ⟨after, rfl⟩⟩
      cases hsame
      exact hother rfl
    · constructor
      · rintro ⟨_, hno⟩
        cases hno
      · rintro (⟨_, _, _, hselected, hhandler⟩ | ⟨_, _, _, -, hselected⟩)
        · cases hselected
          cases hhandler
          exact absurd rfl hother
        · cases hselected
  | @handler reached =>
    constructor
    · constructor
      · rintro ⟨_, hyes⟩
        cases hyes
      · rintro ⟨_, _, _, hselected, hother⟩
        cases hselected
        exact absurd rfl (hother other)
    · exact ⟨fun _ => .inl ⟨_, reached, other, rfl, rfl⟩, fun _ => ⟨after, rfl⟩⟩
  | @readOnly holder index reached hslot =>
    constructor
    · constructor
      · rintro ⟨_, hyes⟩
        cases hyes
      · rintro ⟨_, _, _, hselected, -⟩
        cases hselected
    · exact ⟨fun _ => .inr ⟨holder, index, reached, hslot, rfl⟩, fun _ => ⟨after, rfl⟩⟩

/-- Nothing is told if both fail, and not for want of a mutator. -/
theorem of_fails {reason : IllegalOperation}
    (hreason : ∀ selector holder, reason ≠ .noMutator selector holder) (error : RuntimeError)
    (after other : World κ σ) (handler : EStateM.Result Halt (World κ σ) (Value κ)) :
    Predicts world selector (.error (.raised error) after)
      (.error (.raised (.illegalOperation reason)) other) handler := by
  constructor
  · constructor
    · rintro ⟨_, hyes⟩
      cases hyes
    · rintro ⟨_, _, _, hselected, -⟩
      cases hselected
  · constructor
    · rintro ⟨_, hno⟩
      cases hno
    · rintro (⟨_, _, _, hselected, -⟩ | ⟨holder, _, _, -, hselected⟩)
      · cases hselected
      · cases hselected
        exact absurd rfl (hreason selector holder)

end Runtime.Predicts

/--
Whether an object says that it understands a message tells what it selects for it.  It says
yes just when it answers a closure that is not its handler for messages that are not
understood; it says no just when it answers the handler, or will not have a read-only field
assigned.  So it is for every message, wherever its path ends, if the mirrors of the mirages
on the path do the default thing; and each message has a path.  A path that is barred, by a
call frame or a mirage without a mirror, fails both.
-/
theorem Runtime.respondsTo_predicts_select (host : Host κ σ) {world : World κ σ}
    (hlive : world.heap.LiveAlong .dynamic) (hacyclic : world.heap.AcyclicAlong .dynamic) {id : ObjectId}
    (hid : world.heap.contains id = true) (selector : Symbol) :
    (∃ ids ending, world.heap.Path selector (.object id) ids ending) ∧
      ∀ ids ending, world.heap.Path selector (.object id) ids ending →
        (∀ id ∈ ids, world.Plainlike [.select, .respondsTo, .doesNotUnderstand] id) →
          ∀ steps, ids.length + 2 ≤ steps →
            let responds := (ofFuel host steps).respondsTo (.object id) selector world
            let selected := (ofFuel host steps).send (.object id) (.select (.object id) selector) world
            let handler := (ofFuel host steps).send (.object id) (.doesNotUnderstand selector) world
            Predicts world selector responds selected handler ∧
              ∀ barrier, ending = .barred barrier → ∃ error error' after after',
                responds = .error (.raised error) after ∧
                  selected = .error (.raised error') after' := by
  refine ⟨hacyclic.exists_path hlive selector hid, fun ids ending hpath hplainlike steps hsteps => ?_⟩
  intro responds selected handler
  have hselect : MetaOp.select ∈ [MetaOp.select, .respondsTo, .doesNotUnderstand] := by decide
  have hrespondsTo : MetaOp.respondsTo ∈ [MetaOp.select, .respondsTo, .doesNotUnderstand] := by decide
  have hhandler : MetaOp.doesNotUnderstand ∈ [MetaOp.select, .respondsTo, .doesNotUnderstand] := by
    decide
  by_cases hfree : ∀ barrier, ending ≠ .barred barrier
  · have hmem : id ∈ ids := hpath.mem_or_barred.resolve_right fun h => hfree id h.2
    have hpositive := List.length_pos_iff.mpr (List.ne_nil_of_mem hmem)
    obtain ⟨steps, rfl⟩ : ∃ k, steps = k + 3 := ⟨steps - 3, by omega⟩
    have hlength : ids.length ≤ steps + 2 := by omega
    obtain ⟨after, hresponds⟩ :=
      respondsTo_send host hacyclic hpath hmem hfree hplainlike hlength hrespondsTo
    obtain ⟨other, hhandler'⟩ := send_doesNotUnderstand_eq_handler host (hplainlike id hmem)
      hhandler selector (steps + 2)
    have hselects :=
      selects_send host hacyclic hpath hmem hfree hplainlike hlength hselect hhandler
    refine ⟨?_, fun barrier hbarred => absurd hbarred (hfree barrier)⟩
    show Predicts world selector (respondsTo _ _ _ _) _ (send _ _ _ _)
    rw [hresponds, hhandler']
    exact .of_selects hselects after other
  · obtain ⟨barrier, rfl⟩ : ∃ barrier, ending = .barred barrier := by
      simpa only [not_forall, not_not] using hfree
    obtain ⟨steps, rfl⟩ : ∃ k, steps = k + 2 := ⟨steps - 2, by omega⟩
    have hlength : ids.length ≤ steps := by omega
    obtain ⟨reason, after, -, -, hasked⟩ := (Walk.Operation.respondsTo selector).send_barred host hacyclic
      hpath hrespondsTo rfl hplainlike hlength
    obtain ⟨reason', after', -, hreason', hselected⟩ :=
      (Walk.Operation.select (.object id) selector).send_barred host hacyclic hpath hselect rfl
        hplainlike hlength
    have hresponds : responds = .error (.raised (.illegalOperation reason)) after :=
      Run.bind_of_error hasked _
    refine ⟨?_, fun _ _ => ⟨_, _, after, after', hresponds, hselected⟩⟩
    rw [hresponds, show selected = _ from hselected]
    exact .of_fails hreason' _ after after' handler

/--
A chain from a plain object at index 5 by way of a mirage at index 3, with a mirror at index
4 that overrides nothing, to the object at index 2, which has a read-only field `x` and a
reference to that field for its parent.  The object at index 7 has for its parent the call
frame at index 6.
-/
private def propped : World Empty Unit :=
  let world : World Empty Unit := World.new default ()
  let plain : PrototypeObject Empty :=
    { slots := Storage.empty ⟨100⟩
      dynamicParent := .object ⟨3⟩
      lexicalParent := none
      link := .isA
      typeTags := []
      family := ⟨3⟩
      flags := .none }
  let holder : PrototypeObject Empty :=
    { plain with
      slots :=
        { Storage.empty ⟨101⟩ with
          fields := [{ name := ⟨"x"⟩, writable := false, value := .nil }] }
      dynamicParent := .field ⟨⟨2⟩, ⟨"x"⟩⟩ }
  let mirror : PrototypeObject Empty :=
    { plain with
      slots :=
        { Storage.empty ⟨102⟩ with
          fields := [{ name := Selector.base, writable := false, value := .object ⟨3⟩ }] }
      dynamicParent := .object world.mirrorRoot }
  let nodes : List (Node Empty) :=
    [.object holder, .mirage ⟨{ plain with dynamicParent := .object ⟨2⟩ }, some ⟨4⟩⟩,
      .object mirror, .object plain, .frame ⟨Storage.empty ⟨103⟩, world.lexicalRoot⟩,
      .object { plain with dynamicParent := .object ⟨6⟩ }]
  { world with heap := nodes.foldl (fun heap node => (heap.allocate node).2) world.heap }

private theorem sound_propped : propped.Sound where
  free := ((((((World.sound_new default ()).free.allocate _).allocate _).allocate _).allocate
    _).allocate _).allocate _
  defaults := ⟨3, rfl⟩

private theorem ascends_propped {id next : ObjectId} (h : propped.heap.Ascends .dynamic id next) :
    next.index < id.index ∧ propped.heap.contains next = true := by
  obtain ⟨node, hnode, hparent⟩ := h
  obtain ⟨index⟩ := id
  match index, hnode with
  | 0, hnode => cases hnode; cases hparent
  | 1, hnode => cases hnode; cases hparent
  | 2, hnode => cases hnode; cases hparent
  | 3, hnode => cases hnode; cases hparent; exact ⟨by decide, rfl⟩
  | 4, hnode => cases hnode; cases hparent; exact ⟨by decide, rfl⟩
  | 5, hnode => cases hnode; cases hparent; exact ⟨by decide, rfl⟩
  | 6, hnode => cases hnode; cases hparent
  | 7, hnode => cases hnode; cases hparent; exact ⟨by decide, rfl⟩

private theorem live_propped : propped.heap.LiveAlong .dynamic := fun _ _ h => (ascends_propped h).2

private theorem acyclic_propped : propped.heap.AcyclicAlong .dynamic :=
  .of_rank ObjectId.index fun _ _ h => (ascends_propped h).1

private theorem plainlike_propped : ∀ id ∈ [⟨5⟩, ⟨3⟩, ⟨2⟩],
    propped.Plainlike [.select, .respondsTo, .doesNotUnderstand] id := by
  have hmirror : propped.DoesDefault [.select, .respondsTo, .doesNotUnderstand] ⟨3⟩ ⟨4⟩ := by
    refine ⟨fun op hop => ⟨⟨_, rfl⟩, ⟨_, rfl⟩, ?_⟩, ⟨_, rfl⟩, ⟨_, rfl⟩, ⟨4⟩, _, 0, false, rfl, rfl, rfl⟩
    simp only [List.mem_cons, List.not_mem_nil, or_false] at hop
    rcases hop with rfl | rfl | rfl <;> exact ⟨_, rfl, rfl⟩
  intro id hmem
  simp only [List.mem_cons, List.not_mem_nil, or_false] at hmem
  rcases hmem with rfl | rfl | rfl
  · exact .inl ⟨_, rfl⟩
  · exact .inr ⟨⟨4⟩, hmirror⟩
  · exact .inl ⟨_, rfl⟩

/--
From the bottom of the chain the read-only `x` cannot be assigned, and `readField` is
understood by the reference at its end.  Behind the call frame nothing is.
-/
theorem Runtime.respondsTo_predicts_select_propped :
    propped.Sound ∧ propped.heap.LiveAlong .dynamic ∧ propped.heap.AcyclicAlong .dynamic ∧
      propped.heap.contains ⟨5⟩ = true ∧ propped.heap.contains ⟨7⟩ = true ∧
      (∀ id ∈ [⟨5⟩, ⟨3⟩, ⟨2⟩], propped.Plainlike [.select, .respondsTo, .doesNotUnderstand] id) ∧
      propped.heap.Path ⟨"x:="⟩ (.object ⟨5⟩) [⟨5⟩, ⟨3⟩, ⟨2⟩] (.found ⟨2⟩ (.mutator 0 false)) ∧
      (∃ after, (ofFuel .none 5).send (.object ⟨5⟩) (.select (.object ⟨5⟩) ⟨"x:="⟩) propped =
        .error (.raised (.illegalOperation (.noMutator ⟨"x:="⟩ ⟨2⟩))) after) ∧
      (∃ after, (ofFuel .none 5).respondsTo (.object ⟨5⟩) ⟨"x:="⟩ propped = .ok false after) ∧
      propped.heap.Path Selector.readField (.object ⟨5⟩) [⟨5⟩, ⟨3⟩, ⟨2⟩] (.value (.field ⟨⟨2⟩, ⟨"x"⟩⟩)) ∧
      (∃ after, (ofFuel .none 5).respondsTo (.object ⟨5⟩) Selector.readField propped = .ok true after) ∧
      (∃ identity closure after,
        (ofFuel .none 5).send (.object ⟨5⟩) (.select (.object ⟨5⟩) Selector.readField) propped =
          .ok (.closure identity closure) after) ∧
      propped.heap.Path ⟨"x"⟩ (.object ⟨7⟩) [⟨7⟩] (.barred ⟨6⟩) ∧
      ∃ error error' after after',
        (ofFuel .none 3).respondsTo (.object ⟨7⟩) ⟨"x"⟩ propped = .error (.raised error) after ∧
          (ofFuel .none 3).send (.object ⟨7⟩) (.select (.object ⟨7⟩) ⟨"x"⟩) propped =
            .error (.raised error') after' := by
  have hassigned : propped.heap.Path ⟨"x:="⟩ (.object ⟨5⟩) [⟨5⟩, ⟨3⟩, ⟨2⟩]
      (.found ⟨2⟩ (.mutator 0 false)) :=
    .pass rfl rfl rfl (.pass rfl rfl rfl (.found rfl rfl rfl))
  have hread : propped.heap.Path Selector.readField (.object ⟨5⟩) [⟨5⟩, ⟨3⟩, ⟨2⟩]
      (.value (.field ⟨⟨2⟩, ⟨"x"⟩⟩)) :=
    .pass rfl rfl rfl (.pass rfl rfl rfl (.pass rfl rfl rfl (.value rfl)))
  have hbarred : propped.heap.Path ⟨"x"⟩ (.object ⟨7⟩) [⟨7⟩] (.barred ⟨6⟩) :=
    .pass rfl rfl rfl (.barred rfl rfl)
  have hplain : ∀ id ∈ [⟨7⟩], propped.Plainlike [.select, .respondsTo, .doesNotUnderstand] id := by
    intro id hmem
    obtain rfl := List.mem_singleton.mp hmem
    exact .inl ⟨_, rfl⟩
  have hrefused : ∃ after, (ofFuel .none 5).send (.object ⟨5⟩) (.select (.object ⟨5⟩) ⟨"x:="⟩) propped =
      .error (.raised (.illegalOperation (.noMutator ⟨"x:="⟩ ⟨2⟩))) after := ⟨_, rfl⟩
  have hunderstood : ∃ after, (ofFuel .none 5).respondsTo (.object ⟨5⟩) Selector.readField propped =
      .ok true after := ⟨_, rfl⟩
  have hbottom : propped.heap.contains ⟨5⟩ = true := rfl
  have houtside : propped.heap.contains ⟨7⟩ = true := rfl
  obtain ⟨-, hpredicts⟩ := respondsTo_predicts_select .none live_propped acyclic_propped hbottom
    ⟨"x:="⟩
  obtain ⟨hassigns, -⟩ := hpredicts _ _ hassigned plainlike_propped 5 (Nat.le_refl _)
  obtain ⟨-, hpredicts⟩ := respondsTo_predicts_select .none live_propped acyclic_propped hbottom
    Selector.readField
  obtain ⟨hreads, -⟩ := hpredicts _ _ hread plainlike_propped 5 (Nat.le_refl _)
  obtain ⟨-, hpredicts⟩ := respondsTo_predicts_select .none live_propped acyclic_propped houtside
    ⟨"x"⟩
  obtain ⟨-, hfails⟩ := hpredicts _ _ hbarred hplain 3 (Nat.le_refl _)
  obtain ⟨refused, hselected⟩ := hrefused
  obtain ⟨identity, closure, after, hclosure, -⟩ := hreads.yes.mp hunderstood
  exact ⟨sound_propped, live_propped, acyclic_propped, hbottom, houtside, plainlike_propped,
    hassigned, ⟨refused, hselected⟩, hassigns.no.mpr (.inr ⟨⟨2⟩, 0, refused, rfl, hselected⟩), hread,
    hunderstood, ⟨identity, closure, after, hclosure⟩, hbarred, hfails ⟨6⟩ rfl⟩

end Prototypes
