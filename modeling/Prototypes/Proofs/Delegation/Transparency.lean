import Prototypes.Proofs.Delegation.Flattening
import Prototypes.Proofs.Delegation.Visits
import Prototypes.Proofs.Mirrors.Interception

/-!
# Mirages that cannot be told from objects

A mirage whose mirror does the default thing stands in a chain as a plain object
with the same body would.  The four operations that walk along the chain stop at
the same slot in the world in which all mirages of the chain are flattened, and do
there the same: the same value is read or written, the same closure is applied to
the same arguments, and if nothing is found the same answer is given or an error of
the same kind raised.

Where a chain is walked does not depend on what is done at its end, so the proof has
two halves.  The walk is `Runtime.resolveVisiting_along`, used once in each world.
What is done at its end is done by runs that cannot tell (`Run.Indifferent`), up to
the point at which code is handed the receiver, which is where the promise ends
(`Runtime.SameEffect`).

## Main results

* `Walk.Operation.sameEffect_found`, `Walk.Operation.sameEffect_absent` — what is done
  at the end of a walk.
* `Walk.transparent` — the four operations at the bottom of a chain.
-/

namespace Prototypes

variable {κ σ α β : Type}

/-! ## Where the promise ends -/

/-- The object that stands for a custom field. -/
def Slot.standIn? : Slot κ → Option (Value κ)
  | .custom standIn | .customMutator standIn => some standIn
  | _ => none

/--
What an operation does at the end of its walk, in a world and in the flattened one:
the same, or else the same code is entered with the same arguments.  Code is entered
if the slot holds a method, a closure or a custom field, or if the selector is that of
the primitive `new`.
-/
inductive Runtime.SameEffect (rt : Runtime κ σ) (ids : List ObjectId) (selector : Symbol) :
    Resolution κ → EStateM.Result Halt (World κ σ) (Value κ) →
      EStateM.Result Halt (World κ σ) (Value κ) → Prop
  | matches {resolution : Resolution κ} {first second : EStateM.Result Halt (World κ σ) (Value κ)} :
      Run.Matches ids first second → SameEffect rt ids selector resolution first second
  | applied {holder : ObjectId} {slot : Slot κ} (closure : Closure κ) (arguments : List (Value κ))
      {v w : World κ σ} : World.FlattensTo ids v w →
        SameEffect rt ids selector (.found holder slot) (rt.apply closure arguments v)
          (rt.apply closure arguments w)
  | asked {holder : ObjectId} {slot : Slot κ} {field : Value κ} (message : Symbol)
      (arguments : List (Value κ)) (next : Value κ → Run κ σ (Value κ)) {v w : World κ σ} :
      slot.standIn? = some field → World.FlattensTo ids v w →
        SameEffect rt ids selector (.found holder slot)
          ((rt.invoke field message arguments >>= next) v)
          ((rt.invoke field message arguments >>= next) w)
  | created (receiver : Value κ) (arguments : List (Value κ)) {v w : World κ σ} :
      Primitive.ofSelector? selector = some .new → World.FlattensTo ids v w →
        SameEffect rt ids selector .absent (rt.send receiver (.newInstance arguments) v)
          (rt.send receiver (.newInstance arguments) w)

/-! ## Native slots -/

namespace Runtime

variable {ids : List ObjectId} {v w : World κ σ} {holder : ObjectId} {node : Node κ}

/-- A node and the flattened one have the same slots. -/
theorem slots_bind_flattened (hvw : World.FlattensTo ids v w) (hnode : v.heap.node? holder = some node)
    (f : Storage κ → Run κ σ α) : (Run.slots holder >>= f) w = f node.slots w := by
  obtain ⟨other, hother, hslots, -⟩ := Heap.exists_parts_flattened hnode ids
  rw [Run.slots_bind (hvw.heap_eq ▸ hother) f, hslots]

/-- A field of the node's own is written by nobody else. -/
theorem matches_writeSlot (rt : Runtime κ σ) (hvw : World.FlattensTo ids v w)
    (hnode : v.heap.node? holder = some node) {name : Symbol} {index : Nat} {writable : Bool}
    (hfield : node.slots.fieldSlot? name = some (index, writable)) (value : Value κ) :
    Run.Matches ids (rt.writeSlot holder name value v) (rt.writeSlot holder name value w) := by
  unfold writeSlot
  rw [Run.slots_bind hnode, slots_bind_flattened hvw hnode, hfield]
  dsimp only
  split
  · cases node.slots.write? index value with
    | some written => exact Run.Indifferent.setSlots holder written v w hvw
    | none => exact Run.Indifferent.halt .outOfBounds v w hvw
  · exact Run.Indifferent.raise _ v w hvw

/-- A custom field is asked to do it. -/
theorem writeSlot_custom (rt : Runtime κ σ) {storage : Storage κ}
    (hslots : ∀ f : Storage κ → Run κ σ Unit, (Run.slots holder >>= f) v = f storage v)
    {name : Symbol} {standIn : Value κ} (hfield : storage.fieldSlot? name = none)
    (hcustom : storage.custom? name = some standIn) (value : Value κ) :
    rt.writeSlot holder name value v =
      (rt.invoke standIn Selector.writeField [value] >>= fun _ => pure ()) v := by
  unfold writeSlot
  rw [hslots, hfield, hcustom, bind_pure_comp]
  rfl

/-! ## At the end of a walk -/

/-- Sending a message to the slot it names. -/
theorem sameEffect_invokeSlot (rt : Runtime κ σ) (hvw : World.FlattensTo ids v w)
    (hnode : v.heap.node? holder = some node) {selector : Symbol} {slot : Slot κ}
    (hslot : node.slots.find selector = some slot) (receiver : Value κ) (arguments : List (Value κ)) :
    rt.SameEffect ids selector (.found holder slot)
      (rt.invokeSlot holder slot receiver selector arguments v)
      (rt.invokeSlot holder slot receiver selector arguments w) := by
  have hslots (f : Storage κ → Run κ σ (Value κ)) := Run.slots_bind hnode f
  have hslots' (f : Storage κ → Run κ σ (Value κ)) := slots_bind_flattened hvw hnode f
  have hassign (f : Storage κ → Run κ σ Unit) := Run.slots_bind hnode f
  have hassign' (f : Storage κ → Run κ σ Unit) := slots_bind_flattened hvw hnode f
  cases Storage.names_of_find hslot with
  | @field index writable hfield =>
    simp only [invokeSlot, readIndex, bind_assoc]
    rw [hslots, hslots']
    cases node.slots.read? index with
    | none => exact .matches (Run.Indifferent.halt .outOfBounds v w hvw)
    | some value =>
      simp only [pure_bind]
      unfold applyFieldValue
      split
      · exact .applied _ arguments hvw
      · split
        · exact .matches (Run.Indifferent.pure _ v w hvw)
        · exact .matches (Run.Indifferent.raise _ v w hvw)
  | method _ =>
    simp only [invokeSlot, methodClosure, bind_assoc]
    obtain ⟨other, hother, -, hparent, -⟩ := Heap.exists_parts_flattened hnode ids
    rw [Run.node_bind_of_some hnode, Run.node_bind_of_some (hvw.heap_eq ▸ hother), hparent]
    exact .applied _ arguments hvw
  | custom _ _ => exact .asked Selector.readField [] _ rfl hvw
  | @mutator target index writable htarget hfield =>
    match arguments with
    | [value] =>
      refine .matches ?_
      simp only [invokeSlot, assignmentTarget, htarget, pure_bind]
      exact (rt.matches_writeSlot hvw hnode hfield value).bind_of fun _ => Run.Indifferent.pure value
    | [] => exact .matches (Run.Indifferent.raise _ v w hvw)
    | _ :: _ :: _ => exact .matches (Run.Indifferent.raise _ v w hvw)
  | @customMutator target standIn htarget hfield hcustom =>
    match arguments with
    | [value] =>
      have hwrite := rt.writeSlot_custom hassign hfield hcustom value
      have hwrite' := rt.writeSlot_custom hassign' hfield hcustom value
      simp only [invokeSlot, assignmentTarget, htarget, pure_bind]
      rw [Run.bind_eq_of_eq hwrite, Run.bind_eq_of_eq hwrite', bind_assoc]
      exact .asked Selector.writeField [value] _ rfl hvw
    | [] => exact .matches (Run.Indifferent.raise _ v w hvw)
    | _ :: _ :: _ => exact .matches (Run.Indifferent.raise _ v w hvw)

/-- Answering a slot as a closure. -/
theorem Indifferent.selectSlot (ids : List ObjectId) (holder : ObjectId) (slot : Slot κ)
    (receiver : Value κ) (selector : Symbol) :
    Run.Indifferent ids (Runtime.selectSlot holder slot receiver selector : Run κ σ (Value κ)) := by
  have hmutator :
      Run.Indifferent ids (Runtime.mutator holder receiver selector : Run κ σ (Value κ)) := by
    unfold Runtime.mutator Runtime.assignmentTarget
    cases selector.assignmentTarget? with
    | some name =>
      exact (Run.Indifferent.pure name).bind fun _ => Run.Indifferent.fresh.bind fun _ => .newClosure _
    | none => exact (Run.Indifferent.raise _).bind fun _ => Run.Indifferent.fresh.bind fun _ => .newClosure _
  cases slot with
  | field _ _ => exact Run.Indifferent.fresh.bind fun _ => .newClosure _
  | custom _ => exact Run.Indifferent.fresh.bind fun _ => .newClosure _
  | mutator _ writable =>
    refine Run.Indifferent.bind ?_ fun _ => hmutator
    unfold checkWritable
    split
    · exact .pure ()
    · exact .raise _
  | customMutator _ => exact hmutator
  | method method =>
    simp only [Runtime.selectSlot, methodClosure, bind_assoc]
    refine Run.Indifferent.node_bind holder (fun node => .newClosure _) fun node => ?_
    rw [Node.dynamicParent_flattened]

/-- Assigning to a slot. -/
theorem sameEffect_assignSlot (rt : Runtime κ σ) (hvw : World.FlattensTo ids v w)
    (hnode : v.heap.node? holder = some node) {selector : Symbol} {slot : Slot κ}
    (hslot : node.slots.find selector = some slot) (value : Value κ) :
    rt.SameEffect ids selector (.found holder slot)
      (((fun _ => .nil) <$> Walk.assignSlot rt selector value holder slot) v)
      (((fun _ => .nil) <$> Walk.assignSlot rt selector value holder slot) w) := by
  have hassign (f : Storage κ → Run κ σ Unit) := Run.slots_bind hnode f
  have hassign' (f : Storage κ → Run κ σ Unit) := slots_bind_flattened hvw hnode f
  simp only [← bind_pure_comp]
  cases Storage.names_of_find hslot with
  | field hfield =>
    exact .matches ((rt.matches_writeSlot hvw hnode hfield value).bind_of fun _ =>
      Run.Indifferent.pure Value.nil)
  | custom hfield hcustom =>
    have hwrite := rt.writeSlot_custom hassign hfield hcustom value
    have hwrite' := rt.writeSlot_custom hassign' hfield hcustom value
    simp only [Walk.assignSlot]
    rw [Run.bind_eq_of_eq hwrite, Run.bind_eq_of_eq hwrite', bind_assoc]
    exact .asked Selector.writeField [value] _ rfl hvw
  | method _ => exact .matches (Run.Indifferent.raise _ v w hvw)
  | mutator _ _ => exact .matches (Run.Indifferent.raise _ v w hvw)
  | customMutator _ _ _ => exact .matches (Run.Indifferent.raise _ v w hvw)

end Runtime

/-- What is done at a slot is the same. -/
theorem Walk.Operation.sameEffect_found {walk : Walk κ σ α} (hwalk : walk.Operation)
    (rt : Runtime κ σ) {ids : List ObjectId} {v w : World κ σ} (hvw : World.FlattensTo ids v w)
    {holder : ObjectId} {slot : Slot κ} (hslot : v.heap.slot? walk.selector holder = some slot) :
    rt.SameEffect ids walk.selector (.found holder slot)
      ((walk.answer <$> walk.found rt holder slot) v)
      ((walk.answer <$> walk.found rt holder slot) w) := by
  obtain ⟨node, hnode, hfind⟩ := Option.bind_eq_some_iff.mp hslot
  cases hwalk with
  | invoke receiver selector arguments =>
    have hinvoke := rt.sameEffect_invokeSlot hvw hnode hfind receiver arguments
    simpa only [Walk.invoke, id_map'] using hinvoke
  | select receiver selector =>
    refine .matches (Run.Indifferent.map _ ?_ v w hvw)
    exact Runtime.Indifferent.selectSlot ids holder slot receiver selector
  | assignField selector value => exact rt.sameEffect_assignSlot hvw hnode hfind value
  | respondsTo selector =>
    refine .matches (Run.Indifferent.map _ ?_ v w hvw)
    cases slot <;> exact .pure _

/-! ## When nothing is found -/

namespace World

variable {ids : List ObjectId} {v w : World κ σ} {ops : List MetaOp} {mirage mirror : ObjectId}

theorem DoesDefault.mono {fewer : List MetaOp} (h : v.DoesDefault ops mirage mirror)
    (hfewer : ∀ op ∈ fewer, op ∈ ops) : v.DoesDefault fewer mirage mirror :=
  { h with inherits := fun op hop => h.inherits op (hfewer op hop) }

/-- A mirror goes on doing the default thing for a mirage that is not flattened. -/
theorem DoesDefault.flattened (h : v.DoesDefault ops mirage mirror) (hmem : mirage ∉ ids) :
    (v.flattened ids).DoesDefault ops mirage mirror := by
  obtain ⟨body, hbound⟩ := h.bound
  obtain ⟨plain, hplain⟩ := h.plain
  obtain ⟨holder, node, index, writable, hsearch, hholder, hread⟩ := h.base
  have hbound' : (v.flattened ids).heap.node? mirage = some (.mirage ⟨body, some mirror⟩) :=
    (Heap.node?_flattened_of_not_mem hmem).trans hbound
  have hplain' : (v.flattened ids).heap.node? mirror = some (.object plain) :=
    Heap.node?_flattened_of_flat hplain rfl
  refine ⟨fun op hop => ?_, ⟨body, hbound'⟩, ⟨plain, hplain'⟩, ?_⟩
  · obtain ⟨method, hmethod, hfound⟩ := (h.inherits op hop).inherits
    exact ⟨⟨body, hbound'⟩, ⟨plain, hplain'⟩, method, hmethod,
      Heap.searchDynamic_flattened_of_found hfound ids⟩
  · obtain ⟨other, hother, hslots, -⟩ := Heap.exists_parts_flattened hholder ids
    exact ⟨holder, other, index, writable, Heap.searchDynamic_flattened_of_found hsearch ids,
      hother, hslots ▸ hread⟩

theorem Plainlike.flattensTo {id : ObjectId} (h : v.Plainlike ops id) (hvw : FlattensTo ids v w) :
    w.Plainlike ops id := by
  refine Plainlike.of_alike ?_ hvw
  rcases h with ⟨body, hbody⟩ | ⟨mirror, hmirror⟩
  · exact .inl ⟨body, Heap.node?_flattened_of_flat hbody rfl⟩
  · by_cases hmem : id ∈ ids
    · obtain ⟨body, hbound⟩ := hmirror.bound
      refine .inl ⟨body, ?_⟩
      show (v.heap.flattened ids).node? id = some (.object body)
      rw [Heap.node?_flattened, if_pos hmem, hbound]
      rfl
    · exact .inr ⟨mirror, hmirror.flattened hmem⟩

end World

namespace Runtime

variable (host : Host κ σ) (steps : Nat) {ids : List ObjectId} {v w : World κ σ}

/-- A plain object, or a mirage whose mirror does the default thing, answers the default handler. -/
theorem send_doesNotUnderstand {id : ObjectId} (h : v.Plainlike [.doesNotUnderstand] id)
    (selector : Symbol) :
    ∃ after, v.Alike after ∧ (ofFuel host (steps + 1)).send (.object id) (.doesNotUnderstand selector) v =
      Run.defaultHandler (.object id) selector after :=
  send_plainlike host steps h (List.mem_singleton_self _)

/--
Asked for its handler, a receiver answers the default one or fails, and does so in the
flattened world too.
-/
theorem send_doesNotUnderstand_cases (hvw : World.FlattensTo ids v w)
    {receiver : Value κ} (hreceiver : ∀ id mirage, receiver = .object id →
      v.heap.node? id = some (.mirage mirage) → v.Plainlike [.doesNotUnderstand] id)
    (selector : Symbol) :
    (∃ v' w', v.Alike v' ∧ w.Alike w' ∧
      (ofFuel host (steps + 1)).send receiver (.doesNotUnderstand selector) v =
        Run.defaultHandler receiver selector v' ∧
      (ofFuel host (steps + 1)).send receiver (.doesNotUnderstand selector) w =
        Run.defaultHandler receiver selector w') ∨
    ∃ reason, (ofFuel host (steps + 1)).send receiver (.doesNotUnderstand selector) v = .error reason v ∧
      (ofFuel host (steps + 1)).send receiver (.doesNotUnderstand selector) w = .error reason w := by
  cases receiver with
  | object id =>
    by_cases hplainlike : v.Plainlike [.doesNotUnderstand] id
    · obtain ⟨v', hv, hsend⟩ := send_doesNotUnderstand host steps hplainlike selector
      obtain ⟨w', hw, hsend'⟩ := send_doesNotUnderstand host steps (hplainlike.flattensTo hvw) selector
      exact .inl ⟨v', w', hv, hw, hsend, hsend'⟩
    · right
      show ∃ reason, (Run.node id >>= _) v = _ ∧ (Run.node id >>= _) w = _
      cases hnode : v.heap.node? id with
      | none =>
        have hnone : w.heap.node? id = none := by
          rw [hvw.heap_eq, Heap.node?_flattened_eq_none hnode]
        refine ⟨.dangling id, ?_⟩
        rw [Run.node_bind, Run.node_bind, Heap.get_eq_error_iff.mpr ⟨hnode, rfl⟩,
          Heap.get_eq_error_iff.mpr ⟨hnone, rfl⟩]
        exact ⟨rfl, rfl⟩
      | some node =>
        match node with
        | .object body => exact absurd (.inl ⟨body, hnode⟩) hplainlike
        | .mirage mirage => exact absurd (hreceiver id mirage rfl hnode) hplainlike
        | .frame frame =>
          have hframe : w.heap.node? id = some (.frame frame) := by
            rw [hvw.heap_eq, Heap.node?_flattened_of_flat hnode rfl]
          rw [Run.node_bind_of_some hnode, Run.node_bind_of_some hframe]
          exact ⟨_, rfl, rfl⟩
  | _ => exact .inl ⟨v, w, .refl v, .refl w, rfl, rfl⟩

/-- The default handler fails for want of the selector, in a frame for its arguments. -/
theorem applyValue_defaultHandler (hsound : v.Sound) (receiver : Value κ) (selector : Symbol)
    (arguments : List (Value κ)) :
    (Run.defaultHandler receiver selector >>= fun handler =>
        (ofFuel host (steps + 1)).applyValue handler arguments) v =
      .error (.raised (notFound selector receiver))
        ({ v with supply := v.supply + 2 }.enter (receiver.asObject?.getD v.lexicalRoot)
          [(⟨"arguments"⟩, .table ⟨v.supply + 2⟩ arguments)]) := by
  have hsound' : World.Sound { v with supply := v.supply + 2 } := ⟨hsound.free, hsound.defaults⟩
  have haccepts : (Method.builtin ⟨v.supply⟩ selector [.rest ⟨"arguments"⟩]
      (.notUnderstood selector) : Method κ).Accepts arguments.length := ⟨rfl, rfl⟩
  exact (ofFuel host (steps + 1)).apply_eq
    ⟨_, ⟨receiver.asObject?.getD v.lexicalRoot, receiver, .nil⟩⟩ hsound' haccepts

theorem Indifferent.defaultHandler (ids : List ObjectId) (receiver : Value κ) (selector : Symbol) :
    Run.Indifferent ids (Run.defaultHandler receiver selector : Run κ σ (Value κ)) := by
  refine Run.Indifferent.fresh.bind fun _ => ?_
  refine Run.Indifferent.get (fun _ => .newClosure _) fun v w hvw => ?_
  rw [hvw.eq_with]

/-- Primitives answer the same, but for the one that enters code. -/
theorem sameEffect_callPrimitive (rt : Runtime κ σ) (hvw : World.FlattensTo ids v w)
    {primitive : Primitive} {selector : Symbol}
    (hprimitive : Primitive.ofSelector? selector = some primitive) (receiver : Value κ)
    (arguments : List (Value κ)) :
    rt.SameEffect ids selector .absent (rt.callPrimitive primitive receiver selector arguments v)
      (rt.callPrimitive primitive receiver selector arguments w) := by
  unfold callPrimitive
  split
  · exact .matches (Run.Indifferent.raise _ v w hvw)
  · split
    · exact .matches (Run.Indifferent.pure _ v w hvw)
    · exact .matches (Run.Indifferent.pure _ v w hvw)
    · exact .created receiver arguments hprimitive hvw
    · exact .matches (Run.Indifferent.pure _ v w hvw)
    · exact .matches (Run.Indifferent.halt _ v w hvw)

end Runtime

/-- Whose handler is asked for when the message is not understood. -/
def Message.receiver? : Message κ → Option (Value κ)
  | .invoke receiver _ _ | .select receiver _ => some receiver
  | _ => none

/-- What is done when nothing is found is the same. -/
theorem Walk.Operation.sameEffect_absent {walk : Walk κ σ α} (hwalk : walk.Operation)
    (host : Host κ σ) (steps : Nat) {ids : List ObjectId} {v w : World κ σ} (hsound : v.Sound)
    (hvw : World.FlattensTo ids v w)
    (hreceiver : ∀ id mirage, walk.message.receiver? = some (.object id) →
      v.heap.node? id = some (.mirage mirage) → v.Plainlike [.doesNotUnderstand] id)
    (last last' : ObjectId) :
    (Runtime.ofFuel host (steps + 1)).SameEffect ids walk.selector .absent
      ((walk.answer <$> walk.absent (.ofFuel host (steps + 1)) last) v)
      ((walk.answer <$> walk.absent (.ofFuel host (steps + 1)) last') w) := by
  cases hwalk with
  | invoke receiver selector arguments =>
    have hcases := Runtime.send_doesNotUnderstand_cases host steps hvw
      (fun id mirage hid => hreceiver id mirage (congrArg some hid)) selector
    simp only [Walk.invoke, id_map', Runtime.invokeFallback]
    cases hprimitive : Primitive.ofSelector? selector with
    | some primitive =>
      exact Runtime.sameEffect_callPrimitive _ hvw hprimitive receiver arguments
    | none =>
      refine .matches ?_
      dsimp only
      rcases hcases with ⟨v', w', hv, hw, hsend, hsend'⟩ | ⟨reason, hsend, hsend'⟩
      · have hflat := hvw.of_alike hv hw
        rw [Run.bind_eq_of_eq hsend, Run.bind_eq_of_eq hsend',
          Runtime.applyValue_defaultHandler host steps (hsound.of_alike hv),
          Runtime.applyValue_defaultHandler host steps ((hsound.flattened ids).of_alike (hvw.trans hw)),
          hflat.eq_with]
        exact .error (.refl _) (World.FlattensTo.enter (.with_log _ w'.log) _ _)
      · rw [Run.bind_eq_of_eq (y := Run.halt reason) hsend,
          Run.bind_eq_of_eq (y := Run.halt reason) hsend']
        exact .error (.refl _) hvw
  | select receiver selector =>
    have hcases := Runtime.send_doesNotUnderstand_cases host steps hvw
      (fun id mirage hid => hreceiver id mirage (congrArg some hid)) selector
    simp only [Walk.select, id_map', Runtime.selectFallback]
    refine .matches ?_
    cases hprimitive : Primitive.ofSelector? selector with
    | some primitive =>
      refine Run.Indifferent.fresh.bind (fun _ => ?_) v w hvw
      refine Run.Indifferent.get (fun _ => .newClosure _) fun v w hvw => ?_
      rw [hvw.eq_with]
    | none =>
      dsimp only
      rcases hcases with ⟨v', w', hv, hw, hsend, hsend'⟩ | ⟨reason, hsend, hsend'⟩
      · rw [hsend, hsend']
        exact Runtime.Indifferent.defaultHandler ids receiver selector v' w' (hvw.of_alike hv hw)
      · rw [hsend, hsend']
        exact .error (.refl _) hvw
  | assignField selector value => exact .matches (.error (.notFound _ _ _) hvw)
  | respondsTo selector => exact .matches (.ok _ hvw)

/-! ## The four operations -/

/-- What the mirrors of a transparent chain inherit. -/
def MetaOp.delegated : List MetaOp :=
  [.invoke, .select, .assignField, .respondsTo, .doesNotUnderstand]

theorem Walk.Operation.mem_delegated {walk : Walk κ σ α} (hwalk : walk.Operation) :
    walk.message.op ∈ MetaOp.delegated := by
  cases hwalk with
  | invoke _ _ _ => exact (by decide : MetaOp.invoke ∈ MetaOp.delegated)
  | select _ _ => exact (by decide : MetaOp.select ∈ MetaOp.delegated)
  | assignField _ _ => exact (by decide : MetaOp.assignField ∈ MetaOp.delegated)
  | respondsTo _ => exact (by decide : MetaOp.respondsTo ∈ MetaOp.delegated)

/-- A walk ends with a resolution, having looked into these nodes. -/
def Runtime.Resolves (rt : Runtime κ σ) (op : MetaOp) (selector : Symbol) (start : ObjectId)
    (world : World κ σ) (visited : List ObjectId) (resolution : Resolution κ) : Prop :=
  ∃ last after, rt.resolveVisiting op selector rt.fuel start world =
    .ok (visited, last, resolution) after ∧ world.Alike after

namespace Runtime.Resolves

variable {rt : Runtime κ σ} {op : MetaOp} {selector : Symbol} {start : ObjectId} {world : World κ σ}
  {visited : List ObjectId} {resolution : Resolution κ}

/-- The walk proper ends so. -/
theorem resolve (h : rt.Resolves op selector start world visited resolution) :
    ∃ last after, rt.resolve op selector start world = .ok (last, resolution) after ∧
      world.Alike after := by
  obtain ⟨last, after, hvisiting, halike⟩ := h
  refine ⟨last, after, ?_, halike⟩
  rw [Runtime.resolve, ← map_snd_resolveVisiting, ← bind_pure_comp, Run.bind_of_ok hvisiting]
  rfl

end Runtime.Resolves

/-- A node does by default what is done at the end of the walk. -/
theorem Walk.Operation.performDefault_of_resolves {walk : Walk κ σ α} (hwalk : walk.Operation)
    {rt : Runtime κ σ} {start : ObjectId} {world : World κ σ} {visited : List ObjectId}
    {resolution : Resolution κ}
    (h : rt.Resolves walk.message.op walk.selector start world visited resolution) :
    ∃ last after, world.Alike after ∧ rt.performDefault start walk.message world =
      (walk.answer <$> walk.conclude rt last resolution) after := by
  obtain ⟨last, after, hresolve, halike⟩ := h.resolve
  refine ⟨last, after, halike, ?_⟩
  rw [hwalk.performs.inPlace, Walk.inPlace, map_bind, Run.bind_of_ok hresolve]

/--
Mirages whose mirrors do the default thing are transparent to the four operations that
walk along dynamic parents.  Along a chain of plain objects and such mirages the walk
ends, having looked into no node twice, at the slot that is nearest by the chain alone,
whether or not the mirages are flattened, and there has the same effect.  A receiver
whose handler is asked for because nothing is found is a node of the chain, no mirage,
or a mirage whose mirror does the default thing too.
-/
theorem Walk.transparent (host : Host κ σ) {walk : Walk κ σ α} (hwalk : walk.Operation)
    {world : World κ σ} (hsound : world.Sound) {start : ObjectId} {ids : List ObjectId}
    (hchain : world.heap.Chain (.object start) ids)
    (hplainlike : ∀ id ∈ ids, world.Plainlike MetaOp.delegated id) {steps : Nat}
    (hsteps : ids.length ≤ steps) :
    world.heap.visited walk.selector ids <+: ids ∧ (world.heap.visited walk.selector ids).Nodup ∧
      (Runtime.ofFuel host steps).Resolves walk.message.op walk.selector start world
        (world.heap.visited walk.selector ids) (world.heap.nearest walk.selector ids) ∧
      (Runtime.ofFuel host steps).Resolves walk.message.op walk.selector start (world.flattened ids)
        (world.heap.visited walk.selector ids) (world.heap.nearest walk.selector ids) ∧
      ((∀ id mirage, world.heap.nearest walk.selector ids = .absent →
          walk.message.receiver? = some (.object id) → id ∉ ids →
            world.heap.node? id = some (.mirage mirage) →
              ∃ mirror, world.DoesDefault [.doesNotUnderstand] id mirror) →
        (Runtime.ofFuel host steps).SameEffect ids walk.selector
          (world.heap.nearest walk.selector ids)
          ((Runtime.ofFuel host steps).performDefault start walk.message world)
          ((Runtime.ofFuel host steps).performDefault start walk.message (world.flattened ids))) := by
  have hfuel : ids.length ≤ (Runtime.ofFuel host steps).fuel := by rwa [Runtime.fuel_ofFuel]
  have hflat : ∀ id ∈ ids, (world.flattened ids).Plainlike MetaOp.delegated id := fun id hmem =>
    (hplainlike id hmem).flattensTo (.refl _)
  have hinitial := world.heap.visited_initial walk.selector ids
  have hresolves : (Runtime.ofFuel host steps).Resolves walk.message.op walk.selector start world
      (world.heap.visited walk.selector ids) (world.heap.nearest walk.selector ids) :=
    Runtime.resolveVisiting_along _ hwalk.mem_delegated walk.selector hchain hplainlike hfuel
  have hresolves' : (Runtime.ofFuel host steps).Resolves walk.message.op walk.selector start
      (world.flattened ids) (world.heap.visited walk.selector ids)
      (world.heap.nearest walk.selector ids) := by
    obtain ⟨hnearest, hvisited⟩ := Heap.nearest_visited_congr
      (world.heap.slot?_flattened ids walk.selector) ids
    rw [← hnearest, ← hvisited]
    exact Runtime.resolveVisiting_along _ hwalk.mem_delegated walk.selector (hchain.flattened ids) hflat
      hfuel
  refine ⟨hinitial, hchain.nodup.sublist hinitial.sublist, hresolves, hresolves', fun hreceiver => ?_⟩
  obtain ⟨last, after, halike, hperform⟩ := hwalk.performDefault_of_resolves hresolves
  obtain ⟨last', after', halike', hperform'⟩ := hwalk.performDefault_of_resolves hresolves'
  have hvw : World.FlattensTo ids after after' :=
    World.FlattensTo.of_alike (w := world.flattened ids) (.refl _) halike halike'
  have hheap : world.heap = after.heap := World.Affinity.heap_eq halike
  rw [hperform, hperform']
  cases hresolution : world.heap.nearest walk.selector ids with
  | found holder slot =>
    exact hwalk.sameEffect_found _ hvw (hheap ▸ Heap.slot?_of_nearest hresolution)
  | delegate next => exact absurd hresolution (world.heap.nearest_ne_delegate _ ids next)
  | absent =>
    have hpositive := List.length_pos_iff.mpr (List.ne_nil_of_mem hchain.mem_self)
    obtain ⟨steps, rfl⟩ : ∃ k, steps = k + 1 := ⟨steps - 1, by omega⟩
    refine hwalk.sameEffect_absent host steps (hsound.of_alike halike) hvw ?_ last last'
    intro id mirage hid hmirage
    refine World.Plainlike.of_alike ?_ halike
    by_cases hmem : id ∈ ids
    · rcases hplainlike id hmem with hplain | ⟨mirror, hmirror⟩
      · exact .inl hplain
      · exact .inr ⟨mirror, hmirror.mono (by decide)⟩
    · exact .inr (hreceiver id mirage hresolution hid hmem (hheap ▸ hmirage))

/--
A chain from a plain object at index 5 by way of a mirage at index 3 to the object at
index 2, which has a field `x`; at index 4 the mirage's mirror, which overrides nothing.
-/
private def veiled : World Empty Unit :=
  let world : World Empty Unit := World.new default ()
  let plain : PrototypeObject Empty :=
    { slots := Storage.empty ⟨100⟩
      dynamicParent := .object ⟨3⟩
      lexicalParent := none
      link := .isA
      typeTags := []
      family := ⟨3⟩
      flags := .none }
  let holder : PrototypeObject Empty :=
    { plain with
      slots :=
        { Storage.empty ⟨101⟩ with
          fields := [{ name := ⟨"x"⟩, writable := true, value := .nil }] }
      dynamicParent := .nil }
  let mirror : PrototypeObject Empty :=
    { plain with
      slots :=
        { Storage.empty ⟨102⟩ with
          fields := [{ name := Selector.base, writable := false, value := .object ⟨3⟩ }] }
      dynamicParent := .object world.mirrorRoot }
  let nodes : List (Node Empty) :=
    [.object holder, .mirage ⟨{ plain with dynamicParent := .object ⟨2⟩ }, some ⟨4⟩⟩,
      .object mirror, .object plain]
  { world with heap := nodes.foldl (fun heap node => (heap.allocate node).2) world.heap }

private theorem sound_veiled : veiled.Sound where
  free := ((((World.sound_new default ()).free.allocate _).allocate _).allocate _).allocate _
  defaults := ⟨3, rfl⟩

private theorem chain_veiled : veiled.heap.Chain (.object ⟨5⟩) [⟨5⟩, ⟨3⟩, ⟨2⟩] :=
  .cons rfl rfl (.cons rfl rfl (.cons rfl rfl .nil))

private theorem doesDefault_veiled : veiled.DoesDefault MetaOp.delegated ⟨3⟩ ⟨4⟩ where
  inherits := by
    intro op hop
    refine ⟨⟨_, rfl⟩, ⟨_, rfl⟩, ?_⟩
    simp only [MetaOp.delegated, List.mem_cons, List.not_mem_nil, or_false] at hop
    rcases hop with rfl | rfl | rfl | rfl | rfl <;> exact ⟨_, rfl, rfl⟩
  bound := ⟨_, rfl⟩
  plain := ⟨_, rfl⟩
  base := ⟨⟨4⟩, _, 0, false, rfl, rfl, rfl⟩

private theorem plainlike_veiled : ∀ id ∈ [⟨5⟩, ⟨3⟩, ⟨2⟩], veiled.Plainlike MetaOp.delegated id := by
  intro id hmem
  simp only [List.mem_cons, List.not_mem_nil, or_false] at hmem
  rcases hmem with rfl | rfl | rfl
  · exact .inl ⟨_, rfl⟩
  · exact .inr ⟨⟨4⟩, doesDefault_veiled⟩
  · exact .inl ⟨_, rfl⟩

/-- Assigning to `x` at the bottom writes the field of the object behind the mirage. -/
theorem Walk.transparent_assignField :
    veiled.Sound ∧ veiled.heap.Chain (.object ⟨5⟩) [⟨5⟩, ⟨3⟩, ⟨2⟩] ∧
      (∀ id ∈ [⟨5⟩, ⟨3⟩, ⟨2⟩], veiled.Plainlike MetaOp.delegated id) ∧
      (Runtime.ofFuel .none 3).Resolves .assignField ⟨"x"⟩ ⟨5⟩ veiled [⟨5⟩, ⟨3⟩, ⟨2⟩]
        (.found ⟨2⟩ (.field 0 true)) ∧
      (Runtime.ofFuel .none 3).SameEffect [⟨5⟩, ⟨3⟩, ⟨2⟩] ⟨"x"⟩ (.found ⟨2⟩ (.field 0 true))
        ((Runtime.ofFuel .none 3).performDefault ⟨5⟩ (.assignField ⟨"x"⟩ (.bool true)) veiled)
        ((Runtime.ofFuel .none 3).performDefault ⟨5⟩ (.assignField ⟨"x"⟩ (.bool true))
          (veiled.flattened [⟨5⟩, ⟨3⟩, ⟨2⟩])) := by
  have htransparent := transparent .none (.assignField ⟨"x"⟩ (.bool true)) sound_veiled chain_veiled
    plainlike_veiled (Nat.le_refl 3)
  refine ⟨sound_veiled, chain_veiled, plainlike_veiled, htransparent.2.2.1, ?_⟩
  exact htransparent.2.2.2.2 fun _ _ hnone => nomatch hnone

end Prototypes
