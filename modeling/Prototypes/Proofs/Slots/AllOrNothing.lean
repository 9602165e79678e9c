import Prototypes.Proofs.Binding.Tying
import Prototypes.Proofs.Delegation.Responding
import Prototypes.Proofs.Safety.Parents
import Prototypes.Proofs.Slots.Fields

/-!
# Slots change or stay

Adding a slot, removing one, defining a field, assigning one or a variable, and binding a
mirror can each fail at several points: at the check of an argument, at the end of a search
that may have led through many nodes and mirrors, at the check that a name is free.  All of
these come before the first write.  So what fails leaves the whole heap as it was, and what
succeeds has put other slots in one node.

Code could come in between in two ways: a mirage whose mirror has a method of its own for
the operation, and a custom field that is asked for a value.  Both are excluded here.

## Main results

* `Heap.AllOrNothing` — the two outcomes.
* `Runtime.allOrNothing_assignField`, `Runtime.exists_allOrNothing_assignVariable` — what is
  done at the end of a search, the second by induction on the nodes around a scope.
* `Run.bindsOrNothing` — the same of binding, where a mirage gets its mirror besides.
* `Runtime.slots_change_or_stay` — all of it, from any well-formed world.
-/

namespace Prototypes

variable {κ σ α β : Type}

/-! ## All or nothing -/

/--
A run has failed and left the heap as it was, or it has put other slots in one node, as it
may, and the rest of the heap is what it was.
-/
inductive Heap.AllOrNothing (heap : Heap κ) (alters : ObjectId → Storage κ → Storage κ → Prop) :
    EStateM.Result Halt (World κ σ) α → Prop
  | nothing {error : RuntimeError} {after : World κ σ} :
      after.heap = heap → heap.AllOrNothing alters (.error (.raised error) after)
  | all {answer : α} {after : World κ σ} {holder : ObjectId} {node : Node κ} {slots : Storage κ} :
      heap.node? holder = some node → alters holder node.slots slots →
        after.heap = heap.replace holder (node.withSlots slots) →
          heap.AllOrNothing alters (.ok answer after)

namespace Heap.AllOrNothing

variable {heap : Heap κ} {alters other : ObjectId → Storage κ → Storage κ → Prop} {v : World κ σ}
  {id : ObjectId} {node : Node κ}

theorem mono {result : EStateM.Result Halt (World κ σ) α} (h : heap.AllOrNothing alters result)
    (hmore : ∀ holder slots after, alters holder slots after → other holder slots after) :
    heap.AllOrNothing other result := by
  cases h with
  | nothing hheap => exact .nothing hheap
  | all hnode halters hheap => exact .all hnode (hmore _ _ _ halters) hheap

/-- What is made of the answer does not matter. -/
theorem map {x : Run κ σ α} (h : heap.AllOrNothing alters (x v)) (f : α → β) :
    heap.AllOrNothing alters ((f <$> x) v) := by
  rw [← bind_pure_comp]
  cases hx : x v with
  | ok answer after =>
    rw [hx] at h
    rw [Run.bind_of_ok hx]
    cases h with
    | all hnode halters hheap => exact .all hnode halters hheap
  | error reason after =>
    rw [hx] at h
    rw [Run.bind_of_error hx]
    cases h with
    | nothing hheap => exact .nothing hheap

theorem setSlots (hnode : v.heap.node? id = some node) {slots : Storage κ}
    (halters : alters id node.slots slots) :
    v.heap.AllOrNothing alters (Run.setSlots id slots v) := by
  rw [Run.setSlots_of_node hnode]
  exact .all hnode halters rfl

theorem putField (hnode : v.heap.node? id = some node) {field : Field κ}
    (halters : ∀ fresh slots, node.slots.putField fresh field = .ok slots →
      alters id node.slots slots) :
    v.heap.AllOrNothing alters (Run.putField id field v) := by
  rw [Run.putField_of_node hnode]
  cases hput : node.slots.putField ⟨v.supply⟩ field with
  | error error => exact .nothing rfl
  | ok slots => exact .all hnode (halters _ _ hput) rfl

theorem addMethod (hnode : v.heap.node? id = some node) {method : Method κ}
    (halters : ∀ slots, node.slots.addMethod method = .ok slots → alters id node.slots slots) :
    v.heap.AllOrNothing alters
      ((do Run.setSlots id (← Run.check ((← Run.slots id).addMethod method)) : Run κ σ Unit) v) := by
  rw [Run.slots_bind hnode]
  cases hadd : node.slots.addMethod method with
  | error error => exact .nothing rfl
  | ok slots => exact setSlots hnode (halters slots hadd)

/-- A field that a selector names is written if it can be. -/
theorem writeSlot (rt : Runtime κ σ) {selector : Symbol} {index : Nat} {writable : Bool}
    (hslot : v.heap.slot? selector id = some (.field index writable)) {value : Value κ}
    (halters : ∀ slots after : Storage κ, slots.fieldSlot? selector = some (index, true) →
      slots.write? index value = some after → alters id slots after) :
    v.heap.AllOrNothing alters (rt.writeSlot id selector value v) := by
  obtain ⟨node, hnode, hfind⟩ := Option.bind_eq_some_iff.mp hslot
  have hfield := Storage.find_eq_field_iff.mp hfind
  cases writable with
  | false =>
    rw [rt.writeSlot_of_readOnly hnode hfield]
    exact .nothing rfl
  | true =>
    obtain ⟨written, hwrite⟩ := Storage.exists_write hfind value
    rw [rt.writeSlot_of_writable hnode hfield hwrite]
    exact .all hnode (halters _ _ hfield hwrite) rfl

end Heap.AllOrNothing

/-! ## Messages that change slots -/

/--
Messages that ask for a slot to be changed.  What is to be added as a field is none of a kind of
its own, which would be asked for its name: it is a reference to a field, or it is refused as a
method or a closure.
-/
def Message.changesSlot : Message κ → Bool
  | defineField .. | assignField .. | assignVariable .. | addMethod _
  | addField (.field _) | addField (.method _) | addField (.closure ..)
  | addSlot (.field _) | addSlot (.method _) | addSlot (.closure ..) | removeSlot _ => true
  | _ => false

namespace Heap

/-- A search that does not find the selector at the one node comes to the other. -/
def Seeks (heap : Heap κ) (route : Route κ) (selector : Symbol) (id next : ObjectId) : Prop :=
  heap.slot? selector id = none ∧ heap.Ascends route id next

/-- The nodes that have to do with a message to a node: it alone, unless there is a search. -/
def Searched (heap : Heap κ) (id : ObjectId) : Message κ → ObjectId → Prop
  | .assignField selector _ => Relation.ReflTransGen (heap.Seeks .dynamic selector) id
  | .assignVariable selector _ => Relation.ReflTransGen (heap.Seeks .lexical selector) id
  | _ => Eq id

/-- No custom field is assigned, nor asked for its value. -/
def OnlyNative (heap : Heap κ) (id : ObjectId) : Message κ → Prop
  | .assignField selector value => ∀ other, heap.Searched id (.assignField selector value) other →
      ∀ field, heap.slot? selector other ≠ some (.custom field)
  | .assignVariable selector value => ∀ other, heap.Searched id (.assignVariable selector value) other →
      ∀ field, heap.slot? selector other ≠ some (.custom field)
  | .addField (.field native) | .addSlot (.field native) =>
      ∃ host, heap.node? native.host = some host ∧ host.slots.custom? native.name = none
  | _ => True

/-- What a message to the node `id` makes of the slots of one node. -/
inductive Alters (heap : Heap κ) (id : ObjectId) :
    Message κ → ObjectId → Storage κ → Storage κ → Prop
  | defineField {selector : Symbol} {value : Value κ} {fresh : Identity} {slots after : Storage κ} :
      slots.putField fresh { name := selector, writable := true, value } = .ok after →
        Alters heap id (.defineField selector value) id slots after
  | assignField {selector : Symbol} {value : Value κ} {holder : ObjectId} {index : Nat}
      {slots after : Storage κ} : heap.Searched id (.assignField selector value) holder →
        slots.fieldSlot? selector = some (index, true) → slots.write? index value = some after →
          Alters heap id (.assignField selector value) holder slots after
  | assignVariable {selector : Symbol} {value : Value κ} {holder : ObjectId} {index : Nat}
      {slots after : Storage κ} : heap.Searched id (.assignVariable selector value) holder →
        slots.fieldSlot? selector = some (index, true) → slots.write? index value = some after →
          Alters heap id (.assignVariable selector value) holder slots after
  | addMethod {method : Method κ} {slots after : Storage κ} : slots.addMethod method = .ok after →
      Alters heap id (.addMethod (.method method)) id slots after
  | addClosure {identity : Identity} {closure : Closure κ} {slots after : Storage κ} :
      slots.addMethod closure.method = .ok after →
        Alters heap id (.addMethod (.closure identity closure)) id slots after
  /-- the field is a copy of the one referred to -/
  | addField {native : NativeField} {host : Node κ} {field : Field κ} {fresh : Identity}
      {slots after : Storage κ} : heap.node? native.host = some host →
        host.slots.field? native.name = some field → slots.putField fresh field = .ok after →
          Alters heap id (.addField (.field native)) id slots after
  | addSlotField {field : Value κ} {holder : ObjectId} {slots after : Storage κ} :
      Alters heap id (.addField field) holder slots after →
        Alters heap id (.addSlot field) holder slots after
  | addSlotMethod {method : Value κ} {holder : ObjectId} {slots after : Storage κ} :
      Alters heap id (.addMethod method) holder slots after →
        Alters heap id (.addSlot method) holder slots after
  | removeField {selector : Symbol} {fresh : Identity} {value : Value κ} {slots after : Storage κ} :
      slots.removeField? fresh selector = some (value, after) →
        Alters heap id (.removeSlot selector) id slots after
  | removeMethod {selector : Symbol} {method : Method κ} {slots after : Storage κ} :
      slots.removeMethod? selector = some (method, after) →
        Alters heap id (.removeSlot selector) id slots after
  | removeCustom {selector : Symbol} {field : Value κ} {slots after : Storage κ} :
      slots.removeCustom? selector = some (field, after) →
        Alters heap id (.removeSlot selector) id slots after

end Heap

/-- What is assigned around a node that is searched is assigned around the node that searches. -/
theorem Heap.Alters.assignVariable_of_searched {heap : Heap κ} {id next holder : ObjectId}
    {selector : Symbol} {value : Value κ} {slots after : Storage κ}
    (h : heap.Alters next (.assignVariable selector value) holder slots after)
    (hnext : heap.Searched id (.assignVariable selector value) next) :
    heap.Alters id (.assignVariable selector value) holder slots after := by
  cases h with
  | assignVariable hholder hfield hwrite => exact .assignVariable (hnext.trans hholder) hfield hwrite

/-! ## At one node -/

namespace Runtime

variable {v : World κ σ} {id : ObjectId} {node : Node κ}

theorem allOrNothing_defineField (hnode : v.heap.node? id = some node) (selector : Symbol)
    (value : Value κ) :
    v.heap.AllOrNothing (v.heap.Alters id (.defineField selector value))
      (defaultDefineField id selector value v) :=
  .putField hnode fun _ _ hput => .defineField hput

theorem allOrNothing_addMethod (hnode : v.heap.node? id = some node) (method : Value κ) :
    v.heap.AllOrNothing (v.heap.Alters id (.addMethod method)) (defaultAddMethod id method v) := by
  cases method with
  | closure identity closure => exact .addMethod hnode fun _ hadd => .addClosure hadd
  | method method => exact .addMethod hnode fun _ hadd => .addMethod hadd
  | _ => exact .nothing rfl

/-- The value of a field is read, and whether it can be assigned, before the copy is made. -/
theorem allOrNothing_addField (rt : Runtime κ σ) (hnode : v.heap.node? id = some node)
    {native : NativeField} {host : Node κ} (hhost : v.heap.node? native.host = some host)
    (hcustom : host.slots.custom? native.name = none) :
    v.heap.AllOrNothing (v.heap.Alters id (.addField (.field native)))
      (rt.defaultAddField id (.field native) v) := by
  show v.heap.AllOrNothing _ (rt.addNativeField id native v)
  cases hfield : host.slots.field? native.name with
  | none =>
    have hindex : host.slots.fieldIndex? native.name = none :=
      List.findIdx?_eq_none_iff.mpr fun field hmem =>
        Bool.eq_false_iff.mpr (List.find?_eq_none.mp hfield field hmem)
    have hread : rt.readSlot native.host native.name v =
        .error (.raised (notFoundFrom native.name native.host)) v := by
      unfold readSlot
      rw [Run.slots_bind hhost, hindex]
      dsimp only
      rw [hcustom]
      rfl
    unfold addNativeField
    rw [Run.bind_of_error hread]
    exact .nothing rfl
  | some field =>
    rw [rt.addNativeField_of_field hhost hfield]
    exact .putField hnode fun fresh slots hput => .addField hhost hfield hput

/-- What is removed is one of three kinds; nothing is removed of a name that is not there. -/
theorem allOrNothing_removeSlot (hnode : v.heap.node? id = some node) (selector : Symbol) :
    v.heap.AllOrNothing (v.heap.Alters id (.removeSlot selector))
      (defaultRemoveSlot id selector v) := by
  have hset {slots : Storage κ} (h : v.heap.Alters id (.removeSlot selector) id node.slots slots) :
      v.heap.AllOrNothing (v.heap.Alters id (.removeSlot selector))
        (Run.setSlots id slots { v with supply := v.supply + 1 }) :=
    .setSlots (v := { v with supply := v.supply + 1 }) hnode h
  unfold defaultRemoveSlot
  rw [Run.slots_bind hnode, Run.fresh_bind]
  cases hfield : node.slots.removeField? ⟨v.supply⟩ selector with
  | some removed => exact (hset (.removeField hfield)).map fun _ => removed.1
  | none =>
    dsimp only
    cases hmethod : node.slots.removeMethod? selector with
    | some removed => exact (hset (.removeMethod hmethod)).map fun _ => Value.method removed.1
    | none =>
      dsimp only
      cases hcustom : node.slots.removeCustom? selector with
      | some removed => exact (hset (.removeCustom hcustom)).map fun _ => removed.1
      | none => exact .nothing rfl

/-- What a node does by default to be given another slot, or to lose one. -/
theorem allOrNothing_performDefault (rt : Runtime κ σ) (hnode : v.heap.node? id = some node)
    {message : Message κ} (hchanges : message.changesSlot = true) (hnative : v.heap.OnlyNative id message)
    (hfield : ∀ selector value, message ≠ .assignField selector value)
    (hvariable : ∀ selector value, message ≠ .assignVariable selector value) :
    v.heap.AllOrNothing (v.heap.Alters id message) (rt.performDefault id message v) := by
  have hmethod (method : Value κ) := allOrNothing_addMethod hnode method
  cases message with
  | assignField selector value => exact absurd rfl (hfield selector value)
  | assignVariable selector value => exact absurd rfl (hvariable selector value)
  | defineField selector value =>
    exact (allOrNothing_defineField hnode selector value).map fun _ => Value.nil
  | addMethod method => exact (hmethod method).map fun _ => Value.nil
  | removeSlot selector => exact allOrNothing_removeSlot hnode selector
  | addField field =>
    refine Heap.AllOrNothing.map ?_ fun _ => Value.nil
    cases field with
    | field native =>
      obtain ⟨holder, hholder, hcustom⟩ := hnative
      exact rt.allOrNothing_addField hnode hholder hcustom
    | method _ | closure _ _ => exact .nothing rfl
    | _ => cases hchanges
  | addSlot slot =>
    cases slot with
    | field native =>
      obtain ⟨holder, hholder, hcustom⟩ := hnative
      exact ((rt.allOrNothing_addField hnode hholder hcustom).mono fun _ _ _ halters =>
        halters.addSlotField).map fun _ => Value.nil
    | method method =>
      exact ((hmethod (.method method)).mono fun _ _ _ halters => halters.addSlotMethod).map fun _ =>
        Value.nil
    | closure identity closure =>
      exact ((hmethod (.closure identity closure)).mono fun _ _ _ halters =>
        halters.addSlotMethod).map fun _ => Value.nil
    | _ => cases hchanges
  | _ => cases hchanges

end Runtime

/-! ## Nodes that are only asked for the default thing -/

/-- A call frame, a plain object, or a mirage whose mirror does the default thing for an operation. -/
def World.Yields (world : World κ σ) (op : MetaOp) (id : ObjectId) : Prop :=
  (∃ frame, world.heap.node? id = some (.frame frame)) ∨ world.Plainlike [op] id

namespace World.Yields

variable {world v : World κ σ} {op : MetaOp} {id : ObjectId}

theorem exists_node (h : world.Yields op id) : ∃ node, world.heap.node? id = some node := by
  rcases h with ⟨frame, hframe⟩ | ⟨body, hbody⟩ | ⟨mirror, hmirror⟩
  · exact ⟨_, hframe⟩
  · exact ⟨_, hbody⟩
  · obtain ⟨body, hbound⟩ := hmirror.bound
    exact ⟨_, hbound⟩

theorem of_alike (h : world.Yields op id) (halike : world.Alike v) : v.Yields op id := by
  rcases h with ⟨frame, hframe⟩ | hplainlike
  · exact .inl ⟨frame, World.Affinity.heap_eq halike ▸ hframe⟩
  · exact .inr (hplainlike.of_alike halike)

/-- Sent a message, it does what is done by default, or is a frame and refuses. -/
theorem allOrNothing_send (host : Host κ σ) {message : Message κ} (h : world.Yields message.op id)
    {heap : Heap κ} (hheap : world.heap = heap)
    {alters : ObjectId → Storage κ → Storage κ → Prop} {steps : Nat}
    (hperform : ∀ after, world.Alike after → heap.AllOrNothing alters
      ((Runtime.ofFuel host steps).performDefault id message after)) :
    heap.AllOrNothing alters ((Runtime.ofFuel host (steps + 1)).send (.object id) message world) := by
  rcases h with ⟨frame, hframe⟩ | hplainlike
  · have hsend : (Runtime.ofFuel host (steps + 1)).send (.object id) message world = _ :=
      Run.node_bind_of_some hframe _
    rw [hsend]
    dsimp only
    cases message.op.appliesToFrames with
    | true => exact hperform world (.refl world)
    | false => exact .nothing hheap
  · obtain ⟨after, halike, hsend⟩ :=
      Runtime.send_plainlike host steps hplainlike (List.mem_singleton_self _)
    rw [hsend]
    exact hperform after halike

end World.Yields

/-- All nodes that have to do with a message yield, and no custom field does. -/
structure World.Unhindered (world : World κ σ) (id : ObjectId) (message : Message κ) : Prop where
  yields : ∀ other, world.heap.Searched id message other → world.Yields message.op other
  native : world.heap.OnlyNative id message

/-! ## At the end of a search -/

namespace Heap.Path

variable {heap : Heap κ} {selector : Symbol} {id other : ObjectId} {ids : List ObjectId}
  {ending : Heap.Ending κ}

/-- A search comes to all nodes of its path. -/
theorem seeks {first : Value κ} (h : heap.Path selector first ids ending)
    (hfirst : first = .object id) (hmem : other ∈ ids) :
    Relation.ReflTransGen (heap.Seeks .dynamic selector) id other := by
  induction h generalizing id with
  | value _ => cases hmem
  | barred _ _ => cases hmem
  | found _ _ _ =>
    cases hfirst
    obtain rfl := List.mem_singleton.mp hmem
    exact .refl
  | @pass start node _ _ hnode _ hslot hrest ih =>
    cases hfirst
    rcases List.mem_cons.mp hmem with rfl | hmem
    · exact .refl
    · obtain ⟨next, hnext⟩ : ∃ next, node.dynamicParent = .object next := by
        generalize node.dynamicParent = parent at hrest
        cases hrest with
        | value _ => cases hmem
        | barred _ _ => cases hmem
        | found _ _ _ => exact ⟨_, rfl⟩
        | pass _ _ _ _ => exact ⟨_, rfl⟩
      exact .head ⟨(slot?_of_node? hnode selector).trans hslot, node, hnode, hnext⟩ (ih hnext hmem)

/-- The last node of a path that ends at a slot is the holder. -/
theorem holder_mem {first : Value κ} {slot : Slot κ}
    (h : heap.Path selector first ids (.found other slot)) : other ∈ ids := by
  generalize hending : Heap.Ending.found other slot = ending at h
  induction h with
  | value _ => cases hending
  | barred _ _ => cases hending
  | found _ _ _ =>
    cases hending
    exact List.mem_singleton_self _
  | pass _ _ _ _ ih => exact List.mem_cons_of_mem _ (ih hending)

end Heap.Path

namespace Runtime

variable (host : Host κ σ) {world : World κ σ} {id : ObjectId} {selector : Symbol} {value : Value κ}

/-- A value that is no node has no slots to be changed. -/
theorem send_value_of_changesSlot {target : Value κ} (h : target.asObject? = none) {message : Message κ}
    (hchanges : message.changesSlot = true) (steps : Nat) (v : World κ σ) :
    (ofFuel host (steps + 1)).send target message v =
      .error (.raised (.illegalOperation
        (.unsupported target.kindName target.display message.op))) v := by
  rw [send_of_asObject?_eq_none host h]
  cases message with
  | defineField _ _ => rfl
  | assignField _ _ => rfl
  | assignVariable _ _ => rfl
  | addField _ => rfl
  | addMethod _ => rfl
  | addSlot _ => rfl
  | removeSlot _ => rfl
  | _ => cases hchanges

/-- At the end of a path that is not barred a field is assigned if there is one to be assigned. -/
theorem allOrNothing_conclude {v : World κ σ} {ending : Heap.Ending κ}
    (hends : v.heap.EndsAt selector ending) (hfree : ∀ barrier, ending ≠ .barred barrier)
    (hnative : ∀ holder field, ending ≠ .found holder (.custom field))
    {alters : ObjectId → Storage κ → Storage κ → Prop}
    (halters : ∀ holder slot, ending = .found holder slot → ∀ (index : Nat) (slots after : Storage κ),
      slots.fieldSlot? selector = some (index, true) → slots.write? index value = some after →
        alters holder slots after) (start : ObjectId) (steps : Nat) :
    v.heap.AllOrNothing alters
      ((Walk.assignField selector value).conclude (ofFuel host (steps + 1)) start ending.resolution v) := by
  cases ending with
  | barred barrier => exact absurd rfl (hfree barrier)
  | value last =>
    rcases resolution_value hends with rfl | hresolution
    · exact .nothing rfl
    · rw [hresolution]
      refine Heap.AllOrNothing.map (f := fun _ => ()) ?_
      rw [send_value_of_changesSlot host hends rfl]
      exact .nothing rfl
  | found holder slot =>
    cases slot with
    | field index writable => exact .writeSlot _ hends (halters holder _ rfl index)
    | custom field => exact absurd rfl (hnative holder field)
    | mutator _ _ => exact .nothing rfl
    | method _ => exact .nothing rfl
    | customMutator _ => exact .nothing rfl

/-- A field is assigned at the end of the path, or nowhere. -/
theorem allOrNothing_assignField (hworld : world.WellFormed)
    (h : world.Unhindered id (.assignField selector value)) {steps : Nat}
    (hsteps : world.heap.walkLimit + 1 ≤ steps) :
    world.heap.AllOrNothing (world.heap.Alters id (.assignField selector value))
      ((ofFuel host steps).send (.object id) (.assignField selector value) world) := by
  obtain ⟨first, hfirst⟩ := (h.yields id .refl).exists_node
  obtain ⟨ids, ending, hpath⟩ := hworld.dynamic.exists_path (fun _ _ => hworld.edges.ascends) selector
    (Heap.contains_of_node? hfirst)
  have hseeks {other : ObjectId} (hmem : other ∈ ids) :
      world.heap.Searched id (.assignField selector value) other := hpath.seeks rfl hmem
  have hplainlike : ∀ other ∈ ids, world.Plainlike [.assignField] other := by
    intro other hmem
    obtain ⟨node, hnode, hanswers⟩ := hpath.exists_answering hmem
    rcases h.yields other (hseeks hmem) with ⟨frame, hframe⟩ | hplainlike
    · cases hnode.symm.trans hframe
      cases hanswers
    · exact hplainlike
  have hop : MetaOp.assignField ∈ [MetaOp.assignField] := List.mem_singleton_self _
  have hlength := hpath.length_lt_walkLimit hworld.dynamic
  have hwalk := Walk.Operation.assignField (σ := σ) selector value
  obtain ⟨steps, rfl⟩ : ∃ k, steps = k + 2 := ⟨steps - 2, by omega⟩
  show world.heap.AllOrNothing _
    ((ofFuel host (steps + 2)).send (.object id) (Walk.assignField (σ := σ) selector value).message world)
  by_cases hfree : ∀ barrier, ending ≠ .barred barrier
  · have hmem : id ∈ ids := hpath.mem_or_barred.resolve_right fun h => hfree id h.2
    obtain ⟨last, after, halike, hsend⟩ := hwalk.send_along host hworld.dynamic hpath hmem hop
      hplainlike (show ids.length ≤ steps + 1 by omega)
    have hheap : world.heap = after.heap := World.Affinity.heap_eq halike
    have hnative : ∀ holder field, ending ≠ .found holder (.custom field) := by
      rintro holder field rfl
      exact h.native holder (hseeks hpath.holder_mem) field hpath.endsAt
    rw [hsend]
    refine Heap.AllOrNothing.map ?_ _
    have hholder {holder : ObjectId} {slot : Slot κ} (hending : ending = .found holder slot) :
        world.heap.Searched id (.assignField selector value) holder := by
      subst hending
      exact hseeks hpath.holder_mem
    have hends := hpath.endsAt
    rw [hheap] at hends hholder ⊢
    exact allOrNothing_conclude host hends hfree hnative (fun holder slot hending index slots after =>
      .assignField (hholder hending)) last steps
  · obtain ⟨barrier, rfl⟩ : ∃ barrier, ending = .barred barrier := by
      simpa only [not_forall, not_not] using hfree
    obtain ⟨reason, after, halike, -, hsend⟩ := hwalk.send_barred host hworld.dynamic hpath hop
      rfl hplainlike (show ids.length ≤ steps by omega)
    rw [hsend]
    exact .nothing (World.Affinity.heap_eq halike).symm

/--
A variable is assigned where its search ends, or nowhere.  Where the search ends at a mirage
the mirage does the rest; the induction is on the nodes around.
-/
theorem exists_allOrNothing_assignVariable (hworld : world.WellFormed)
    (h : world.Unhindered id (.assignVariable selector value)) :
    ∃ enough, ∀ steps, enough ≤ steps → ∀ v, world.Alike v →
      world.heap.AllOrNothing (world.heap.Alters id (.assignVariable selector value))
        ((ofFuel host steps).send (.object id) (.assignVariable selector value) v) := by
  have hlive {id : ObjectId} (h : world.Unhindered id (.assignVariable selector value)) :
      world.heap.contains id = true :=
    let ⟨_, hnode⟩ := (h.yields id .refl).exists_node
    Heap.contains_of_node? hnode
  refine hworld.lexical.wellFounded.induction (C := fun id =>
    world.Unhindered id.1 (.assignVariable selector value) → ∃ enough, ∀ steps, enough ≤ steps → ∀ v,
      world.Alike v → world.heap.AllOrNothing (world.heap.Alters id.1 (.assignVariable selector value))
        ((ofFuel host steps).send (.object id.1) (.assignVariable selector value) v))
    ⟨id, hlive h⟩ (fun ⟨id, hid⟩ ih h => ?_) h
  obtain ⟨resolution, hsearch, hdecides⟩ := hworld.lexical.exists_searchAlong hworld.edges selector hid
  have hran (v : World κ σ) (hv : world.Alike v) :
      Run.searchLexical id selector v = .ok resolution v := by
    rw [World.Affinity.heap_eq hv, ← Heap.searchLexicalFrom_eq] at hsearch
    simp only [Run.searchLexical, Run.ofHeap, Run.observe, Heap.searchLexical, hsearch]
  have hseeks {other : ObjectId}
      (hpath : Relation.ReflTransGen (world.heap.Passes .lexical selector) id other) :
      world.heap.Searched id (.assignVariable selector value) other :=
    Relation.ReflTransGen.mono (fun _ _ h => ⟨h.1, h.2.1⟩) _ _ hpath
  -- it remains to see what the scope does by default
  suffices hdefault : ∃ enough, ∀ steps, enough ≤ steps → ∀ v, world.Alike v →
      world.heap.AllOrNothing (world.heap.Alters id (.assignVariable selector value))
        ((ofFuel host steps).defaultAssignVariable id selector value v) by
    obtain ⟨enough, hdefault⟩ := hdefault
    refine ⟨enough + 1, fun steps hsteps v hv => ?_⟩
    obtain ⟨steps, rfl⟩ : ∃ k, steps = k + 1 := ⟨steps - 1, by omega⟩
    have hyields := (h.yields id .refl).of_alike hv
    exact hyields.allOrNothing_send host (World.Affinity.heap_eq hv).symm
      fun after halike =>
        (hdefault steps (Nat.le_of_succ_le_succ hsteps) after (hv.trans halike)).map fun _ => Value.nil
  unfold defaultAssignVariable
  cases hdecides with
  | @found holder slot hpath hslot =>
    refine ⟨0, fun steps _ v hv => ?_⟩
    have hheap : world.heap = v.heap := World.Affinity.heap_eq hv
    rw [Run.bind_of_ok (hran v hv)]
    cases slot with
    | field index writable =>
      have hholder := hseeks hpath
      rw [hheap] at hslot hholder ⊢
      exact .writeSlot _ hslot fun _ _ hfield hwrite => .assignVariable hholder hfield hwrite
    | custom field => exact absurd hslot (h.native holder (hseeks hpath) field)
    | mutator _ _ => exact .nothing hheap.symm
    | method _ => exact .nothing hheap.symm
    | customMutator _ => exact .nothing hheap.symm
  | absent hpath hnode hslot hend =>
    refine ⟨0, fun steps _ v hv => ?_⟩
    rw [Run.bind_of_ok (hran v hv)]
    exact .nothing (World.Affinity.heap_eq hv).symm
  | @delegate last node hpath hnode hslot hleaves =>
    obtain ⟨next, hparent⟩ : ∃ next, Route.lexical.parent node = .object next := by
      obtain ⟨hthere, -⟩ := hleaves
      simp only [Route.lexical] at hthere ⊢
      cases hlexical : node.lexicalParent? with
      | none =>
        rw [hlexical] at hthere
        cases hthere
      | some next => exact ⟨next, rfl⟩
    have hascends : world.heap.Ascends .lexical last next := ⟨node, hnode, hparent⟩
    have haround : Relation.TransGen (world.heap.Ascends .lexical) id next :=
      .tail' (Relation.ReflTransGen.mono (fun _ _ h => h.2.1) _ _ hpath) hascends
    have hnext : world.heap.Searched id (.assignVariable selector value) next :=
      (hseeks hpath).tail ⟨(Heap.slot?_of_node? hnode selector).trans hslot, hascends⟩
    obtain ⟨enough, hasked⟩ := ih ⟨next, hworld.edges.ascends hascends⟩ haround
      { yields := fun other hother => h.yields other (hnext.trans hother)
        native := fun other hother => h.native other (hnext.trans hother) }
    refine ⟨enough, fun steps hsteps v hv => ?_⟩
    rw [Run.bind_of_ok (hran v hv), hparent]
    dsimp only [Value.expectObject]
    rw [Run.check_ok_bind]
    exact ((hasked steps hsteps v hv).mono fun _ _ _ halters =>
      halters.assignVariable_of_searched hnext).map fun _ => ()

end Runtime

/-! ## Binding a mirror -/

/--
Binding has failed and left the heap as it was, or it has given the mirror its read-only
field `base` and the mirage its mirror.  The two may be one node.
-/
inductive Heap.BindsOrNothing (heap : Heap κ) (mirror mirage : Value κ) :
    EStateM.Result Halt (World κ σ) Unit → Prop
  | nothing {error : RuntimeError} {after : World κ σ} :
      after.heap = heap → heap.BindsOrNothing mirror mirage (.error (.raised error) after)
  | bound {r m : ObjectId} {node : Node κ} {body : PrototypeObject κ} {fresh : Identity}
      {slots : Storage κ} {after : World κ σ} :
      mirror = .object r → mirage = .object m → heap.node? r = some node →
        heap.node? m = some (.mirage ⟨body, none⟩) →
          node.slots.putField fresh { name := Selector.base, writable := false, value := mirage } =
            .ok slots →
            after.heap = (heap.replace r (node.withSlots slots)).replace m
              (.mirage ⟨if m = r then { body with slots } else body, some r⟩) →
              heap.BindsOrNothing mirror mirage (.ok () after)

/-- The one is a mirage without a mirror, the other a node that has no slot `base` and is no mirror root. -/
def World.Fits (world : World κ σ) (mirror mirage : Value κ) : Prop :=
  ∃ r m node body, mirror = .object r ∧ mirage = .object m ∧ r ≠ world.mirrorRoot ∧
    world.heap.node? r = some node ∧ node.slots.hasSlot Selector.base = false ∧
    world.heap.node? m = some (.mirage ⟨body, none⟩)

/-- A field is added unless its name is taken. -/
theorem Storage.exists_putField_iff {storage : Storage κ} (fresh : Identity) (field : Field κ) :
    (∃ slots, storage.putField fresh field = .ok slots) ↔ storage.hasSlot field.name = false := by
  unfold putField
  cases storage.hasSlot field.name with
  | true => simp
  | false => simp

namespace Run

variable {v : World κ σ} {r m : ObjectId} {node : Node κ} {body : PrototypeObject κ}

/-- The two writes, the only thing that can fail being the first. -/
theorem tie_eq (hnode : v.heap.node? r = some node)
    (hmirage : v.heap.node? m = some (.mirage ⟨body, none⟩)) (field : Field κ) :
    ((do
      putField r field
      setMirror m r
      report (.bound r m)) : Run κ σ Unit) v =
      match node.slots.putField ⟨v.supply⟩ field with
      | .error error => .error (.raised error) { v with supply := v.supply + 1 }
      | .ok slots => .ok () { v with
          supply := v.supply + 1
          log := v.log.push (.bound r m)
          heap := (v.heap.replace r (node.withSlots slots)).replace m
            (.mirage ⟨if m = r then { body with slots } else body, some r⟩) } := by
  have hput := putField_of_node hnode field
  cases hslots : node.slots.putField ⟨v.supply⟩ field with
  | error error =>
    rw [hslots] at hput
    exact bind_of_error hput _
  | ok slots =>
    rw [hslots] at hput
    rw [bind_of_ok hput]
    have hread := v.heap.node?_replace_of_contains (Heap.contains_of_node? hnode) (node.withSlots slots)
    have htied : (v.heap.replace r (node.withSlots slots)).node? m =
        some (.mirage ⟨if m = r then { body with slots } else body, none⟩) := by
      rw [hread]
      by_cases hself : m = r
      · subst hself
        cases hnode.symm.trans hmirage
        rw [if_pos rfl, if_pos rfl]
        rfl
      · rw [if_neg hself, if_neg hself, hmirage]
    rw [bind_of_ok (setMirror_of_node (w := { v with
      supply := v.supply + 1, heap := v.heap.replace r (node.withSlots slots) }) htied r)]
    rfl

/-- A mirror can be bound to a mirage that fits, and to no other. -/
theorem bindMirror_fits_iff (mirror mirage : Value κ) (v : World κ σ) :
    (∃ after, Run.bindMirror mirror mirage v = .ok () after) ↔ v.Fits mirror mirage := by
  constructor
  · rintro ⟨after, hbound⟩
    rcases bindMirror_cases mirror mirage v with ⟨reason, hfailed, -⟩ |
      ⟨r, m, body, node, rfl, rfl, hm, hroot, hr, -, hbind⟩
    · cases hfailed.symm.trans hbound
    · refine ⟨r, m, node, body, rfl, rfl, hroot, hr, ?_, hm⟩
      refine (Storage.exists_putField_iff ⟨v.supply⟩
        { name := Selector.base, writable := false, value := .object m }).mp ?_
      rw [hbind, tie_eq hr hm] at hbound
      split at hbound
      · cases hbound
      · exact ⟨_, ‹_›⟩
  · rintro ⟨r, m, node, body, rfl, rfl, hroot, hr, hnew, hm⟩
    obtain ⟨slots, hslots⟩ := (Storage.exists_putField_iff ⟨v.supply⟩
      { name := Selector.base, writable := false, value := .object m }).mpr hnew
    have hbind := bindMirror_free hm hroot hr
    rw [Storage.fieldIndex?_of_not_hasSlot hnew] at hbind
    have htie := tie_eq hr hm { name := Selector.base, writable := false, value := .object m }
    rw [hslots] at htie
    exact ⟨_, hbind.trans htie⟩

/-- Binding leaves the heap as it was, or makes its two writes. -/
theorem bindsOrNothing {mirror mirage : Value κ}
    (hlive : ∀ id, mirror = .object id ∨ mirage = .object id → v.heap.contains id = true) :
    v.heap.BindsOrNothing mirror mirage (Run.bindMirror mirror mirage v) := by
  rcases bindMirror_cases mirror mirage v with ⟨reason, hfailed, hraised⟩ |
    ⟨r, m, body, node, rfl, rfl, hm, -, hr, -, hbind⟩
  · obtain ⟨error, rfl⟩ := hraised hlive
    rw [hfailed]
    exact .nothing rfl
  · rw [hbind, tie_eq hr hm]
    split
    · exact .nothing rfl
    · exact .bound rfl rfl hr hm ‹_› rfl

end Run

/-! ## From any well-formed world -/

namespace Runtime

variable (host : Host κ σ) {world : World κ σ} {id : ObjectId} {message : Message κ}

/-- What is done to a node by default is done to it with any number of steps but none. -/
theorem exists_allOrNothing_of_default (h : world.Yields message.op id)
    (hperform : ∀ (rt : Runtime κ σ) (v : World κ σ) (node : Node κ), world.heap = v.heap →
      v.heap.node? id = some node →
        v.heap.AllOrNothing (v.heap.Alters id message) (rt.performDefault id message v)) :
    ∃ enough, ∀ steps, enough ≤ steps →
      world.heap.AllOrNothing (world.heap.Alters id message)
        ((ofFuel host steps).send (.object id) message world) := by
  refine ⟨1, fun steps hsteps => ?_⟩
  obtain ⟨steps, rfl⟩ : ∃ k, steps = k + 1 := ⟨steps - 1, by omega⟩
  refine h.allOrNothing_send host rfl fun after halike => ?_
  obtain ⟨node, hnode⟩ := h.exists_node
  have hheap : world.heap = after.heap := World.Affinity.heap_eq halike
  rw [hheap] at hnode ⊢
  exact hperform _ after node hheap hnode

/-- A node that is asked to change a slot changes one, or none are changed. -/
theorem exists_allOrNothing_send (hworld : world.WellFormed) (hchanges : message.changesSlot = true)
    (h : world.Unhindered id message) :
    ∃ enough, ∀ steps, enough ≤ steps →
      world.heap.AllOrNothing (world.heap.Alters id message)
        ((ofFuel host steps).send (.object id) message world) := by
  cases message with
  | assignField selector value =>
    exact ⟨_, fun steps hsteps => allOrNothing_assignField host hworld h hsteps⟩
  | assignVariable selector value =>
    obtain ⟨enough, henough⟩ := exists_allOrNothing_assignVariable host hworld h
    exact ⟨enough, fun steps hsteps => henough steps hsteps world (.refl world)⟩
  | _ =>
    refine exists_allOrNothing_of_default host (h.yields id rfl) fun rt v node hheap hnode => ?_
    exact rt.allOrNothing_performDefault hnode hchanges (hheap ▸ h.native) nofun nofun

/--
A node that is asked to change a slot either fails and leaves the whole heap as it was, or
answers and has put other slots in one node, as it was asked to; so it is with any steps from
some number on, if the nodes that have to do with the message yield and no custom field
does.  A value that is no node fails.  Binding a mirror fails and changes nothing, or gives
the mirror its field and the mirage its mirror; it succeeds just when the two fit.
-/
theorem slots_change_or_stay (hworld : world.WellFormed) :
    (∀ (id : ObjectId) (message : Message κ), message.changesSlot = true →
      world.Unhindered id message → ∃ enough, ∀ steps, enough ≤ steps →
        world.heap.AllOrNothing (world.heap.Alters id message)
          ((ofFuel host steps).send (.object id) message world)) ∧
    (∀ (target : Value κ) (message : Message κ), target.asObject? = none →
      message.changesSlot = true → ∀ steps, 1 ≤ steps → ∃ error,
        (ofFuel host steps).send target message world = .error (.raised error) world) ∧
    ∀ mirror mirage : Value κ,
      (∀ id, mirror = .object id ∨ mirage = .object id → world.heap.contains id = true) →
        world.heap.BindsOrNothing mirror mirage (Run.bindMirror mirror mirage world) ∧
          ((∃ after, Run.bindMirror mirror mirage world = .ok () after) ↔
            world.Fits mirror mirage) := by
  refine ⟨fun id message hchanges h => exists_allOrNothing_send host hworld hchanges h,
    fun target message htarget hchanges steps hsteps => ?_, fun mirror mirage hlive =>
      ⟨Run.bindsOrNothing hlive, Run.bindMirror_fits_iff mirror mirage world⟩⟩
  obtain ⟨steps, rfl⟩ : ∃ k, steps = k + 1 := ⟨steps - 1, by omega⟩
  exact ⟨_, send_value_of_changesSlot host htarget hchanges steps world⟩

/--
A new world with a mirage at index 2 in the lexical root, whose mirror at index 3 does the
default thing, and an unbound mirage at index 4 beside a fresh mirror at index 5.
-/
private def halfBound : World Empty Unit :=
  let requests : List (Request Empty) :=
    [.newMirage .nil .isA (some ⟨0⟩) [], .freshMirror, .bindMirror (.object ⟨3⟩) (.object ⟨2⟩),
      .newMirage .nil .isA none [], .freshMirror]
  requests.foldl (fun world request => Run.after (request.run (ofFuel Host.none 0)) world)
    (World.new default ())

private theorem arises_halfBound : World.Arises Host.none halfBound := by
  have hnew : World.Arises Host.none (World.new default () : World Empty Unit) := .new default ()
  have hmirage := hnew.request (.newMirage .nil .isA (some ⟨0⟩) []) 0 fun _ h => by cases h
  have hmirror := hmirage.request .freshMirror 0 fun _ h => by cases h
  have hbound := hmirror.request (.bindMirror (.object ⟨3⟩) (.object ⟨2⟩)) 0 fun _ h => by cases h
  have hunbound := hbound.request (.newMirage .nil .isA none []) 0 fun _ h => by cases h
  exact hunbound.request .freshMirror 0 fun _ h => by cases h

/-- An attempt on the read-only field of the lexical root. -/
private def assignment : Message Empty := .assignVariable ⟨"defaultMirror"⟩ .nil

private theorem unhindered_halfBound : halfBound.Unhindered ⟨2⟩ assignment := by
  have hmirage : halfBound.Yields .assignVariable ⟨2⟩ := by
    refine .inr (.inr ⟨⟨3⟩, fun op hop => ⟨⟨_, rfl⟩, ⟨_, rfl⟩, ?_⟩, ⟨_, rfl⟩, ⟨_, rfl⟩, ⟨3⟩, _, 0, false,
      rfl, rfl, rfl⟩)
    obtain rfl := List.mem_singleton.mp hop
    exact ⟨_, rfl, rfl⟩
  have hroot : halfBound.Yields .assignVariable ⟨0⟩ := .inr (.inl ⟨_, rfl⟩)
  have hsearched : ∀ other, halfBound.heap.Searched ⟨2⟩ assignment other →
      other = ⟨2⟩ ∨ other = ⟨0⟩ := by
    intro other hsearched
    rcases hsearched.cases_head with rfl | ⟨next, ⟨-, node, hnode, hparent⟩, hrest⟩
    · exact .inl rfl
    · cases hnode
      cases hparent
      rcases hrest.cases_head with rfl | ⟨above, ⟨hnone, -⟩, -⟩
      · exact .inr rfl
      · cases hnone
  constructor
  · intro other hother
    rcases hsearched other hother with rfl | rfl
    · exact hmirage
    · exact hroot
  · intro other hother field hfield
    rcases hsearched other hother with rfl | rfl
    · cases hfield
    · cases hfield

/-- The assignment fails, as does one to a number; the fresh mirror can be bound, the other cannot. -/
theorem slots_change_or_stay_halfBound :
    halfBound.WellFormed ∧ halfBound.Sound ∧ assignment.changesSlot = true ∧
      halfBound.Unhindered ⟨2⟩ assignment ∧
      (∃ enough, ∀ steps, enough ≤ steps → halfBound.heap.AllOrNothing
        (halfBound.heap.Alters ⟨2⟩ assignment)
          ((ofFuel Host.none steps).send (.object ⟨2⟩) assignment halfBound)) ∧
      (∃ error after, (ofFuel Host.none 3).send (.object ⟨2⟩) assignment halfBound =
        .error (.raised error) after) ∧
      (∃ error, (ofFuel Host.none 1).send (.fixnum 7) assignment halfBound =
        .error (.raised error) halfBound) ∧
      halfBound.Fits (.object ⟨5⟩) (.object ⟨4⟩) ∧
      (∃ after, Run.bindMirror (.object ⟨5⟩) (.object ⟨4⟩) halfBound = .ok () after) ∧
      ∃ error after, Run.bindMirror (.object ⟨3⟩) (.object ⟨4⟩) halfBound =
        .error (.raised error) after := by
  have hsane := arises_halfBound.sane
  obtain ⟨hsends, hvalues, hbinds⟩ := slots_change_or_stay Host.none hsane.toWellFormed
  have hlive : ∀ id, Value.object (κ := Empty) ⟨5⟩ = .object id ∨ Value.object (κ := Empty) ⟨4⟩ = .object id →
      halfBound.heap.contains id = true := by
    rintro id (h | h)
    · cases h
      rfl
    · cases h
      rfl
  have hfits : halfBound.Fits (.object ⟨5⟩) (.object ⟨4⟩) :=
    ⟨⟨5⟩, ⟨4⟩, _, _, rfl, rfl, by decide, rfl, rfl, rfl⟩
  exact ⟨hsane.toWellFormed, hsane.toSound, rfl, unhindered_halfBound,
    hsends ⟨2⟩ assignment rfl unhindered_halfBound, ⟨_, _, rfl⟩,
    hvalues (.fixnum 7) assignment rfl rfl 1 (Nat.le_refl 1), hfits,
    (hbinds (.object ⟨5⟩) (.object ⟨4⟩) hlive).2.mpr hfits, _, _, rfl⟩

end Runtime

end Prototypes
