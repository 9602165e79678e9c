import Prototypes.Proofs.Delegation.Selecting
import Prototypes.Proofs.Scopes.Lookups
import Prototypes.Proofs.Slots.Outlines

/-!
# Who sees an assignment

An assignment gives one field of one node another value, and that is all it does: the node is
the one at which its own search ended.  Searches do not look at values, so they end where they
ended before, and slots are selected as they were.  What has changed is read only where a search
for the name ends at that node, along scopes as well as along dynamic parents; a field of the
same name that is nearer hides it.

## Main results

* `World.Assigned` — a field has been given a value.
* `Runtime.assigned_of_assignVariable`, `Runtime.assigned_of_assignField` — what an assignment
  that succeeds does.
* `World.Assigned.fieldAt?_self`, `World.Assigned.fieldAt?_other` — what fields hold afterwards.
* `Runtime.assignment_seen` — who sees it, and that nobody else does.
-/

namespace Prototypes

variable {κ σ : Type}

/-! ## Heaps of native slots -/

namespace Heap

/-- The nodes are objects and frames, and no field is a custom one. -/
structure Native (heap : Heap κ) : Prop where
  unmirrored : ∀ id node, heap.node? id = some node → node.isMirage = false
  custom : ∀ id node, heap.node? id = some node → node.slots.custom = []

namespace Native

variable {heap : Heap κ} {id : ObjectId} {selector : Symbol}

theorem ne_custom (h : heap.Native) {slot : Slot κ} (hslot : heap.slot? selector id = some slot)
    (custom : Value κ) : slot ≠ .custom custom := by
  rintro rfl
  obtain ⟨node, hnode, hfind⟩ := Option.bind_eq_some_iff.mp hslot
  have hnone := h.custom id node hnode
  cases Storage.names_of_find hfind with
  | custom _ hcustom => simp [Storage.custom?, hnone] at hcustom

/-- A lexical search meets no mirage. -/
theorem searchLexical_ne_delegate (h : heap.Native) (next : Value κ) :
    heap.searchLexical id selector ≠ .ok (.delegate next) := by
  intro hsearch
  cases decides_of_searchLexical hsearch with
  | @delegate last node _ _ _ hleaves =>
    obtain ⟨hthere, hblocked⟩ := hleaves
    cases hparent : node.lexicalParent? with
    | none => simp [Route.lexical, hparent, Value.isNil] at hthere
    | some parent =>
      obtain ⟨parentNode, hparentNode, hpasses⟩ := hblocked parent (by simp [Route.lexical, hparent])
      simp [Route.lexical, h.unmirrored parent parentNode hparentNode] at hpasses

/-- A dynamic search stops short only of frames and of values outside the heap. -/
theorem frame_of_delegate (h : heap.Native) {next : ObjectId}
    (hsearch : heap.searchDynamic id selector = .ok (.delegate (.object next))) :
    ∃ frame, heap.node? next = some (.frame frame) := by
  have hdecides := decides_of_searchDynamic hsearch
  generalize hvalue : Value.object next = value at hdecides
  cases hdecides with
  | delegate _ _ _ hleaves =>
    obtain ⟨node, hnode, hpasses⟩ := hleaves.2 next hvalue.symm
    have hmirage := h.unmirrored next node hnode
    cases node with
    | frame frame => exact ⟨frame, hnode⟩
    | object body => cases hpasses
    | mirage m => cases hmirage

end Native

/-- What the field at an index of a node holds. -/
def fieldAt? (heap : Heap κ) (holder : ObjectId) (index : Nat) : Option (Value κ) :=
  (heap.node? holder).bind fun node => node.slots.read? index

/-- A field that is found holds a value. -/
theorem exists_fieldAt? {heap : Heap κ} {holder : ObjectId} {selector : Symbol} {index : Nat}
    {writable : Bool} (hslot : heap.slot? selector holder = some (.field index writable)) :
    ∃ value, heap.fieldAt? holder index = some value := by
  obtain ⟨node, hnode, hfind⟩ := Option.bind_eq_some_iff.mp hslot
  obtain ⟨value, hread⟩ := Storage.exists_read (Storage.find_eq_field_iff.mp hfind)
  exact ⟨value, by rw [fieldAt?, hnode]; exact hread⟩

end Heap

/-! ## Assigning -/

/-- A field of a node that can be assigned has been given a value, and nothing else has changed. -/
def World.Assigned (before : World κ σ) (holder : ObjectId) (name : Symbol) (value : Value κ)
    (after : World κ σ) : Prop :=
  ∃ node index written, before.heap.node? holder = some node ∧
    node.slots.find name = some (.field index true) ∧ node.slots.write? index value = some written ∧
    after = { before with heap := before.heap.replace holder (node.withSlots written) }

namespace World.Assigned

variable {before after : World κ σ} {holder : ObjectId} {name : Symbol} {value : Value κ}

theorem sound (h : before.Assigned holder name value after) (hsound : before.Sound) : after.Sound := by
  obtain ⟨node, index, written, hnode, -, -, rfl⟩ := h
  exact ⟨hsound.free.replace (Heap.contains_of_node? hnode) _, hsound.defaults⟩

/-- Nothing looks different. -/
theorem looksAlike (h : before.Assigned holder name value after) (hnative : before.heap.Native) :
    before.LooksAlike after := by
  obtain ⟨node, index, written, hnode, -, hwrite, rfl⟩ := h
  refine ⟨⟨(Array.size_setIfInBounds).symm, fun id => ?_⟩, hnative.unmirrored, rfl, rfl⟩
  show _ = ((before.heap.replace holder (node.withSlots written)).node? id).map Node.outline
  rw [Heap.node?_replace_of_contains (Heap.contains_of_node? hnode)]
  split
  · rename_i hid
    rw [hid, hnode, Option.map_some, Option.map_some,
      Node.outline_withSlots (Storage.find_write hwrite)]
  · rfl

/-- The field holds the value. -/
theorem fieldAt?_self (h : before.Assigned holder name value after) {index : Nat} {writable : Bool}
    (hslot : before.heap.slot? name holder = some (.field index writable)) :
    after.heap.fieldAt? holder index = some value := by
  obtain ⟨node, place, written, hnode, hfind, hwrite, rfl⟩ := h
  rw [Heap.slot?_of_node? hnode, hfind] at hslot
  cases hslot
  show ((before.heap.replace holder (node.withSlots written)).node? holder).bind _ = _
  rw [Heap.node?_replace_of_contains (Heap.contains_of_node? hnode), if_pos rfl, Option.bind_some,
    Node.slots_withSlots]
  exact Storage.read?_write hwrite

/-- Every other field holds what it held. -/
theorem fieldAt?_other (h : before.Assigned holder name value after) {selector : Symbol}
    {other : ObjectId} {index : Nat} {writable : Bool}
    (hslot : before.heap.slot? selector other = some (.field index writable))
    (hother : ¬ (selector = name ∧ other = holder)) :
    after.heap.fieldAt? other index = before.heap.fieldAt? other index := by
  obtain ⟨node, place, written, hnode, hfind, hwrite, rfl⟩ := h
  show ((before.heap.replace holder (node.withSlots written)).node? other).bind _ = _
  rw [Heap.node?_replace_of_contains (Heap.contains_of_node? hnode)]
  split
  · rename_i hid
    subst hid
    rw [Heap.slot?_of_node? hnode] at hslot
    have hplace : index ≠ place := by
      rintro rfl
      exact hother ⟨Storage.name_unique hslot hfind, rfl⟩
    rw [Heap.fieldAt?, hnode, Option.bind_some, Option.bind_some, Node.slots_withSlots]
    exact Storage.read?_write_other hwrite hplace
  · rfl

end World.Assigned

namespace Runtime

variable (host : Host κ σ) {world after : World κ σ}

/-- Writing a field that a search has found assigns it. -/
private theorem assigned_of_writeSlot (rt : Runtime κ σ) (hnative : world.heap.Native) {holder : ObjectId}
    {name : Symbol} {value : Value κ} {slot : Slot κ} (hslot : world.heap.slot? name holder = some slot)
    (hfield : (∃ index writable, slot = .field index writable) ∨ ∃ custom, slot = .custom custom)
    {u : Unit} (h : rt.writeSlot holder name value world = .ok u after) :
    world.Assigned holder name value after := by
  obtain ⟨node, hnode, hfind⟩ := Option.bind_eq_some_iff.mp hslot
  rcases hfield with ⟨index, writable, rfl⟩ | ⟨custom, rfl⟩
  · obtain ⟨written, hwrite⟩ := Storage.exists_write hfind value
    have hfieldSlot := Storage.find_eq_field_iff.mp hfind
    cases writable with
    | true =>
      rw [rt.writeSlot_of_writable hnode hfieldSlot hwrite] at h
      cases h
      exact ⟨node, index, written, hnode, hfind, hwrite, rfl⟩
    | false =>
      rw [rt.writeSlot_of_readOnly hnode hfieldSlot] at h
      cases h
  · exact absurd rfl (hnative.ne_custom hslot custom)

/-- A handle that leads nowhere answers nothing. -/
theorem send_dangling (steps : Nat) {id : ObjectId} (hnode : world.heap.node? id = none)
    (message : Message κ) :
    (ofFuel host (steps + 1)).send (.object id) message world = .error (.dangling id) world := by
  show (Run.node id >>= _) world = _
  rw [Run.node_bind, Heap.get_eq_error_iff.mpr ⟨hnode, rfl⟩]

/-- A frame refuses what is not asked of scopes. -/
theorem send_frame (steps : Nat) {id : ObjectId} {frame : CallFrame κ}
    (hnode : world.heap.node? id = some (.frame frame)) {message : Message κ}
    (hop : message.op.appliesToFrames = false) :
    (ofFuel host (steps + 1)).send (.object id) message world =
      .error (.raised (.illegalOperation (.onCallFrame message.op id))) world := by
  show (Run.node id >>= _) world = _
  rw [Run.node_bind_of_some hnode]
  dsimp only
  rw [hop]
  rfl

/-- Among native slots a walk is one search. -/
theorem resolveFrom_bind_of_native (rt : Runtime κ σ) (hnative : world.heap.Native) (op : MetaOp)
    (selector : Symbol) (fuel : Nat) (target : ObjectId) (f : ObjectId × Resolution κ → Run κ σ α) :
    (rt.resolveFrom op selector (fuel + 1) target >>= f) world =
      (Run.searchDynamic target selector >>= fun resolution => f (target, resolution)) world := by
  rw [resolveFrom, bind_assoc, Run.searchDynamic_bind, Run.searchDynamic_bind]
  cases hsearch : world.heap.searchDynamic target selector with
  | error reason => rfl
  | ok resolution =>
    cases resolution with
    | delegate parent =>
      cases parent with
      | object next =>
        obtain ⟨frame, hframe⟩ := hnative.frame_of_delegate hsearch
        have hnone : rt.delegatedDefault? (.object next) op world = .ok none world := by
          unfold delegatedDefault?
          dsimp only
          rw [Run.node_bind_of_some hframe]
          rfl
        dsimp only
        rw [bind_assoc, Run.bind_of_ok hnone]
        rfl
      | _ => rfl
    | _ => rfl

/-- A variable is assigned where the lexical search for it ends. -/
theorem assigned_of_assignVariable (hnative : world.heap.Native) {steps : Nat} {scope : ObjectId}
    {name : Symbol} {value answer : Value κ}
    (h : (ofFuel host steps).send (.object scope) (.assignVariable name value) world = .ok answer after) :
    ∃ holder slot, world.heap.searchLexical scope name = .ok (.found holder slot) ∧
      world.Assigned holder name value after := by
  obtain ⟨steps, rfl⟩ : ∃ rest, steps = rest + 1 := by
    cases steps with
    | zero => cases h
    | succ steps => exact ⟨steps, rfl⟩
  cases hnode : world.heap.node? scope with
  | none =>
    rw [send_dangling host steps hnode] at h
    cases h
  | some node =>
    rw [send_scope host steps hnode (hnative.unmirrored scope node hnode) rfl] at h
    obtain ⟨u, w, hassigned, hanswer⟩ := Run.eq_ok_of_bind h
    cases hanswer
    unfold defaultAssignVariable at hassigned
    cases hsearch : world.heap.searchLexical scope name with
    | error reason =>
      rw [Run.searchLexical_bind_of_error hsearch] at hassigned
      cases hassigned
    | ok resolution =>
      rw [Run.searchLexical_bind_of_ok hsearch] at hassigned
      cases resolution with
      | delegate next => exact absurd hsearch (hnative.searchLexical_ne_delegate next)
      | absent => cases hassigned
      | found holder slot =>
        have hslot := (Heap.decides_of_searchLexical hsearch).slot?_eq
        refine ⟨holder, slot, rfl, ?_⟩
        cases slot with
        | field index writable =>
          exact assigned_of_writeSlot _ hnative hslot (.inl ⟨_, _, rfl⟩) hassigned
        | custom custom => exact assigned_of_writeSlot _ hnative hslot (.inr ⟨_, rfl⟩) hassigned
        | _ => cases hassigned

/-- A field is assigned where the dynamic search for it ends. -/
theorem assigned_of_assignField (hnative : world.heap.Native) {steps : Nat} {target : ObjectId}
    {name : Symbol} {value answer : Value κ}
    (h : (ofFuel host steps).send (.object target) (.assignField name value) world = .ok answer after) :
    ∃ holder slot, world.heap.searchDynamic target name = .ok (.found holder slot) ∧
      world.Assigned holder name value after := by
  obtain ⟨steps, rfl⟩ : ∃ rest, steps = rest + 1 := by
    cases steps with
    | zero => cases h
    | succ steps => exact ⟨steps, rfl⟩
  cases hnode : world.heap.node? target with
  | none =>
    rw [send_dangling host steps hnode] at h
    cases h
  | some node =>
    cases node with
    | mirage m => cases hnative.unmirrored target _ hnode
    | frame frame =>
      rw [send_frame host steps hnode rfl] at h
      cases h
    | object body =>
      rw [send_plain host steps hnode] at h
      obtain ⟨u, w, hassigned, hanswer⟩ := Run.eq_ok_of_bind h
      cases hanswer
      unfold defaultAssignField resolve at hassigned
      cases steps with
      | zero => cases hassigned
      | succ steps =>
        rw [fuel_ofFuel, resolveFrom_bind_of_native _ hnative, Run.searchDynamic_bind] at hassigned
        cases hsearch : world.heap.searchDynamic target name with
        | error reason =>
          rw [hsearch] at hassigned
          cases hassigned
        | ok resolution =>
          rw [hsearch] at hassigned
          cases resolution with
          | absent => cases hassigned
          | delegate next =>
            obtain ⟨answer, hsent⟩ := Run.eq_ok_of_discard hassigned
            cases next with
            | object id =>
              obtain ⟨frame, hframe⟩ := hnative.frame_of_delegate hsearch
              rw [send_frame host steps hframe rfl] at hsent
              cases hsent
            | _ => cases hsent
          | found holder slot =>
            have hslot := (Heap.decides_of_searchDynamic hsearch).slot?_eq
            refine ⟨holder, slot, rfl, ?_⟩
            cases slot with
            | field index writable =>
              exact assigned_of_writeSlot _ hnative hslot (.inl ⟨_, _, rfl⟩) hassigned
            | custom custom => exact assigned_of_writeSlot _ hnative hslot (.inr ⟨_, rfl⟩) hassigned
            | _ => cases hassigned

/-! ## Reading -/

theorem readIndex_of_fieldAt? {holder : ObjectId} {index : Nat} {value : Value κ}
    (h : world.heap.fieldAt? holder index = some value) :
    (readIndex holder index : Run κ σ (Value κ)) world = .ok value world := by
  obtain ⟨node, hnode, hread⟩ := Option.bind_eq_some_iff.mp h
  exact readIndex_of_read hnode hread

/-- A name that stands for a field is looked up as what the field holds. -/
theorem lookup_of_field (hunmirrored : ∀ id node, world.heap.node? id = some node → node.isMirage = false)
    {scope holder : ObjectId} {selector : Symbol} {index : Nat} {writable : Bool} {value : Value κ}
    (hsearch : world.heap.searchLexical scope selector = .ok (.found holder (.field index writable)))
    (hvalue : world.heap.fieldAt? holder index = some value) (steps : Nat) :
    (ofFuel host (steps + 1)).send (.object scope) (.lookup selector) world = .ok value world := by
  obtain ⟨node, hnode⟩ := Heap.contains_iff.mp (Heap.decides_of_searchLexical hsearch).contains
  rw [lookup_of_scope host steps hnode (hunmirrored scope node hnode), defaultLookup,
    Run.searchLexical_bind_of_ok hsearch]
  exact readIndex_of_fieldAt? hvalue

/-- The accessor that is selected for a field reads it. -/
theorem selectAndApply_of_field (hsound : world.Sound) {id holder : ObjectId} {body : PrototypeObject κ}
    (hnode : world.heap.node? id = some (.object body)) {selector : Symbol} {index : Nat} {writable : Bool}
    (hsearch : world.heap.searchDynamic id selector = .ok (.found holder (.field index writable)))
    {value : Value κ} (hvalue : world.heap.fieldAt? holder index = some value) (steps : Nat) :
    (ofFuel host (steps + 2)).selectAndApply (.object id) selector [] world =
      .ok value ((world.taken 2).enter holder []) := by
  obtain ⟨held, hheld, hread⟩ := Option.bind_eq_some_iff.mp hvalue
  have hfield : held.slots.fieldSlot? selector = some (index, writable) := by
    have hslot := (Heap.decides_of_searchDynamic hsearch).slot?_eq
    rw [Heap.slot?_of_node? hheld] at hslot
    exact Storage.find_eq_field_iff.mp hslot
  have hselect : (ofFuel host (steps + 2)).send (.object id) (.select (.object id) selector) world =
      accessor holder (.object id) selector world := by
    rw [send_plain host (steps + 1) hnode]
    show (ofFuel host (steps + 1)).defaultSelect id (.object id) selector world = _
    unfold defaultSelect resolve
    rw [fuel_ofFuel, resolveFrom, bind_assoc, Run.searchDynamic_bind, hsearch]
    rfl
  unfold selectAndApply
  rw [Run.bind_eq_of_eq hselect]
  exact apply_accessor host (steps + 1) (hsound.taken 2) hheld hfield hread ⟨world.supply⟩ (.object id)

end Runtime

/-! ## Who sees it -/

/--
After an assignment of a field, it is looked up as the value from every scope whose search for it
ends there, and its accessor answers the value for every object whose search does.  Every
other lookup answers what it answered before, every selection is the same, and every other
accessor answers the same.
-/
structure World.Seen (host : Host κ σ) (before : World κ σ) (holder : ObjectId) (name : Symbol)
    (value : Value κ) (after : World κ σ) : Prop where
  assigned : before.Assigned holder name value after
  lookup : ∀ scope slot, before.heap.searchLexical scope name = .ok (.found holder slot) →
    ∀ steps, (Runtime.ofFuel host (steps + 1)).send (.object scope) (.lookup name) after = .ok value after
  accessor : ∀ id body slot, before.heap.node? id = some (.object body) →
    before.heap.searchDynamic id name = .ok (.found holder slot) →
      ∀ steps, ∃ last,
        (Runtime.ofFuel host (steps + 2)).selectAndApply (.object id) name [] after = .ok value last
  otherLookup : ∀ scope selector,
    ¬ (selector = name ∧ ∃ slot, before.heap.searchLexical scope name = .ok (.found holder slot)) →
      ∀ steps, Run.answerOf ((Runtime.ofFuel host steps).send (.object scope) (.lookup selector) after) =
        Run.answerOf ((Runtime.ofFuel host steps).send (.object scope) (.lookup selector) before)
  select : ∀ id selector steps,
    Run.answerOf ((Runtime.ofFuel host steps).send (.object id) (.select (.object id) selector) after) =
      Run.answerOf ((Runtime.ofFuel host steps).send (.object id) (.select (.object id) selector) before)
  otherAccessor : ∀ id selector other index writable,
    before.heap.searchDynamic id selector = .ok (.found other (.field index writable)) →
      ¬ (selector = name ∧ other = holder) →
        ∀ steps, Run.answerOf ((Runtime.ofFuel host steps).selectAndApply (.object id) selector [] after) =
          Run.answerOf ((Runtime.ofFuel host steps).selectAndApply (.object id) selector [] before)

namespace World.Assigned

variable {before after : World κ σ} {holder : ObjectId} {name : Symbol} {value : Value κ}

/-- What a search for the name finds in the node is a field. -/
theorem exists_field (h : before.Assigned holder name value after) {slot : Slot κ}
    (hslot : before.heap.slot? name holder = some slot) : ∃ index, slot = .field index true := by
  obtain ⟨node, index, written, hnode, hfind, -, -⟩ := h
  rw [Heap.slot?_of_node? hnode, hfind] at hslot
  cases hslot
  exact ⟨index, rfl⟩

/-- A lookup that does not come to the field answers what it answered. -/
theorem otherLookup (h : before.Assigned holder name value after) (hnative : before.heap.Native)
    (host : Host κ σ) {scope : ObjectId} {selector : Symbol}
    (hother : ¬ (selector = name ∧ ∃ slot, before.heap.searchLexical scope name = .ok (.found holder slot)))
    (steps : Nat) :
    Run.answerOf ((Runtime.ofFuel host steps).send (.object scope) (.lookup selector) after) =
      Run.answerOf ((Runtime.ofFuel host steps).send (.object scope) (.lookup selector) before) := by
  have halike := h.looksAlike hnative
  have halike' := halike.symm
  cases steps with
  | zero => rfl
  | succ steps =>
    rcases halike.heap.get_cases scope with ⟨hnone, hnone'⟩ | ⟨node, node', hnode, hnode', -⟩
    · rw [Runtime.send_dangling host steps (Heap.get_eq_error_iff.mp hnone).1,
        Runtime.send_dangling host steps (Heap.get_eq_error_iff.mp hnone').1]
      rfl
    · have hscope := Heap.get_eq_ok_iff.mp hnode
      have hscope' := Heap.get_eq_ok_iff.mp hnode'
      rw [Runtime.lookup_of_scope host steps hscope (halike.unmirrored scope node hscope),
        Runtime.lookup_of_scope host steps hscope' (halike'.unmirrored scope node' hscope'),
        Runtime.defaultLookup]
      cases hsearch : before.heap.searchLexical scope selector with
      | error reason =>
        have hsearch' := (halike.heap.searchLexical_eq scope selector).symm.trans hsearch
        rw [Run.searchLexical_bind_of_error hsearch, Run.searchLexical_bind_of_error hsearch']
        rfl
      | ok resolution =>
        have hsearch' := (halike.heap.searchLexical_eq scope selector).symm.trans hsearch
        rw [Run.searchLexical_bind_of_ok hsearch, Run.searchLexical_bind_of_ok hsearch']
        cases resolution with
        | absent => rfl
        | delegate next => exact absurd hsearch (hnative.searchLexical_ne_delegate next)
        | found other slot =>
          have hslot := (Heap.decides_of_searchLexical hsearch).slot?_eq
          cases slot with
          | field index writable =>
            obtain ⟨held, hheld⟩ := Heap.exists_fieldAt? hslot
            have hheld' : after.heap.fieldAt? other index = some held := by
              rw [h.fieldAt?_other hslot, hheld]
              rintro ⟨rfl, rfl⟩
              exact hother ⟨rfl, _, hsearch⟩
            dsimp only [Runtime.lookupSlot]
            rw [Runtime.readIndex_of_fieldAt? hheld, Runtime.readIndex_of_fieldAt? hheld']
            rfl
          | custom custom => exact absurd rfl (hnative.ne_custom hslot custom)
          | method method =>
            exact (Run.Below.bind (LooksAlike.methodClosure other method _) fun _ =>
              LooksAlike.newClosure _).answerOf_eq halike'
          | mutator index writable =>
            exact (Run.Below.bind (Runtime.Steady.checkWritable other selector writable) fun _ =>
              LooksAlike.mutator other _ selector).answerOf_eq halike'
          | customMutator custom => exact (LooksAlike.mutator other _ selector).answerOf_eq halike'

/-- The accessor of another field answers what it answered. -/
theorem otherAccessor (h : before.Assigned holder name value after) (hsound : before.Sound)
    (hnative : before.heap.Native) (host : Host κ σ) {id other : ObjectId} {selector : Symbol}
    {index : Nat} {writable : Bool}
    (hsearch : before.heap.searchDynamic id selector = .ok (.found other (.field index writable)))
    (hother : ¬ (selector = name ∧ other = holder)) (steps : Nat) :
    Run.answerOf ((Runtime.ofFuel host steps).selectAndApply (.object id) selector [] after) =
      Run.answerOf ((Runtime.ofFuel host steps).selectAndApply (.object id) selector [] before) := by
  have halike := h.looksAlike hnative
  have hslot := (Heap.decides_of_searchDynamic hsearch).slot?_eq
  obtain ⟨node, hnode⟩ := Heap.contains_iff.mp (Heap.decides_of_searchDynamic hsearch).contains
  rcases halike.heap.get_cases id with ⟨hnone, -⟩ | ⟨found, node', hfound, hnode', houtline⟩
  · cases hnone.symm.trans (Heap.get_eq_ok_iff.mpr hnode)
  obtain rfl := Except.ok.inj (hfound.symm.trans (Heap.get_eq_ok_iff.mpr hnode))
  replace hnode' := Heap.get_eq_ok_iff.mp hnode'
  match steps, found, node' with
  | 0, _, _ => rfl
  | _, .mirage _, _ => cases hnative.unmirrored id _ hnode
  | _, .object _, .frame _ | _, .object _, .mirage _ => cases Node.isPlain_of_outline houtline
  | _, .frame _, .object _ | _, .frame _, .mirage _ => cases Node.isFrame_of_outline houtline
  | steps + 1, .frame _, .frame _ =>
    -- nothing is selected from a frame
    rw [Runtime.selectAndApply, Run.bind_of_error (Runtime.send_frame host steps hnode rfl),
      Run.bind_of_error (Runtime.send_frame host steps hnode' rfl)]
    rfl
  | 1, .object _, .object _ =>
    rw [Runtime.selectAndApply, Run.bind_eq_of_eq (Runtime.send_plain host 0 hnode _),
      Run.bind_eq_of_eq (Runtime.send_plain host 0 hnode' _)]
    rfl
  | steps + 2, .object _, .object _ =>
    obtain ⟨held, hheld⟩ := Heap.exists_fieldAt? hslot
    have hheld' := (h.fieldAt?_other hslot hother).trans hheld
    have hsearch' := (halike.heap.searchDynamic_eq id selector).symm.trans hsearch
    rw [Runtime.selectAndApply_of_field host hsound hnode hsearch hheld,
      Runtime.selectAndApply_of_field host (h.sound hsound) hnode' hsearch' hheld']
    rfl

/-- It is seen by those whose search comes to the field, and by nobody else. -/
theorem seen (h : before.Assigned holder name value after) (hsound : before.Sound)
    (hnative : before.heap.Native) (host : Host κ σ) : before.Seen host holder name value after where
  assigned := h
  lookup scope slot hsearch steps := by
    obtain ⟨index, rfl⟩ := h.exists_field (Heap.decides_of_searchLexical hsearch).slot?_eq
    have halike := h.looksAlike hnative
    exact Runtime.lookup_of_field host halike.symm.unmirrored
      ((halike.heap.searchLexical_eq scope name).symm.trans hsearch)
      (h.fieldAt?_self (Heap.decides_of_searchLexical hsearch).slot?_eq) steps
  accessor id body slot hnode hsearch steps := by
    obtain ⟨index, rfl⟩ := h.exists_field (Heap.decides_of_searchDynamic hsearch).slot?_eq
    have halike := h.looksAlike hnative
    rcases halike.heap.get_cases id with ⟨hnone, -⟩ | ⟨found, node', hfound, hnode', houtline⟩
    · cases hnone.symm.trans (Heap.get_eq_ok_iff.mpr hnode)
    · obtain rfl := Except.ok.inj (hfound.symm.trans (Heap.get_eq_ok_iff.mpr hnode))
      cases node' with
      | object body' =>
        exact ⟨_, Runtime.selectAndApply_of_field host (h.sound hsound) (Heap.get_eq_ok_iff.mp hnode')
          ((halike.heap.searchDynamic_eq id name).symm.trans hsearch)
          (h.fieldAt?_self (Heap.decides_of_searchDynamic hsearch).slot?_eq) steps⟩
      | frame | mirage => cases Node.isPlain_of_outline houtline
  otherLookup scope selector hother := h.otherLookup hnative host hother
  select id selector steps :=
    (Runtime.select_looksAlike host steps id id selector).answerOf_eq (h.looksAlike hnative).symm
  otherAccessor id selector other index writable hsearch hother :=
    h.otherAccessor hsound hnative host hsearch hother

end World.Assigned

namespace Runtime

/--
Among objects and frames with native slots only, an assignment that succeeds is seen by exactly
the readers of one field: that of the name in the node where the lexical search ends from the
scope it is assigned in as a variable, or the dynamic search from the object it is assigned to
as a field.
-/
theorem assignment_seen (host : Host κ σ) {world after : World κ σ} (hsound : world.Sound)
    (hnative : world.heap.Native) {target : ObjectId} {name : Symbol} {value answer : Value κ}
    {steps : Nat} :
    ((ofFuel host steps).send (.object target) (.assignVariable name value) world = .ok answer after →
      ∃ holder slot, world.heap.searchLexical target name = .ok (.found holder slot) ∧
        world.Seen host holder name value after) ∧
    ((ofFuel host steps).send (.object target) (.assignField name value) world = .ok answer after →
      ∃ holder slot, world.heap.searchDynamic target name = .ok (.found holder slot) ∧
        world.Seen host holder name value after) := by
  constructor
  · intro h
    obtain ⟨holder, slot, hsearch, hassigned⟩ := assigned_of_assignVariable host hnative h
    exact ⟨holder, slot, hsearch, hassigned.seen hsound hnative host⟩
  · intro h
    obtain ⟨holder, slot, hsearch, hassigned⟩ := assigned_of_assignField host hnative h
    exact ⟨holder, slot, hsearch, hassigned.seen hsound hnative host⟩

/-- An object at index 2 with a field `x`, and one at index 3 that inherits from it and is nested in it. -/
private def withReaders : World Empty Unit :=
  let world : World Empty Unit := World.new default ()
  let upper : PrototypeObject Empty :=
    { slots :=
        { Storage.empty ⟨100⟩ with
          fields := [{ name := ⟨"x"⟩, writable := true, value := .nil }] }
      dynamicParent := .nil
      lexicalParent := none
      link := .isA
      typeTags := []
      family := ⟨3⟩
      flags := .none }
  let lower : PrototypeObject Empty :=
    { upper with
      slots := Storage.empty ⟨101⟩, dynamicParent := .object ⟨2⟩, lexicalParent := some ⟨2⟩ }
  { world with heap := ((world.heap.allocate (.object upper)).2.allocate (.object lower)).2 }

private theorem sound_withReaders : withReaders.Sound where
  free := ((World.sound_new default ()).free.allocate _).allocate _
  defaults := ⟨3, rfl⟩

private theorem native_withReaders : withReaders.heap.Native := by
  have hnodes : ∀ id node, withReaders.heap.node? id = some node →
      node.isMirage = false ∧ node.slots.custom = [] := by
    rintro ⟨index⟩ node hnode
    match index with
    | 0 | 1 | 2 | 3 =>
      obtain rfl := Option.some.inj hnode
      exact ⟨rfl, rfl⟩
    | index + 4 => cases hnode
  exact ⟨fun id node hnode => (hnodes id node hnode).1, fun id node hnode => (hnodes id node hnode).2⟩

/-- The object below assigns the field of the one above, as a field and as a variable. -/
theorem assignment_seen_above :
    withReaders.Sound ∧ withReaders.heap.Native ∧
      (∃ after, (ofFuel Host.none 2).send (.object ⟨3⟩) (.assignVariable ⟨"x"⟩ (.bool true))
          withReaders = .ok .nil after ∧
        withReaders.Seen Host.none ⟨2⟩ ⟨"x"⟩ (.bool true) after) ∧
      ∃ after, (ofFuel Host.none 2).send (.object ⟨3⟩) (.assignField ⟨"x"⟩ (.bool true))
          withReaders = .ok .nil after ∧
        withReaders.Seen Host.none ⟨2⟩ ⟨"x"⟩ (.bool true) after := by
  refine ⟨sound_withReaders, native_withReaders, ⟨_, rfl, ?_⟩, _, rfl, ?_⟩
  · obtain ⟨holder, slot, hsearch, hseen⟩ :=
      (assignment_seen Host.none sound_withReaders native_withReaders).1 (show
        (ofFuel Host.none 2).send (.object ⟨3⟩) (.assignVariable ⟨"x"⟩ (.bool true)) withReaders =
          .ok .nil _ from rfl)
    cases hsearch
    exact hseen
  · obtain ⟨holder, slot, hsearch, hseen⟩ :=
      (assignment_seen Host.none sound_withReaders native_withReaders).2 (show
        (ofFuel Host.none 2).send (.object ⟨3⟩) (.assignField ⟨"x"⟩ (.bool true)) withReaders =
          .ok .nil _ from rfl)
    cases hsearch
    exact hseen

end Runtime

end Prototypes
