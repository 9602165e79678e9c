import Prototypes.Proofs.Safety.Run
import Prototypes.Proofs.Slots.Fields
import Prototypes.Semantics.Defaults

/-!
# Safe operations: slots, mirrors and delegation

An operation re-enters the object model only through the calls of its runtime.  So if the
calls are safe (`Runtime.Safe`), every operation over them is.  There is one lemma for each
operation, named after it, which follows the operation's own sequence of steps and says
what the operation has to be given.

What an operation reads at an index it has looked up before; where that was in a search, the
lemma is about the world in which the search has ended.
-/

namespace Prototypes

variable {κ σ : Type}

/-- The calls of a runtime are safe, given what they are called with. -/
structure Runtime.Safe (rules : Rules κ) (rt : Runtime κ σ) : Prop where
  send : ∀ target message, Run.Safe rules (target.parts ++ message.parts) (rt.send target message)
  run : ∀ {method arguments} context, method.arity.accepts arguments.length = true →
    Run.Safe rules (method.parts ++ context.parts ++ Value.partsOfAll arguments)
      (rt.run method context arguments)

namespace Runtime

variable {rules : Rules κ} {needs : List (Part κ)}

open Run.Safe

open Run (EndsSafely)

/-! ## Steps that do not re-enter -/

namespace Safe

theorem checkWritable (holder : ObjectId) (selector : Symbol) (writable : Bool) :
    Run.Safe rules needs (Runtime.checkWritable holder selector writable : Run κ σ Unit) := by
  cases writable with
  | true => exact pure (List.nil_subset _)
  | false => exact raise rfl

/-- A selector that names a mutator is an assignment. -/
theorem assignmentTarget {selector target : Symbol} (h : selector.assignmentTarget? = some target) :
    Run.Safe rules needs (Runtime.assignmentTarget selector : Run κ σ Symbol) := by
  unfold Runtime.assignmentTarget
  rw [h]
  exact pure (List.nil_subset _)

theorem bindAll {frame : ObjectId} {bindings : List (Symbol × Value κ)} (hframe : .handle frame ∈ needs)
    (hbindings : partsOf bindings ⊆ needs) :
    Run.Safe rules needs (Runtime.bindAll frame bindings : Run κ σ Unit) := by
  refine forM fun binding hmem => putField hframe fun part hpart => hbindings ?_
  exact Value.mem_partsOfAll.mpr ⟨binding.2, List.mem_map_of_mem hmem, hpart⟩

theorem slotOwner (context : Context κ) :
    Run.Safe rules context.parts (Runtime.slotOwner context : Run κ σ ObjectId) := by
  refine node_bind (by simp) fun node _ => ?_
  cases node with
  | frame frame => exact pure (by simp [Node.parts, Node.lexicalParent?])
  | object body => exact pure (by simp)
  | mirage m => exact pure (by simp)

theorem accessor {holder : ObjectId} {receiver : Value κ} (name : Symbol)
    (hholder : .handle holder ∈ needs) (hreceiver : receiver.parts ⊆ needs) :
    Run.Safe rules needs (Runtime.accessor holder receiver name : Run κ σ (Value κ)) :=
  fresh.bind fun identity => made (Method.isMade_builtin identity name (.accessor name)) <|
    newClosure (by grind)

theorem mutator {holder : ObjectId} {receiver : Value κ} {selector target : Symbol}
    (htarget : selector.assignmentTarget? = some target) (hholder : .handle holder ∈ needs)
    (hreceiver : receiver.parts ⊆ needs) :
    Run.Safe rules needs (Runtime.mutator holder receiver selector : Run κ σ (Value κ)) := by
  refine (assignmentTarget htarget).bind fun name => fresh.bind fun identity => ?_
  exact made (Method.isMade_builtin identity selector (.mutator name)) <| newClosure (by grind)

theorem methodClosure {holder : ObjectId} {method : Method κ} {receiver : Value κ}
    (hholder : .handle holder ∈ needs) (hmethod : method.parts ⊆ needs)
    (hreceiver : receiver.parts ⊆ needs) :
    Run.Safe rules needs (Runtime.methodClosure holder method receiver : Run κ σ (Closure κ)) := by
  refine node_bind hholder fun node _ => pure ?_
  have hparent := node.parts_dynamicParent
  grind

/-- Going on with a new node without slots. -/
theorem newNode_bind {α : Type} [Answer κ α] {parent : Value κ} {link : ParentLink}
    {scope : Option ObjectId} {tags : List TypeTag} {wrap : PrototypeObject κ → Node κ}
    {f : ObjectId → Run κ σ α} (hparent : parent.parts ⊆ needs)
    (hscope : ∀ id ∈ scope, .handle id ∈ needs)
    (hwrap : ∀ body, (wrap body).parts = (Node.object body).parts)
    (hslots : ∀ body, (wrap body).slots = body.slots)
    (hnext : ∀ id, Run.Safe rules (.handle id :: needs) (f id)) :
    Run.Safe rules needs (do
      let body ← Run.newBody parent link scope tags
      let id ← Run.allocate (wrap body)
      f id) := by
  simp only [Run.newBody, bind_assoc, pure_bind]
  refine newFamily.bind fun _ => fresh.bind fun _ => Run.Safe.bind (allocate ?_ ?_) hnext
  · rw [hwrap]
    grind
  · rw [hslots]
    exact List.nodup_nil

theorem newMirage {parent : Value κ} (link : ParentLink) {scope : Option ObjectId} (tags : List TypeTag)
    (hparent : parent.parts ⊆ needs) (hscope : ∀ id ∈ scope, .handle id ∈ needs) :
    Run.Safe rules needs (Run.newMirage parent link scope tags : Run κ σ ObjectId) := by
  rw [← bind_pure (Run.newMirage parent link scope tags), Run.newMirage, bind_assoc]
  exact newNode_bind hparent hscope (fun body => by simp) (fun body => rfl) fun id => pure (by simp)

theorem freshMirror : Run.Safe rules needs (Run.freshMirror : Run κ σ (Value κ)) := by
  refine get fun w => newNode_bind (by grind) (by grind) (fun _ => rfl) (fun _ => rfl) fun id => ?_
  exact pure (by simp)

theorem setMirror {mirage mirror : ObjectId} (hmirage : .handle mirage ∈ needs)
    (hmirror : .handle mirror ∈ needs) :
    Run.Safe rules needs (Run.setMirror mirage mirror : Run κ σ Unit) := by
  refine change hmirage (fun node => .withMirror node _) (fun node => ?_) fun node hnames => ?_
  · cases node <;> simp only [Node.withMirror] <;> grind
  · cases node <;> exact hnames

theorem checkUnbound {id : ObjectId} (mirage : Value κ) (hid : .handle id ∈ needs) :
    Run.Safe rules needs (Run.checkUnbound id mirage : Run κ σ Unit) := by
  refine node_bind hid fun node _ => ?_
  match node with
  | .mirage ⟨_, none⟩ => exact pure (List.nil_subset _)
  | .mirage ⟨_, some _⟩ => exact raise rfl
  | .object _ => exact raise rfl
  | .frame _ => exact raise rfl

theorem bindMirror {mirror mirage : Value κ} (hmirror : mirror.parts ⊆ needs)
    (hmirage : mirage.parts ⊆ needs) :
    Run.Safe rules needs (Run.bindMirror mirror mirage : Run κ σ Unit) := by
  refine check_bind (mirror.yields_expectObject _) hmirror fun mirrorId _ => ?_
  refine check_bind (mirage.yields_expectObject _) (by grind) fun mirageId _ => ?_
  refine (checkUnbound mirage (by simp)).bind fun _ => get fun w => guard rfl fun _ => ?_
  refine slots_bind (by simp) fun storage _ => guard rfl fun _ => ?_
  refine (putField (by simp) ?_).bind fun _ => (setMirror (by simp) (by simp)).bind fun _ => report _
  grind

/-- A search answers a field by an index that is there. -/
theorem readIndex_of_slot {v : World κ σ} {holder : ObjectId} {selector : Symbol} {index : Nat}
    {writable : Bool} (hv : v.Sane rules)
    (hslot : v.heap.slot? selector holder = some (.field index writable)) :
    ∃ value, (Runtime.readIndex holder index : Run κ σ (Value κ)) v = .ok value v ∧
      v.Admits rules value.parts := by
  obtain ⟨node, hnode, hfind⟩ := Option.bind_eq_some_iff.mp hslot
  obtain ⟨field, hfield⟩ := Storage.exists_field hfind
  have hread : node.slots.read? index = some field.value := by simp [Storage.read?, hfield]
  refine ⟨_, Runtime.readIndex_of_read hnode hread, (hv.holds hnode).mono ?_⟩
  exact List.Subset.trans (Storage.parts_of_read? hread) node.parts_slots

theorem selectSlot {v : World κ σ} {holder : ObjectId} {slot : Slot κ} {receiver : Value κ}
    {selector : Symbol} (hv : v.Sane rules) (hneeds : v.Admits rules needs)
    (hslot : v.heap.slot? selector holder = some slot) (hreceiver : receiver.parts ⊆ needs) :
    EndsSafely rules v ((Runtime.selectSlot holder slot receiver selector : Run κ σ (Value κ)) v) := by
  obtain ⟨node, hnode, hfind⟩ := Option.bind_eq_some_iff.mp hslot
  suffices h : Run.Safe rules ((.handle holder :: slot.parts) ++ needs)
      (Runtime.selectSlot holder slot receiver selector : Run κ σ (Value κ)) from
    h v hv ((hv.found hslot).append hneeds)
  cases Storage.names_of_find hfind with
  | field _ | custom _ _ => exact accessor selector (by grind) (by grind)
  | mutator htarget _ =>
    exact (checkWritable holder selector _).bind fun _ => mutator htarget (by grind) (by grind)
  | customMutator htarget _ _ => exact mutator htarget (by grind) (by grind)
  | method _ =>
    refine (methodClosure (by grind) (by grind) (by grind)).bind fun closure => newClosure ?_
    grind

theorem storedBase? {mirror : Value κ} (hmirror : mirror.parts ⊆ needs) :
    Run.Safe rules needs (Runtime.storedBase? mirror : Run κ σ (Option (Value κ))) := by
  cases mirror with
  | object id =>
    have hid : .handle id ∈ needs := by grind
    refine node_bind hid fun node _ => ?_
    split
    · refine searchDynamic_bind (by grind) (fun v holder slot hv _ hslot => ?_)
        (fun _ => pure (List.nil_subset _)) (pure (List.nil_subset _))
      cases slot with
      | field index writable =>
        obtain ⟨node, hnode, hfind⟩ := Option.bind_eq_some_iff.mp hslot
        obtain ⟨field, hfield⟩ := Storage.exists_field hfind
        have hread : node.slots.read? index = some field.value := by simp [Storage.read?, hfield]
        have hvalue := List.Subset.trans (Storage.parts_of_read? hread) node.parts_slots
        simp only [Run.slots_bind hnode, hread]
        exact pure hvalue v hv (hv.holds hnode)
      | _ => exact pure (List.nil_subset _) v hv (.nil v)
    · exact pure (List.nil_subset _)
  | _ => exact pure (List.nil_subset _)

theorem inheritsDefault {mirror : ObjectId} (op : MetaOp) (hmirror : .handle mirror ∈ needs) :
    Run.Safe rules needs (Runtime.inheritsDefault mirror op : Run κ σ Bool) := by
  refine searchDynamic_bind hmirror (fun v holder slot hv _ _ => ?_)
    (fun _ => pure (List.nil_subset _)) (pure (List.nil_subset _))
  have hpure (answer : Bool) : Run.Safe rules [] (Pure.pure answer : Run κ σ Bool) :=
    pure (List.nil_subset _)
  cases slot with
  | method found => exact get (fun w => (hpure _).mono (List.nil_subset _)) v hv (.nil v)
  | _ => exact hpure false v hv (.nil v)

end Safe

/-! ## Calls, and closures applied -/

variable {rt : Runtime κ σ}

namespace Safe

theorem invoke (h : rt.Safe rules) {receiver : Value κ} (selector : Symbol) {arguments : List (Value κ)}
    (hreceiver : receiver.parts ⊆ needs) (harguments : Value.partsOfAll arguments ⊆ needs) :
    Run.Safe rules needs (rt.invoke receiver selector arguments) :=
  (h.send receiver _).mono (by grind)

/-- A message that is given no more than is there. -/
theorem sends (h : rt.Safe rules) {target : Value κ} {message : Message κ}
    (htarget : target.parts ⊆ needs) (hmessage : message.parts ⊆ needs) :
    Run.Safe rules needs (rt.send target message) :=
  (h.send target message).mono (by grind)

theorem apply (h : rt.Safe rules) {closure : Closure κ} {arguments : List (Value κ)}
    (hclosure : closure.parts ⊆ needs) (harguments : Value.partsOfAll arguments ⊆ needs) :
    Run.Safe rules needs (rt.apply closure arguments) := by
  refine fresh.bind fun identity => ?_
  refine check_bind (closure.method.yields_bindArguments _ arguments) (by grind) fun bindings hbindings => ?_
  have hscope : .handle closure.context.scope ∈ needs := hclosure (by simp)
  refine fresh.bind fun layout => Run.Safe.bind (allocate (by grind) List.nodup_nil) fun frame => ?_
  refine (bindAll (by simp) (by simp)).bind fun _ => ?_
  refine (h.run _ (Method.accepts_of_bindArguments hbindings)).mono ?_
  rw [Context.withScope]
  grind

theorem applyInScope (h : rt.Safe rules) {closure : Closure κ} {arguments : List (Value κ)}
    {context : Context κ} (hclosure : closure.parts ⊆ needs)
    (harguments : Value.partsOfAll arguments ⊆ needs) (hcontext : context.parts ⊆ needs) :
    Run.Safe rules needs (rt.applyInScope closure arguments context) := by
  refine fresh.bind fun identity => ?_
  refine check_bind (closure.method.yields_bindArguments _ arguments) (by grind) fun bindings hbindings => ?_
  have hdefine : Run.Safe (α := Unit) rules (partsOf bindings ++ needs) (bindings.forM fun binding =>
      discard <| rt.send (.object context.scope) (.defineField binding.1 binding.2)) := by
    refine forM fun binding hmem => (h.sends (by grind) fun part hpart => ?_).ignore
    refine List.mem_append_left _ (Value.mem_partsOfAll.mpr ⟨binding.2, List.mem_map_of_mem hmem, hpart⟩)
  refine (hdefine.mono (by grind)).bind fun _ => ?_
  exact (h.run context (Method.accepts_of_bindArguments hbindings)).mono (by grind)

theorem applyValue (h : rt.Safe rules) {callee : Value κ} {arguments : List (Value κ)}
    (hcallee : callee.parts ⊆ needs) (harguments : Value.partsOfAll arguments ⊆ needs) :
    Run.Safe rules needs (rt.applyValue callee arguments) := by
  cases callee with
  | closure identity closure => exact h.apply (by grind) harguments
  | _ =>
    refine (newTable harguments).bind fun table => h.invoke _ (by grind) ?_
    grind

/-! ## Using a slot -/

theorem readSlot (h : rt.Safe rules) {holder : ObjectId} (name : Symbol) (hholder : .handle holder ∈ needs) :
    Run.Safe rules needs (rt.readSlot holder name) := by
  intro v hv hneeds
  obtain ⟨node, hnode⟩ := hneeds.exists_node hholder
  have hparts := (hv.holds hnode).mono node.parts_slots
  unfold Runtime.readSlot
  rw [Run.slots_bind hnode]
  cases hindex : node.slots.fieldIndex? name with
  | some index =>
    obtain ⟨value, hread⟩ := Storage.exists_read_of_fieldIndex? hindex
    dsimp only
    rw [Runtime.readIndex_of_read hnode hread]
    exact .ok (.refl v) hv (hparts.mono (Storage.parts_of_read? hread))
  | none =>
    cases hcustom : node.slots.custom? name with
    | some field =>
      exact h.invoke Selector.readField (Storage.parts_of_custom? hcustom) (List.nil_subset _) v hv hparts
    | none => exact raise rfl v hv hneeds

theorem writeSlot (h : rt.Safe rules) {holder : ObjectId} (name : Symbol) {value : Value κ}
    (hholder : .handle holder ∈ needs) (hvalue : value.parts ⊆ needs) :
    Run.Safe rules needs (rt.writeSlot holder name value) := by
  refine slots_bind hholder fun storage hnames => ?_
  cases hslot : storage.fieldSlot? name with
  | some found =>
    obtain ⟨index, writable⟩ := found
    cases writable with
    | true =>
      obtain ⟨written, hindex, hwrite⟩ := Storage.exists_write_of_fieldSlot? hslot value
      have hfollows := Storage.follows_write hindex hwrite
      simp only [hwrite, if_true]
      refine setSlots (by grind) (List.Subset.trans hfollows.parts ?_) (hfollows.names hnames)
      grind
    | false => exact raise rfl
  | none =>
    cases hcustom : storage.custom? name with
    | some field =>
      have hfield := Storage.parts_of_custom? hcustom
      exact (h.invoke Selector.writeField (by grind) (by grind)).ignore
    | none => exact raise rfl

theorem applyFieldValue (h : rt.Safe rules) (selector : Symbol) {value : Value κ}
    {arguments : List (Value κ)} (hvalue : value.parts ⊆ needs)
    (harguments : Value.partsOfAll arguments ⊆ needs) :
    Run.Safe rules needs (rt.applyFieldValue selector value arguments) := by
  cases value with
  | closure identity closure => exact h.apply (by grind) harguments
  | _ =>
    cases arguments with
    | nil => exact pure hvalue
    | cons argument arguments => exact raise rfl

theorem invokeSlot (h : rt.Safe rules) {v : World κ σ} {holder : ObjectId} {slot : Slot κ}
    {receiver : Value κ} {selector : Symbol} {arguments : List (Value κ)} (hv : v.Sane rules)
    (hneeds : v.Admits rules needs) (hslot : v.heap.slot? selector holder = some slot)
    (hreceiver : receiver.parts ⊆ needs) (harguments : Value.partsOfAll arguments ⊆ needs) :
    EndsSafely rules v (rt.invokeSlot holder slot receiver selector arguments v) := by
  obtain ⟨node, hnode, hfind⟩ := Option.bind_eq_some_iff.mp hslot
  have hparts := (hv.found hslot).append hneeds
  cases Storage.names_of_find hfind with
  | field _ =>
    obtain ⟨value, hread, hvalue⟩ := readIndex_of_slot hv hslot
    unfold Runtime.invokeSlot
    dsimp only
    rw [Run.bind_of_ok hread]
    have happly : Run.Safe rules (value.parts ++ needs) (rt.applyFieldValue selector value arguments) :=
      h.applyFieldValue selector (by grind) (by grind)
    exact happly v hv (hvalue.append hneeds)
  | custom _ _ =>
    refine Run.Safe.bind (h.invoke _ (by grind) (List.nil_subset _)) (fun value => ?_) v hv hparts
    exact h.applyFieldValue selector (by grind) (by grind)
  | mutator htarget _ | customMutator htarget _ _ =>
    -- a mutator takes one argument
    obtain _ | ⟨value, _ | ⟨_, _⟩⟩ := arguments
    · exact raise rfl v hv hparts
    · refine Run.Safe.bind (assignmentTarget htarget) (fun name => ?_) v hv hparts
      exact (h.writeSlot name (by grind) (by grind)).bind fun _ => pure (by grind)
    · exact raise rfl v hv hparts
  | method _ =>
    refine Run.Safe.bind (methodClosure (by grind) (by grind) (by grind)) (fun closure => ?_) v hv hparts
    exact h.apply (by grind) (by grind)

/-! ## Mirrors -/

theorem mirrorBase (h : rt.Safe rules) {mirror : Value κ} (hmirror : mirror.parts ⊆ needs) :
    Run.Safe rules needs (rt.mirrorBase mirror) := by
  refine (storedBase? hmirror).bind fun stored => ?_
  cases stored
  case' some stored => refine Run.Safe.bind (x := Pure.pure stored) (pure (by grind)) fun base => ?_
  case' none => refine (h.invoke Selector.base (by grind) (List.nil_subset _)).bind fun base => ?_
  -- what answers for the base, stored or asked for, is checked alike
  all_goals
    cases base with
    | object id =>
      refine node_bind (by grind) fun node _ => ?_
      cases node <;> first | exact pure (by grind) | exact raise rfl
    | _ => exact raise rfl

theorem defaultTarget? (h : rt.Safe rules) {mirage : ObjectId} (op : MetaOp)
    (hmirage : .handle mirage ∈ needs) : Run.Safe rules needs (rt.defaultTarget? mirage op) := by
  refine node_bind hmirage fun node _ => ?_
  match node with
  | .mirage ⟨body, some mirror⟩ =>
    have hmirror : .handle mirror ∈ (Node.mirage ⟨body, some mirror⟩ : Node κ).parts ++ needs := by simp
    refine node_bind hmirror fun mirrorNode _ => ?_
    split
    · refine (inheritsDefault op (by grind)).bind fun inherits => ?_
      cases inherits with
      | true =>
        refine (h.mirrorBase (by grind)).bind fun base => ?_
        exact (trace _).bind fun _ => pure (by grind)
      | false => exact pure (List.nil_subset _)
    · exact pure (List.nil_subset _)
  | .mirage ⟨_, none⟩ => exact pure (List.nil_subset _)
  | .object _ => exact pure (List.nil_subset _)
  | .frame _ => exact pure (List.nil_subset _)

/-! ## Delegation -/

theorem delegatedDefault? (h : rt.Safe rules) {parent : Value κ} (op : MetaOp)
    (hparent : parent.parts ⊆ needs) : Run.Safe rules needs (rt.delegatedDefault? parent op) := by
  cases parent with
  | object id =>
    refine node_bind (by grind) fun node _ => ?_
    split
    · exact h.defaultTarget? op (by grind)
    · exact pure (List.nil_subset _)
  | _ => exact pure (List.nil_subset _)

/-- Going on with how a walk has ended; the induction is on the chains it may enter. -/
theorem resolveFrom_bind (h : rt.Safe rules) {op : MetaOp} {selector : Symbol} {fuel : Nat}
    {target : ObjectId} {α : Type} [Answer κ α] {f : ObjectId × Resolution κ → Run κ σ α}
    (htarget : .handle target ∈ needs)
    (hfound : ∀ v last holder slot, v.Sane rules → v.Admits rules needs →
      v.heap.slot? selector holder = some slot → EndsSafely rules v (f (last, .found holder slot) v))
    (hdelegate : ∀ last next, Run.Safe rules (next.parts ++ needs) (f (last, .delegate next)))
    (habsent : ∀ last, Run.Safe rules needs (f (last, .absent))) :
    Run.Safe rules needs (rt.resolveFrom op selector fuel target >>= f) := by
  induction fuel generalizing needs target with
  | zero => exact exhausted (α := α)
  | succ fuel ih =>
    unfold Runtime.resolveFrom
    rw [bind_assoc]
    refine searchDynamic_bind htarget (fun v holder slot hv hneeds hslot => ?_) (fun next => ?_) ?_
    · exact hfound v target holder slot hv hneeds hslot
    · rw [bind_assoc]
      refine (h.delegatedDefault? op (by grind)).bind fun continued => ?_
      cases continued with
      | some base =>
        exact ih (by grind) (fun v last holder slot hv hneeds => hfound v last holder slot hv
          (hneeds.mono (by grind))) (fun last next => (hdelegate last next).mono (by grind))
          fun last => (habsent last).mono (by grind)
      | none => exact (hdelegate target next).mono (by grind)
    · exact habsent target

theorem resolve_bind (h : rt.Safe rules) {op : MetaOp} {selector : Symbol} {target : ObjectId}
    {α : Type} [Answer κ α] {f : ObjectId × Resolution κ → Run κ σ α}
    (htarget : .handle target ∈ needs)
    (hfound : ∀ v last holder slot, v.Sane rules → v.Admits rules needs →
      v.heap.slot? selector holder = some slot → EndsSafely rules v (f (last, .found holder slot) v))
    (hdelegate : ∀ last next, Run.Safe rules (next.parts ++ needs) (f (last, .delegate next)))
    (habsent : ∀ last, Run.Safe rules needs (f (last, .absent))) :
    Run.Safe rules needs (rt.resolve op selector target >>= f) :=
  h.resolveFrom_bind htarget hfound hdelegate habsent

theorem callPrimitive (h : rt.Safe rules) (primitive : Primitive) {receiver : Value κ}
    (selector : Symbol) {arguments : List (Value κ)} (hreceiver : receiver.parts ⊆ needs)
    (harguments : Value.partsOfAll arguments ⊆ needs) :
    Run.Safe rules needs (rt.callPrimitive primitive receiver selector arguments) := by
  refine guard rfl fun haccepts => ?_
  match primitive, arguments with
  | .identical, [] => exact absurd rfl haccepts
  | .identical, _ :: _ => exact pure (List.nil_subset _)
  | .notIdentical, [] => exact absurd rfl haccepts
  | .notIdentical, _ :: _ => exact pure (List.nil_subset _)
  | .new, arguments => exact h.sends hreceiver harguments
  | .init, _ => exact pure (List.nil_subset _)

theorem invokeFallback (h : rt.Safe rules) {receiver : Value κ} (selector : Symbol)
    {arguments : List (Value κ)} (hreceiver : receiver.parts ⊆ needs)
    (harguments : Value.partsOfAll arguments ⊆ needs) :
    Run.Safe rules needs (rt.invokeFallback receiver selector arguments) := by
  unfold Runtime.invokeFallback
  cases Primitive.ofSelector? selector with
  | some primitive => exact h.callPrimitive primitive selector hreceiver harguments
  | none =>
    refine (h.sends hreceiver (List.nil_subset _)).bind fun handler => ?_
    exact h.applyValue (by grind) (by grind)

theorem selectFallback (h : rt.Safe rules) {receiver : Value κ} (selector : Symbol)
    (hreceiver : receiver.parts ⊆ needs) :
    Run.Safe rules needs (rt.selectFallback receiver selector) := by
  unfold Runtime.selectFallback
  cases Primitive.ofSelector? selector with
  | some primitive =>
    refine fresh.bind fun identity => get fun w => ?_
    exact made (Method.isMade_builtin identity selector (.primitive primitive selector)) <|
      newClosure (by grind)
  | none => exact h.sends hreceiver (List.nil_subset _)

theorem defaultInvoke (h : rt.Safe rules) {target : ObjectId} {receiver : Value κ} (selector : Symbol)
    {arguments : List (Value κ)} (htarget : .handle target ∈ needs) (hreceiver : receiver.parts ⊆ needs)
    (harguments : Value.partsOfAll arguments ⊆ needs) :
    Run.Safe rules needs (rt.defaultInvoke target receiver selector arguments) := by
  refine h.resolve_bind htarget (fun v last holder slot hv hneeds hslot => ?_)
    (fun last next => ?_) fun last => ?_
  · exact h.invokeSlot hv hneeds hslot hreceiver harguments
  · exact h.sends (by grind) (by grind)
  · exact h.invokeFallback selector hreceiver harguments

theorem defaultSelect (h : rt.Safe rules) {target : ObjectId} {receiver : Value κ} (selector : Symbol)
    (htarget : .handle target ∈ needs) (hreceiver : receiver.parts ⊆ needs) :
    Run.Safe rules needs (rt.defaultSelect target receiver selector) := by
  refine h.resolve_bind htarget (fun v last holder slot hv hneeds hslot => ?_)
    (fun last next => ?_) fun last => ?_
  · exact selectSlot hv hneeds hslot hreceiver
  · exact h.sends (by grind) (by grind)
  · exact h.selectFallback selector hreceiver

theorem defaultAssignField (h : rt.Safe rules) {target : ObjectId} (selector : Symbol) {value : Value κ}
    (htarget : .handle target ∈ needs) (hvalue : value.parts ⊆ needs) :
    Run.Safe rules needs (rt.defaultAssignField target selector value) := by
  refine h.resolve_bind htarget (fun v last holder slot hv hneeds hslot => ?_)
    (fun last next => (h.sends (by grind) (by grind)).ignore) fun last => raise rfl
  have hadmits := (hv.found hslot).append hneeds
  have hwrite : Run.Safe rules ((.handle holder :: slot.parts) ++ needs)
      (rt.writeSlot holder selector value) := h.writeSlot selector (by grind) (by grind)
  cases slot with
  | field | custom => exact hwrite v hv hadmits
  | _ => exact raise (α := Unit) rfl v hv hneeds

theorem respondsTo (h : rt.Safe rules) {value : Value κ} (selector : Symbol) (hvalue : value.parts ⊆ needs) :
    Run.Safe rules needs (rt.respondsTo value selector) :=
  (h.sends hvalue (List.nil_subset _)).bind fun answer =>
    check (answer.yields_expectBool _) (List.Subset.refl _)

theorem defaultRespondsTo (h : rt.Safe rules) {target : ObjectId} (selector : Symbol)
    (htarget : .handle target ∈ needs) : Run.Safe rules needs (rt.defaultRespondsTo target selector) := by
  have hpure (answer : Bool) : Run.Safe rules needs (Pure.pure answer : Run κ σ Bool) :=
    pure (List.nil_subset _)
  refine h.resolve_bind htarget (fun v last holder slot hv hneeds hslot => ?_)
    (fun last next => h.respondsTo selector (by grind)) fun last => hpure _
  cases slot <;> exact hpure _ v hv hneeds

end Safe

end Runtime

end Prototypes
