import Prototypes.Proofs.Binding.Reached
import Prototypes.Proofs.Heap.Ancestry

/-!
# Call frames are only scopes

A call frame is made with no slots at all, and gets none but fields: parameters, local
definitions, and a `base` if it is bound as a mirror.  Every other slot is added by an
operation that a frame does not answer, whether it is sent to the frame itself or comes by
way of a mirror, since what a mirror reflects on has to be a mirage.

An operation that adds a slot may run code of others between looking at its target and
writing to it.  What carries the induction is that its target is known to be an object or a
mirage (`World.Scoped`), and remains one as long as nothing is reclaimed.  So host code is
taken to collect nothing while an operation is under way (`Runtime.quiet`).

## Main results

* `Runtime.quiet_scoping` — no call adds a method or a custom field to a frame, or makes a
  frame of another node.
* `World.Attained.isScoped` — the frames of every world that programs lead to have only fields.
* `World.Attained.frames_only_scopes` — what follows for operations on frames and for searches.
-/

namespace Prototypes

variable {κ σ α : Type}

open Run (Steady)

/-! ## What frames have and what they are not -/

/-- There are no slots but fields. -/
def Storage.OnlyFields (storage : Storage κ) : Prop := storage.methods = [] ∧ storage.custom = []

/-- What a selector names there is a field or the mutator of one. -/
theorem Storage.OnlyFields.find {storage : Storage κ} (h : storage.OnlyFields) {selector : Symbol}
    {slot : Slot κ} (hfind : storage.find selector = some slot) :
    ∃ name index writable, storage.fieldSlot? name = some (index, writable) ∧
      (slot = .field index writable ∧ name = selector ∨
        slot = .mutator index writable ∧ selector.assignmentTarget? = some name) := by
  obtain ⟨hmethods, hcustom⟩ := h
  cases Storage.names_of_find hfind with
  | field hslot => exact ⟨selector, _, _, hslot, .inl ⟨rfl, rfl⟩⟩
  | mutator htarget hslot => exact ⟨_, _, _, hslot, .inr ⟨rfl, htarget⟩⟩
  | method hmethod => simp [Storage.method?, hmethods] at hmethod
  | custom _ hfield => simp [Storage.custom?, hcustom] at hfield
  | customMutator _ _ hfield => simp [Storage.custom?, hcustom] at hfield

/-- The handle leads to an object or a mirage. -/
def Heap.IsBody (heap : Heap κ) (id : ObjectId) : Prop :=
  ∃ node, heap.node? id = some node ∧ node.isFrame = false

namespace World

/-- Frames have only fields, and the handles in `bodies` lead to objects and mirages. -/
structure Scoped (bodies : Set ObjectId) (w : World κ σ) : Prop where
  free : w.heap.FreeListExact
  fields : ∀ id frame, w.heap.node? id = some (.frame frame) → frame.slots.OnlyFields
  bodies : ∀ id ∈ bodies, w.heap.IsBody id

/-- The same world, and scoped. -/
def Scoping (bodies : Set ObjectId) (v w : World κ σ) : Prop := v = w ∧ v.Scoped bodies

namespace Scoped

variable {bodies : Set ObjectId} {v w : World κ σ}

/-- Of fewer nodes less need be known. -/
theorem mono {more : Set ObjectId} (h : w.Scoped more) (hsub : bodies ⊆ more) : w.Scoped bodies :=
  ⟨h.free, h.fields, fun id hid => h.bodies id (hsub hid)⟩

/-- What is known of one more node may be told. -/
theorem insert (h : w.Scoped bodies) {id : ObjectId} (hid : w.heap.IsBody id) :
    w.Scoped (insert id bodies) := by
  refine ⟨h.free, h.fields, ?_⟩
  rintro other (rfl | hother)
  · exact hid
  · exact h.bodies other hother

/-- Nothing but nodes matter. -/
theorem alter (h : v.Scoped bodies) (hfree : w.heap.FreeListExact)
    (hnodes : ∀ id, w.heap.node? id = v.heap.node? id) : w.Scoped bodies where
  free := hfree
  fields id frame hframe := h.fields id frame ((hnodes id).symm.trans hframe)
  bodies id hid := by
    obtain ⟨node, hnode, hkind⟩ := h.bodies id hid
    exact ⟨node, (hnodes id).trans hnode, hkind⟩

theorem of_alike (h : v.Scoped bodies) (halike : v.Alike w) : w.Scoped bodies := by
  rw [halike.eq_with_log]
  exact h.alter h.free fun _ => rfl

/-- A node may be made, if it has only fields in case it is a frame. -/
theorem allocate (h : v.Scoped bodies) {node : Node κ}
    (hnode : ∀ frame, node = .frame frame → frame.slots.OnlyFields) :
    Scoped bodies { v with heap := (v.heap.allocate node).2 } where
  free := h.free.allocate node
  fields id frame hframe := by
    rw [h.free.node?_allocate] at hframe
    split at hframe
    · exact hnode frame (Option.some.inj hframe)
    · exact h.fields id frame hframe
  bodies id hid := by
    obtain ⟨node', hnode', hkind⟩ := h.bodies id hid
    exact ⟨node', Heap.Keeps.allocate h.free _ _ _ hnode', hkind⟩

/-- A node may be replaced by one of its kind that has only fields in case it is a frame. -/
theorem replace (h : v.Scoped bodies) {id : ObjectId} {node after : Node κ}
    (hnode : v.heap.node? id = some node) (hkind : after.isFrame = node.isFrame)
    (hafter : ∀ frame, after = .frame frame → frame.slots.OnlyFields) :
    Scoped bodies { v with heap := v.heap.replace id after } := by
  have hlive := Heap.contains_of_node? hnode
  have hread := v.heap.node?_replace_of_contains hlive after
  refine ⟨h.free.replace hlive after, fun other frame hframe => ?_, fun other hother => ?_⟩
  · rw [hread] at hframe
    split at hframe
    · exact hafter frame (Option.some.inj hframe)
    · exact h.fields other frame hframe
  · obtain ⟨node', hnode', hkind'⟩ := h.bodies other hother
    by_cases hid : other = id
    · rw [hid] at hnode' ⊢
      cases hnode.symm.trans hnode'
      exact ⟨after, (hread id).trans (if_pos rfl), hkind.trans hkind'⟩
    · exact ⟨node', (hread other).trans ((if_neg hid).trans hnode'), hkind'⟩

/-- A node may be given other slots, if they are only fields in case it is a frame. -/
theorem setSlots (h : v.Scoped bodies) {id : ObjectId} {node : Node κ} {slots : Storage κ}
    (hnode : v.heap.node? id = some node) (hslots : node.isFrame = true → slots.OnlyFields) :
    Scoped bodies { v with heap := v.heap.replace id (node.withSlots slots) } := by
  refine h.replace hnode (by cases node <;> rfl) fun frame hframe => ?_
  cases node with
  | frame f =>
    cases hframe
    exact hslots rfl
  | _ => cases hframe

/-- The fields of a node may change. -/
theorem alterFields (h : v.Scoped bodies) {id : ObjectId} {node : Node κ} {slots : Storage κ}
    (hnode : v.heap.node? id = some node) (hslots : node.slots.AltersOnlyFields slots) :
    Scoped bodies { v with heap := v.heap.replace id (node.withSlots slots) } := by
  refine h.setSlots hnode fun hkind => ?_
  cases node with
  | frame f =>
    obtain ⟨hmethods, hcustom⟩ := h.fields id f hnode
    exact ⟨hslots.1.trans hmethods, hslots.2.trans hcustom⟩
  | _ => cases hkind

end Scoped

namespace Scoping

variable {bodies : Set ObjectId} {v w : World κ σ}

theorem refl (h : w.Scoped bodies) : Scoping bodies w w := ⟨rfl, h⟩

instance affinity : World.Affinity (Scoping (κ := κ) (σ := σ) bodies) where
  visible h := congrArg World.visible h.1
  found := by
    rintro v _ parent link scope tags ⟨rfl, h⟩
    have hdrawn : World.Scoped bodies { v with heap := v.heap.newFamily.2, supply := v.supply + 1 } :=
      h.alter (h.free.follows .newFamily) fun _ => rfl
    exact .refl (hdrawn.allocate fun _ hframe => nomatch hframe)
  enter := by
    rintro v _ layout scope ⟨rfl, h⟩
    refine .refl (h.allocate fun frame hframe => ?_)
    cases hframe
    exact ⟨rfl, rfl⟩
  editFields := by
    rintro v _ id node slots hnode - hslots ⟨rfl, h⟩
    exact .refl (h.alterFields hnode hslots)
  setSupply := by
    rintro v _ supply ⟨rfl, h⟩
    exact .refl (h.alter h.free fun _ => rfl)
  setHost := by
    rintro v _ host ⟨rfl, h⟩
    exact .refl (h.alter h.free fun _ => rfl)
  append := by
    rintro v _ events ⟨rfl, h⟩
    exact .refl (h.alter h.free fun _ => rfl)

/-- Slots of any kind may be added to what is known to be no frame. -/
theorem editable {id : ObjectId} (hid : id ∈ bodies) :
    World.Editable (Scoping (κ := κ) (σ := σ) bodies) id := by
  rintro v _ node slots hnode - ⟨rfl, h⟩
  obtain ⟨node', hnode', hkind⟩ := h.bodies id hid
  cases hnode.symm.trans hnode'
  refine .refl (h.setSlots hnode fun hframe => ?_)
  cases hkind.symm.trans hframe

end Scoping

end World

/-- What keeps the more that is known keeps what is known. -/
theorem Run.Agrees.scoping {bodies more : Set ObjectId}
    {first second : EStateM.Result Halt (World κ σ) α}
    (h : Run.Agrees (World.Scoping more) first second) (hsub : bodies ⊆ more) :
    Run.Agrees (World.Scoping bodies) first second :=
  h.mono fun _ _ hvw => ⟨hvw.1, hvw.2.mono hsub⟩

/-! ## Operations on objects and mirages -/

section Operations

variable {bodies : Set ObjectId} {rt rt' : Runtime κ σ}

theorem Run.scoping_setMirror (mirage mirror : ObjectId) :
    Steady (World.Scoping bodies) (Run.setMirror mirage mirror : Run κ σ Unit) := by
  rintro v _ ⟨rfl, h⟩
  refine Run.Below.agrees_change (.refl h) fun node hnode => ?_
  refine .refl (h.replace hnode (by cases node <;> rfl) fun frame hframe => ?_)
  cases node with
  | frame f => exact h.fields mirage frame (hnode.trans (congrArg some hframe))
  | _ => cases hframe

theorem Run.scoping_bindMirror (mirror mirage : Value κ) :
    Steady (World.Scoping bodies) (Run.bindMirror mirror mirage : Run κ σ Unit) :=
  Runtime.Steady.bindMirror_of Run.scoping_setMirror mirror mirage

theorem Run.scoping_newMirage (parent : Value κ) (link : ParentLink) (scope : Option ObjectId)
    (tags : List TypeTag) :
    Steady (World.Scoping bodies) (Run.newMirage parent link scope tags : Run κ σ ObjectId) := by
  rintro v _ ⟨rfl, h⟩
  have hdrawn : World.Scoped bodies { v with heap := v.heap.newFamily.2, supply := v.supply + 1 } :=
    h.alter (h.free.follows .newFamily) fun _ => rfl
  let made : Node κ := .mirage ⟨v.newBody parent link scope tags, none⟩
  have hkind (frame : CallFrame κ) (hframe : made = .frame frame) : frame.slots.OnlyFields := nomatch hframe
  exact .ok _ (.refl (hdrawn.allocate hkind))

namespace Runtime

/-- No call adds anything but fields to a frame, or makes a frame of another node. -/
def Scoping (rt : Runtime κ σ) : Prop := ∀ bodies : Set ObjectId, Below (World.Scoping bodies) rt rt

theorem scoping_rebase (mirror copy : ObjectId) :
    Steady (World.Scoping bodies) (rebase mirror copy : Run κ σ Unit) := by
  refine Steady.rebase_of ?_
  rintro v _ node index slots ⟨rfl, h⟩ hnode - hwrite
  exact .refl (h.alterFields hnode (Storage.altersOnlyFields_write hwrite))

/-- The custom fields of a copy are added to what is not a frame. -/
theorem Scoping.cloneNode (hrt : rt.Scoping) (source : ObjectId) (parent : Value κ)
    {wrap : PrototypeObject κ → Node κ} (hwrap : ∀ body, (wrap body).isFrame = false) :
    Steady (World.Scoping bodies) (rt.cloneNode source parent wrap) := by
  rintro v _ ⟨rfl, h⟩
  unfold Runtime.cloneNode
  rw [Run.node_bind]
  cases v.heap.get source with
  | error reason => exact .error reason (.refl h)
  | ok node =>
    cases hbody : node.body? with
    | none => simpa only [hbody] using .error _ (.refl h)
    | some body =>
      have hkind := hwrap { body with slots := body.slots.cloneLayout, dynamicParent := parent }
      have hcopied := h.allocate fun frame hframe =>
        absurd (hkind.symm.trans (congrArg Node.isFrame hframe)) Bool.false_ne_true
      have hnew : v.heap.nextId ∈ insert v.heap.nextId bodies := Set.mem_insert _ _
      have hrenew := ((hrt _).renewCustom (World.Scoping.editable hnew) body.slots.custom).bind
        (fun _ => Run.Below.pure v.heap.nextId) _ _
        (.refl (hcopied.insert ⟨_, (h.free.node?_allocate _ _).trans (if_pos rfl), hkind⟩))
      simp only [hbody, Run.allocate_bind]
      exact hrenew.scoping (Set.subset_insert _ _)

theorem Scoping.copies (hrt : rt.Scoping) : Below.Copies (World.Scoping bodies) rt rt where
  object source parent := hrt.cloneNode source parent fun _ => rfl
  mirage source parent := hrt.cloneNode source parent fun _ => rfl

/-- What an object or a mirage does by default, and a frame so far as it answers at all. -/
theorem Scoping.performDefault (hrt : rt.Scoping) {id : ObjectId} {message : Message κ}
    (hid : message.op.appliesToFrames = false → id ∈ bodies) :
    Steady (World.Scoping bodies) (rt.performDefault id message) := by
  have hmirage : Steady (World.Scoping bodies) (rt.cloneMirage id) :=
    (hrt bodies).cloneMirageBy hrt.copies scoping_rebase Run.scoping_setMirror id
  have hclone := (hrt bodies).defaultCloneBy hrt.copies hmirage
  have hperform := (hrt bodies).performDefaultBy_of_clone hclone message
    (fun hop => World.Scoping.editable (hid hop)) fun selector hselector => ?_
  · rwa [performDefaultBy_cloneMirage] at hperform
  · subst hselector
    rintro v _ ⟨rfl, h⟩
    refine Steady.agrees_defaultRemoveSlot (World.Scoping.editable (hid rfl)) (.refl h) ?_
    rintro v' _ node identity value rest ⟨rfl, h'⟩ hheap hnode hremoved
    have hnode' := (congrArg (Heap.node? · id) hheap).trans hnode
    exact Run.Below.agrees_setSlots (.refl h') hnode'
      (.refl (h'.alterFields hnode' (Storage.altersOnlyFields_removeField hremoved)))

end Runtime

end Operations

/-! ## Where frames are told from other nodes -/

namespace Runtime

variable {rt : Runtime κ σ} {v w : World κ σ}

/-- A node that has passed for a mirage is one. -/
private theorem isBody_of_isMirage {id base : ObjectId} {error : RuntimeError}
    (h : (do if (← Run.node id).isMirage then return id else Run.raise error : Run κ σ ObjectId) v =
      .ok base w) : w.heap.IsBody base := by
  obtain ⟨node, middle, hnode, hmirage⟩ := Run.eq_ok_of_bind h
  obtain ⟨hnode, rfl⟩ := Run.node_eq_ok hnode
  cases node with
  | mirage m =>
    cases hmirage
    exact ⟨.mirage m, hnode, rfl⟩
  | _ => cases hmirage

/-- What a mirror reflects on is a mirage, whether it was stored or asked for. -/
theorem isBody_of_mirrorBase {mirror : Value κ} {base : ObjectId}
    (h : rt.mirrorBase mirror v = .ok base w) : w.heap.IsBody base := by
  obtain ⟨stored, u, -, hrest⟩ := Run.eq_ok_of_bind h
  cases stored with
  | some stored =>
    cases stored with
    | object id => exact isBody_of_isMirage hrest
    | _ => cases hrest
  | none =>
    obtain ⟨value, middle, -, hvalue⟩ := Run.eq_ok_of_bind hrest
    cases value with
    | object id => exact isBody_of_isMirage hvalue
    | _ => cases hvalue

theorem isBody_of_defaultTarget? {mirage base : ObjectId} {op : MetaOp}
    (h : rt.defaultTarget? mirage op v = .ok (some base) w) : w.heap.IsBody base := by
  obtain ⟨node, u, -, h⟩ := Run.eq_ok_of_bind h
  match node with
  | .mirage ⟨_, some mirror⟩ =>
    obtain ⟨mirrorNode, u, -, h⟩ := Run.eq_ok_of_bind h
    split at h
    · obtain ⟨inherits, u, -, h⟩ := Run.eq_ok_of_bind h
      cases inherits with
      | true =>
        obtain ⟨found, u, hbase, h⟩ := Run.eq_ok_of_bind h
        have htraced := World.Affinity.heap_eq
          (World.Alike.traced u (.performedDefault mirror.display op found))
        rw [Run.trace_bind] at h
        cases h
        rw [← htraced]
        exact isBody_of_mirrorBase hbase
      | false => cases h
    · cases h
  | .mirage ⟨_, none⟩ => cases h
  | .object _ => cases h
  | .frame _ => cases h

end Runtime

/-! ## Searches -/

/-- A dynamic search does not go through frames. -/
theorem Heap.IsBody.searchDynamic {heap : Heap κ} {start holder : ObjectId} {selector : Symbol}
    {slot : Slot κ} (hstart : heap.IsBody start)
    (h : heap.searchDynamic start selector = .ok (.found holder slot)) : heap.IsBody holder := by
  rw [Heap.searchDynamic, Heap.searchDynamicFrom_eq] at h
  obtain ⟨node, hnode, -, rfl | hpasses⟩ := Heap.exists_node_of_searchAlong h
  · exact hstart
  · refine ⟨node, hnode, ?_⟩
    cases node with
    | object body => rfl
    | mirage m => cases hpasses
    | frame f => cases hpasses

/-- What a lexical search finds in a node is a slot of it. -/
theorem Heap.find_of_searchLexical {heap : Heap κ} {scope holder : ObjectId} {selector : Symbol}
    {slot : Slot κ} {node : Node κ} (hnode : heap.node? holder = some node)
    (h : heap.searchLexical scope selector = .ok (.found holder slot)) :
    node.slots.find selector = some slot := by
  rw [Heap.searchLexical, Heap.searchLexicalFrom_eq] at h
  obtain ⟨held, hheld, hfind, -⟩ := Heap.exists_node_of_searchAlong h
  cases hnode.symm.trans hheld
  exact hfind

namespace Runtime

variable {rt : Runtime κ σ} {v w : World κ σ} {op : MetaOp} {selector : Symbol}

private theorem isBody_of_delegatedDefault? {parent : Value κ} {base : ObjectId}
    (h : rt.delegatedDefault? parent op v = .ok (some base) w) : w.heap.IsBody base := by
  cases parent with
  | object id =>
    obtain ⟨node, u, -, h⟩ := Run.eq_ok_of_bind h
    split at h
    · exact isBody_of_defaultTarget? h
    · cases h
  | _ => cases h

/-- Nor does a walk that goes on inside the bases of mirages. -/
theorem isBody_of_resolveFrom {fuel : Nat} {target last holder : ObjectId} {slot : Slot κ}
    (htarget : v.heap.IsBody target)
    (h : rt.resolveFrom op selector fuel target v = .ok (last, .found holder slot) w) :
    w.heap.IsBody holder := by
  induction fuel generalizing target v with
  | zero => cases h
  | succ fuel ih =>
    rw [resolveFrom, Run.searchDynamic_bind] at h
    cases hsearch : v.heap.searchDynamic target selector with
    | error reason =>
      rw [hsearch] at h
      cases h
    | ok resolution =>
      rw [hsearch] at h
      cases resolution with
      | found found slot' =>
        cases h
        exact htarget.searchDynamic hsearch
      | absent => cases h
      | delegate parent =>
        obtain ⟨continued, u, hcontinued, h⟩ := Run.eq_ok_of_bind h
        cases continued with
        | none => cases h
        | some base => exact ih (isBody_of_delegatedDefault? hcontinued) h

end Runtime

/-! ## Operations that frames do not answer -/

/-- Frames may perform only what they answer. -/
def World.mayPerform (id : ObjectId) (op : MetaOp) (world : World κ σ) : Bool :=
  op.appliesToFrames || (world.heap.node? id).any fun node => !node.isFrame

namespace Runtime

/-- Performs an operation on a node, unless it is a frame that does not answer it. -/
def guarded (perform : ObjectId → Message κ → Run κ σ (Value κ)) (id : ObjectId) (message : Message κ) :
    Run κ σ (Value κ) :=
  Run.allowed (World.mayPerform id message.op) (perform id message)

section Guarded

variable {perform : ObjectId → Message κ → Run κ σ (Value κ)} {id : ObjectId} {message : Message κ}

theorem guarded_of_applies (h : message.op.appliesToFrames = true) :
    guarded perform id message = perform id message := by
  funext v
  exact if_pos (by rw [World.mayPerform, h]; rfl)

theorem guarded_of_isBody {v : World κ σ} (h : v.heap.IsBody id) :
    guarded perform id message v = perform id message v := by
  obtain ⟨node, hnode, hkind⟩ := h
  exact if_pos (by simp [World.mayPerform, hnode, hkind])

variable (rt : Runtime κ σ)

/-- A message is performed only on what may perform it. -/
theorem dispatchBy_guarded (target : Value κ) :
    rt.dispatchBy (guarded perform) target message = rt.dispatchBy perform target message := by
  funext v
  cases target with
  | object id =>
    refine Run.bind_congr_of_ok fun node w hnode => ?_
    obtain ⟨hnode, rfl⟩ := Run.node_eq_ok hnode
    cases node with
    | object body => exact guarded_of_isBody ⟨_, hnode, rfl⟩
    | mirage m =>
      refine Run.bind_congr_of_ok fun mirror w _ => Run.bind_congr_of_ok fun _ w _ => ?_
      refine Run.bind_congr_of_ok fun base w hbase => ?_
      cases base with
      | some base => exact guarded_of_isBody (isBody_of_defaultTarget? hbase)
      | none => rfl
    | frame f =>
      dsimp only
      split
      · exact congrFun (guarded_of_applies ‹_›) _
      · rfl
  | _ => rfl

/-- So is what a mirror root's method performs. -/
theorem performOnBaseBy_guarded (op : MetaOp) (mirror : Value κ) (arguments : List (Value κ)) :
    rt.performOnBaseBy (guarded perform) op mirror arguments =
      rt.performOnBaseBy perform op mirror arguments := by
  funext v
  refine Run.bind_congr_of_ok fun base w hbase => ?_
  have htraced := World.Affinity.heap_eq
    (World.Alike.traced w (.performedDefault mirror.display op base))
  rw [Run.trace_bind, Run.trace_bind]
  cases Message.read op arguments with
  | error reason => rfl
  | ok message => exact guarded_of_isBody (htraced ▸ isBody_of_mirrorBase hbase)

theorem runMethodWith_guarded (program : Program κ σ (Value κ) → Run κ σ (Value κ)) (host : Host κ σ)
    (method : Method κ) :
    rt.runMethodWith (guarded perform) program host method = rt.runMethodWith perform program host method := by
  funext context arguments
  obtain ⟨identity, name, parameters, body⟩ := method
  match body with
  | .builtin (.performDefault op) => exact performOnBaseBy_guarded rt op context.receiver arguments
  | .builtin (.accessor _) | .builtin (.mutator _) | .builtin (.notUnderstood _)
  | .builtin (.primitive _ _) | .builtin (.resend _) | .builtin .bindBase | .host _ | .fragment _ => rfl

end Guarded

/-! ## The machine -/

end Runtime

/-- Runs a program that collects nothing. -/
def Program.runQuietly (rt : Runtime κ σ) (program : Program κ σ α) : Run κ σ α :=
  program.runBy (fun request => request.run rt) fun _ => Run.halt .exhausted

namespace Runtime

/-- The runtime with a number of steps in which host code collects nothing. -/
def quiet (host : Host κ σ) : Nat → Runtime κ σ := machineWith host performDefault Program.runQuietly

/-- Where nothing is collected, the machine does what the actual one does. -/
theorem quiet_below (host : Host κ σ) (steps : Nat) :
    (quiet host steps).Below World.Alike (ofFuel host steps) := by
  rw [← machineWith_actual]
  refine machineWith_below host Below.performDefault (fun h program => ?_) Steady.bindMirror steps
  rw [Program.run_eq_runBy]
  exact program.runBy_below h.request fun _ => .exhausted _

variable {bodies : Set ObjectId} {rt : Runtime κ σ}

theorem Scoping.guarded (hrt : rt.Scoping) (id : ObjectId) (message : Message κ) :
    Steady (World.Scoping bodies) (guarded rt.performDefault id message) := by
  rintro v _ ⟨rfl, h⟩
  by_cases happlies : message.op.appliesToFrames = true
  · rw [guarded_of_applies happlies]
    exact hrt.performDefault (fun hnot => absurd (happlies.symm.trans hnot) nofun) v v (.refl h)
  · unfold Runtime.guarded Run.allowed
    split
    · rename_i hmay
      have hid : v.heap.IsBody id := by
        simpa [World.mayPerform, happlies, Option.any_eq_true, Heap.IsBody] using hmay
      have hperform : Steady (World.Scoping (insert id bodies)) (rt.performDefault id message) :=
        hrt.performDefault fun _ => Set.mem_insert id bodies
      exact (hperform v v (.refl (h.insert hid))).scoping (Set.subset_insert _ _)
    · exact .exhausted v _

theorem Scoping.request (hrt : rt.Scoping) (request : Request κ) :
    Steady (World.Scoping bodies) (request.run rt) := by
  refine (hrt bodies).request_of_mirages request fun _ => ?_
  cases request with
  | newMirage parent link scope tags => exact (Run.scoping_newMirage parent link scope tags).map _
  | bindMirror mirror mirage => exact (Run.scoping_bindMirror mirror mirage).bind fun _ => .pure _
  | createMirage code mirror tags =>
    exact (hrt bodies).createMirage_of Run.scoping_newMirage
      (fun mirage => Steady.freshMirror.bind fun made => Run.scoping_bindMirror made mirage) code mirror tags
  | _ => contradiction

/-- No call adds a method or a custom field to a frame, or makes a frame of another node. -/
theorem quiet_scoping (host : Host κ σ) (steps : Nat) : (quiet host steps).Scoping := by
  induction steps with
  | zero => exact fun _ => .idle _
  | succ steps ih =>
    intro bodies
    refine ⟨Nat.le_refl _, fun target message => ?_, fun method context arguments => ?_⟩
    · have hsend := (ih bodies).dispatchBy ih.guarded target message
      rwa [dispatchBy_guarded] at hsend
    · have hrun := (ih bodies).runMethodWith ih.guarded
        (fun program => program.runBy_below ih.request fun _ => .halt .exhausted)
        Run.scoping_bindMirror host method context arguments
      rwa [runMethodWith_guarded] at hrun

end Runtime

/-! ## Worlds that programs lead to -/

/-- A collection leaves frames as they are, or frees them. -/
theorem Run.scoping_collect (extra : List (Value κ)) :
    Steady (World.Scoping ∅) (Run.collect extra : Run κ σ Collected) := by
  rintro v _ ⟨rfl, h⟩
  cases hcollect : Run.collect extra v with
  | error reason w =>
    obtain ⟨-, rfl⟩ := Run.collect_eq_error_iff.mp hcollect
    exact .error reason (.refl h)
  | ok collected w =>
    obtain ⟨heap, hheap, rfl⟩ := Run.collect_eq_ok hcollect
    refine .ok collected (.refl ⟨h.free.follows (.collect hheap), fun id frame hframe => ?_, nofun⟩)
    exact h.fields id frame ((Heap.node?_of_collect hheap id _).mp hframe).1

namespace World

/-- The worlds that programs lead to which collect nothing while an operation is under way. -/
inductive Attained (host : Host κ σ) : World κ σ → Prop
  | new (settings : WorldSettings) (memory : σ) : Attained host (World.new settings memory)
  | run {α : Type} {v : World κ σ} (program : Program κ σ α) (steps : Nat) : Attained host v →
      Run.Ended (program.runBy (fun request => request.run (Runtime.quiet host steps)) Run.collect) v →
        Attained host (Run.after (program.runFor steps host) v)

namespace Attained

variable {host : Host κ σ} {w : World κ σ}

/-- Frames have only fields. -/
theorem isScoped (h : Attained host w) : w.Scoped ∅ := by
  induction h with
  | new settings memory =>
    refine ⟨(World.sound_new settings memory).free, fun id frame hframe => ?_, nofun⟩
    obtain ⟨index⟩ := id
    match index with
    | 0 => cases hframe
    | 1 => cases hframe
    | index + 2 => cases hframe
  | @run α v program steps _ hended ih =>
    have hrt := Runtime.quiet_scoping host steps
    have hkept : Steady (Scoping ∅)
        (program.runBy (fun request => request.run (Runtime.quiet host steps)) Run.collect) :=
      program.runBy_below hrt.request Run.scoping_collect
    have hbelow : Run.Below Alike
        (program.runBy (fun request => request.run (Runtime.quiet host steps)) Run.collect)
        (program.runFor steps host) := by
      rw [Program.runFor, Program.run_eq_runBy]
      exact program.runBy_below (Runtime.quiet_below host steps).request Run.Below.collect
    exact (hkept.after_of_ended (.refl ih) hended).2.of_alike (hbelow.after_alike hended)

/--
A call frame has no methods and no custom fields.  It refuses every operation but the four
that concern it as a scope, and nothing is changed by that.  What a lexical search finds in it
is a field or the mutator of one.  And no dynamic search that starts at an object or a mirage
ends at a frame, whether it stays on one chain or goes on inside the bases of mirages.
-/
theorem frames_only_scopes (h : Attained host w) :
    (∀ id frame, w.heap.node? id = some (.frame frame) →
      (frame.slots.methods = [] ∧ frame.slots.custom = []) ∧
      (∀ message : Message κ,
        message.op ∉ [MetaOp.lookup, .call, .assignVariable, .defineField] →
          ∀ steps, (Runtime.ofFuel host (steps + 1)).send (.object id) message w =
            .error (.raised (.illegalOperation (.onCallFrame message.op id))) w) ∧
      ∀ scope selector slot, w.heap.searchLexical scope selector = .ok (.found id slot) →
        ∃ name index writable, frame.slots.fieldSlot? name = some (index, writable) ∧
          (slot = .field index writable ∧ name = selector ∨
            slot = .mutator index writable ∧ selector.assignmentTarget? = some name)) ∧
    ∀ start, w.heap.IsBody start →
      (∀ selector holder slot, w.heap.searchDynamic start selector = .ok (.found holder slot) →
        w.heap.IsBody holder) ∧
      ∀ steps op selector last holder slot after,
        (Runtime.ofFuel host steps).resolve op selector start w = .ok (last, .found holder slot) after →
          after.heap.IsBody holder := by
  refine ⟨fun id frame hframe => ?_, fun start hstart => ⟨fun selector holder slot hsearch => ?_,
    fun steps op selector last holder slot after hresolve => ?_⟩⟩
  · have hfields := h.isScoped.fields id frame hframe
    refine ⟨hfields, fun message hop steps => ?_, fun scope selector slot hsearch => ?_⟩
    · have hrefused : message.op.appliesToFrames = false := by
        cases hmessage : message.op <;> simp_all [MetaOp.appliesToFrames]
      show (Runtime.ofFuel host steps).dispatch (.object id) message w = _
      rw [Runtime.dispatch, Run.node_bind_of_some hframe]
      simp only [hrefused]
      rfl
    · exact hfields.find (Heap.find_of_searchLexical hframe hsearch)
  · exact hstart.searchDynamic hsearch
  · exact Runtime.isBody_of_resolveFrom hstart hresolve

/-- A closure that does nothing. -/
private def idleClosure : Closure Empty :=
  ⟨⟨⟨100⟩, ⟨"code"⟩, [.required ⟨"x"⟩], .fragment .selfReference⟩, ⟨⟨0⟩, .object ⟨0⟩, .nil⟩⟩

/-- Applies it to one argument. -/
private def application : Program Empty Unit Unit :=
  .request (.apply idleClosure [.fixnum 5]) fun _ => .done ()

/-- A new world in which a closure has been applied, so that there is a frame. -/
private def withFrame : World Empty Unit :=
  Run.after (application.runFor 1 Host.none) (World.new default ())

private def answered : EStateM.Result Halt (World Empty Unit) Unit → Bool
  | .ok .. => true
  | .error .. => false

/-- The frame cannot be given a method, and searches from the mirror root do not end at it. -/
theorem frames_only_scopes_applied :
    Attained Host.none withFrame ∧ ∃ frame, withFrame.heap.node? ⟨2⟩ = some (.frame frame) ∧
      frame.slots.methods = [] ∧
      (∀ method, (Runtime.ofFuel Host.none 1).send (.object ⟨2⟩) (.addMethod method) withFrame =
        .error (.raised (.illegalOperation (.onCallFrame .addMethod ⟨2⟩))) withFrame) ∧
      ∀ selector holder slot, withFrame.heap.searchDynamic ⟨1⟩ selector = .ok (.found holder slot) →
        withFrame.heap.IsBody holder := by
  have hattained : Attained Host.none withFrame := by
    refine .run application 1 (.new default ()) fun after hexhausted => ?_
    have hanswered : answered (application.runBy
        (fun request => request.run (Runtime.quiet Host.none 1)) Run.collect (World.new default ())) =
          true := by decide +kernel
    rw [hexhausted] at hanswered
    cases hanswered
  have hframe : (withFrame.heap.node? ⟨2⟩).any Node.isFrame = true := by decide +kernel
  have hroot : (withFrame.heap.node? ⟨1⟩).any (fun node => !node.isFrame) = true := by decide +kernel
  obtain ⟨node, hnode, hframe⟩ := (Option.any_eq_true _ _).mp hframe
  obtain ⟨root, hroot, hkind⟩ := (Option.any_eq_true _ _).mp hroot
  cases node with
  | frame frame =>
    obtain ⟨hscopes, hsearches⟩ := frames_only_scopes hattained
    obtain ⟨⟨hmethods, -⟩, hrefused, -⟩ := hscopes ⟨2⟩ frame hnode
    refine ⟨hattained, frame, hnode, hmethods, fun method => hrefused (.addMethod method) ?_ 0,
      (hsearches ⟨1⟩ ⟨root, hroot, by simpa using hkind⟩).1⟩
    show MetaOp.addMethod ∉ _
    decide
  | _ => cases hframe

end Attained

end World

end Prototypes
