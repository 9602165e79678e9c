import Prototypes.Proofs.Binding.Reached
import Prototypes.Proofs.Slots.Fields

/-!
# Read-only fields for as long as nothing takes them away

A field that cannot be assigned keeps its value whatever is asked of the world, except in
two ways that do not ask whether it can.  Removing a slot takes a read-only field away
like any other, and then another field of its name can be defined.  And cloning a mirage
makes whatever answers for the clone of its mirror reflect on the copy, by overwriting the
field `base`, even where that is the mirror of another mirage.

The machine here is the actual one but for stopping short of these two with one field
that is to be spared, and of reclaiming the node that has it.  It is below the actual
machine, so that its runs are those of the actual machine in which the field is spared and
its node lives on.

## Main results

* `Runtime.sparing_below` — where the field is spared, the machine does what the actual one
  does.
* `Runtime.keeping_sparing` — no call of it changes a read-only field.
* `World.readOnly_for_ever` — a read-only field is there for ever, and answers what it did.
* `World.readOnly_replaced` — without sparing it, another one takes its place.
-/

namespace Prototypes

variable {κ σ α : Type}

open Run (Steady)

/-! ## What is kept of a node -/

namespace Node

/-- The node is of the same kind, and has the field `name` if it was read-only before. -/
structure Retains (name : Symbol) (before after : Node κ) : Prop where
  plain : after.isPlain = before.isPlain
  field : ∀ value, before.slots.ReadOnly name value → after.slots.ReadOnly name value

variable {name : Symbol} {before middle after : Node κ}

theorem Retains.refl (name : Symbol) (node : Node κ) : node.Retains name node := ⟨rfl, fun _ => id⟩

theorem Retains.trans (h : before.Retains name middle) (h' : middle.Retains name after) :
    before.Retains name after :=
  ⟨h'.plain.trans h.plain, fun value => h'.field value ∘ h.field value⟩

theorem retains_withSlots {slots : Storage κ}
    (h : ∀ value, before.slots.ReadOnly name value → slots.ReadOnly name value) :
    before.Retains name (before.withSlots slots) where
  plain := before.isPlain_withSlots slots
  field value hvalue := by
    rw [slots_withSlots]
    exact h value hvalue

theorem retains_withMirror (node : Node κ) (mirror : Option ObjectId) :
    node.Retains name (node.withMirror mirror) where
  plain := by cases node <;> rfl
  field value hvalue := by cases node <;> exact hvalue

end Node

namespace World

/-- The node of `field` is there and has the field, which cannot be assigned and holds `value`. -/
def HasReadOnly (world : World κ σ) (field : NativeField) (value : Value κ) : Prop :=
  ∃ node, world.heap.node? field.host = some node ∧ node.slots.ReadOnly field.name value

/-- The node of `field`, if it was there, is there and has retained the field. -/
def Retains (field : NativeField) (before after : World κ σ) : Prop :=
  ∀ old, before.heap.node? field.host = some old →
    ∃ new, after.heap.node? field.host = some new ∧ old.Retains field.name new

/-- The same world, its free list exact, which has retained the field from `start`. -/
def Keeping (field : NativeField) (start v w : World κ σ) : Prop :=
  v = w ∧ v.heap.FreeListExact ∧ Retains field start v

variable {field : NativeField} {start u v w : World κ σ} {value : Value κ}

theorem Retains.refl (field : NativeField) (w : World κ σ) : Retains field w w :=
  fun old hold => ⟨old, hold, .refl _ old⟩

theorem Retains.trans (h : Retains field u v) (h' : Retains field v w) : Retains field u w := by
  intro old hold
  obtain ⟨middle, hmiddle, hfirst⟩ := h old hold
  obtain ⟨new, hnew, hsecond⟩ := h' middle hmiddle
  exact ⟨new, hnew, hfirst.trans hsecond⟩

theorem Retains.hasReadOnly (h : Retains field v w) (hfield : v.HasReadOnly field value) :
    w.HasReadOnly field value := by
  obtain ⟨node, hnode, hread⟩ := hfield
  obtain ⟨new, hnew, hretains⟩ := h node hnode
  exact ⟨new, hnew, hretains.field value hread⟩

namespace Keeping

/-- Nothing but nodes matter. -/
theorem alter (hstart : Retains field start v) (hfree : w.heap.FreeListExact)
    (hnodes : ∀ id, w.heap.node? id = v.heap.node? id) : Keeping field start w w :=
  ⟨rfl, hfree, hstart.trans fun old hold => ⟨old, (hnodes _).trans hold, .refl _ old⟩⟩

/-- Another node may be put in the place of one from which the field is retained. -/
theorem replace (hfree : v.heap.FreeListExact) (hstart : Retains field start v) {id : ObjectId}
    {node after : Node κ} (hnode : v.heap.node? id = some node)
    (hretains : id = field.host → node.Retains field.name after)
    (hw : w = { v with heap := v.heap.replace id after }) : Keeping field start w w := by
  subst hw
  have hlive := Heap.contains_of_node? hnode
  have hread := v.heap.node?_replace_of_contains hlive after
  refine ⟨rfl, hfree.replace hlive after, hstart.trans fun old hold => ?_⟩
  by_cases hid : id = field.host
  · rw [hid] at hnode
    cases hold.symm.trans hnode
    exact ⟨after, (hread _).trans (if_pos hid.symm), hretains hid⟩
  · exact ⟨old, (hread _).trans ((if_neg (Ne.symm hid)).trans hold), .refl _ old⟩

instance kinship : World.Kinship (Keeping field start) where
  visible h := congrArg World.visible h.1
  newFamily := by
    rintro v w ⟨rfl, hfree, hstart⟩
    exact alter hstart ⟨hfree.nodup, hfree.mem_iff⟩ fun _ => rfl
  allocate := by
    rintro v w node - ⟨rfl, hfree, hstart⟩
    refine ⟨rfl, hfree.allocate node, hstart.trans fun old hold => ⟨old, ?_, .refl _ old⟩⟩
    have hne : field.host ≠ v.heap.nextId := by
      intro hnext
      have hnew := hfree.not_contains_nextId
      rw [← hnext, Heap.contains_of_node? hold] at hnew
      cases hnew
    exact (hfree.node?_allocate node field.host).trans ((if_neg hne).trans hold)
  edit := by
    rintro v w id node slots hnode hedit ⟨rfl, hfree, hstart⟩
    exact replace hfree hstart hnode (fun _ => Node.retains_withSlots fun _ => hedit.readOnly) rfl
  setSupply supply := by
    rintro ⟨rfl, hfree, hstart⟩
    exact alter hstart hfree fun _ => rfl
  setHost host := by
    rintro ⟨rfl, hfree, hstart⟩
    exact alter hstart hfree fun _ => rfl
  append events := by
    rintro ⟨rfl, hfree, hstart⟩
    exact alter hstart hfree fun _ => rfl

end Keeping

end World

/-! ## The machine -/

/-- A collection that stops short of reclaiming the node of the field. -/
def Run.collectSparing (field : NativeField) (roots : List (Value κ)) : Run κ σ Collected := fun world =>
  match Run.collect roots world with
  | .ok collected after =>
    if after.heap.contains field.host then .ok collected after else .error .exhausted world
  | .error reason after => .error reason after

/-- Runs a program whose collections spare the node of the field. -/
def Program.runSparing (field : NativeField) (rt : Runtime κ σ) (program : Program κ σ α) :
    Run κ σ α :=
  program.runBy (fun request => request.run rt) (Run.collectSparing field)

namespace Runtime

/-- Makes a mirror reflect on a copy, if this is not to overwrite the field. -/
def rebaseSparing (field : NativeField) (mirror copy : ObjectId) : Run κ σ Unit :=
  Run.allowed (fun _ => decide (field ≠ ⟨mirror, Selector.base⟩)) (rebase mirror copy)

/-- Removes a slot, if it is not the field. -/
def removeSparing (field : NativeField) (id : ObjectId) (selector : Symbol) : Run κ σ (Value κ) :=
  Run.allowed (fun _ => decide (field ≠ ⟨id, selector⟩)) (defaultRemoveSlot id selector)

/-- Performs an operation on a node, sparing the field. -/
def performSparing (field : NativeField) (rt : Runtime κ σ) (id : ObjectId) :
    Message κ → Run κ σ (Value κ)
  | .removeSlot selector => removeSparing field id selector
  | message => rt.performDefaultBy (rt.cloneMirageBy (rebaseSparing field)) id message

/-- The runtime with a number of steps that spares the field. -/
def sparing (host : Host κ σ) (field : NativeField) : Nat → Runtime κ σ :=
  machineWith host (performSparing field) (Program.runSparing field)

end Runtime

/-! ## Below the actual machine -/

section Actual

variable {field : NativeField} {rt rt' : Runtime κ σ}

theorem Run.Below.collectSparing (field : NativeField) (roots : List (Value κ)) :
    Run.Below World.Alike (Run.collectSparing field roots : Run κ σ Collected) (Run.collect roots) := by
  intro v w hvw
  have hactual := Run.Below.collect (R := World.Alike) roots v w hvw
  unfold Run.collectSparing
  cases hcollect : Run.collect roots v with
  | error reason after =>
    rw [hcollect] at hactual
    exact hactual
  | ok collected after =>
    rw [hcollect] at hactual
    dsimp only
    split
    · exact hactual
    · exact .exhausted v _

theorem Program.runSparing_below (field : NativeField) (h : rt.Below World.Alike rt')
    (program : Program κ σ α) :
    Run.Below World.Alike (program.runSparing field rt) (program.run rt') := by
  rw [Program.run_eq_runBy]
  exact program.runBy_below h.request (Run.Below.collectSparing field)

namespace Runtime

theorem performSparing_below (h : rt.Below World.Alike rt') (id : ObjectId) (message : Message κ) :
    Run.Below World.Alike (rt.performSparing field id message) (rt'.performDefault id message) := by
  have hremove (selector : Symbol) :
      Steady World.Alike (defaultRemoveSlot id selector : Run κ σ (Value κ)) :=
    (Below.performDefault h id (.removeSlot selector) :)
  have hmirage := h.cloneMirageBy h.copies (fun mirror copy => (Steady.rebase mirror copy).allowed
    fun _ => decide (field ≠ ⟨mirror, Selector.base⟩)) Steady.setMirror id
  have hperform := h.performDefaultBy_of hmirage message fun selector _ => hremove selector
  rw [← performDefaultBy_cloneMirage]
  cases message with
  | removeSlot selector => exact (hremove selector).allowed _
  | _ => exact hperform

/-- Where the field is spared, the machine does what the actual one does. -/
theorem sparing_below (host : Host κ σ) (field : NativeField) (steps : Nat) :
    (sparing host field steps).Below World.Alike (ofFuel host steps) := by
  rw [← machineWith_actual]
  exact machineWith_below host performSparing_below (Program.runSparing_below field)
    Steady.bindMirror steps

end Runtime

end Actual

/-! ## Nothing takes the field away -/

section Keeping

variable {field : NativeField} {start : World κ σ} {rt rt' : Runtime κ σ}

/-- What keeps the field if a condition holds keeps it where it is done only then. -/
theorem Run.steady_allowed {R : World κ σ → World κ σ → Prop} {condition : Bool} {x : Run κ σ α}
    (h : condition = true → Steady R x) : Steady R (Run.allowed (fun _ => condition) x) := by
  intro v w hvw
  unfold Run.allowed
  split
  · exact h ‹_› v w hvw
  · exact .exhausted v _

/-- Collecting keeps what a collection does that leaves the node of the field. -/
theorem Run.agrees_collectSparing {R : World κ σ → World κ σ → Prop} {v : World κ σ} (hv : R v v)
    {roots : List (Value κ)}
    (h : ∀ {collected w}, Run.collect roots v = .ok collected w → w.heap.contains field.host = true → R w w) :
    Run.Agrees R (Run.collectSparing field roots v) (Run.collectSparing field roots v) := by
  unfold Run.collectSparing
  cases hcollect : Run.collect roots v with
  | error reason after =>
    obtain ⟨-, rfl⟩ := Run.collect_eq_error_iff.mp hcollect
    exact .error reason hv
  | ok collected after =>
    dsimp only
    split
    · exact .ok collected (h hcollect ‹_›)
    · exact .exhausted v _

theorem Run.keeping_setMirror (mirage mirror : ObjectId) :
    Steady (World.Keeping field start) (Run.setMirror mirage mirror : Run κ σ Unit) := by
  rintro v _ ⟨rfl, hfree, hstart⟩
  exact Run.Below.agrees_change ⟨rfl, hfree, hstart⟩ fun node hnode =>
    World.Keeping.replace hfree hstart hnode (fun _ => node.retains_withMirror _) rfl

theorem Run.keeping_setSlots {v : World κ σ} (hfree : v.heap.FreeListExact)
    (hstart : start.Retains field v) {id : ObjectId} {node : Node κ} {slots : Storage κ}
    (hnode : v.heap.node? id = some node)
    (hslots : id = field.host → ∀ value, node.slots.ReadOnly field.name value →
      slots.ReadOnly field.name value) :
    Run.Agrees (World.Keeping field start) (Run.setSlots id slots v) (Run.setSlots id slots v) := by
  rw [Run.setSlots_of_node hnode]
  exact .ok () (World.Keeping.replace hfree hstart hnode
    (fun hid => Node.retains_withSlots (hslots hid)) rfl)

/-- A collection after which the node of the field is there has left it as it was. -/
theorem World.Keeping.collect {v w : World κ σ} (hv : World.Keeping field start v v)
    {roots : List (Value κ)} {collected : Collected} (hcollect : Run.collect roots v = .ok collected w)
    (hlive : w.heap.contains field.host = true) : World.Keeping field start w w := by
  obtain ⟨-, hfree, hstart⟩ := hv
  obtain ⟨heap, hheap, rfl⟩ := Run.collect_eq_ok hcollect
  refine ⟨rfl, hfree.follows (.collect hheap), hstart.trans fun old hold => ?_⟩
  obtain ⟨node, hnode⟩ := Heap.contains_iff.mp hlive
  obtain ⟨hbefore, -⟩ := (Heap.node?_of_collect hheap _ node).mp hnode
  cases hold.symm.trans hbefore
  exact ⟨old, hnode, .refl _ old⟩

theorem Run.keeping_collectSparing (roots : List (Value κ)) :
    Steady (World.Keeping field start) (Run.collectSparing field roots : Run κ σ Collected) := by
  rintro v _ ⟨rfl, hfree, hstart⟩
  exact Run.agrees_collectSparing ⟨rfl, hfree, hstart⟩ fun hcollect hlive =>
    World.Keeping.collect ⟨rfl, hfree, hstart⟩ hcollect hlive

namespace Runtime

theorem keeping_rebaseSparing (mirror copy : ObjectId) :
    Steady (World.Keeping field start) (rebaseSparing field mirror copy : Run κ σ Unit) := by
  refine Run.steady_allowed fun hspared => ?_
  have hspared : field ≠ ⟨mirror, Selector.base⟩ := of_decide_eq_true hspared
  refine Steady.rebase_of ?_
  rintro v _ node index slots ⟨rfl, hfree, hstart⟩ hnode hindex hwrite
  refine World.Keeping.replace hfree hstart hnode (fun hid => Node.retains_withSlots ?_) rfl
  intro value hvalue
  refine hvalue.write_other (fun hname => hspared ?_) hindex hwrite
  rw [hid, hname]

theorem keeping_removeSparing (id : ObjectId) (selector : Symbol) :
    Steady (World.Keeping field start) (removeSparing field id selector : Run κ σ (Value κ)) := by
  refine Run.steady_allowed fun hspared => ?_
  have hspared : field ≠ ⟨id, selector⟩ := of_decide_eq_true hspared
  rintro v _ ⟨rfl, hfree, hstart⟩
  refine Steady.agrees_defaultRemoveSlot (World.Kinship.editable _) ⟨rfl, hfree, hstart⟩ ?_
  rintro v' _ node identity value rest ⟨rfl, hfree', hstart'⟩ hheap hnode hremoved
  have hnode' := (congrArg (Heap.node? · id) hheap).trans hnode
  refine Run.keeping_setSlots hfree' hstart' hnode' fun hid kept hkept =>
    hkept.removeField (fun hname => hspared ?_) hremoved
  rw [hid, hname]

theorem keeping_performSparing (h : rt.Below (World.Keeping field start) rt') (id : ObjectId)
    (message : Message κ) :
    Run.Below (World.Keeping field start) (rt.performSparing field id message)
      (rt'.performSparing field id message) := by
  have hmirage := h.cloneMirageBy h.copies keeping_rebaseSparing Run.keeping_setMirror id
  have hperform := h.performDefaultBy_of hmirage message
  cases message with
  | removeSlot selector => exact keeping_removeSparing id selector
  | _ => exact hperform fun _ h => nomatch h

end Runtime

theorem Request.keeping_run (h : rt.Below (World.Keeping field start) rt') (request : Request κ) :
    Run.Below (World.Keeping field start) (request.run rt) (request.run rt') :=
  h.request_of_setMirror request Run.keeping_setMirror

theorem Program.keeping_runSparing (h : rt.Below (World.Keeping field start) rt')
    (program : Program κ σ α) :
    Run.Below (World.Keeping field start) (program.runSparing field rt)
      (program.runSparing field rt') :=
  program.runBy_below (Request.keeping_run h) Run.keeping_collectSparing

/-- No call of the machine changes the field, once it is there and cannot be assigned. -/
theorem Runtime.keeping_sparing (host : Host κ σ) (field : NativeField) (start : World κ σ)
    (steps : Nat) : (sparing host field steps).Below (World.Keeping field start)
      (sparing host field steps) :=
  machineWith_below host keeping_performSparing Program.keeping_runSparing
    (Steady.bindMirror_of Run.keeping_setMirror) steps

end Keeping

/-! ## Reading the field -/

namespace World.HasReadOnly

variable {field : NativeField} {value : Value κ} {w : World κ σ}

/-- What reads the field of its node, as accessors and references to it do, answers its value. -/
theorem readSlot (h : w.HasReadOnly field value) (rt : Runtime κ σ) :
    rt.readSlot field.host field.name w = .ok value w := by
  obtain ⟨node, hnode, hread⟩ := h
  obtain ⟨index, hslot, hvalue⟩ := hread.exists_slot
  exact rt.readSlot_of_field hnode hslot hvalue

/-- So does looking its name up in its node. -/
theorem lookup (h : w.HasReadOnly field value) (rt : Runtime κ σ) :
    rt.defaultLookup field.host field.name w = .ok value w := by
  obtain ⟨node, hnode, hread⟩ := h
  obtain ⟨index, hfield, hvalue⟩ := hread.exists_slot
  have hslot := (Heap.slot?_of_node? hnode field.name).trans (Storage.find_eq_field_iff.mpr hfield)
  unfold Runtime.defaultLookup
  rw [Run.searchLexical_bind_of_ok (Heap.searchLexical_of_slot hslot)]
  exact Runtime.readIndex_of_read hnode hvalue

end World.HasReadOnly

/-- The field of the outermost scope that holds the mirror root. -/
def NativeField.defaultMirror : NativeField := ⟨⟨0⟩, ⟨"defaultMirror"⟩⟩

theorem World.hasReadOnly_new (settings : WorldSettings) (memory : σ) :
    (World.new settings memory : World κ σ).HasReadOnly .defaultMirror (.object ⟨1⟩) :=
  ⟨_, rfl, rfl⟩

/-! ## Operations that spare the field -/

/-- The request ends with a number of steps, and spares the field until then. -/
def Request.Spares (host : Host κ σ) (field : NativeField) (steps : Nat) (request : Request κ)
    (world : World κ σ) : Prop :=
  Run.Ended (request.run (Runtime.sparing host field steps)) world

/-- The worlds that come about from `start` while the field is spared and its node lives. -/
inductive World.Spares (host : Host κ σ) (field : NativeField) (start : World κ σ) :
    World κ σ → Prop
  | start : Spares host field start start
  | request {v : World κ σ} (request : Request κ) (steps : Nat) : Spares host field start v →
      request.Spares host field steps v →
        Spares host field start (Run.after (request.run (Runtime.ofFuel host steps)) v)
  | collect {v : World κ σ} (roots : List (Value κ)) : Spares host field start v →
      (Run.after (Run.collect roots) v).heap.contains field.host = true →
        Spares host field start (Run.after (Run.collect roots) v)
  | remember {v : World κ σ} (update : σ → σ) : Spares host field start v →
      Spares host field start { v with host := update v.host }
  | identity {v : World κ σ} : Spares host field start v →
      Spares host field start { v with supply := v.supply + 1 }

section Spares

variable {host : Host κ σ} {field : NativeField} {start v w : World κ σ}

/-- A request that spares the field keeps it. -/
theorem Request.Spares.keeping {steps : Nat} {request : Request κ}
    (h : request.Spares host field steps v) (hv : World.Keeping field start v v) :
    World.Keeping field start (Run.after (request.run (Runtime.ofFuel host steps)) v)
      (Run.after (request.run (Runtime.ofFuel host steps)) v) := by
  have hsteady := request.keeping_run (Runtime.keeping_sparing host field start steps)
  have hbelow := (Runtime.sparing_below host field steps).request request
  obtain ⟨-, hfree, hretains⟩ := hsteady.after_of_ended hv h
  rw [(hbelow.after_alike h).eq_with_log]
  exact .alter hretains hfree fun _ => rfl

theorem World.Spares.keeping (h : World.Spares host field start w)
    (hfree : start.heap.FreeListExact) : World.Keeping field start w w := by
  induction h with
  | start => exact ⟨rfl, hfree, .refl field start⟩
  | request request steps _ hspares ih => exact hspares.keeping ih
  | @collect v roots _ hlive ih =>
    have hkept : (Run.after (Run.collect roots) v).heap.contains field.host = true →
        World.Keeping field start (Run.after (Run.collect roots) v) (Run.after (Run.collect roots) v) :=
      Run.after_collect (P := fun w => w.heap.contains field.host = true → World.Keeping field start w w)
        (fun _ => ih) fun _ _ hcollect => ih.collect hcollect
    exact hkept hlive
  | remember update _ ih => exact World.Affinity.setHost _ ih
  | identity _ ih => exact World.Affinity.setSupply _ ih

/-- A plain object answers what its read-only field holds. -/
theorem World.Spares.lookup (h : World.Spares host field start w) (hfree : start.heap.FreeListExact)
    {value : Value κ} (hfield : start.HasReadOnly field value) {body : PrototypeObject κ}
    (hplain : start.heap.node? field.host = some (.object body)) (steps : Nat) :
    (Runtime.ofFuel host (steps + 1)).send (.object field.host) (.lookup field.name) w = .ok value w := by
  obtain ⟨-, -, hretains⟩ := h.keeping hfree
  obtain ⟨node, hnode, hkept⟩ := hretains _ hplain
  cases node with
  | mirage mirage => cases hkept.plain
  | frame frame => cases hkept.plain
  | object kept =>
    show (Runtime.ofFuel host steps).dispatch (.object field.host) (.lookup field.name) w = _
    rw [← Runtime.dispatchBy_performDefault, Runtime.dispatchBy_plain _ _ hnode]
    exact (hretains.hasReadOnly hfield).lookup (Runtime.ofFuel host steps)

/--
A field that cannot be assigned is there as long as its node is, with the value it had,
whatever programs do that spare it: that do not remove a slot of its name from its node and,
if it is the `base` of a mirror, do not let that mirror pass for the clone of another.
Reading the field answers the value, and so does looking it up in its node.  In particular
the outermost scope of a new world answers the mirror root when `defaultMirror` is looked up.
-/
theorem World.readOnly_for_ever {value : Value κ} (hfree : start.heap.FreeListExact)
    (hfield : start.HasReadOnly field value) (h : World.Spares host field start w) :
    w.HasReadOnly field value ∧
    (∀ rt : Runtime κ σ, rt.readSlot field.host field.name w = .ok value w ∧
      rt.defaultLookup field.host field.name w = .ok value w) ∧
    (∀ body, start.heap.node? field.host = some (.object body) → ∀ steps,
      (Runtime.ofFuel host (steps + 1)).send (.object field.host) (.lookup field.name) w =
        .ok value w) ∧
    ∀ settings memory, start = World.new settings memory → field = .defaultMirror → ∀ steps,
      (Runtime.ofFuel host (steps + 1)).send (.object start.lexicalRoot) (.lookup ⟨"defaultMirror"⟩) w =
        .ok (.object start.mirrorRoot) w := by
  have hkept := (h.keeping hfree).2.2.hasReadOnly hfield
  refine ⟨hkept, fun rt => ⟨hkept.readSlot rt, hkept.lookup rt⟩,
    fun body hplain steps => h.lookup hfree hfield hplain steps, ?_⟩
  rintro settings memory rfl rfl steps
  exact h.lookup hfree (World.hasReadOnly_new settings memory) rfl steps

end Spares

/-! ## The outermost scope's own field -/

/-- The world after a message to the outermost scope of it. -/
private def told (message : Message Empty) (w : World Empty Unit) : World Empty Unit :=
  Run.after ((Request.send (.object ⟨0⟩) message).run (Runtime.ofFuel Host.none 1)) w

/-- A new world in which the field was to be assigned and to be defined again. -/
private def attempted : World Empty Unit :=
  told (.defineField ⟨"defaultMirror"⟩ (.fixnum 5))
    (told (.assignVariable ⟨"defaultMirror"⟩ (.fixnum 5)) (World.new default ()))

/-- A new world in which the field was removed and defined anew. -/
private def replaced : World Empty Unit :=
  told (.defineField ⟨"defaultMirror"⟩ (.fixnum 5))
    (told (.removeSlot ⟨"defaultMirror"⟩) (World.new default ()))

/-- Neither assigning the field nor defining it changes what the scope answers. -/
theorem World.readOnly_for_ever_attempted :
    World.Spares Host.none .defaultMirror (World.new default ()) attempted ∧
      (Runtime.ofFuel Host.none 1).send (.object ⟨0⟩) (.lookup ⟨"defaultMirror"⟩) attempted =
        .ok (.object ⟨1⟩) attempted := by
  have hassigned : World.Spares Host.none .defaultMirror (World.new default ())
      (told (.assignVariable ⟨"defaultMirror"⟩ (.fixnum 5)) (World.new default ())) :=
    .request (.send (.object ⟨0⟩) (.assignVariable ⟨"defaultMirror"⟩ (.fixnum 5))) 1 .start
      fun after hexhausted => by cases hexhausted
  have hdefined : World.Spares Host.none .defaultMirror (World.new default ()) attempted :=
    .request (.send (.object ⟨0⟩) (.defineField ⟨"defaultMirror"⟩ (.fixnum 5))) 1 hassigned
      fun after hexhausted => by cases hexhausted
  obtain ⟨-, -, -, hlookup⟩ := World.readOnly_for_ever (World.sound_new default ()).free
    (World.hasReadOnly_new default ()) hdefined
  exact ⟨hdefined, hlookup default () rfl rfl 0⟩

/-- But another field takes its place once it is removed, though it could not be assigned. -/
theorem World.readOnly_replaced :
    (World.new default () : World Empty Unit).HasReadOnly .defaultMirror (.object ⟨1⟩) ∧
      (Runtime.ofFuel Host.none 1).send (.object ⟨0⟩) (.lookup ⟨"defaultMirror"⟩) replaced =
        .ok (.fixnum 5) replaced :=
  ⟨World.hasReadOnly_new default (), rfl⟩

end Prototypes
