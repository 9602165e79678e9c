import Prototypes.Proofs.Permanence.ReadOnly

/-!
# Fields for as long as nothing removes them

A field can be given other values, and fields beside it come and go.  It is there all the same, and
can be assigned or not as it could before, until it is removed itself or its node is reclaimed;
nothing else takes a field away, neither writing over the `base` of a mirror nor cloning its node.

The machine here is the actual one but for stopping short of these two.  It stops less often than the
one that spares a read-only field, for which writing without asking matters.

## Main results

* `Runtime.holding_below` — where the field is held, the machine does what the actual one does.
* `Runtime.keeping_holding` — no call of it takes the field away.
* `World.Holds.keeping` — so it is there in all worlds that come about, by induction on how they do.
-/

namespace Prototypes

variable {κ σ α : Type}

open Run (Steady)

/-! ## What is kept -/

namespace World

/-- The node of `field` is there and has the field. -/
def HasField (world : World κ σ) (field : NativeField) (writable : Bool) : Prop :=
  ∃ node, world.heap.node? field.host = some node ∧ node.slots.HasField field.name writable

/-- The same world, which is sound and has the field. -/
def Holding (field : NativeField) (writable : Bool) (v w : World κ σ) : Prop :=
  v = w ∧ v.Sound ∧ v.HasField field writable

namespace Holding

variable {field : NativeField} {writable : Bool} {v w : World κ σ}

/-- Nothing but nodes matter. -/
theorem alter (hfield : v.HasField field writable) (hsound : w.Sound)
    (hnodes : ∀ id, w.heap.node? id = v.heap.node? id) : Holding field writable w w := by
  obtain ⟨node, hnode, hheld⟩ := hfield
  exact ⟨rfl, hsound, node, (hnodes _).trans hnode, hheld⟩

/-- Another node may be put in the place of one, if it has the field that one had. -/
theorem replace (hsound : v.Sound) (hfield : v.HasField field writable) {id : ObjectId}
    {node after : Node κ} (hnode : v.heap.node? id = some node)
    (hkept : id = field.host → node.slots.HasField field.name writable →
      after.slots.HasField field.name writable)
    (hw : w = { v with heap := v.heap.replace id after }) : Holding field writable w w := by
  subst hw
  have hlive := Heap.contains_of_node? hnode
  have hread := v.heap.node?_replace_of_contains hlive after
  obtain ⟨old, hold, hheld⟩ := hfield
  refine ⟨rfl, ⟨hsound.free.replace hlive after, hsound.defaults⟩, ?_⟩
  by_cases hid : id = field.host
  · rw [hid] at hnode
    cases hold.symm.trans hnode
    exact ⟨after, (hread _).trans (if_pos hid.symm), hkept hid hheld⟩
  · exact ⟨old, (hread _).trans ((if_neg (Ne.symm hid)).trans hold), hheld⟩

instance kinship : World.Kinship (Holding (κ := κ) (σ := σ) field writable) where
  visible h := congrArg World.visible h.1
  newFamily := by
    rintro v w ⟨rfl, hsound, hfield⟩
    exact alter hfield ⟨⟨hsound.free.nodup, hsound.free.mem_iff⟩, hsound.defaults⟩ fun _ => rfl
  allocate := by
    rintro v w node - ⟨rfl, hsound, old, hold, hheld⟩
    refine ⟨rfl, ⟨hsound.free.allocate node, hsound.defaults⟩, old, ?_, hheld⟩
    exact Heap.Keeps.allocate hsound.free node _ _ hold
  edit := by
    rintro v w id node slots hnode hedit ⟨rfl, hsound, hfield⟩
    refine replace hsound hfield hnode (fun _ hheld => ?_) rfl
    rw [Node.slots_withSlots]
    exact hedit.hasField hheld
  setSupply supply := by
    rintro ⟨rfl, hsound, hfield⟩
    exact alter hfield ⟨hsound.free, hsound.defaults⟩ fun _ => rfl
  setHost host := by
    rintro ⟨rfl, hsound, hfield⟩
    exact alter hfield ⟨hsound.free, hsound.defaults⟩ fun _ => rfl
  append events := by
    rintro ⟨rfl, hsound, hfield⟩
    exact alter hfield ⟨hsound.free, hsound.defaults⟩ fun _ => rfl

/-- A collection after which the node of the field is there has left it as it was. -/
theorem collect (hv : Holding field writable v v) {roots : List (Value κ)} {collected : Collected}
    (hcollect : Run.collect roots v = .ok collected w) (hlive : w.heap.contains field.host = true) :
    Holding field writable w w := by
  obtain ⟨-, hsound, old, hold, hheld⟩ := hv
  obtain ⟨heap, hheap, rfl⟩ := Run.collect_eq_ok hcollect
  obtain ⟨node, hnode⟩ := Heap.contains_iff.mp hlive
  obtain ⟨hbefore, -⟩ := (Heap.node?_of_collect hheap _ node).mp hnode
  cases hold.symm.trans hbefore
  exact ⟨rfl, ⟨hsound.free.follows (.collect hheap), hsound.defaults⟩, old, hnode, hheld⟩

end Holding

end World

/-! ## The machine -/

namespace Runtime

/-- Performs an operation on a node, unless it would remove the field. -/
def performHolding (field : NativeField) (rt : Runtime κ σ) (id : ObjectId) :
    Message κ → Run κ σ (Value κ)
  | .removeSlot selector => removeSparing field id selector
  | message => rt.performDefault id message

/-- The runtime with a number of steps that stops short of removing the field or reclaiming its node. -/
def holding (host : Host κ σ) (field : NativeField) : Nat → Runtime κ σ :=
  machineWith host (performHolding field) (Program.runSparing field)

variable {field : NativeField} {rt rt' : Runtime κ σ}

theorem performHolding_below (h : rt.Below World.Alike rt') (id : ObjectId) (message : Message κ) :
    Run.Below World.Alike (rt.performHolding field id message) (rt'.performDefault id message) := by
  have hperform := Below.performDefault h id message
  cases message with
  | removeSlot selector => exact Run.Below.allowed hperform _
  | _ => exact hperform

/-- Where the field is held, the machine does what the actual one does. -/
theorem holding_below (host : Host κ σ) (field : NativeField) (steps : Nat) :
    (holding host field steps).Below World.Alike (ofFuel host steps) := by
  rw [← machineWith_actual]
  exact machineWith_below host performHolding_below (Program.runSparing_below field)
    Steady.bindMirror steps

end Runtime

/-! ## Nothing takes the field away -/

section Keeping

variable {field : NativeField} {writable : Bool} {rt rt' : Runtime κ σ}

theorem Run.holding_setMirror (mirage mirror : ObjectId) :
    Steady (World.Holding field writable) (Run.setMirror mirage mirror : Run κ σ Unit) := by
  rintro v _ ⟨rfl, hsound, hfield⟩
  refine Run.Below.agrees_change ⟨rfl, hsound, hfield⟩ fun node hnode => ?_
  refine World.Holding.replace hsound hfield hnode (fun _ hheld => ?_) rfl
  cases node <;> exact hheld

theorem Run.holding_setSlots {v : World κ σ} (hv : World.Holding field writable v v) {id : ObjectId}
    {node : Node κ} {slots : Storage κ} (hnode : v.heap.node? id = some node)
    (hslots : id = field.host → node.slots.HasField field.name writable →
      slots.HasField field.name writable) :
    Run.Agrees (World.Holding field writable) (Run.setSlots id slots v) (Run.setSlots id slots v) := by
  obtain ⟨-, hsound, hfield⟩ := hv
  rw [Run.setSlots_of_node hnode]
  refine .ok () (World.Holding.replace hsound hfield hnode (fun hid hheld => ?_) rfl)
  rw [Node.slots_withSlots]
  exact hslots hid hheld

theorem Run.holding_collectSparing (roots : List (Value κ)) :
    Steady (World.Holding field writable) (Run.collectSparing field roots : Run κ σ Collected) := by
  intro v w hvw
  obtain rfl := hvw.1
  exact Run.agrees_collectSparing hvw hvw.collect

namespace Runtime

/-- A mirror that is made to reflect on a copy has its field still, with another value. -/
theorem holding_rebase (mirror copy : ObjectId) :
    Steady (World.Holding field writable) (rebase mirror copy : Run κ σ Unit) := by
  refine Steady.rebase_of ?_
  rintro v _ node index slots ⟨rfl, hsound, hfield⟩ hnode - hwrite
  refine World.Holding.replace hsound hfield hnode (fun _ hheld => ?_) rfl
  rw [Node.slots_withSlots]
  exact hheld.write hwrite

theorem holding_removeSparing (id : ObjectId) (selector : Symbol) :
    Steady (World.Holding field writable) (removeSparing field id selector : Run κ σ (Value κ)) := by
  refine Run.steady_allowed fun hspared => ?_
  have hspared : field ≠ ⟨id, selector⟩ := of_decide_eq_true hspared
  intro v w hvw
  refine Steady.agrees_defaultRemoveSlot (World.Kinship.editable _) hvw ?_
  intro v' w' node identity value rest hvw' hheap hnode hremoved
  obtain rfl := hvw'.1
  have hnode' := (congrArg (Heap.node? · id) hheap).trans hnode
  refine Run.holding_setSlots hvw' hnode' fun hid hheld =>
    hheld.removeField (fun hname => hspared ?_) hremoved
  rw [hid, hname]

theorem holding_performHolding (h : rt.Below (World.Holding field writable) rt') (id : ObjectId)
    (message : Message κ) :
    Run.Below (World.Holding field writable) (rt.performHolding field id message)
      (rt'.performHolding field id message) := by
  have hmirage := h.cloneMirageBy h.copies holding_rebase Run.holding_setMirror id
  have hperform := Below.performDefault_of h hmirage message
  cases message with
  | removeSlot selector => exact holding_removeSparing id selector
  | _ => exact hperform fun _ h => nomatch h

end Runtime

theorem Request.holding_run (h : rt.Below (World.Holding field writable) rt') (request : Request κ) :
    Run.Below (World.Holding field writable) (request.run rt) (request.run rt') :=
  h.request_of_setMirror request Run.holding_setMirror

/-- No call of the machine takes the field away, once it is there. -/
theorem Runtime.keeping_holding (host : Host κ σ) (field : NativeField) (writable : Bool) (steps : Nat) :
    (holding host field steps).Below (World.Holding field writable) (holding host field steps) :=
  machineWith_below host holding_performHolding
    (fun h program => program.runBy_below (Request.holding_run h) Run.holding_collectSparing)
    (Steady.bindMirror_of Run.holding_setMirror) steps

end Keeping

/-! ## Worlds that come about -/

/-- The request ends with a number of steps, and until then the field is not taken away. -/
def Request.Holds (host : Host κ σ) (field : NativeField) (steps : Nat) (request : Request κ)
    (world : World κ σ) : Prop :=
  Run.Ended (request.run (Runtime.holding host field steps)) world

/--
The worlds that come about from `start` while the field is not removed, the node that has it being
reached from the roots whenever garbage is collected.
-/
inductive World.Holds (host : Host κ σ) (field : NativeField) (start : World κ σ) :
    World κ σ → Prop
  | start : Holds host field start start
  | request {v : World κ σ} (request : Request κ) (steps : Nat) : Holds host field start v →
      request.Holds host field steps v →
        Holds host field start (Run.after (request.run (Runtime.ofFuel host steps)) v)
  | collect {v : World κ σ} (roots : List (Value κ)) : Holds host field start v →
      v.heap.Reaches (v.roots roots) field.host →
        Holds host field start (Run.after (Run.collect roots) v)
  | remember {v : World κ σ} (update : σ → σ) : Holds host field start v →
      Holds host field start { v with host := update v.host }
  | identity {v : World κ σ} : Holds host field start v →
      Holds host field start { v with supply := v.supply + 1 }

section Holds

variable {host : Host κ σ} {field : NativeField} {writable : Bool} {start v w : World κ σ}

/-- The node is reached if it is one of the roots. -/
theorem World.Holds.collect_of_mem (h : World.Holds host field start v) {roots : List (Value κ)}
    (hroot : .object field.host ∈ roots) :
    World.Holds host field start (Run.after (Run.collect roots) v) := by
  refine h.collect roots (.root ?_)
  have hedges : field.host ∈ Value.edgesOfAll roots := by
    induction roots with
    | nil => cases hroot
    | cons value more ih =>
      rcases List.mem_cons.mp hroot with rfl | hmore
      · exact List.mem_append_left _ (List.mem_singleton_self _)
      · exact List.mem_append_right _ (ih hmore)
  exact List.mem_append_right _ (List.mem_append_right _ hedges)

/-- A request that does not take the field away keeps it. -/
theorem Request.Holds.keeping {steps : Nat} {request : Request κ}
    (h : request.Holds host field steps v) (hv : World.Holding field writable v v) :
    World.Holding field writable (Run.after (request.run (Runtime.ofFuel host steps)) v)
      (Run.after (request.run (Runtime.ofFuel host steps)) v) := by
  have hsteady := request.holding_run (Runtime.keeping_holding host field writable steps)
  have hbelow := (Runtime.holding_below host field steps).request request
  obtain ⟨-, hsound, hfield⟩ := hsteady.after_of_ended hv h
  rw [(hbelow.after_alike h).eq_with_log]
  exact .alter hfield ⟨hsound.free, hsound.defaults⟩ fun _ => rfl

/-- So a field that was there at the start is there in every world that comes about. -/
theorem World.Holds.keeping (h : World.Holds host field start w) (hsound : start.Sound)
    (hfield : start.HasField field writable) : World.Holding field writable w w := by
  induction h with
  | start => exact ⟨rfl, hsound, hfield⟩
  | request request steps _ hholds ih => exact hholds.keeping ih
  | @collect v roots _ hreached ih =>
    refine Run.after_collect (P := fun w => World.Holding field writable w w) ih fun collected w hcollect =>
      ih.collect hcollect ?_
    obtain ⟨node, hnode, -⟩ := ih.2.2
    obtain ⟨heap, hheap, rfl⟩ := Run.collect_eq_ok_iff.mp hcollect
    exact Heap.contains_of_node? ((Heap.node?_of_collect hheap _ node).mpr ⟨hnode, hreached⟩)
  | remember update _ ih => exact World.Affinity.setHost _ ih
  | identity _ ih => exact World.Affinity.setSupply _ ih

end Holds

end Prototypes
