import Prototypes.Proofs.Delegation.Selecting
import Prototypes.Proofs.Permanence.Fields
import Prototypes.Proofs.Slots.Reflection

/-!
# Handles of a field

A program can hold on to a field without holding its value: it selects the accessor or the mutator, or
takes the field out as a reference.  None of the three remembers where the field was.  A closure
finds the node through the frame that it is applied in and the field by its name; a reference has the
node and the name.  So they go on reading and writing the field that it was, whatever becomes of the
layout around it, as long as it is there.

## Main results

* `World.Reader`, `World.Writer` — the handles by which a field is read, and by which it is written.
* `World.Reader.readBy`, `World.Writer.writtenBy` — what they are.
* `World.WritesField` — what writing does.
* `World.handles_never_stale` — handles taken at some times, used at others.
-/

namespace Prototypes

variable {κ σ : Type}

/-! ## How handles are got -/

namespace NativeField

/-- A closure over the node of a field that reads it. -/
def accessor (field : NativeField) (identity : Identity) (receiver : Value κ) : Closure κ :=
  ⟨.builtin identity field.name [] (.accessor field.name), ⟨field.host, receiver, .nil⟩⟩

/-- One that writes it. -/
def mutator (field : NativeField) (identity : Identity) (selector : Symbol) (receiver : Value κ) :
    Closure κ :=
  ⟨.builtin identity selector [.required ⟨"value"⟩] (.mutator field.name), ⟨field.host, receiver, .nil⟩⟩

/-- The values by which a field is read. -/
inductive ReadBy (field : NativeField) : Value κ → Prop
  | accessor (identity made : Identity) (receiver : Value κ) :
      ReadBy field (.closure identity (field.accessor made receiver))
  | reference : ReadBy field (.field field)

/-- The values by which it is written; there are mutators only if it can be assigned. -/
inductive WrittenBy (field : NativeField) : Bool → Value κ → Prop
  | mutator (identity made : Identity) (selector : Symbol) (receiver : Value κ) :
      WrittenBy field true (.closure identity (field.mutator made selector receiver))
  | reference {writable : Bool} : WrittenBy field writable (.field field)

end NativeField

namespace World

/--
The value is answered for a selector by some node whose search for it ends at a slot of the holder.
The nodes on the way are objects, and mirages that do what is done by default.
-/
def Selected (host : Host κ σ) (world : World κ σ) (holder : ObjectId) (selector : Symbol)
    (slot : Slot κ) (value : Value κ) : Prop :=
  ∃ id ids receiver steps after, world.heap.Path selector (.object id) ids (.found holder slot) ∧
    (∀ other ∈ ids, world.Plainlike [.select] other) ∧
    (Runtime.ofFuel host steps).send (.object id) (.select receiver selector) world = .ok value after

/-- The value is answered by the node of a field that is asked for it. -/
def Grabbed (host : Host κ σ) (world : World κ σ) (field : NativeField) (value : Value κ) : Prop :=
  ∃ message steps after, (message = .grabField field.name ∨ message = .grabSlot field.name) ∧
    world.Plainlike [message.op] field.host ∧
    (Runtime.ofFuel host steps).send (.object field.host) message world = .ok value after

/-- The handles by which a field is read: accessors that are selected for it, and references. -/
inductive Reader (host : Host κ σ) (world : World κ σ) (field : NativeField) : Value κ → Prop
  | accessor {slot : Slot κ} {value : Value κ} :
      world.Selected host field.host field.name slot value → Reader host world field value
  | reference {value : Value κ} : world.Grabbed host field value → Reader host world field value

/-- The handles by which it is written: mutators that are selected for it, and references. -/
inductive Writer (host : Host κ σ) (world : World κ σ) (field : NativeField) : Value κ → Prop
  | mutator {selector : Symbol} {index : Nat} {writable : Bool} {value : Value κ} :
      selector.assignmentTarget? = some field.name →
        world.Selected host field.host selector (.mutator index writable) value →
          Writer host world field value
  | reference {value : Value κ} : world.Grabbed host field value → Writer host world field value

section Handles

variable {host : Host κ σ} {world : World κ σ} {field : NativeField} {writable : Bool} {value : Value κ}
  (hworld : world.WellFormed)

include hworld

/-- What is selected is made at the slot where the search ends. -/
theorem Selected.exists_selectSlot {holder : ObjectId} {selector : Symbol} {slot : Slot κ}
    (h : world.Selected host holder selector slot value) :
    world.heap.slot? selector holder = some slot ∧ ∃ (receiver : Value κ) (v w : World κ σ),
      Runtime.selectSlot holder slot receiver selector v = .ok value w := by
  obtain ⟨id, ids, receiver, steps, after, hpath, hplainlike, hselected⟩ := h
  have hmem : id ∈ ids := hpath.mem_or_barred.resolve_right fun hbarred => nomatch hbarred.2
  have hwalk := Walk.Operation.select (σ := σ) receiver selector
  -- with steps enough for the whole path the answer is the same
  have hmore := (Runtime.ofFuel_below host (show steps ≤ steps + ids.length + 1 by omega)).send
    (.object id) (.select receiver selector) world world (World.Alike.refl world)
  obtain ⟨last, v, -, hsend⟩ := hwalk.send_along host hworld.dynamic hpath hmem
    (List.mem_singleton_self _) hplainlike (show ids.length ≤ steps + ids.length by omega)
  rw [hselected] at hmore
  generalize hsent : (Runtime.ofFuel host (steps + ids.length + 1)).send (.object id)
    (.select receiver selector) world = sent at hmore
  cases hmore with
  | ok _ _ =>
    exact ⟨hpath.endsAt, receiver, v, _, (congrFun (id_map _) v).symm.trans (hsend.symm.trans hsent)⟩

variable (hfield : world.HasField field writable)

include hfield

/-- What its node answers for a field is a reference to it. -/
theorem Grabbed.eq_field (h : world.Grabbed host field value) : value = .field field := by
  obtain ⟨message, steps, after, hmessage, hplainlike, hgrabbed⟩ := h
  obtain ⟨node, hnode, hheld⟩ := hfield
  obtain ⟨index, held, hslot, hfound, -⟩ := hheld.exists_slot
  have hindex := (Storage.fieldSlot?_eq_some_iff.mp hslot).1
  cases steps with
  | zero => cases hgrabbed
  | succ steps =>
    obtain ⟨asked, halike, hsend⟩ :=
      Runtime.send_plainlike host steps hplainlike (List.mem_singleton_self _)
    rw [World.Affinity.heap_eq halike] at hnode
    have hgrab : (Runtime.defaultGrabField field.host field.name : Run κ σ (Value κ)) asked =
        .ok (.field field) asked := by
      unfold Runtime.defaultGrabField
      rw [Run.slots_bind hnode, hindex]
      rfl
    rw [hsend] at hgrabbed
    rcases hmessage with rfl | rfl
    · cases hgrab.symm.trans hgrabbed
      rfl
    · have hnodup := hworld.names field.host node (World.Affinity.heap_eq halike ▸ hnode)
      have hmethod := Storage.method?_of_field_mem_native hnodup (Storage.mem_native_of_field? hfound).1
      have hslots : (Runtime.defaultGrabSlot field.host field.name : Run κ σ (Value κ)) asked =
          .ok (.field field) asked := by
        unfold Runtime.defaultGrabSlot
        rw [Run.slots_bind hnode, hmethod]
        exact hgrab
      cases hslots.symm.trans hgrabbed
      rfl

/-- A reader is an accessor or a reference, wherever it was got. -/
theorem Reader.readBy (h : world.Reader host field value) : field.ReadBy value := by
  cases h with
  | reference h =>
    obtain rfl := h.eq_field hworld hfield
    exact .reference
  | accessor h =>
    obtain ⟨hslot, receiver, v, w, hselected⟩ := h.exists_selectSlot hworld
    obtain ⟨node, hnode, hheld⟩ := hfield
    obtain ⟨index, held, hnamed, -, -⟩ := hheld.exists_slot
    rw [Heap.slot?_of_node? hnode, Storage.find_eq_field_iff.mpr hnamed] at hslot
    cases hslot
    cases hselected
    exact .accessor _ _ receiver

/-- A writer is a mutator, if the field can be assigned, or a reference. -/
theorem Writer.writtenBy (h : world.Writer host field value) : field.WrittenBy writable value := by
  cases h with
  | reference h =>
    obtain rfl := h.eq_field hworld hfield
    exact .reference
  | @mutator selector index assignable _ htarget h =>
    obtain ⟨hslot, receiver, v, w, hselected⟩ := h.exists_selectSlot hworld
    obtain ⟨node, hnode, hheld⟩ := hfield
    obtain ⟨place, held, hnamed, -, -⟩ := hheld.exists_slot
    rw [Heap.slot?_of_node? hnode] at hslot
    cases Storage.names_of_find hslot with
    | mutator hassigns hfound =>
      cases hassigns.symm.trans htarget
      cases hnamed.symm.trans hfound
      -- a mutator is refused for a field that cannot be assigned
      cases writable with
      | false => cases hselected
      | true =>
        simp only [Runtime.selectSlot, Runtime.checkWritable, Runtime.mutator, Runtime.assignmentTarget,
          htarget] at hselected
        cases hselected
        exact .mutator _ _ selector receiver

end Handles

end World

/-! ## How they are used -/

namespace Runtime

/-- Reads a field by a handle of it: a closure is applied, a reference is asked. -/
def readBy (rt : Runtime κ σ) (reader : Value κ) : Run κ σ (Value κ) :=
  match reader with
  | .closure _ closure => rt.apply closure []
  | reference => rt.invoke reference Selector.readField []

/-- Gives a field a value by a handle of it. -/
def writeBy (rt : Runtime κ σ) (writer value : Value κ) : Run κ σ (Value κ) :=
  match writer with
  | .closure _ closure => rt.apply closure [value]
  | reference => rt.invoke reference Selector.writeField [value]

end Runtime

namespace World

/-- The node of a field has the field just as it is given. -/
def FieldIs (world : World κ σ) (field : NativeField) (held : Field κ) : Prop :=
  ∃ node, world.heap.node? field.host = some node ∧ node.slots.field? field.name = some held

/-- There is one way in which it does. -/
theorem FieldIs.unique {world : World κ σ} {field : NativeField} {held other : Field κ}
    (h : world.FieldIs field held) (h' : world.FieldIs field other) : held = other := by
  obtain ⟨node, hnode, hheld⟩ := h
  obtain ⟨same, hsame, hother⟩ := h'
  cases hnode.symm.trans hsame
  exact Option.some.inj (hheld.symm.trans hother)

/-- The field has been given a value.  All nodes are there, and have not changed in any other way. -/
structure WritesField (before : World κ σ) (field : NativeField) (value : Value κ)
    (after : World κ σ) : Prop where
  written : ∃ node index slots, before.heap.node? field.host = some node ∧
    node.slots.fieldIndex? field.name = some index ∧ node.slots.write? index value = some slots ∧
    after.heap.node? field.host = some (node.withSlots slots)
  others : ∀ id node, id ≠ field.host → before.heap.node? id = some node →
    after.heap.node? id = some node

namespace WritesField

variable {before after : World κ σ} {field other : NativeField} {value : Value κ} {held : Field κ}

/-- The field holds the value. -/
theorem fieldIs_self (h : before.WritesField field value after) (hheld : before.FieldIs field held) :
    after.FieldIs field { held with value } := by
  obtain ⟨node, index, slots, hnode, hindex, hwrite, hafter⟩ := h.written
  obtain ⟨old, hold, hfound⟩ := hheld
  cases hold.symm.trans hnode
  refine ⟨_, hafter, ?_⟩
  rw [Node.slots_withSlots]
  exact Storage.field?_write_self hfound hindex hwrite

/-- Every other field is what it was. -/
theorem fieldIs_other (h : before.WritesField field value after) (hne : other ≠ field)
    (hheld : before.FieldIs other held) : after.FieldIs other held := by
  obtain ⟨node, index, slots, hnode, hindex, hwrite, hafter⟩ := h.written
  obtain ⟨old, hold, hfound⟩ := hheld
  by_cases hhost : other.host = field.host
  · rw [hhost] at hold
    cases hold.symm.trans hnode
    refine ⟨_, hhost ▸ hafter, ?_⟩
    rw [Node.slots_withSlots]
    refine Storage.field?_write_of_ne hfound (fun hsame => hne ?_) hwrite
    have hname := Storage.eq_of_fieldIndex? hsame hindex
    obtain ⟨host, name⟩ := other
    obtain ⟨host', name'⟩ := field
    cases hhost
    cases hname
    rfl
  · exact ⟨old, h.others _ old hhost hold, hfound⟩

/-- Replacing the node in a world that has all nodes does just this. -/
theorem of_replace {entered : World κ σ} (hkeeps : before.heap.Keeps entered.heap) {node : Node κ}
    {index : Nat} {slots : Storage κ} (hnode : before.heap.node? field.host = some node)
    (hindex : node.slots.fieldIndex? field.name = some index)
    (hwrite : node.slots.write? index value = some slots) :
    before.WritesField field value
      { entered with heap := entered.heap.replace field.host (node.withSlots slots) } where
  written := by
    have hlive := Heap.contains_of_node? (hkeeps _ _ hnode)
    exact ⟨node, index, slots, hnode, hindex, hwrite,
      (Heap.node?_replace_of_contains hlive _ _).trans (if_pos rfl)⟩
  others id other hne hother := by
    have hlive := Heap.contains_of_node? (hkeeps _ _ hnode)
    exact (Heap.node?_replace_of_contains hlive _ _).trans ((if_neg hne).trans (hkeeps id other hother))

end WritesField

end World

namespace Runtime

variable (host : Host κ σ) {world : World κ σ} {field : NativeField} {writable : Bool}
  (hsound : world.Sound)

include hsound

/-- By whatever handle a field is read, it is what the field holds that is answered. -/
theorem readBy_of_fieldIs {value reader : Value κ}
    (hheld : world.FieldIs field { name := field.name, writable, value }) (h : field.ReadBy reader)
    (steps : Nat) :
    ∃ after, (ofFuel host (steps + 1)).readBy reader world = .ok value after ∧
      world.heap.Keeps after.heap := by
  obtain ⟨node, hnode, hfound⟩ := hheld
  obtain ⟨index, hindex, hget⟩ := Storage.field?_eq_some_iff.mp hfound
  have hslot : node.slots.fieldSlot? field.name = some (index, writable) :=
    Storage.fieldSlot?_eq_some_iff.mpr ⟨hindex, _, hget, rfl⟩
  have hread : node.slots.read? index = some value := by
    rw [Storage.read?, hget]
    rfl
  cases h with
  | accessor identity made receiver =>
    exact ⟨_, apply_accessor host steps hsound hnode hslot hread made receiver,
      Heap.Keeps.allocate hsound.free _⟩
  | reference =>
    refine ⟨world, ?_, .refl _⟩
    show (ofFuel host steps).performOnValue (.field field) (.invoke _ Selector.readField []) world = _
    rw [performOnValue_readField]
    exact (ofFuel host steps).readSlot_of_field hnode hslot hread

/-- By whatever handle a field that can be assigned is written, it alone has the value then. -/
theorem writeBy_of_writable (hfield : world.HasField field true) {writer : Value κ}
    (h : field.WrittenBy true writer) (value : Value κ) (steps : Nat) :
    ∃ answer after, (ofFuel host (steps + 1)).writeBy writer value world = .ok answer after ∧
      world.WritesField field value after ∧ World.Holding field true after after := by
  obtain ⟨node, hnode, hheld⟩ := hfield
  obtain ⟨index, held, hslot, hfound, -⟩ := hheld.exists_slot
  have hindex := (Storage.fieldSlot?_eq_some_iff.mp hslot).1
  obtain ⟨slots, hwrite⟩ := Storage.exists_write (Storage.find_eq_field_iff.mpr hslot) value
  have hkept (hheld : node.slots.HasField field.name true) :
      (node.withSlots slots).slots.HasField field.name true := by
    rw [Node.slots_withSlots]
    exact hheld.write hwrite
  cases h with
  | mutator identity made selector receiver =>
    have hentered := node?_enter_of_some hsound hnode field.host [(⟨"value"⟩, value)]
    have hsound' : (world.enter field.host [(⟨"value"⟩, value)]).Sound :=
      ⟨hsound.free.allocate _, hsound.defaults⟩
    exact ⟨_, _, apply_mutator host steps hsound hnode hslot hwrite made selector receiver,
      .of_replace (Heap.Keeps.allocate hsound.free _) hnode hindex hwrite,
      .replace hsound' ⟨node, hentered, hheld⟩ hentered (fun _ => hkept) rfl⟩
  | reference =>
    refine ⟨.nil, _, ?_, .of_replace (.refl _) hnode hindex hwrite,
      .replace hsound ⟨node, hnode, hheld⟩ hnode (fun _ => hkept) rfl⟩
    show (ofFuel host steps).performOnValue (.field field) (.invoke _ Selector.writeField [value]) world = _
    rw [performOnValue_writeField]
    exact Run.bind_of_ok ((ofFuel host steps).writeSlot_of_writable hnode hslot hwrite) _

omit hsound in
/-- One that cannot be assigned is not written. -/
theorem writeBy_of_readOnly (hfield : world.HasField field false) {writer : Value κ}
    (h : field.WrittenBy false writer) (value : Value κ) (steps : Nat) :
    (ofFuel host (steps + 1)).writeBy writer value world =
      .error (.raised (.illegalOperation (.readOnlyField field.name field.host))) world := by
  obtain ⟨node, hnode, hheld⟩ := hfield
  obtain ⟨index, held, hslot, -, -⟩ := hheld.exists_slot
  cases h with
  | reference =>
    show (ofFuel host steps).performOnValue (.field field) (.invoke _ Selector.writeField [value]) world = _
    rw [performOnValue_writeField]
    exact Run.bind_of_error ((ofFuel host steps).writeSlot_of_readOnly hnode hslot value) _

end Runtime

/-! ## Taken at some times, used at others -/

namespace World

/-- A value that is got as a reader of the field in some world that comes about from `start`. -/
def ReaderSince (host : Host κ σ) (start : World κ σ) (field : NativeField) (reader : Value κ) : Prop :=
  ∃ taken : World κ σ, taken.WellFormed ∧ World.Holds host field start taken ∧
    taken.Reader host field reader

/-- One that is got as a writer. -/
def WriterSince (host : Host κ σ) (start : World κ σ) (field : NativeField) (writer : Value κ) : Prop :=
  ∃ taken : World κ σ, taken.WellFormed ∧ World.Holds host field start taken ∧
    taken.Writer host field writer

section Since

variable {host : Host κ σ} {start : World κ σ} {field : NativeField} {writable : Bool} {value : Value κ}
  (hsound : start.Sound) (hfield : start.HasField field writable)

include hsound hfield

theorem ReaderSince.readBy (h : start.ReaderSince host field value) : field.ReadBy value := by
  obtain ⟨taken, hworld, hholds, hreader⟩ := h
  obtain ⟨-, -, hfield'⟩ := hholds.keeping hsound hfield
  exact hreader.readBy hworld hfield'

theorem WriterSince.writtenBy (h : start.WriterSince host field value) :
    field.WrittenBy writable value := by
  obtain ⟨taken, hworld, hholds, hwriter⟩ := h
  obtain ⟨-, -, hfield'⟩ := hholds.keeping hsound hfield
  exact hwriter.writtenBy hworld hfield'

end Since

/--
Whatever programs do that do not remove a field, and whatever garbage is collected while its node is
reached from the roots, the handles that are taken of the field on the way go on being handles of it.
Each reader answers what the field holds at the time.  If the field can be assigned, each writer gives
it a value, which is what every reader answers next, and leaves all other fields and nodes as they are;
if it cannot, writing fails and changes nothing.
-/
theorem handles_never_stale (host : Host κ σ) {start world : World κ σ} (hsound : start.Sound)
    {field : NativeField} {writable : Bool} (hfield : start.HasField field writable)
    (h : World.Holds host field start world) :
    ∃ value, world.FieldIs field { name := field.name, writable, value } ∧
      (∀ reader, start.ReaderSince host field reader → ∀ steps, ∃ after,
        (Runtime.ofFuel host (steps + 1)).readBy reader world = .ok value after ∧
          world.heap.Keeps after.heap) ∧
      ∀ writer, start.WriterSince host field writer → ∀ (new : Value κ) (steps : Nat),
        (writable = true → ∃ answer after,
          (Runtime.ofFuel host (steps + 1)).writeBy writer new world = .ok answer after ∧
          world.WritesField field new after ∧
          after.FieldIs field { name := field.name, writable, value := new } ∧
          (∀ other held, other ≠ field → world.FieldIs other held → after.FieldIs other held) ∧
          ∀ reader, start.ReaderSince host field reader → ∀ more, ∃ last,
            (Runtime.ofFuel host (more + 1)).readBy reader after = .ok new last) ∧
        (writable = false → ∃ error,
          (Runtime.ofFuel host (steps + 1)).writeBy writer new world = .error (.raised error) world) := by
  obtain ⟨-, hsound', hfield'⟩ := h.keeping hsound hfield
  obtain ⟨node, hnode, value, hvalue⟩ := id hfield'
  have hheld : world.FieldIs field { name := field.name, writable, value } := ⟨node, hnode, hvalue⟩
  refine ⟨value, hheld, fun reader hreader steps => ?_, fun writer hwriter new steps =>
    ⟨fun hwritable => ?_, fun hreadOnly => ?_⟩⟩
  · exact Runtime.readBy_of_fieldIs host hsound' hheld (hreader.readBy hsound hfield) steps
  · subst hwritable
    obtain ⟨answer, after, hwritten, hwrites, -, hsoundAfter, -⟩ :=
      Runtime.writeBy_of_writable host hsound' hfield' (hwriter.writtenBy hsound hfield) new steps
    refine ⟨answer, after, hwritten, hwrites, hwrites.fieldIs_self hheld,
      fun other held hne => hwrites.fieldIs_other hne, fun reader hreader more => ?_⟩
    obtain ⟨last, hread, -⟩ := Runtime.readBy_of_fieldIs host hsoundAfter (hwrites.fieldIs_self hheld)
      (hreader.readBy hsound hfield) more
    exact ⟨last, hread⟩
  · subst hreadOnly
    exact ⟨_, Runtime.writeBy_of_readOnly host hfield' (hwriter.writtenBy hsound hfield) new steps⟩

/-- The world after a request. -/
private def next (world : World Empty Unit) (request : Request Empty) : World Empty Unit :=
  Run.after (request.run (Runtime.ofFuel Host.none 4)) world

/-- A new world with an object at index 2 that has two fields, the second of which is of interest. -/
private def early : World Empty Unit :=
  let object := next (World.new default ()) .newObject
  let first := next object (.send (.object ⟨2⟩) (.defineField ⟨"a"⟩ .nil))
  next first (.send (.object ⟨2⟩) (.defineField ⟨"x"⟩ (.fixnum 1)))

/-- The field is moved to the front, assigned and cloned, and then garbage is collected. -/
private def late : World Empty Unit :=
  let moved := next early (.send (.object ⟨2⟩) (.removeSlot ⟨"a"⟩))
  let assigned := next moved (.send (.object ⟨2⟩) (.assignField ⟨"x"⟩ (.fixnum 7)))
  let cloned := next assigned (.send (.object ⟨2⟩) .clone)
  Run.after (Run.collect [.object ⟨2⟩]) cloned

private def fieldOfInterest : NativeField := ⟨⟨2⟩, ⟨"x"⟩⟩

private theorem arises_early : World.Arises Host.none early := by
  have hnew : World.Arises Host.none (World.new default () : World Empty Unit) := .new default ()
  have hobject := hnew.request .newObject 4 fun _ h => by cases h
  have hfirst := hobject.request (.send (.object ⟨2⟩) (.defineField ⟨"a"⟩ .nil)) 4 fun _ h => by cases h
  exact hfirst.request (.send (.object ⟨2⟩) (.defineField ⟨"x"⟩ (.fixnum 1))) 4 fun _ h => by cases h

private theorem holds_late : World.Holds Host.none fieldOfInterest early late := by
  have hstart : World.Holds Host.none fieldOfInterest early early := .start
  have hmoved := hstart.request (.send (.object ⟨2⟩) (.removeSlot ⟨"a"⟩)) 4 fun _ h => by cases h
  have hassigned := hmoved.request (.send (.object ⟨2⟩) (.assignField ⟨"x"⟩ (.fixnum 7))) 4
    fun _ h => by cases h
  have hcloned := hassigned.request (.send (.object ⟨2⟩) .clone) 4 fun _ h => by cases h
  have hroot : .object fieldOfInterest.host ∈ [(.object ⟨2⟩ : Value Empty)] := List.mem_singleton_self _
  exact hcloned.collect_of_mem hroot

/--
The accessor and a reference that are got while the field is the second, and the mutator, which is another
closure, find it where it is later.
-/
theorem handles_never_stale_moved :
    ∃ accessor mutator : Identity × Closure Empty,
      early.ReaderSince Host.none fieldOfInterest (.closure accessor.1 accessor.2) ∧
      early.ReaderSince Host.none fieldOfInterest (.field fieldOfInterest) ∧
      early.WriterSince Host.none fieldOfInterest (.closure mutator.1 mutator.2) ∧
      (∃ after, (Runtime.ofFuel Host.none 1).readBy (.closure accessor.1 accessor.2) late =
        .ok (.fixnum 7) after) ∧
      ∃ answer after last,
        (Runtime.ofFuel Host.none 1).writeBy (.closure mutator.1 mutator.2) .nil late =
          .ok answer after ∧
        (Runtime.ofFuel Host.none 1).readBy (.field fieldOfInterest) after = .ok .nil last := by
  have hsound : early.Sound := arises_early.sane.toSound
  have hfield : early.HasField fieldOfInterest true := ⟨_, rfl, _, rfl⟩
  have hobject (op : MetaOp) : early.Plainlike [op] ⟨2⟩ := .inl ⟨_, rfl⟩
  have hobjects : ∀ other ∈ [(⟨2⟩ : ObjectId)], early.Plainlike [.select] other := by
    intro other hother
    rw [List.mem_singleton.mp hother]
    exact hobject _
  have hselected : early.Selected Host.none ⟨2⟩ ⟨"x"⟩ (.field 1 true) _ :=
    ⟨⟨2⟩, _, .object ⟨2⟩, 2, _, .found rfl rfl rfl, hobjects, rfl⟩
  have hassigner : early.Selected Host.none ⟨2⟩ ⟨"x:="⟩ (.mutator 1 true) _ :=
    ⟨⟨2⟩, _, .object ⟨2⟩, 2, _, .found rfl rfl rfl, hobjects, rfl⟩
  have hgrabbed : early.Grabbed Host.none fieldOfInterest _ :=
    ⟨.grabField ⟨"x"⟩, 1, _, .inl rfl, hobject _, rfl⟩
  have hworld : early.WellFormed := arises_early.sane.toWellFormed
  have haccessor : early.ReaderSince Host.none fieldOfInterest _ :=
    ⟨early, hworld, .start, .accessor hselected⟩
  have hreference : early.ReaderSince Host.none fieldOfInterest _ :=
    ⟨early, hworld, .start, .reference hgrabbed⟩
  have hmutator : early.WriterSince Host.none fieldOfInterest _ :=
    ⟨early, hworld, .start, .mutator rfl hassigner⟩
  have hseven : late.FieldIs fieldOfInterest { name := ⟨"x"⟩, writable := true, value := .fixnum 7 } :=
    ⟨_, rfl, rfl⟩
  obtain ⟨value, hheld, hreaders, hwriters⟩ :=
    handles_never_stale Host.none hsound hfield holds_late
  obtain rfl : value = .fixnum 7 := congrArg Field.value (hheld.unique hseven)
  obtain ⟨after, hanswer, -⟩ := hreaders _ haccessor 0
  obtain ⟨answer, written, hwrite, -, -, -, hnext⟩ := (hwriters _ hmutator .nil 0).1 rfl
  obtain ⟨last, hlast⟩ := hnext _ hreference 0
  exact ⟨(_, _), (_, _), haccessor, hreference, hmutator, ⟨after, hanswer⟩, answer, written, last, hwrite,
    hlast⟩

end World

end Prototypes
