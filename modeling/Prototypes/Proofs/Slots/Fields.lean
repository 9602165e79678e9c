import Prototypes.Proofs.Approximation.Run
import Prototypes.Proofs.Slots.Edits
import Prototypes.Semantics.Immediates
import Prototypes.Semantics.Reflection

/-!
# Native fields, read and written

Reading a field that a node has answers its value and changes nothing.  Writing one
replaces the node by the same node with the value in the field's place, if the field
can be assigned, and otherwise fails and changes nothing.  A field that is added by a
reference is read where it is, with its value and whether it can be assigned.

## Main results

* `Runtime.readSlot_of_field` — reading.
* `Runtime.writeSlot_of_writable`, `Runtime.writeSlot_of_readOnly` — writing.
* `Runtime.addNativeField_of_field` — adding a copy.
* `Runtime.performOnValue_readField`, `Runtime.performOnValue_writeField` — what a reference does.
-/

namespace Prototypes

variable {κ σ : Type}

/-- A field that is named has a value. -/
theorem Storage.exists_read {storage : Storage κ} {name : Symbol} {index : Nat} {writable : Bool}
    (h : storage.fieldSlot? name = some (index, writable)) :
    ∃ value, storage.read? index = some value := by
  obtain ⟨-, field, hfield, -⟩ := fieldSlot?_eq_some_iff.mp h
  exact ⟨field.value, by rw [read?, hfield]; rfl⟩

namespace Runtime

variable (rt : Runtime κ σ) {world : World κ σ} {holder : ObjectId} {node : Node κ} {name : Symbol}
  {index : Nat}

theorem readIndex_of_read {value : Value κ} (hnode : world.heap.node? holder = some node)
    (hread : node.slots.read? index = some value) :
    (readIndex holder index : Run κ σ (Value κ)) world = .ok value world := by
  unfold readIndex
  rw [Run.slots_bind hnode, hread]
  rfl

theorem readSlot_of_field {writable : Bool} {value : Value κ}
    (hnode : world.heap.node? holder = some node)
    (hfield : node.slots.fieldSlot? name = some (index, writable))
    (hread : node.slots.read? index = some value) : rt.readSlot holder name world = .ok value world := by
  unfold readSlot
  rw [Run.slots_bind hnode, (Storage.fieldSlot?_eq_some_iff.mp hfield).1]
  exact readIndex_of_read hnode hread

/-- A field that can be assigned has the value afterwards, and nothing else is changed. -/
theorem writeSlot_of_writable {value : Value κ} {written : Storage κ}
    (hnode : world.heap.node? holder = some node)
    (hfield : node.slots.fieldSlot? name = some (index, true))
    (hwrite : node.slots.write? index value = some written) :
    rt.writeSlot holder name value world =
      .ok () { world with heap := world.heap.replace holder (node.withSlots written) } := by
  rw [writeSlot, Run.slots_bind hnode]
  simp only [hfield, if_true, hwrite]
  rw [Run.setSlots, Run.node_bind_of_some hnode]
  rfl

/-- A field that cannot be assigned stays as it is. -/
theorem writeSlot_of_readOnly (hnode : world.heap.node? holder = some node)
    (hfield : node.slots.fieldSlot? name = some (index, false)) (value : Value κ) :
    rt.writeSlot holder name value world =
      .error (.raised (.illegalOperation (.readOnlyField name holder))) world := by
  rw [writeSlot, Run.slots_bind hnode]
  simp only [hfield]
  rfl

/-- A reference stands for the field that it names, as it is where it is. -/
theorem addNativeField_of_field {native : NativeField} {field : Field κ}
    (hnode : world.heap.node? native.host = some node)
    (hfield : node.slots.field? native.name = some field) (target : ObjectId) :
    rt.addNativeField target native world = Run.putField target field world := by
  obtain ⟨index, hindex, hget⟩ := Storage.field?_eq_some_iff.mp hfield
  have hslot : node.slots.fieldSlot? native.name = some (index, field.writable) :=
    Storage.fieldSlot?_eq_some_iff.mpr ⟨hindex, field, hget, rfl⟩
  have hvalue : node.slots.read? index = some field.value := by
    rw [Storage.read?, hget]
    rfl
  have hcopy : ({ name := native.name, writable := field.writable, value := field.value } : Field κ) =
      field := by
    have hname := List.find?_some hfield
    obtain ⟨⟨name, writable⟩, value⟩ := field
    obtain rfl : name = native.name := beq_iff_eq.mp hname
    rfl
  unfold addNativeField
  rw [Run.bind_of_ok (rt.readSlot_of_field hnode hslot hvalue), Run.slots_bind hnode, hslot,
    Option.all_some, hcopy]

/-- A message that finds a mutator writes the field its selector targets. -/
theorem invokeSlot_mutator {selector : Symbol} (htarget : selector.assignmentTarget? = some name)
    (index : Nat) (writable : Bool) (receiver value : Value κ) :
    rt.invokeSlot holder (.mutator index writable) receiver selector [value] =
      rt.writeSlot holder name value >>= fun _ => pure value := by
  simp only [invokeSlot, assignmentTarget, htarget, pure_bind]

/-- A mutator takes one value. -/
theorem invokeSlot_mutator_refused (index : Nat) (writable : Bool) (receiver : Value κ) (selector : Symbol)
    {arguments : List (Value κ)} (h : arguments.length ≠ 1) :
    rt.invokeSlot holder (.mutator index writable) receiver selector arguments =
      Run.raise (.arityMismatch selector (.exact 1) arguments.length) := by
  match arguments with
  | [] => rfl
  | [_] => exact absurd rfl h
  | _ :: _ :: _ => rfl

/-! ## References -/

/-- A reference that is read reads the field of its host. -/
theorem performOnValue_readField (native : NativeField) (receiver : Value κ) :
    rt.performOnValue (.field native) (.invoke receiver Selector.readField []) =
      rt.readSlot native.host native.name := by
  show ((some <$> rt.readSlot native.host native.name) >>= fun answer => _) = _
  rw [map_eq_pure_bind, bind_assoc]
  exact bind_pure _

/-- One that is written writes it. -/
theorem performOnValue_writeField (native : NativeField) (receiver value : Value κ) :
    rt.performOnValue (.field native) (.invoke receiver Selector.writeField [value]) =
      rt.writeSlot native.host native.name value >>= fun _ => pure .nil := by
  show ((some <$> (rt.writeSlot native.host native.name value >>= fun _ => pure Value.nil)) >>=
    fun answer => _) = _
  rw [map_eq_pure_bind, bind_assoc, bind_assoc]
  rfl

/-- It takes one value. -/
theorem performOnValue_writeField_refused (native : NativeField) (receiver : Value κ)
    {arguments : List (Value κ)} (h : arguments.length ≠ 1) (world : World κ σ) :
    rt.performOnValue (.field native) (.invoke receiver Selector.writeField arguments) world =
      .error (.raised (.arityMismatch Selector.writeField (.exact 1) arguments.length)) world := by
  match arguments with
  | [] => rfl
  | [_] => exact absurd rfl h
  | _ :: _ :: _ => rfl

end Runtime

end Prototypes
