import Prototypes.Proofs.Cloning.Independence
import Prototypes.Proofs.Delegation.Plain
import Prototypes.Proofs.Slots.Fields

/-!
# The two spellings of assignment

A field `x` of an object can be assigned by sending the object the message `x:=`, and by
the operation that assigns to `x`.  The two look for different selectors.  On a chain
without custom fields the message passes every node that has no field `x`, whatever else
`x` names there, whereas the operation stops at the first node in which `x` names
anything, and assigns to nothing but fields.

So they do the same, unless a node nearer than the nearest field `x` has a method `x`, or
has a field whose mutator is called `x`.  The field is then out of the operation's reach,
but not out of the message's.

## Main results

* `Heap.nearest_assignment` — where the search for `x:=` ends.
* `Runtime.assignments_agree` — both write the nearest field, or both fail; if the field
  is hidden, only the message writes it.
* `Runtime.assignments_differ` — a method in an object hides a field of its parent.
-/

namespace Prototypes

variable {κ σ : Type}

/-! ## Names in one storage -/

namespace Storage

variable {storage : Storage κ} {name : Symbol}

theorem fieldSlot?_of_not_hasSlot (h : storage.hasSlot name = false) :
    storage.fieldSlot? name = none := by
  rw [fieldSlot?, fieldIndex?_of_not_hasSlot h]

/-- Without custom fields, an assignment that names no slot itself names the field it targets. -/
theorem find_assignment (hcustom : storage.custom = []) (hname : name.text ≠ "")
    (h : storage.hasSlot name.assignment = false) :
    storage.find name.assignment =
      (storage.fieldSlot? name).map fun found => .mutator found.1 found.2 := by
  have hmethod : storage.method? name.assignment = none := by
    simp only [hasSlot, Bool.or_eq_false_iff] at h
    simpa using h.1.2
  simp [find, fieldSlot?_of_not_hasSlot h, hmethod, custom?, hcustom,
    Symbol.assignmentTarget?_assignment hname]

end Storage

/-! ## The nearest field of a name -/

namespace Heap

/-- The nearest field of a name among these nodes: its node, its index, and whether it can be assigned. -/
def nearestField? (heap : Heap κ) (name : Symbol) : List ObjectId → Option (ObjectId × Nat × Bool)
  | [] => none
  | id :: ids =>
    match heap.slot? name id with
    | some (.field index writable) => some (id, index, writable)
    | _ => heap.nearestField? name ids

/-- The nearest field of the name can be assigned. -/
def HasWritable (heap : Heap κ) (name : Symbol) (ids : List ObjectId) : Prop :=
  ∃ holder index, heap.nearestField? name ids = some (holder, index, true)

/-- The nearest field of the name can be assigned, but a nearer node has a slot of another kind. -/
def Hides (heap : Heap κ) (name : Symbol) (ids : List ObjectId) : Prop :=
  heap.HasWritable name ids ∧ ∃ holder slot, heap.nearest name ids = .found holder slot ∧
    ∀ index writable, slot ≠ .field index writable

variable {heap : Heap κ} {name : Symbol} {ids : List ObjectId}

/-- It is a field of one of the nodes. -/
theorem mem_of_nearestField? {holder : ObjectId} {index : Nat} {writable : Bool}
    (h : heap.nearestField? name ids = some (holder, index, writable)) :
    holder ∈ ids ∧ heap.slot? name holder = some (.field index writable) := by
  induction ids with
  | nil => cases h
  | cons id ids ih =>
    rw [nearestField?] at h
    split at h
    · rename_i hslot
      cases h
      exact ⟨List.mem_cons_self .., hslot⟩
    · exact ⟨List.mem_cons_of_mem id (ih h).1, (ih h).2⟩

/-- The nearest slot of a name is the nearest field, or no field at all. -/
theorem nearest_cases (heap : Heap κ) (name : Symbol) (ids : List ObjectId) :
    (heap.nearest name ids = .absent ∧ heap.nearestField? name ids = none) ∨
      (∃ holder index writable, heap.nearest name ids = .found holder (.field index writable) ∧
        heap.nearestField? name ids = some (holder, index, writable)) ∨
      ∃ holder slot, heap.nearest name ids = .found holder slot ∧
        heap.slot? name holder = some slot ∧ holder ∈ ids ∧
        ∀ index writable, slot ≠ .field index writable := by
  induction ids with
  | nil => exact .inl ⟨rfl, rfl⟩
  | cons id ids ih =>
    rw [nearest, nearestField?]
    cases hslot : heap.slot? name id with
    | none =>
      refine ih.imp_right (Or.imp_right ?_)
      rintro ⟨holder, slot, hnearest, hheld, hmem, hother⟩
      exact ⟨holder, slot, hnearest, hheld, List.mem_cons_of_mem id hmem, hother⟩
    | some slot =>
      right
      cases slot with
      | field index writable => exact .inl ⟨id, index, writable, rfl, rfl⟩
      | _ =>
        refine .inr ⟨id, _, rfl, hslot, List.mem_cons_self .., fun _ _ hfield => ?_⟩
        cases hfield

/-- Where nothing is called `x:=`, the nearest slot of that name is the mutator of the nearest `x`. -/
theorem nearest_assignment (hbare : ∀ id ∈ ids, heap.Bare id) (hname : name.text ≠ "")
    (hfree : ∀ id ∈ ids, ∀ node, heap.node? id = some node → node.slots.hasSlot name.assignment = false) :
    heap.nearest name.assignment ids =
      match heap.nearestField? name ids with
      | some (holder, index, writable) => .found holder (.mutator index writable)
      | none => .absent := by
  induction ids with
  | nil => rfl
  | cons id ids ih =>
    have hrest := ih (fun id hmem => hbare id (List.mem_cons_of_mem _ hmem))
      fun id hmem => hfree id (List.mem_cons_of_mem _ hmem)
    obtain ⟨body, hnode, hcustom⟩ := hbare id (List.mem_cons_self ..)
    have hassignment := Storage.find_assignment hcustom hname (hfree id (List.mem_cons_self ..) _ hnode)
    rw [nearest, nearestField?, slot?_of_node? hnode, slot?_of_node? hnode]
    simp only [Node.slots, hassignment]
    cases hfield : body.slots.fieldSlot? name with
    | some field => rw [Storage.find_eq_field_iff.mpr hfield]; rfl
    | none =>
      cases hfind : body.slots.find name with
      | none => exact hrest
      | some slot =>
        cases slot with
        | field index writable => cases hfield.symm.trans (Storage.find_eq_field_iff.mp hfind)
        | _ => exact hrest

end Heap

/-! ## Assigning -/

/-- No primitive has the form of an assignment. -/
theorem Primitive.ofSelector?_assignment {name : Symbol} (hname : name.text ≠ "") :
    ofSelector? name.assignment = none := by
  cases hfound : ofSelector? name.assignment with
  | none => rfl
  | some primitive =>
    have hselector : primitive.selector = name.assignment := by
      simpa using List.find?_some hfound
    have htarget := Symbol.assignmentTarget?_assignment hname
    rw [← hselector] at htarget
    cases primitive <;> cases htarget

/-- The world once the nearest field of the name has the value. -/
def World.AssignedNearest (world : World κ σ) (name : Symbol) (value : Value κ) (ids : List ObjectId)
    (after : World κ σ) : Prop :=
  ∃ holder index node written, world.heap.nearestField? name ids = some (holder, index, true) ∧
    world.heap.node? holder = some node ∧ node.slots.write? index value = some written ∧
    after = { world with heap := world.heap.replace holder (node.withSlots written) }

namespace World.AssignedNearest

variable {world after : World κ σ} {name : Symbol} {value : Value κ} {ids : List ObjectId}

theorem hasWritable (h : world.AssignedNearest name value ids after) :
    world.heap.HasWritable name ids := by
  obtain ⟨holder, index, _, _, hfield, -⟩ := h
  exact ⟨holder, index, hfield⟩

/-- There is one such world. -/
theorem unique {after' : World κ σ} (h : world.AssignedNearest name value ids after)
    (h' : world.AssignedNearest name value ids after') : after = after' := by
  obtain ⟨_, _, _, _, hfield, hnode, hwrite, rfl⟩ := h
  obtain ⟨_, _, _, _, hfield', hnode', hwrite', rfl⟩ := h'
  cases hfield.symm.trans hfield'
  cases hnode.symm.trans hnode'
  cases hwrite.symm.trans hwrite'
  rfl

end World.AssignedNearest

namespace Runtime

variable (host : Host κ σ) {world : World κ σ} {o : ObjectId} {ids : List ObjectId} {x : Symbol}

/-- Writing the nearest field leaves the world with the value in it. -/
theorem writeSlot_nearestField (rt : Runtime κ σ) {holder : ObjectId} {index : Nat}
    (h : world.heap.nearestField? x ids = some (holder, index, true)) (value : Value κ) :
    ∃ after, world.AssignedNearest x value ids after ∧ rt.writeSlot holder x value world = .ok () after := by
  obtain ⟨-, hslot⟩ := Heap.mem_of_nearestField? h
  obtain ⟨node, hnode, hfind⟩ := Option.bind_eq_some_iff.mp hslot
  obtain ⟨written, hwrite⟩ := Storage.exists_write hfind value
  exact ⟨_, ⟨holder, index, node, written, h, hnode, hwrite, rfl⟩,
    rt.writeSlot_of_writable hnode (Storage.find_eq_field_iff.mp hfind) hwrite⟩

/-- A field that cannot be assigned is not written. -/
theorem writeSlot_nearestField_readOnly (rt : Runtime κ σ) {holder : ObjectId} {index : Nat}
    (h : world.heap.nearestField? x ids = some (holder, index, false)) (value : Value κ) :
    rt.writeSlot holder x value world =
      .error (.raised (.illegalOperation (.readOnlyField x holder))) world := by
  obtain ⟨-, hslot⟩ := Heap.mem_of_nearestField? h
  obtain ⟨node, hnode, hfind⟩ := Option.bind_eq_some_iff.mp hslot
  exact rt.writeSlot_of_readOnly hnode (Storage.find_eq_field_iff.mp hfind) value

/-- In a node without custom fields nothing but fields can be assigned to. -/
theorem assignSlot_of_bare (rt : Runtime κ σ) {holder : ObjectId} {slot : Slot κ}
    (hbare : world.heap.Bare holder) (hslot : world.heap.slot? x holder = some slot)
    (hother : ∀ index writable, slot ≠ .field index writable) (value : Value κ) :
    (Walk.assignSlot rt x value holder slot >>= fun _ => pure (Value.nil : Value κ)) world =
      .error (.raised (.illegalOperation (.notField x holder))) world := by
  obtain ⟨body, hnode, hcustom⟩ := hbare
  rw [Heap.slot?_of_node? hnode] at hslot
  cases Storage.names_of_find hslot with
  | field hfield => exact absurd rfl (hother _ _)
  | custom _ hfound => simp [Node.slots, Storage.custom?, hcustom] at hfound
  | method _ | mutator _ _ | customMutator _ _ _ => rfl

section Spellings

variable (hchain : world.heap.Chain (.object o) ids) (hbare : ∀ id ∈ ids, world.heap.Bare id)
  (value : Value κ) (steps : Nat)

include hchain hbare

/-- The message comes to the nearest field, and writes it if it can be assigned. -/
theorem send_assignment_cases (hsound : world.Sound) (hname : x.text ≠ "")
    (hfree : ∀ id ∈ ids, ∀ node, world.heap.node? id = some node →
      node.slots.hasSlot x.assignment = false) :
    let told := (ofFuel host (steps + 2)).invoke (.object o) x.assignment [value] world
    (∃ after, world.AssignedNearest x value ids after ∧ told = .ok value after) ∨
      ¬ world.heap.HasWritable x ids ∧
        ∃ error after, told = .error (.raised error) after ∧ world.heap.Keeps after.heap := by
  intro told
  have hplain : ∀ other ∈ ids, ∃ body, world.heap.node? other = some (.object body) := fun other hmem =>
    (hbare other hmem).imp fun _ h => h.1
  have hended : told = _ := invoke_of_plain host hchain hplain x.assignment [value] steps
  rw [Heap.nearest_assignment hbare hname hfree] at hended
  have hwrites (holder : ObjectId) (index : Nat) (writable : Bool) :
      (ofFuel host (steps + 1)).invokeSlot holder (.mutator index writable) (.object o) x.assignment
          [value] world =
        ((ofFuel host (steps + 1)).writeSlot holder x value >>= fun _ => pure value) world :=
    congrFun ((ofFuel host (steps + 1)).invokeSlot_mutator
      (Symbol.assignmentTarget?_assignment hname) index writable (.object o) value) world
  match hfield : world.heap.nearestField? x ids with
  | some (holder, index, true) =>
    obtain ⟨after, hafter, hwritten⟩ := (ofFuel host (steps + 1)).writeSlot_nearestField hfield value
    rw [hfield] at hended
    exact .inl ⟨after, hafter, hended.trans ((hwrites holder index true).trans
      (Run.bind_of_ok hwritten _))⟩
  | some (holder, index, false) =>
    have hrefused := (ofFuel host (steps + 1)).writeSlot_nearestField_readOnly hfield value
    rw [hfield] at hended
    refine .inr ⟨?_, _, world, hended.trans ((hwrites holder index false).trans
      (Run.bind_of_error hrefused _)), .refl _⟩
    rintro ⟨_, _, hwritable⟩
    cases hfield.symm.trans hwritable
  | none =>
    obtain ⟨body, hnode⟩ := hplain o hchain.mem_self
    rw [hfield] at hended
    refine .inr ⟨?_, _, _, hended.trans (invokeFallback_of_none host hsound hnode
      (Primitive.ofSelector?_assignment hname) [value] steps), Heap.Keeps.allocate hsound.free _⟩
    rintro ⟨_, _, hwritable⟩
    cases hfield.symm.trans hwritable

/-- The operation comes to the nearest slot, and writes it if it is a field that can be assigned. -/
theorem send_assignField_cases :
    let assigned := (ofFuel host (steps + 2)).send (.object o) (.assignField x value) world
    (¬ world.heap.Hides x ids ∧
        ∃ after, world.AssignedNearest x value ids after ∧ assigned = .ok .nil after) ∨
      (world.heap.Hides x ids ∧
        ∃ holder, assigned = .error (.raised (.illegalOperation (.notField x holder))) world) ∨
      ¬ world.heap.HasWritable x ids ∧ ∃ error, assigned = .error (.raised error) world := by
  intro assigned
  have hplain : ∀ other ∈ ids, ∃ body, world.heap.node? other = some (.object body) := fun other hmem =>
    (hbare other hmem).imp fun _ h => h.1
  have hended : assigned = _ :=
    (Walk.Operation.assignField x value).send_of_plain host hchain hplain steps
  rw [map_eq_pure_bind] at hended
  dsimp only [Walk.assignField] at hended
  rcases world.heap.nearest_cases x ids with
    ⟨hnearest, hfield⟩ | ⟨holder, index, writable, hnearest, hfield⟩ |
      ⟨holder, slot, hnearest, hslot, hmem, hother⟩
  · rw [hnearest] at hended
    refine .inr (.inr ⟨?_, _, hended⟩)
    rintro ⟨_, _, hwritable⟩
    cases hfield.symm.trans hwritable
  · rw [hnearest] at hended
    cases writable with
    | true =>
      obtain ⟨after, hafter, hwritten⟩ := (ofFuel host (steps + 1)).writeSlot_nearestField hfield value
      refine .inl ⟨?_, after, hafter, hended.trans (Run.bind_of_ok hwritten _)⟩
      rintro ⟨-, _, _, hfound, hother⟩
      cases hnearest.symm.trans hfound
      exact hother index true rfl
    | false =>
      have hrefused := (ofFuel host (steps + 1)).writeSlot_nearestField_readOnly hfield value
      refine .inr (.inr ⟨?_, _, hended.trans (Run.bind_of_error hrefused _)⟩)
      rintro ⟨_, _, hwritable⟩
      cases hfield.symm.trans hwritable
  · rw [hnearest] at hended
    have hrefused := hended.trans (assignSlot_of_bare _ (hbare holder hmem) hslot hother value)
    by_cases hwritable : world.heap.HasWritable x ids
    · exact .inr (.inl ⟨⟨hwritable, holder, slot, hnearest, hother⟩, holder, hrefused⟩)
    · exact .inr (.inr ⟨hwritable, _, hrefused⟩)

end Spellings

/--
On a chain of plain objects without custom fields where nothing is called `x:=` itself, the
message `x:=` and the assignment to `x` do the same, unless the nearest field `x` is hidden:
either both write the nearest field, or both fail and change no node.  A field that is hidden
is written by the message alone.
-/
theorem assignments_agree (hsound : world.Sound) (hchain : world.heap.Chain (.object o) ids)
    (hbare : ∀ id ∈ ids, world.heap.Bare id) (hname : x.text ≠ "")
    (hfree : ∀ id ∈ ids, ∀ node, world.heap.node? id = some node →
      node.slots.hasSlot x.assignment = false) (value : Value κ) (steps : Nat) :
    let told := (ofFuel host (steps + 2)).invoke (.object o) x.assignment [value] world
    let assigned := (ofFuel host (steps + 2)).send (.object o) (.assignField x value) world
    (¬ world.heap.Hides x ids →
      (∃ after, world.AssignedNearest x value ids after ∧ told = .ok value after ∧
        assigned = .ok .nil after) ∨
      ∃ error error' after, told = .error (.raised error) after ∧ world.heap.Keeps after.heap ∧
        assigned = .error (.raised error') world) ∧
    (world.heap.Hides x ids → ∃ holder after, world.AssignedNearest x value ids after ∧
      told = .ok value after ∧
      assigned = .error (.raised (.illegalOperation (.notField x holder))) world) := by
  intro told assigned
  rcases send_assignment_cases host hchain hbare value steps hsound hname hfree with
    ⟨after, hafter, htold⟩ | ⟨hnone, error, after, htold, hkeeps⟩
  · rcases send_assignField_cases host hchain hbare value steps with
      ⟨hseen, after', hafter', hassigned⟩ | ⟨hhides, holder, hassigned⟩ | ⟨hnone, -⟩
    · obtain rfl := hafter.unique hafter'
      exact ⟨fun _ => .inl ⟨after, hafter, htold, hassigned⟩, fun hhides => absurd hhides hseen⟩
    · exact ⟨fun hseen => absurd hhides hseen, fun _ => ⟨holder, after, hafter, htold, hassigned⟩⟩
    · exact absurd hafter.hasWritable hnone
  · rcases send_assignField_cases host hchain hbare value steps with
      ⟨-, after', hafter', -⟩ | ⟨hhides, -⟩ | ⟨-, error', hassigned⟩
    · exact absurd hafter'.hasWritable hnone
    · exact absurd hhides.1 hnone
    · exact ⟨fun _ => .inr ⟨error, error', after, htold, hkeeps, hassigned⟩,
        fun hhides => absurd hhides.1 hnone⟩

/-- The object at index 3, with these methods, on the one at index 2, which has a field `x`. -/
private def overlaid (methods : List (Method Empty)) : World Empty Unit :=
  let world : World Empty Unit := World.new default ()
  let upper : PrototypeObject Empty :=
    { slots :=
        { Storage.empty ⟨100⟩ with
          fields := [{ name := ⟨"x"⟩, writable := true, value := .nil }] }
      dynamicParent := .nil
      lexicalParent := none
      link := .isA
      typeTags := []
      family := ⟨3⟩
      flags := .none }
  let lower : PrototypeObject Empty :=
    { upper with slots := { Storage.empty ⟨101⟩ with methods }, dynamicParent := .object ⟨2⟩ }
  let nodes : List (Node Empty) := [.object upper, .object lower]
  { world with heap := nodes.foldl (fun heap node => (heap.allocate node).2) world.heap }

private theorem sound_overlaid (methods : List (Method Empty)) : (overlaid methods).Sound where
  free := ((World.sound_new default ()).free.allocate _).allocate _
  defaults := ⟨3, rfl⟩

private theorem chain_overlaid (methods : List (Method Empty)) :
    (overlaid methods).heap.Chain (.object ⟨3⟩) [⟨3⟩, ⟨2⟩] :=
  .cons rfl rfl (.cons rfl rfl .nil)

private theorem bare_overlaid (methods : List (Method Empty)) :
    ∀ id ∈ [⟨3⟩, ⟨2⟩], (overlaid methods).heap.Bare id := by
  intro id hmem
  simp only [List.mem_cons, List.not_mem_nil, or_false] at hmem
  rcases hmem with rfl | rfl <;> exact ⟨_, rfl, rfl⟩

/-- No node of the chain has a slot called `x:=`. -/
private def NoneAssigns (methods : List (Method Empty)) : Prop :=
  ∀ id ∈ [⟨3⟩, ⟨2⟩], ∀ node, (overlaid methods).heap.node? id = some node →
    node.slots.hasSlot (Symbol.assignment ⟨"x"⟩) = false

/-- A method `x` that does nothing of account. -/
private def covering : Method Empty := ⟨⟨102⟩, ⟨"x"⟩, [], .fragment .selfReference⟩

private theorem noneAssigns {methods : List (Method Empty)}
    (h : ∀ method ∈ methods, method.name ≠ Symbol.assignment ⟨"x"⟩) : NoneAssigns methods := by
  intro id hmem node hnode
  simp only [List.mem_cons, List.not_mem_nil, or_false] at hmem
  rcases hmem with rfl | rfl
  · obtain rfl := Option.some.inj hnode
    simpa [Storage.hasSlot, Storage.field?, Storage.method?, Storage.custom?, Node.slots,
      Storage.empty] using h
  · obtain rfl := Option.some.inj hnode
    rfl

/-- An inherited field is written either way. -/
theorem assignments_agree_inherited :
    (overlaid []).Sound ∧ (overlaid []).heap.Chain (.object ⟨3⟩) [⟨3⟩, ⟨2⟩] ∧
      (∀ id ∈ [⟨3⟩, ⟨2⟩], (overlaid []).heap.Bare id) ∧ NoneAssigns [] ∧
      ¬ (overlaid []).heap.Hides ⟨"x"⟩ [⟨3⟩, ⟨2⟩] ∧
      ∃ after,
        (ofFuel Host.none 2).invoke (.object ⟨3⟩) (Symbol.assignment ⟨"x"⟩) [.bool true] (overlaid []) =
          .ok (.bool true) after ∧
        (ofFuel Host.none 2).send (.object ⟨3⟩) (.assignField ⟨"x"⟩ (.bool true)) (overlaid []) =
          .ok .nil after := by
  have hseen : ¬ (overlaid []).heap.Hides ⟨"x"⟩ [⟨3⟩, ⟨2⟩] := by
    rintro ⟨-, holder, slot, hfound, hother⟩
    cases hfound
    exact hother 0 true rfl
  obtain ⟨hagree, -⟩ := assignments_agree Host.none (sound_overlaid []) (chain_overlaid [])
    (bare_overlaid []) (x := ⟨"x"⟩) (by decide) (noneAssigns nofun) (.bool true) 0
  refine ⟨sound_overlaid [], chain_overlaid [], bare_overlaid [], (noneAssigns nofun), hseen, ?_⟩
  rcases hagree hseen with ⟨after, -, htold, hassigned⟩ | ⟨_, _, _, htold, -⟩
  · exact ⟨after, htold, hassigned⟩
  · cases htold

/-- A field behind a method of its name is written by the message, and cannot be assigned. -/
theorem assignments_differ :
    (overlaid [covering]).Sound ∧ (overlaid [covering]).heap.Chain (.object ⟨3⟩) [⟨3⟩, ⟨2⟩] ∧
      (∀ id ∈ [⟨3⟩, ⟨2⟩], (overlaid [covering]).heap.Bare id) ∧ NoneAssigns [covering] ∧
      (∃ after,
        (ofFuel Host.none 2).invoke (.object ⟨3⟩) (Symbol.assignment ⟨"x"⟩) [.bool true]
          (overlaid [covering]) = .ok (.bool true) after ∧
        after.heap.fieldValue? ⟨2⟩ ⟨"x"⟩ = some (.bool true)) ∧
      (ofFuel Host.none 2).send (.object ⟨3⟩) (.assignField ⟨"x"⟩ (.bool true)) (overlaid [covering]) =
        .error (.raised (.illegalOperation (.notField ⟨"x"⟩ ⟨3⟩))) (overlaid [covering]) :=
  ⟨sound_overlaid _, chain_overlaid _, bare_overlaid _, noneAssigns (by decide), ⟨_, rfl, rfl⟩, rfl⟩

end Runtime

end Prototypes
