import Prototypes.Proofs.Slots.Writes

/-!
# Read-only fields

A field that cannot be assigned is changed by nobody: fields are added behind those
that are there, and only writable ones are written.  `Storage.Edit` lists all that is
done to the slots of a node at once, removing a field apart.

A field is lost only when it is removed itself.  And the one way to give a read-only field
another value is to write at its index without asking, as is done when a mirror's copy is
made to reflect on the copy of a mirage.

## Main results

* `Storage.Edit.readOnly` — a read-only field stays what it is.
* `Storage.ReadOnly.removeField` — so it does when a field of another name is removed.
* `Storage.readOnly_putField`, `Storage.ReadOnly.write` — how it comes to be, and how it
  is given another value.
* `Storage.Edit.hasField` — a field of any kind stays.
-/

namespace Prototypes.Storage

variable {κ : Type} {storage after : Storage κ} {name : Symbol} {value : Value κ}

/-! ## Fields by name and by index -/

theorem field?_eq_some_iff {field : Field κ} :
    storage.field? name = some field ↔
      ∃ index, storage.fieldIndex? name = some index ∧ storage.fields[index]? = some field := by
  unfold field? fieldIndex?
  rw [List.find?_eq_some_iff_getElem]
  constructor
  · rintro ⟨hname, index, hlt, rfl, hbefore⟩
    refine ⟨index, List.findIdx?_eq_some_iff_getElem.mpr ⟨hlt, hname, fun j hj => ?_⟩,
      List.getElem?_eq_getElem hlt⟩
    simpa using hbefore j hj
  · rintro ⟨index, hindex, hfield⟩
    obtain ⟨hlt, hname, hbefore⟩ := List.findIdx?_eq_some_iff_getElem.mp hindex
    have hget := (List.getElem?_eq_some_iff.mp hfield).2
    exact ⟨hget ▸ hname, index, hlt, hget, fun j hj => by simpa using hbefore j hj⟩

/-- A field that is written holds the value. -/
theorem field?_write_self {field : Field κ} (h : storage.field? name = some field) {index : Nat}
    (hindex : storage.fieldIndex? name = some index) (hwrite : storage.write? index value = some after) :
    after.field? name = some { field with value } := by
  obtain ⟨place, hplace, hfield⟩ := field?_eq_some_iff.mp h
  obtain rfl := Option.some.inj (hindex.symm.trans hplace)
  refine field?_eq_some_iff.mpr ⟨index, (fieldIndex?_write hwrite name).trans hindex, ?_⟩
  obtain ⟨written, hold, rfl⟩ := write?_eq_some_iff.mp hwrite
  obtain rfl := Option.some.inj (hfield.symm.trans hold)
  exact List.getElem?_set_self (List.getElem?_eq_some_iff.mp hold).1

/-- Writing elsewhere leaves a field as it is. -/
theorem field?_write_of_ne {field : Field κ} (h : storage.field? name = some field) {index : Nat}
    (hne : storage.fieldIndex? name ≠ some index) (hwrite : storage.write? index value = some after) :
    after.field? name = some field := by
  obtain ⟨place, hplace, hfield⟩ := field?_eq_some_iff.mp h
  refine field?_eq_some_iff.mpr ⟨place, (fieldIndex?_write hwrite name).trans hplace, ?_⟩
  obtain ⟨written, -, rfl⟩ := write?_eq_some_iff.mp hwrite
  have hindices : index ≠ place := by
    rintro rfl
    exact hne hplace
  exact (List.getElem?_set_ne hindices).trans hfield

/-- Fields are added behind those that are there. -/
theorem field?_putField {field added : Field κ} (h : storage.field? name = some field) {fresh : Identity}
    (hput : storage.putField fresh added = .ok after) : after.field? name = some field := by
  unfold putField at hput
  split at hput
  · cases hput
  · cases hput
    unfold field? at h ⊢
    rw [List.find?_append, h]
    rfl

/-- A field that is removed is not there under another name. -/
theorem field?_removeField {fresh : Identity} {other : Symbol} {removed : Value κ} (hne : other ≠ name)
    (hremove : storage.removeField? fresh other = some (removed, after)) :
    after.field? name = storage.field? name := by
  obtain ⟨field, _, hafter⟩ := Option.map_eq_some_iff.mp hremove
  cases hafter
  unfold field?
  dsimp only
  generalize storage.fields = fields
  induction fields with
  | nil => rfl
  | cons field fields ih =>
    rw [List.eraseP_cons]
    by_cases hfield : field.name = name
    · have hkept : (field.name == other) = false := by
        rw [hfield]
        exact beq_false_of_ne (Ne.symm hne)
      rw [hkept]
      simp [hfield]
    · have hskip : (field.name == name) = false := beq_false_of_ne hfield
      rw [List.find?_cons, hskip]
      cases hother : field.name == other with
      | true => rfl
      | false =>
        rw [cond_false, List.find?_cons, hskip]
        exact ih

/-- The storage has a field of its own that holds a value and cannot be assigned. -/
def ReadOnly (storage : Storage κ) (name : Symbol) (value : Value κ) : Prop :=
  storage.field? name = some { name, writable := false, value }

/-- It is found where the layout has it, and is not writable there. -/
theorem ReadOnly.exists_index (h : storage.ReadOnly name value) :
    ∃ index, storage.fieldIndex? name = some index ∧
      storage.fields[index]? = some { name, writable := false, value } :=
  field?_eq_some_iff.mp h

/-- So a selector names it, and it is read. -/
theorem ReadOnly.exists_slot (h : storage.ReadOnly name value) :
    ∃ index, storage.fieldSlot? name = some (index, false) ∧ storage.read? index = some value := by
  obtain ⟨index, hindex, hfield⟩ := h.exists_index
  exact ⟨index, fieldSlot?_eq_some_iff.mpr ⟨hindex, _, hfield, rfl⟩, by rw [read?, hfield]; rfl⟩

theorem ReadOnly.unique {other : Value κ} (h : storage.ReadOnly name value)
    (h' : storage.ReadOnly name other) : value = other := by
  cases h.symm.trans h'
  rfl

/-! ## Making and writing a read-only field -/

/-- A field that is added holds its value from then on. -/
theorem readOnly_putField {fresh : Identity}
    (h : storage.putField fresh { name, writable := false, value } = .ok after) :
    after.ReadOnly name value := by
  unfold putField at h
  split at h
  · cases h
  · rename_i hnew
    cases h
    have hnone : storage.field? name = none := by
      cases hfield : storage.field? name with
      | none => rfl
      | some field => exact absurd (by simp [hasSlot, hfield]) hnew
    unfold field? at hnone
    simp [ReadOnly, field?, List.find?_append, hnone]

/-- Writing at the index of a read-only field gives it another value. -/
theorem ReadOnly.write {old : Value κ} (h : storage.ReadOnly name old) {index : Nat}
    (hindex : storage.fieldIndex? name = some index)
    (hwrite : storage.write? index value = some after) : after.ReadOnly name value :=
  field?_write_self h hindex hwrite

/-! ## What is done to slots -/

/-- What the slots of a node become at once, no field being removed. -/
inductive Edit (storage : Storage κ) : Storage κ → Prop
  | putField {fresh : Identity} {field : Field κ} {after : Storage κ} :
      storage.putField fresh field = .ok after → Edit storage after
  | write {name : Symbol} {index : Nat} {value : Value κ} {after : Storage κ} :
      storage.fieldSlot? name = some (index, true) → storage.write? index value = some after →
        Edit storage after
  | addMethod {method : Method κ} {after : Storage κ} :
      storage.addMethod method = .ok after → Edit storage after
  | addCustom {field : CustomField κ} {after : Storage κ} :
      storage.addCustom field = .ok after → Edit storage after
  | removeMethod {name : Symbol} {method : Method κ} {after : Storage κ} :
      storage.removeMethod? name = some (method, after) → Edit storage after
  | removeCustom {name : Symbol} {field : Value κ} {after : Storage κ} :
      storage.removeCustom? name = some (field, after) → Edit storage after

/-- Methods and custom fields are what they were. -/
def AltersOnlyFields (storage after : Storage κ) : Prop :=
  after.methods = storage.methods ∧ after.custom = storage.custom

theorem altersOnlyFields_putField {fresh : Identity} {field : Field κ}
    (h : storage.putField fresh field = .ok after) : storage.AltersOnlyFields after := by
  unfold putField at h
  split at h <;> cases h
  exact ⟨rfl, rfl⟩

theorem altersOnlyFields_write {index : Nat} (h : storage.write? index value = some after) :
    storage.AltersOnlyFields after := by
  obtain ⟨field, -, rfl⟩ := write?_eq_some_iff.mp h
  exact ⟨rfl, rfl⟩

theorem altersOnlyFields_removeField {fresh : Identity}
    (h : storage.removeField? fresh name = some (value, after)) : storage.AltersOnlyFields after := by
  obtain ⟨field, -, hafter⟩ := Option.map_eq_some_iff.mp h
  cases hafter
  exact ⟨rfl, rfl⟩

/-- A field of another name is elsewhere. -/
theorem ReadOnly.write_other (h : storage.ReadOnly name value) {other : Symbol} (hname : other ≠ name)
    {index : Nat} {written : Value κ} (hindex : storage.fieldIndex? other = some index)
    (hwrite : storage.write? index written = some after) : after.ReadOnly name value :=
  field?_write_of_ne h (fun hsame => hname (eq_of_fieldIndex? hindex hsame)) hwrite

/-- A field that can be assigned is elsewhere. -/
private theorem ReadOnly.write_writable (h : storage.ReadOnly name value) {other : Symbol}
    {index : Nat} {written : Value κ} (hslot : storage.fieldSlot? other = some (index, true))
    (hwrite : storage.write? index written = some after) : after.ReadOnly name value := by
  obtain ⟨index', hindex', hfield⟩ := h.exists_index
  obtain ⟨-, field, hfound, hwritable⟩ := fieldSlot?_eq_some_iff.mp hslot
  refine field?_write_of_ne h (fun hsame => ?_) hwrite
  obtain rfl := Option.some.inj (hindex'.symm.trans hsame)
  obtain rfl := Option.some.inj (hfield.symm.trans hfound)
  cases hwritable

/-- What is removed is not there under another name. -/
theorem ReadOnly.removeField (h : storage.ReadOnly name value) {fresh : Identity}
    {other : Symbol} {removed : Value κ} (hne : other ≠ name)
    (hremove : storage.removeField? fresh other = some (removed, after)) :
    after.ReadOnly name value :=
  (field?_removeField hne hremove).trans h

/-- To the fields an edit adds one, writes one that can be assigned, or does nothing. -/
theorem Edit.fields_cases (h : storage.Edit after) :
    (∃ fresh field, storage.putField fresh field = .ok after) ∨
      (∃ name index value, storage.fieldSlot? name = some (index, true) ∧
        storage.write? index value = some after) ∨
      after.fields = storage.fields := by
  cases h with
  | putField hput => exact .inl ⟨_, _, hput⟩
  | write hslot hwrite => exact .inr (.inl ⟨_, _, _, hslot, hwrite⟩)
  | addMethod hadd =>
    unfold Storage.addMethod at hadd
    split at hadd <;> cases hadd
    exact .inr (.inr rfl)
  | addCustom hadd =>
    unfold Storage.addCustom at hadd
    split at hadd <;> cases hadd
    exact .inr (.inr rfl)
  | removeMethod hremove =>
    obtain ⟨method, _, hafter⟩ := Option.map_eq_some_iff.mp hremove
    cases hafter
    exact .inr (.inr rfl)
  | removeCustom hremove =>
    obtain ⟨field, _, hafter⟩ := Option.map_eq_some_iff.mp hremove
    cases hafter
    exact .inr (.inr rfl)

/-- A field is found among the fields. -/
theorem field?_of_fields_eq (h : after.fields = storage.fields) (name : Symbol) :
    after.field? name = storage.field? name := by
  rw [field?, h, field?]

/-- A read-only field stays what it is. -/
theorem Edit.readOnly (h : storage.Edit after) (hfield : storage.ReadOnly name value) :
    after.ReadOnly name value := by
  rcases h.fields_cases with ⟨fresh, added, hput⟩ | ⟨other, index, held, hslot, hwrite⟩ | hsame
  · exact field?_putField hfield hput
  · exact hfield.write_writable hslot hwrite
  · exact (field?_of_fields_eq hsame name).trans hfield

/-! ## Fields that stay -/

/-- The storage has a field of a name, and whether it can be assigned. -/
def HasField (storage : Storage κ) (name : Symbol) (writable : Bool) : Prop :=
  ∃ value, storage.field? name = some { name, writable, value }

namespace HasField

variable {writable : Bool}

/-- Its name is found at an index, where it is read. -/
theorem exists_slot (h : storage.HasField name writable) :
    ∃ index value, storage.fieldSlot? name = some (index, writable) ∧
      storage.field? name = some { name, writable, value } ∧ storage.read? index = some value := by
  obtain ⟨value, hfield⟩ := h
  obtain ⟨index, hindex, hget⟩ := field?_eq_some_iff.mp hfield
  exact ⟨index, value, fieldSlot?_eq_some_iff.mpr ⟨hindex, _, hget, rfl⟩, hfield, by rw [read?, hget]; rfl⟩

/-- Writing any field leaves it there. -/
theorem write (h : storage.HasField name writable) {index : Nat}
    (hwrite : storage.write? index value = some after) : after.HasField name writable := by
  obtain ⟨held, hfield⟩ := h
  by_cases hindex : storage.fieldIndex? name = some index
  · exact ⟨value, field?_write_self hfield hindex hwrite⟩
  · exact ⟨held, field?_write_of_ne hfield hindex hwrite⟩

theorem removeField (h : storage.HasField name writable) {fresh : Identity} {other : Symbol}
    {removed : Value κ} (hne : other ≠ name)
    (hremove : storage.removeField? fresh other = some (removed, after)) :
    after.HasField name writable := by
  obtain ⟨held, hfield⟩ := h
  exact ⟨held, (field?_removeField hne hremove).trans hfield⟩

end HasField

/-- A field stays as long as no field is removed. -/
theorem Edit.hasField {writable : Bool} (h : storage.Edit after) (hfield : storage.HasField name writable) :
    after.HasField name writable := by
  rcases h.fields_cases with ⟨fresh, added, hput⟩ | ⟨other, index, held, -, hwrite⟩ | hsame
  · obtain ⟨held, hheld⟩ := hfield
    exact ⟨held, field?_putField hheld hput⟩
  · exact hfield.write hwrite
  · obtain ⟨held, hheld⟩ := hfield
    exact ⟨held, (field?_of_fields_eq hsame name).trans hheld⟩

end Prototypes.Storage
