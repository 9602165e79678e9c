import Prototypes.Slots.Storage

/-!
# Naming and writing a field

A selector names a slot in one of five ways, by what kind of slot it is.  Giving a
field another value changes no name and no place: the layout stays, and with it what
every selector names.

## Main results

* `Storage.fieldSlot?_eq_some_iff` — which field has a name.
* `Storage.names_of_find` — how a selector names what it finds.
* `Storage.find_write` — selectors name what they named before.
* `Storage.read?_write` — the field has the value.
* `Storage.exists_write` — a field that a selector names can be written.
-/

namespace Prototypes.Storage

variable {κ : Type} {storage written : Storage κ} {index : Nat} {value : Value κ}

theorem write?_eq_some_iff :
    storage.write? index value = some written ↔
      ∃ field, storage.fields[index]? = some field ∧
        written = { storage with fields := storage.fields.set index { field with value } } := by
  unfold write?
  cases storage.fields[index]? with
  | none => simp
  | some field => simp [eq_comm]

/-! ## Names and places -/

theorem layout_write (h : storage.write? index value = some written) :
    written.layout = storage.layout := by
  obtain ⟨field, hfield, rfl⟩ := write?_eq_some_iff.mp h
  have hinfos : (storage.fields.set index { field with value }).map Field.toFieldInfo =
      storage.fields.map Field.toFieldInfo := by
    obtain ⟨hlt, rfl⟩ := List.getElem?_eq_some_iff.mp hfield
    have hlt' : index < (storage.fields.map Field.toFieldInfo).length := by simpa using hlt
    have hself := List.set_getElem_self hlt'
    rw [List.getElem_map] at hself
    rw [List.map_set]
    exact hself
  simp only [layout, hinfos]

theorem fieldIndex?_of_not_hasSlot {name : Symbol} (h : storage.hasSlot name = false) :
    storage.fieldIndex? name = none := by
  simp only [hasSlot, Bool.or_eq_false_iff, Option.isSome_eq_false_iff, Option.isNone_iff_eq_none,
    field?, List.find?_eq_none] at h
  exact List.findIdx?_eq_none_iff.mpr fun field hfield => Bool.eq_false_iff.mpr (h.1.1 field hfield)

/-- The field of a name is where its name is found. -/
theorem fieldSlot?_eq_some_iff {name : Symbol} {writable : Bool} :
    storage.fieldSlot? name = some (index, writable) ↔
      storage.fieldIndex? name = some index ∧
        ∃ field, storage.fields[index]? = some field ∧ field.writable = writable := by
  unfold fieldSlot?
  cases storage.fieldIndex? name with
  | none => simp
  | some found =>
    simp only [Option.map_eq_some_iff, Prod.mk.injEq, Option.some.injEq]
    constructor
    · rintro ⟨field, hfield, rfl, hwritable⟩
      exact ⟨rfl, field, hfield, hwritable⟩
    · rintro ⟨rfl, field, hfield, hwritable⟩
      exact ⟨field, hfield, rfl, hwritable⟩

/-- Where a field is depends on the layout alone. -/
theorem fieldIndex?_eq_layout (storage : Storage κ) (name : Symbol) :
    storage.fieldIndex? name = storage.layout.index? name := by
  simp [fieldIndex?, layout, Layout.index?, List.findIdx?_map, Function.comp_def]

/-- So does the field a selector names. -/
theorem fieldSlot?_eq_layout (storage : Storage κ) (name : Symbol) :
    storage.fieldSlot? name =
      (storage.layout.index? name).bind fun index =>
        (storage.layout.info? index).map fun info => (index, info.writable) := by
  rw [fieldSlot?, fieldIndex?_eq_layout]
  cases storage.layout.index? name with
  | none => rfl
  | some index => simp [layout, Layout.info?, Function.comp_def]

/-- Writing does not move fields. -/
theorem fieldIndex?_write (h : storage.write? index value = some written) (name : Symbol) :
    written.fieldIndex? name = storage.fieldIndex? name := by
  rw [fieldIndex?_eq_layout, fieldIndex?_eq_layout, layout_write h]

/-- A place has one name. -/
theorem eq_of_fieldIndex? {name other : Symbol} (h : storage.fieldIndex? name = some index)
    (h' : storage.fieldIndex? other = some index) : name = other := by
  obtain ⟨hlt, hname, -⟩ := List.findIdx?_eq_some_iff_getElem.mp h
  obtain ⟨_, hother, -⟩ := List.findIdx?_eq_some_iff_getElem.mp h'
  exact (beq_iff_eq.mp hname).symm.trans (beq_iff_eq.mp hother)

/-- Selectors name what they named before. -/
theorem find_write (h : storage.write? index value = some written) (selector : Symbol) :
    written.find selector = storage.find selector := by
  have hslot : ∀ name, written.fieldSlot? name = storage.fieldSlot? name := fun name => by
    rw [fieldSlot?_eq_layout, fieldSlot?_eq_layout, layout_write h]
  obtain ⟨field, -, rfl⟩ := write?_eq_some_iff.mp h
  simp only [find, hslot]
  rfl

/-! ## Values -/

theorem read?_write (h : storage.write? index value = some written) :
    written.read? index = some value := by
  obtain ⟨field, hfield, rfl⟩ := write?_eq_some_iff.mp h
  have hlt := (List.getElem?_eq_some_iff.mp hfield).1
  simp [read?, hlt]

/-- Writing a field leaves the values of all others. -/
theorem read?_write_other (h : storage.write? index value = some written)
    {other : Nat} (hother : other ≠ index) : written.read? other = storage.read? other := by
  obtain ⟨field, hfield, rfl⟩ := write?_eq_some_iff.mp h
  simp only [read?, List.getElem?_set_ne hother.symm]

/-- The ways in which a selector names a slot, by what kind of slot it is. -/
inductive Names (storage : Storage κ) (selector : Symbol) : Slot κ → Prop
  | field {index : Nat} {writable : Bool} :
      storage.fieldSlot? selector = some (index, writable) → Names storage selector (.field index writable)
  | method {method : Method κ} :
      storage.method? selector = some method → Names storage selector (.method method)
  | custom {custom : Value κ} : storage.fieldSlot? selector = none →
      storage.custom? selector = some custom → Names storage selector (.custom custom)
  | mutator {target : Symbol} {index : Nat} {writable : Bool} :
      selector.assignmentTarget? = some target →
        storage.fieldSlot? target = some (index, writable) →
          Names storage selector (.mutator index writable)
  | customMutator {target : Symbol} {custom : Value κ} :
      selector.assignmentTarget? = some target → storage.fieldSlot? target = none →
        storage.custom? target = some custom → Names storage selector (.customMutator custom)

theorem names_of_find {selector : Symbol} {slot : Slot κ} (h : storage.find selector = some slot) :
    storage.Names selector slot := by
  unfold find at h
  cases hslot : storage.fieldSlot? selector with
  | some found =>
    rw [hslot] at h
    cases h
    exact .field hslot
  | none =>
    cases hmethod : storage.method? selector with
    | some method =>
      rw [hslot, hmethod] at h
      cases h
      exact .method hmethod
    | none =>
      cases hcustom : storage.custom? selector with
      | some custom =>
        rw [hslot, hmethod, hcustom] at h
        cases h
        exact .custom hslot hcustom
      | none =>
        cases htarget : selector.assignmentTarget? with
        | none =>
          rw [hslot, hmethod, hcustom, htarget] at h
          cases h
        | some target =>
          rw [hslot, hmethod, hcustom, htarget, Option.bind_some] at h
          cases hfield : storage.fieldSlot? target with
          | some found =>
            rw [hfield] at h
            cases h
            exact .mutator htarget hfield
          | none =>
            cases hother : storage.custom? target with
            | some custom =>
              rw [hfield, hother] at h
              cases h
              exact .customMutator htarget hfield hother
            | none =>
              rw [hfield, hother] at h
              cases h

/-- A selector names a field just when it is the name of one. -/
theorem find_eq_field_iff {selector : Symbol} {writable : Bool} :
    storage.find selector = some (.field index writable) ↔
      storage.fieldSlot? selector = some (index, writable) := by
  constructor
  · intro h
    cases names_of_find h with
    | field hslot => exact hslot
  · intro h
    rw [find, h]
    rfl

/-- A field that a selector names is there. -/
theorem exists_field {selector : Symbol} {writable : Bool}
    (h : storage.find selector = some (.field index writable)) :
    ∃ field, storage.fields[index]? = some field := by
  obtain ⟨-, field, hfield, -⟩ := fieldSlot?_eq_some_iff.mp (find_eq_field_iff.mp h)
  exact ⟨field, hfield⟩

/-- It can be given any value. -/
theorem exists_write {selector : Symbol} {writable : Bool}
    (h : storage.find selector = some (.field index writable)) (value : Value κ) :
    ∃ written, storage.write? index value = some written := by
  obtain ⟨field, hfield⟩ := exists_field h
  exact ⟨_, write?_eq_some_iff.mpr ⟨field, hfield, rfl⟩⟩

/-- A field has one name. -/
theorem name_unique {name other : Symbol} {writable writable' : Bool}
    (h : storage.find name = some (.field index writable))
    (h' : storage.find other = some (.field index writable')) : name = other :=
  eq_of_fieldIndex? (fieldSlot?_eq_some_iff.mp (find_eq_field_iff.mp h)).1
    (fieldSlot?_eq_some_iff.mp (find_eq_field_iff.mp h')).1

end Prototypes.Storage
