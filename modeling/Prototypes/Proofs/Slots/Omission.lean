import Prototypes.Proofs.Slots.Operations

/-!
# Leaving a slot out

What happens to slots of other names does not depend on a slot: leaving it out of the
lists commutes with every operation on other names (`Storage.state_perform_without`).
Adding a slot and leaving it out again is nothing, and so is removing it, which is
leaving it out because its name is nowhere else.

The identity of a layout changes with each change of the fields and is not compared.

## Main results

* `Storage.performAll_without` — operations on other names do not see the slot.
* `Storage.performAll_insert_remove` — what is added and removed again leaves no trace.
-/

namespace Prototypes.Storage

variable {κ : Type} {storage : Storage κ} {name : Symbol} {operation : SlotOperation κ}

/-! ## Lists without a name -/

/-- The storage without the slots of a name. -/
def without (storage : Storage κ) (name : Symbol) : Storage κ :=
  { storage with
    fields := storage.fields.filter fun field => field.name != name
    methods := storage.methods.filter fun method => method.name != name
    custom := storage.custom.filter fun field => field.name != name }

section Lists

variable {α : Type} {f : α → Symbol} {other : Symbol}

theorem find?_filter_ne (h : other ≠ name) (items : List α) :
    (items.filter (f · != name)).find? (f · == other) = items.find? (f · == other) := by
  rw [List.find?_filter]
  congr 1
  funext item
  by_cases hitem : f item = other <;> simp [hitem, h]

theorem eraseP_filter_ne (h : other ≠ name) (items : List α) :
    (items.filter (f · != name)).eraseP (f · == other) =
      (items.eraseP (f · == other)).filter (f · != name) := by
  rw [List.eraseP_filter]
  congr 2
  funext item
  by_cases hitem : f item = other <;> simp [hitem, h]

/-- Where names stand apart, erasing the first item of a name erases all. -/
theorem eraseP_eq_filter {items : List α} (h : (items.map f).Nodup) :
    items.eraseP (f · == name) = items.filter (f · != name) := by
  induction items with
  | nil => rfl
  | cons item items ih =>
    obtain ⟨hitem, hitems⟩ := List.nodup_cons.mp h
    by_cases hname : f item = name
    · have hrest : ∀ other ∈ items, f other ≠ name :=
        fun other hother hsame => hitem (List.mem_map.mpr ⟨other, hother, hsame.trans hname.symm⟩)
      rw [List.eraseP_cons_of_pos (by simpa using hname), List.filter_cons_of_neg (by simpa using hname)]
      exact (List.filter_eq_self.mpr (by simpa using hrest)).symm
    · rw [List.eraseP_cons_of_neg (by simpa using hname), List.filter_cons_of_pos (by simpa using hname),
        ih hitems]

theorem filter_ne_of_not_mem {items : List α} (h : name ∉ items.map f) :
    items.filter (f · != name) = items := by
  refine List.filter_eq_self.mpr fun item hitem => bne_iff_ne.mpr fun hname => h ?_
  exact List.mem_map.mpr ⟨item, hitem, hname⟩

end Lists

theorem hasSlot_without {other : Symbol} (h : other ≠ name) :
    (storage.without name).hasSlot other = storage.hasSlot other := by
  simp only [hasSlot, field?, method?, custom?, without]
  rw [find?_filter_ne h, find?_filter_ne h, find?_filter_ne h]

theorem without_eq_self (h : name ∉ storage.names) : storage.without name = storage := by
  have hfree (kind : SlotKind) : name ∉ storage.namesOf kind :=
    fun hmem => h (mem_names_iff.mpr ⟨kind, hmem⟩)
  unfold without
  rw [filter_ne_of_not_mem (hfree .field), filter_ne_of_not_mem (hfree .method),
    filter_ne_of_not_mem (hfree .custom)]

/-- A field with another value, if it has the name. -/
def written (name : Symbol) (value : Value κ) (field : Field κ) : Field κ :=
  if field.name = name then { field with value } else field

@[simp]
theorem name_written (name : Symbol) (value : Value κ) (field : Field κ) :
    (written name value field).name = field.name := by
  unfold written
  split <;> rfl

/-- Where names stand apart, writing reaches one field. -/
theorem state_perform_write (hnodup : storage.names.Nodup) (name : Symbol) (value : Value κ) :
    stateOf (storage.perform (.write name value)) =
      { storage with fields := storage.fields.map (written name value) } := by
  have hother {fields : List (Field κ)} (h : name ∉ fields.map fun field => field.name) :
      fields.map (written name value) = fields := by
    refine (List.map_congr_left fun field hfield => if_neg fun hname => h ?_).trans
      (List.map_id' fields)
    exact List.mem_map.mpr ⟨field, hfield, hname⟩
  cases hindex : storage.fieldIndex? name with
  | none =>
    have hnone : name ∉ storage.fields.map fun field => field.name := by
      simpa [fieldIndex?] using hindex
    simp only [perform, hindex, stateOf, hother hnone]
  | some index =>
    obtain ⟨before, field, after, hfields, rfl, hwrite⟩ := write?_of_fieldIndex? hindex
    have hfieldNames := nodup_namesOf hnodup .field
    rw [namesOf, hfields, List.map_append, List.map_cons, List.nodup_middle,
      List.nodup_cons, List.mem_append, not_or] at hfieldNames
    obtain ⟨⟨hbefore, hafter⟩, -⟩ := hfieldNames
    simp only [perform, hindex, hwrite, stateOf, hfields, List.map_append, List.map_cons,
      hother hbefore, hother hafter, written, if_true]

/-- The lists with an entry behind those of its kind. -/
def appended (storage : Storage κ) (fresh : Identity) : Entry κ → Storage κ
  | .field field =>
    { storage with layoutIdentity := fresh, fields := storage.fields ++ [field] }
  | .method method => { storage with methods := storage.methods ++ [method] }
  | .custom field => { storage with custom := storage.custom ++ [field] }

/-- The lists without the first entry of a kind and a name. -/
def erased (storage : Storage κ) (fresh : Identity) (kind : SlotKind) (name : Symbol) :
    Storage κ :=
  match kind with
  | .field =>
    { storage with
      layoutIdentity := fresh
      fields := storage.fields.eraseP fun field => field.name == name }
  | .method => { storage with methods := storage.methods.eraseP fun method => method.name == name }
  | .custom => { storage with custom := storage.custom.eraseP fun field => field.name == name }

theorem state_perform_insert (storage : Storage κ) (fresh : Identity) (entry : Entry κ) :
    stateOf (storage.perform (.insert fresh entry)) =
      if storage.hasSlot entry.name then storage else storage.appended fresh entry := by
  have hdoes := does_perform storage (.insert fresh entry)
  generalize storage.perform (.insert fresh entry) = result at hdoes ⊢
  cases hdoes with
  | taken h => exact (if_pos (hasSlot_iff.mpr h)).symm
  | insertField h => exact (if_neg fun hslot => h (hasSlot_iff.mp hslot)).symm
  | insertMethod h => exact (if_neg fun hslot => h (hasSlot_iff.mp hslot)).symm
  | insertCustom h => exact (if_neg fun hslot => h (hasSlot_iff.mp hslot)).symm

/-- Whether there is a slot of a kind and a name. -/
def has (storage : Storage κ) (name : Symbol) : SlotKind → Bool
  | .field => (storage.field? name).isSome
  | .method => (storage.method? name).isSome
  | .custom => (storage.custom? name).isSome

theorem has_iff {kind : SlotKind} : storage.has name kind = true ↔ name ∈ storage.namesOf kind := by
  cases kind <;> simp [has, namesOf, field?, method?, custom?]

theorem state_perform_remove (storage : Storage κ) (fresh : Identity) (kind : SlotKind)
    (name : Symbol) :
    stateOf (storage.perform (.remove fresh kind name)) =
      if storage.has name kind then storage.erased fresh kind name else storage := by
  cases kind with
  | field =>
    cases hfind : storage.field? name <;> simp only [perform, removeField?, has, hfind] <;> rfl
  | method =>
    cases hfind : storage.method? name <;> simp only [perform, removeMethod?, has, hfind] <;> rfl
  | custom =>
    cases hfind : storage.custom? name <;> simp only [perform, removeCustom?, has, hfind] <;> rfl

theorem has_without {other : Symbol} (h : other ≠ name) (kind : SlotKind) :
    (storage.without name).has other kind = storage.has other kind := by
  cases kind <;> simp only [has, field?, method?, custom?, without, find?_filter_ne h]

theorem nodup_without (hnodup : storage.names.Nodup) (name : Symbol) :
    (storage.without name).names.Nodup :=
  hnodup.sublist (names_sublist List.filter_sublist List.filter_sublist List.filter_sublist)

/-- Leaving a slot out commutes with the operations on other names. -/
theorem state_perform_without (hnodup : storage.names.Nodup)
    (hname : operation.name? ≠ some name) :
    stateOf ((storage.without name).perform operation) =
      (stateOf (storage.perform operation)).without name := by
  cases operation with
  | insert fresh entry =>
    have hne : entry.name ≠ name := fun h => hname (congrArg some h)
    rw [state_perform_insert, state_perform_insert, hasSlot_without hne]
    split
    · rfl
    · cases entry <;> simp_all [appended, without, Entry.name]
  | remove fresh kind other =>
    have hne : other ≠ name := fun h => hname (congrArg some h)
    rw [state_perform_remove, state_perform_remove, has_without hne]
    split
    · cases kind <;> simp only [erased, without, eraseP_filter_ne hne]
    · rfl
  | write other value =>
    rw [state_perform_write hnodup, state_perform_write (nodup_without hnodup name)]
    simp only [without, List.filter_map, Function.comp_def, name_written]
  | clone => simp only [perform, stateOf, without, cloneLayout, List.filter_nil]

theorem performAll_without {operations : List (SlotOperation κ)} (hnodup : storage.names.Nodup)
    (hnames : ∀ operation ∈ operations, operation.name? ≠ some name) :
    (performAll perform (storage.without name) operations).2 =
      (performAll perform storage operations).2.without name := by
  induction operations generalizing storage with
  | nil => rfl
  | cons operation operations ih =>
    obtain ⟨hname, hnames⟩ := List.forall_mem_cons.mp hnames
    rw [snd_performAll_cons, snd_performAll_cons, state_perform_without hnodup hname]
    exact ih ((does_perform storage operation).nodup hnodup) hnames

/-! ## Adding and removing again -/

/-- The same slots; the layouts may have different identities. -/
def SameSlots (a b : Storage κ) : Prop := ∃ identity, a = { b with layoutIdentity := identity }

theorem SameSlots.trans {a b c : Storage κ} (h : a.SameSlots b) (h' : b.SameSlots c) :
    a.SameSlots c := by
  obtain ⟨identity, rfl⟩ := h
  obtain ⟨-, rfl⟩ := h'
  exact ⟨identity, rfl⟩

/-- The identity of a layout has no influence on the slots. -/
theorem SameSlots.perform {a b : Storage κ} (h : a.SameSlots b) (operation : SlotOperation κ) :
    (stateOf (a.perform operation)).SameSlots (stateOf (b.perform operation)) := by
  obtain ⟨identity, rfl⟩ := h
  cases operation with
  | insert fresh entry =>
    rw [state_perform_insert, state_perform_insert]
    have hslot : { b with layoutIdentity := identity }.hasSlot entry.name = b.hasSlot entry.name :=
      rfl
    rw [hslot]
    split
    · exact ⟨identity, rfl⟩
    · cases entry <;> exact ⟨_, rfl⟩
  | remove fresh kind name =>
    rw [state_perform_remove, state_perform_remove]
    have hhas : { b with layoutIdentity := identity }.has name kind = b.has name kind := by
      cases kind <;> rfl
    rw [hhas]
    split
    · cases kind <;> exact ⟨_, rfl⟩
    · exact ⟨identity, rfl⟩
  | write name value =>
    have hindex : { b with layoutIdentity := identity }.fieldIndex? name = b.fieldIndex? name := rfl
    simp only [Storage.perform, hindex, write?]
    cases b.fieldIndex? name with
    | none => exact ⟨identity, rfl⟩
    | some index =>
      dsimp only
      cases b.fields[index]? <;> exact ⟨identity, rfl⟩
  | clone => exact ⟨identity, rfl⟩

theorem SameSlots.performAll {a b : Storage κ} (h : a.SameSlots b)
    (operations : List (SlotOperation κ)) :
    (performAll Storage.perform a operations).2.SameSlots
      (Prototypes.performAll Storage.perform b operations).2 := by
  induction operations generalizing a b with
  | nil => exact h
  | cons operation operations ih =>
    rw [snd_performAll_cons, snd_performAll_cons]
    exact ih (h.perform operation)

/-- The name is that of slots of one kind only. -/
def Only (storage : Storage κ) (kind : SlotKind) (name : Symbol) : Prop :=
  ∀ other, other ≠ kind → name ∉ storage.namesOf other

theorem Only.performAll {kind : SlotKind} (h : storage.Only kind name)
    {operations : List (SlotOperation κ)}
    (hnames : ∀ operation ∈ operations, operation.name? ≠ some name) :
    (performAll Storage.perform storage operations).2.Only kind name := by
  induction operations generalizing storage with
  | nil => exact h
  | cons operation operations ih =>
    obtain ⟨hname, hnames⟩ := List.forall_mem_cons.mp hnames
    rw [snd_performAll_cons]
    refine ih (fun other hother hmem => ?_) hnames
    exact ((does_perform storage operation).mem_namesOf hmem).elim (h other hother) hname

/-- Adding a slot and leaving its name out again. -/
theorem without_insert {fresh : Identity} {entry : Entry κ} (h : entry.name ∉ storage.names) :
    ((stateOf (storage.perform (.insert fresh entry))).without entry.name).SameSlots storage := by
  have hfree : ¬storage.hasSlot entry.name = true := fun hslot => h (hasSlot_iff.mp hslot)
  have hadded : ((storage.appended fresh entry).without entry.name).SameSlots
      (storage.without entry.name) := by
    refine ⟨(storage.appended fresh entry).layoutIdentity, ?_⟩
    cases entry <;> simp [appended, without, Entry.name]
  rw [state_perform_insert, if_neg hfree]
  rwa [without_eq_self h] at hadded

theorem only_insert {fresh : Identity} {entry : Entry κ} (h : entry.name ∉ storage.names) :
    (stateOf (storage.perform (.insert fresh entry))).Only entry.kind entry.name := by
  have hfree : ¬storage.hasSlot entry.name = true := fun hslot => h (hasSlot_iff.mp hslot)
  rw [state_perform_insert, if_neg hfree]
  intro other hother hmem
  refine h (mem_names_iff.mpr ⟨other, ?_⟩)
  cases entry <;> cases other <;> first | exact absurd rfl hother | exact hmem

/-- Removing the only slot of a name is leaving the name out. -/
theorem state_perform_remove_of_only (fresh : Identity) {kind : SlotKind}
    (hnodup : storage.names.Nodup) (honly : storage.Only kind name) :
    (stateOf (storage.perform (.remove fresh kind name))).SameSlots (storage.without name) := by
  rw [state_perform_remove]
  by_cases hhas : storage.has name kind = true
  · rw [if_pos hhas]
    have hkept (other : SlotKind) (hother : other ≠ kind) : name ∉ storage.namesOf other :=
      honly other hother
    refine ⟨(storage.erased fresh kind name).layoutIdentity, ?_⟩
    cases kind with
    | field =>
      simp only [erased, without, eraseP_eq_filter (nodup_namesOf hnodup .field),
        filter_ne_of_not_mem (hkept .method (by decide)),
        filter_ne_of_not_mem (hkept .custom (by decide))]
    | method =>
      simp only [erased, without, eraseP_eq_filter (nodup_namesOf hnodup .method),
        filter_ne_of_not_mem (hkept .field (by decide)),
        filter_ne_of_not_mem (hkept .custom (by decide))]
    | custom =>
      simp only [erased, without, eraseP_eq_filter (nodup_namesOf hnodup .custom),
        filter_ne_of_not_mem (hkept .field (by decide)),
        filter_ne_of_not_mem (hkept .method (by decide))]
  · have hgone : name ∉ storage.names := by
      rw [mem_names_iff]
      rintro ⟨other, hmem⟩
      by_cases hother : other = kind
      · exact hhas (has_iff.mpr (hother ▸ hmem))
      · exact honly other hother hmem
    rw [if_neg hhas, without_eq_self hgone]
    exact ⟨storage.layoutIdentity, rfl⟩

/-- What is added and removed again leaves no trace. -/
theorem performAll_insert_remove (hnodup : storage.names.Nodup) (fresh fresh' : Identity)
    {entry : Entry κ} (hfree : entry.name ∉ storage.names) {others : List (SlotOperation κ)}
    (hothers : ∀ operation ∈ others, operation.name? ≠ some entry.name) :
    (performAll perform storage
      (.insert fresh entry :: others ++ [.remove fresh' entry.kind entry.name])).2.SameSlots
      (performAll perform storage others).2 := by
  let added := stateOf (storage.perform (.insert fresh entry))
  have hnodupAdded : added.names.Nodup := (does_perform storage _).nodup hnodup
  have honly : added.Only entry.kind entry.name := only_insert hfree
  have hlast : (performAll perform storage
      (.insert fresh entry :: others ++ [.remove fresh' entry.kind entry.name])).2 =
        stateOf ((performAll perform added others).2.perform
          (.remove fresh' entry.kind entry.name)) := by
    rw [snd_performAll_append, snd_performAll_cons, snd_performAll_cons]
    rfl
  rw [hlast]
  have hremoved := state_perform_remove_of_only fresh'
    (nodup_performAll hnodupAdded others) (honly.performAll hothers)
  rw [← performAll_without hnodupAdded hothers] at hremoved
  exact hremoved.trans ((without_insert hfree).performAll others)

end Prototypes.Storage
