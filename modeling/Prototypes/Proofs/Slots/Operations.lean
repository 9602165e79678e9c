import Prototypes.Proofs.Slots.Writes
import Prototypes.Slots.Operations

/-!
# What the operations on slots do

An insertion puts its entry behind those of its kind, or fails because the name is
taken; a removal takes one entry out of its list and leaves the others in their order
(`Storage.Does`).  No name is ever there twice, over all three lists.

## Main results

* `Storage.does_perform` — what each operation does.
* `Storage.nodup_performAll` — names stay apart.
-/

namespace Prototypes

variable {κ : Type}

/-- The storage a call leaves behind. -/
def stateOf {ε σ α : Type} : EStateM.Result ε σ α → σ
  | .ok _ state => state
  | .error _ state => state

theorem snd_performAll_cons {σ : Type}
    (perform : σ → SlotOperation κ → EStateM.Result Halt σ (SlotAnswer κ)) (storage : σ)
    (operation : SlotOperation κ) (more : List (SlotOperation κ)) :
    (performAll perform storage (operation :: more)).2 =
      (performAll perform (stateOf (perform storage operation)) more).2 := by
  rw [performAll]
  cases perform storage operation <;> rfl

theorem snd_performAll_append {σ : Type}
    (perform : σ → SlotOperation κ → EStateM.Result Halt σ (SlotAnswer κ)) (storage : σ)
    (operations more : List (SlotOperation κ)) :
    (performAll perform storage (operations ++ more)).2 =
      (performAll perform (performAll perform storage operations).2 more).2 := by
  induction operations generalizing storage with
  | nil => rfl
  | cons operation operations ih =>
    rw [List.cons_append, snd_performAll_cons, ih, snd_performAll_cons]

namespace Storage

variable {storage : Storage κ} {name : Symbol}

/-! ## The names of one kind -/

/-- The names of the slots of one kind. -/
def namesOf (storage : Storage κ) : SlotKind → List Symbol
  | .field => storage.fields.map fun field => field.name
  | .method => storage.methods.map Method.name
  | .custom => storage.custom.map CustomField.name

theorem names_eq (storage : Storage κ) :
    storage.names =
      storage.namesOf .field ++ storage.namesOf .method ++ storage.namesOf .custom := rfl

theorem mem_names_iff : name ∈ storage.names ↔ ∃ kind, name ∈ storage.namesOf kind := by
  rw [names_eq, List.mem_append, List.mem_append]
  constructor
  · rintro ((h | h) | h)
    exacts [⟨_, h⟩, ⟨_, h⟩, ⟨_, h⟩]
  · rintro ⟨kind, h⟩
    cases kind
    exacts [.inl (.inl h), .inl (.inr h), .inr h]

theorem nodup_namesOf (h : storage.names.Nodup) (kind : SlotKind) :
    (storage.namesOf kind).Nodup := by
  rw [names_eq] at h
  have hfirst := h.of_append_left
  cases kind
  exacts [hfirst.of_append_left, hfirst.of_append_right, h.of_append_right]

/-! ## What an operation does -/

/-- What an operation answers and leaves behind. -/
inductive Does (storage : Storage κ) :
    SlotOperation κ → EStateM.Result Halt (Storage κ) (SlotAnswer κ) → Prop
  | taken {fresh : Identity} {entry : Entry κ} (h : entry.name ∈ storage.names) :
      Does storage (.insert fresh entry) (.error (.raised (.duplicateSlot entry.name)) storage)
  | insertField {fresh : Identity} {field : Field κ} (h : field.name ∉ storage.names) :
      Does storage (.insert fresh (.field field))
        (.ok (.index storage.fields.length)
          { storage with layoutIdentity := fresh, fields := storage.fields ++ [field] })
  | insertMethod {fresh : Identity} {method : Method κ} (h : method.name ∉ storage.names) :
      Does storage (.insert fresh (.method method))
        (.ok .done { storage with methods := storage.methods ++ [method] })
  | insertCustom {fresh : Identity} {field : CustomField κ} (h : field.name ∉ storage.names) :
      Does storage (.insert fresh (.custom field))
        (.ok .done { storage with custom := storage.custom ++ [field] })
  | removeField {fresh : Identity} {before after : List (Field κ)} {field : Field κ}
      (h : storage.fields = before ++ field :: after) :
      Does storage (.remove fresh .field field.name)
        (.ok (.value (some field.value))
          { storage with layoutIdentity := fresh, fields := before ++ after })
  | removeMethod {fresh : Identity} {before after : List (Method κ)} {method : Method κ}
      (h : storage.methods = before ++ method :: after) :
      Does storage (.remove fresh .method method.name)
        (.ok (.method (some method)) { storage with methods := before ++ after })
  | removeCustom {fresh : Identity} {before after : List (CustomField κ)} {field : CustomField κ}
      (h : storage.custom = before ++ field :: after) :
      Does storage (.remove fresh .custom field.name)
        (.ok (.value (some field.field)) { storage with custom := before ++ after })
  | noField {fresh : Identity} {name : Symbol} (h : name ∉ storage.namesOf .field) :
      Does storage (.remove fresh .field name) (.ok (.value none) storage)
  | noMethod {fresh : Identity} {name : Symbol} (h : name ∉ storage.namesOf .method) :
      Does storage (.remove fresh .method name) (.ok (.method none) storage)
  | noCustom {fresh : Identity} {name : Symbol} (h : name ∉ storage.namesOf .custom) :
      Does storage (.remove fresh .custom name) (.ok (.value none) storage)
  | write {before after : List (Field κ)} {field : Field κ} {value : Value κ}
      (h : storage.fields = before ++ field :: after) :
      Does storage (.write field.name value)
        (.ok .done { storage with fields := before ++ { field with value } :: after })
  | writeNowhere {name : Symbol} {value : Value κ} (h : name ∉ storage.namesOf .field) :
      Does storage (.write name value) (.ok .done storage)
  | clone : Does storage .clone (.ok (.behind storage.custom) { storage with custom := [] })

/-- The entry found first is the one that is erased. -/
theorem exists_parts_of_find? {α : Type} {items : List α} {p : α → Bool} {item : α}
    (h : items.find? p = some item) :
    ∃ before after, items = before ++ item :: after ∧ items.eraseP p = before ++ after := by
  obtain ⟨hitem, before, after, rfl, hbefore⟩ := List.find?_eq_some_iff_append.mp h
  refine ⟨before, after, rfl, ?_⟩
  rw [List.eraseP_append_right _ (fun other hother => by simpa using hbefore other hother),
    List.eraseP_cons_of_pos hitem]

theorem not_mem_map_of_find? {α : Type} {items : List α} {f : α → Symbol}
    (h : items.find? (fun item => f item == name) = none) : name ∉ items.map f := by
  simpa using h

theorem not_mem_names (h : ¬storage.hasSlot name = true) : name ∉ storage.names :=
  fun hmem => h (hasSlot_iff.mpr hmem)

private theorem does_insert (storage : Storage κ) (fresh : Identity) (entry : Entry κ) :
    storage.Does (.insert fresh entry) (storage.perform (.insert fresh entry)) := by
  cases entry with
  | field field =>
    by_cases h : storage.hasSlot field.name = true
    · simp only [perform, putField, if_pos h]
      exact @Does.taken κ storage fresh (.field field) (hasSlot_iff.mp h)
    · simp only [perform, putField, if_neg h]
      exact .insertField (not_mem_names h)
  | method method =>
    by_cases h : storage.hasSlot method.name = true
    · simp only [perform, addMethod, if_pos h]
      exact @Does.taken κ storage fresh (.method method) (hasSlot_iff.mp h)
    · simp only [perform, addMethod, if_neg h]
      exact .insertMethod (not_mem_names h)
  | custom field =>
    by_cases h : storage.hasSlot field.name = true
    · simp only [perform, addCustom, if_pos h]
      exact @Does.taken κ storage fresh (.custom field) (hasSlot_iff.mp h)
    · simp only [perform, addCustom, if_neg h]
      exact .insertCustom (not_mem_names h)

private theorem does_remove (storage : Storage κ) (fresh : Identity) (kind : SlotKind)
    (name : Symbol) :
    storage.Does (.remove fresh kind name) (storage.perform (.remove fresh kind name)) := by
  cases kind with
  | field =>
    cases hfind : storage.field? name with
    | none =>
      simp only [perform, removeField?, hfind]
      exact .noField (not_mem_map_of_find? hfind)
    | some field =>
      obtain ⟨before, after, hfields, herase⟩ := exists_parts_of_find? hfind
      have hname : field.name = name := by simpa using List.find?_some hfind
      simp only [perform, removeField?, hfind, Option.map_some, removeWith, herase]
      exact hname ▸ .removeField hfields
  | method =>
    cases hfind : storage.method? name with
    | none =>
      simp only [perform, removeMethod?, hfind]
      exact .noMethod (not_mem_map_of_find? hfind)
    | some method =>
      obtain ⟨before, after, hmethods, herase⟩ := exists_parts_of_find? hfind
      have hname : method.name = name := by simpa using List.find?_some hfind
      simp only [perform, removeMethod?, hfind, Option.map_some, removeWith, herase]
      exact hname ▸ .removeMethod hmethods
  | custom =>
    cases hfind : storage.custom.find? (fun field => field.name == name) with
    | none =>
      simp only [perform, removeCustom?, custom?, hfind]
      exact .noCustom (not_mem_map_of_find? hfind)
    | some field =>
      obtain ⟨before, after, hcustom, herase⟩ := exists_parts_of_find? hfind
      have hname : field.name = name := by simpa using List.find?_some hfind
      simp only [perform, removeCustom?, custom?, hfind, Option.map_some, removeWith, herase]
      exact hname ▸ .removeCustom hcustom

/-- A field that is found can be written, and is written where it is. -/
theorem write?_of_fieldIndex? {index : Nat} (h : storage.fieldIndex? name = some index) :
    ∃ before field after, storage.fields = before ++ field :: after ∧ field.name = name ∧
      ∀ value, storage.write? index value =
        some { storage with fields := before ++ { field with value } :: after } := by
  obtain ⟨hlt, hname, -⟩ := List.findIdx?_eq_some_iff_getElem.mp h
  have hset (field : Field κ) : storage.fields.set index field =
      storage.fields.take index ++ field :: storage.fields.drop (index + 1) := by
    rw [List.set_eq_take_append_cons_drop, if_pos hlt]
  have hfields := (List.set_getElem_self hlt).symm.trans (hset _)
  refine ⟨_, storage.fields[index], _, hfields, by simpa using hname, fun value => ?_⟩
  rw [← hset]
  exact write?_eq_some_iff.mpr ⟨_, List.getElem?_eq_getElem hlt, rfl⟩

private theorem does_write (storage : Storage κ) (name : Symbol) (value : Value κ) :
    storage.Does (.write name value) (storage.perform (.write name value)) := by
  cases hindex : storage.fieldIndex? name with
  | none =>
    simp only [perform, hindex]
    exact .writeNowhere (by simpa [namesOf, fieldIndex?] using hindex)
  | some index =>
    obtain ⟨before, field, after, hfields, hname, hwrite⟩ := write?_of_fieldIndex? hindex
    simp only [perform, hindex, hwrite]
    exact hname ▸ .write hfields

/-- Every operation does what it says. -/
theorem does_perform (storage : Storage κ) (operation : SlotOperation κ) :
    storage.Does operation (storage.perform operation) := by
  cases operation with
  | insert fresh entry => exact does_insert storage fresh entry
  | remove fresh kind name => exact does_remove storage fresh kind name
  | write name value => exact does_write storage name value
  | clone => exact .clone

/-! ## Names stay apart -/

variable {operation : SlotOperation κ} {result : EStateM.Result Halt (Storage κ) (SlotAnswer κ)}

theorem names_sublist {smaller : Storage κ} (hfields : smaller.fields.Sublist storage.fields)
    (hmethods : smaller.methods.Sublist storage.methods)
    (hcustom : smaller.custom.Sublist storage.custom) : smaller.names.Sublist storage.names :=
  ((hfields.map _).append (hmethods.map _)).append (hcustom.map _)

theorem Does.nodup (h : storage.Does operation result) (hnodup : storage.names.Nodup) :
    (stateOf result).names.Nodup := by
  have hshorter {α : Type} {items : List α} {before after : List α} {item : α}
      (hitems : items = before ++ item :: after) : (before ++ after).Sublist items :=
    hitems ▸ (List.sublist_cons_self item after).append_left before
  -- a new name in the middle stands for one in front
  have hinsert {inserted : List Symbol} {name : Symbol} (hfree : name ∉ storage.names)
      (hperm : inserted.Perm (name :: storage.names)) : inserted.Nodup :=
    hperm.nodup_iff.mpr (List.nodup_cons.mpr ⟨hfree, hnodup⟩)
  cases h with
  | taken | noField | noMethod | noCustom | writeNowhere => exact hnodup
  | insertField hfree =>
    refine hinsert hfree ?_
    simp [stateOf, names]
  | insertMethod hfree =>
    refine hinsert hfree ?_
    simp only [stateOf, names, List.map_append, List.map_cons, List.map_nil, List.append_assoc,
      List.singleton_append]
    rw [← List.append_assoc, ← List.append_assoc]
    exact List.perm_middle
  | insertCustom hfree =>
    refine hinsert hfree ?_
    simp only [stateOf, names, List.map_append, List.map_cons, List.map_nil]
    rw [← List.append_assoc]
    exact List.perm_append_singleton _ _
  | removeField hfields =>
    refine hnodup.sublist ?_
    exact names_sublist (hshorter hfields) (.refl _) (.refl _)
  | removeMethod hmethods =>
    refine hnodup.sublist ?_
    exact names_sublist (.refl _) (hshorter hmethods) (.refl _)
  | removeCustom hcustom =>
    refine hnodup.sublist ?_
    exact names_sublist (.refl _) (.refl _) (hshorter hcustom)
  | write hfields =>
    rw [names, hfields] at hnodup
    simpa [stateOf, names] using hnodup
  | clone =>
    refine hnodup.sublist ?_
    exact names_sublist (.refl _) (.refl _) (List.nil_sublist _)

theorem nodup_performAll (hnodup : storage.names.Nodup) (operations : List (SlotOperation κ)) :
    (performAll perform storage operations).2.names.Nodup := by
  induction operations generalizing storage with
  | nil => exact hnodup
  | cons operation operations ih =>
    rw [snd_performAll_cons]
    exact ih ((does_perform storage operation).nodup hnodup)

/-- An operation takes no name but its own. -/
theorem Does.mem_namesOf (h : storage.Does operation result) {kind : SlotKind}
    (hname : name ∈ (stateOf result).namesOf kind) :
    name ∈ storage.namesOf kind ∨ operation.name? = some name := by
  cases h <;> cases kind <;>
    simp_all [stateOf, namesOf, SlotOperation.name?, Entry.name]
  all_goals grind

end Storage

end Prototypes
