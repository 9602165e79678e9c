import Mathlib.Data.List.Nodup
import Prototypes.Proofs.Slots.Omission

/-!
# Indexed storage is three lists

The containers of an indexed storage are determined by the three lists of a storage
(`Storage.indexed`): the maps tell the first place of each selector, and the values are
those of the fields.  Every operation on the containers of a storage whose names stand
apart gives the containers of what it gives on the lists, so they stay aligned.

The maps are equal when they have the same entries.

## Main results

* `placesOf_concat`, `countDown_placesOf`, `FieldMap.without_of` — how the maps are kept.
* `Storage.perform_indexed` — an operation on the containers is one on the lists.
* `IndexedStorage.refines_lists` — every sequence of operations.
-/

namespace Prototypes

variable {κ : Type}

/-! ## Searched lists -/

/-- What is found at an index is what is found, and what is erased. -/
theorem findIdx?_cases {α : Type} (items : List α) (p : α → Bool) :
    (items.findIdx? p = none ∧ items.find? p = none) ∨
    ∃ index item, items.findIdx? p = some index ∧ items[index]? = some item ∧
      items.find? p = some item ∧ items.eraseP p = items.eraseIdx index := by
  rw [List.find?_eq_bind_findIdx?_getElem?, List.eraseP_eq_eraseIdx]
  cases hindex : items.findIdx? p with
  | none => exact .inl ⟨rfl, rfl⟩
  | some index =>
    obtain ⟨hlt, -⟩ := List.findIdx?_eq_some_iff_getElem.mp hindex
    have hitem := List.getElem?_eq_getElem hlt
    exact .inr ⟨index, items[index], rfl, hitem, hitem, rfl⟩

theorem map_eraseIdx {α β : Type} (f : α → β) (items : List α) (index : Nat) :
    (items.eraseIdx index).map f = (items.map f).eraseIdx index := by
  rw [List.eraseIdx_eq_take_drop_succ, List.eraseIdx_eq_take_drop_succ, List.map_append,
    List.map_take, List.map_drop]

/-! ## Places -/

/-- The places of selectors: of the same ones, the first, put in last, is kept. -/
def placesOf (names : List Symbol) : Places := .ofList names.zipIdx.reverse

section Places

variable {names : List Symbol} {name : Symbol} {index : Nat}

/-- What is found first among numbered names. -/
theorem findSome?_zipIdx (names : List Symbol) (first : Nat) (name : Symbol) :
    ((names.zipIdx first).findSome? fun entry => if entry.1 == name then some entry.2 else none) =
      (names.findIdx? (· == name)).map (first + ·) := by
  induction names generalizing first with
  | nil => rfl
  | cons other names ih =>
    rw [List.zipIdx_cons, List.findSome?_cons, List.findIdx?_cons, ih]
    by_cases hname : (other == name) = true
    · simp only [hname, if_true, Option.map_some, Nat.add_zero]
    · simp only [hname, if_false, Bool.false_eq_true, Option.map_map]
      congr 1
      funext index
      simp only [Function.comp_apply]
      omega

theorem getElem?_placesOf (names : List Symbol) (name : Symbol) :
    (placesOf names)[name]? = names.findIdx? (· == name) := by
  rw [placesOf, Std.ExtHashMap.ofList_eq_insertMany_empty,
    Std.ExtHashMap.getElem?_insertMany_list, List.findSomeRev?_eq_findSome?_reverse,
    List.reverse_reverse, Std.ExtHashMap.getElem?_empty, Option.or_none]
  refine (findSome?_zipIdx names 0 name).trans ?_
  simp

/-- Where names stand apart, places are the inverse of the list. -/
theorem getElem?_placesOf_iff (h : names.Nodup) :
    (placesOf names)[name]? = some index ↔ names[index]? = some name := by
  rw [getElem?_placesOf, List.findIdx?_eq_some_iff_getElem, List.getElem?_eq_some_iff]
  constructor
  · rintro ⟨hlt, hname, -⟩
    exact ⟨hlt, by simpa using hname⟩
  · rintro ⟨hlt, rfl⟩
    refine ⟨hlt, by simp, fun earlier hearlier hsame => ?_⟩
    have hindex := h.getElem_inj_iff.mp (by simpa using hsame)
    omega

theorem contains_placesOf : (placesOf names).contains name = true ↔ name ∈ names := by
  rw [Std.ExtHashMap.contains_eq_isSome_getElem?, getElem?_placesOf, List.findIdx?_isSome,
    List.any_beq']
  simp

/-- A new name has its place behind the others. -/
theorem placesOf_concat (h : name ∉ names) :
    placesOf (names ++ [name]) = (placesOf names).insert name names.length := by
  refine Std.ExtHashMap.ext_getElem? fun other => ?_
  rw [Std.ExtHashMap.getElem?_insert, getElem?_placesOf, getElem?_placesOf, List.findIdx?_append]
  by_cases hother : name = other
  · subst hother
    have hnone : names.findIdx? (· == name) = none := by
      simpa using fun item hitem (hname : item = name) => h (hname ▸ hitem)
    simp [hnone]
  · simp [hother]

/-- Counting down is what has to be done to the places when a name goes. -/
theorem countDown_placesOf (h : names.Nodup) (hname : names[index]? = some name) :
    MethodDictionary.countDown ((placesOf names).erase name) index = placesOf (names.eraseIdx index) := by
  have hunique {a b : Nat} {found : Symbol} (ha : names[a]? = some found)
      (hb : names[b]? = some found) : a = b := by
    rw [← getElem?_placesOf_iff h] at ha hb
    exact Option.some.inj (ha.symm.trans hb)
  refine Std.ExtHashMap.ext_getElem? fun other => Option.ext fun place => ?_
  rw [getElem?_placesOf_iff (h.sublist (List.eraseIdx_sublist _ _)), List.getElem?_eraseIdx,
    MethodDictionary.countDown, Std.ExtHashMap.getElem?_map, Std.ExtHashMap.getElem?_erase]
  by_cases hother : name = other
  · subst hother
    rw [if_pos (beq_self_eq_true name)]
    refine ⟨fun hnone => (by cases hnone), fun hplace => ?_⟩
    split at hplace
    · have := hunique hplace hname
      omega
    · have := hunique hplace hname
      omega
  · rw [if_neg (by simpa using hother), Option.map_eq_some_iff]
    simp only [getElem?_placesOf_iff h]
    constructor
    · rintro ⟨old, hold, rfl⟩
      have hne : old ≠ index := by
        rintro rfl
        exact hother (Option.some.inj (hname.symm.trans hold))
      by_cases hlt : index < old
      · rw [if_pos hlt, if_neg (by omega), Nat.sub_add_cancel (by omega)]
        exact hold
      · rw [if_neg hlt, if_pos (by omega)]
        exact hold
    · intro hplace
      split at hplace
      · exact ⟨place, hplace, if_neg (by omega)⟩
      · exact ⟨place + 1, hplace, (if_pos (by omega)).trans (Nat.add_sub_cancel place 1)⟩

end Places

/-! ## Field maps -/

namespace FieldMap

/-- The field map of a layout. -/
def of (fields : List FieldInfo) : FieldMap := ⟨fields, placesOf (fields.map FieldInfo.name)⟩

variable {fields : List FieldInfo} {field : FieldInfo}

theorem put_of (h : field.name ∉ fields.map FieldInfo.name) :
    (of fields).put field = .ok (fields.length, of (fields ++ [field])) := by
  have hnew : ¬(of fields).places.contains field.name = true := fun hmem => h (contains_placesOf.mp hmem)
  rw [put, if_neg hnew]
  simp [of, placesOf_concat h]

theorem extend_of (h : field.name ∉ fields.map FieldInfo.name) :
    (of fields).extend field = of (fields ++ [field]) := by
  rw [extend, put_of h]

/-- Fields of different names are added one after the other. -/
theorem foldl_extend_of {more : List FieldInfo}
    (h : ((fields ++ more).map FieldInfo.name).Nodup) :
    more.foldl extend (of fields) = of (fields ++ more) := by
  induction more generalizing fields with
  | nil => simp
  | cons field more ih =>
    have hfield : field.name ∉ fields.map FieldInfo.name := by
      rw [List.map_append, List.map_cons, List.nodup_middle, List.nodup_cons, List.mem_append,
        not_or] at h
      exact h.1.1
    rw [List.foldl_cons, extend_of hfield, ih (by simpa using h)]
    simp

/-- Passing over the item of one index is passing over the list without it. -/
theorem foldl_zipIdx_eq {α β : Type} (f : β → α → β) (items : List α) (start removed : Nat)
    (init : β) :
    (items.zipIdx start).foldl (fun b entry => if entry.2 = removed then b else f b entry.1) init =
      (if removed < start then items else items.eraseIdx (removed - start)).foldl f init := by
  induction items generalizing start init with
  | nil => simp
  | cons item items ih =>
    rw [List.zipIdx_cons, List.foldl_cons, ih]
    obtain hlt | rfl | hgt := Nat.lt_trichotomy removed start
    · rw [if_neg (by simp; omega), if_pos (by omega), if_pos hlt, List.foldl_cons]
    · rw [if_pos rfl, if_pos (by omega), if_neg (by omega), Nat.sub_self, List.eraseIdx_cons_zero]
    · obtain ⟨more, rfl⟩ : ∃ more, removed = start + more + 1 := ⟨removed - start - 1, by omega⟩
      rw [if_neg (by simp; omega), if_neg (by omega), if_neg (by omega),
        show start + more + 1 - (start + 1) = more by omega,
        show start + more + 1 - start = more + 1 by omega, List.eraseIdx_cons_succ, List.foldl_cons]

theorem without_of (h : (fields.map FieldInfo.name).Nodup) (index : Nat) :
    (of fields).without index = of (fields.eraseIdx index) := by
  have hkept : ((fields.eraseIdx index).map FieldInfo.name).Nodup :=
    h.sublist ((List.eraseIdx_sublist _ _).map _)
  have hall : (fields.eraseIdx index).foldl extend (of []) = of (fields.eraseIdx index) :=
    foldl_extend_of hkept
  exact (foldl_zipIdx_eq extend fields 0 index empty).trans hall

end FieldMap

/-! ## Methods -/

theorem Indexed.takeItemAt_of_some {α : Type} {items : List α} {index : Nat} {item : α}
    (h : items[index]? = some item) :
    takeItemAt items index = .ok (item, items.eraseIdx index) := by
  rw [takeItemAt, itemAt, h]
  rfl

namespace MethodDictionary

/-- The dictionary of methods. -/
def of (methods : List (Method κ)) : MethodDictionary κ :=
  ⟨methods, placesOf (methods.map Method.name)⟩

variable {methods : List (Method κ)}

theorem getElem?_places_of (methods : List (Method κ)) (name : Symbol) :
    (of methods).places[name]? = methods.findIdx? fun method => method.name == name := by
  rw [of, getElem?_placesOf, List.findIdx?_map]
  rfl

theorem get_of (methods : List (Method κ)) (name : Symbol) :
    (of methods).get name = .ok (methods.find? fun method => method.name == name) := by
  rw [get, getElem?_places_of]
  obtain ⟨hindex, hfind⟩ | ⟨index, method, hindex, hitem, hfind, -⟩ :=
    findIdx?_cases methods fun method => method.name == name
  · rw [hindex, hfind]
  · simp only [hindex, hfind, Indexed.itemAt, of, hitem]
    rfl

theorem insert_of {method : Method κ} (h : method.name ∉ methods.map Method.name) :
    (of methods).insert method = of (methods ++ [method]) := by
  simp [insert, of, placesOf_concat h]

theorem remove_of (h : (methods.map Method.name).Nodup) (name : Symbol) :
    (of methods).remove name =
      .ok (methods.find? (fun method => method.name == name),
        of (methods.eraseP fun method => method.name == name)) := by
  rw [remove, getElem?_places_of]
  obtain ⟨hindex, hfind⟩ | ⟨index, method, hindex, hitem, hfind, herase⟩ :=
    findIdx?_cases methods fun method => method.name == name
  · rw [hindex, hfind, List.eraseP_eq_eraseIdx, hindex]
  · have hname : method.name = name := by simpa using List.find?_some hfind
    have hplaces : countDown ((of methods).places.erase name) index =
        placesOf ((methods.eraseIdx index).map Method.name) := by
      rw [map_eraseIdx]
      exact countDown_placesOf h (by rw [List.getElem?_map, hitem, Option.map_some, hname])
    have htake : Indexed.takeItemAt (of methods).methods index =
        .ok (method, methods.eraseIdx index) := Indexed.takeItemAt_of_some hitem
    simp only [hindex, hfind, herase, htake, hplaces]
    rfl

end MethodDictionary

/-! ## The containers of a storage -/

namespace Storage

variable {storage : Storage κ}

/-- The containers in which the lists are kept. -/
def indexed (storage : Storage κ) : IndexedStorage κ :=
  { layoutIdentity := storage.layoutIdentity
    map := .of storage.layout.fields
    values := storage.values
    methods := .of storage.methods
    custom := storage.custom }

/-- The outcome on the containers. -/
def indexedResult {α : Type} : EStateM.Result Halt (Storage κ) α →
    EStateM.Result Halt (IndexedStorage κ) α
  | .ok answer storage => .ok answer storage.indexed
  | .error reason storage => .error reason storage.indexed

theorem fieldIndex?_indexed (storage : Storage κ) (name : Symbol) :
    storage.indexed.fieldIndex? name = storage.fieldIndex? name := by
  simp only [IndexedStorage.fieldIndex?, FieldMap.place?, indexed, FieldMap.of,
    getElem?_placesOf, layout, List.map_map, List.findIdx?_map, fieldIndex?]
  rfl

theorem hasSlot_indexed (storage : Storage κ) (name : Symbol) :
    storage.indexed.hasSlot name = storage.hasSlot name := by
  rw [Bool.eq_iff_iff, hasSlot_iff, names_eq]
  have hfield : (storage.indexed.map.place? name).isSome = true ↔ name ∈ storage.namesOf .field := by
    have hindex := fieldIndex?_indexed storage name
    rw [IndexedStorage.fieldIndex?] at hindex
    simp [hindex, fieldIndex?, namesOf]
  have hmethod : storage.indexed.methods.contains name = true ↔ name ∈ storage.namesOf .method :=
    contains_placesOf
  have hcustom : (storage.indexed.customIndex? name).isSome = true ↔
      name ∈ storage.namesOf .custom := by
    simp [IndexedStorage.customIndex?, indexed, namesOf]
  rw [IndexedStorage.hasSlot, Bool.or_eq_true, Bool.or_eq_true, hfield, hmethod, hcustom,
    List.mem_append, List.mem_append]

end Storage

/-! ## The operations on the containers, one by one -/

namespace IndexedStorage

variable {storage : IndexedStorage κ}

theorem run_map {α β : Type} {change : Change κ α} {answer : α} {after : IndexedStorage κ}
    (h : change.run storage = .ok answer after) (f : α → β) :
    (f <$> change).run storage = .ok (f answer) after := by
  have hchange : change storage = .ok answer after := h
  change EStateM.map f change storage = _
  rw [EStateM.map, hchange]

theorem run_checkFree (storage : IndexedStorage κ) (name : Symbol) :
    (checkFree name).run storage =
      if storage.hasSlot name then .error (.raised (.duplicateSlot name)) storage
      else .ok () storage := by
  simp [checkFree]
  split <;> rfl

theorem run_putField (fresh : Identity) {field : Field κ} {map : FieldMap}
    (hfree : storage.hasSlot field.name = false)
    (hput : storage.map.put field.toFieldInfo = .ok (storage.values.length, map)) :
    (putField fresh field).run storage = .ok storage.values.length
      { storage with
        layoutIdentity := fresh, map, values := storage.values ++ [field.value] } := by
  simp only [putField, EStateM.run_bind, EStateM.run_get, EStateM.run_modify, run_checkFree, hfree, hput,
    orStop, Except.mapError, EStateM.run_pure, Bool.false_eq_true, if_false, ne_eq, not_true_eq_false]

theorem run_addMethod {method : Method κ} (hfree : storage.hasSlot method.name = false) :
    (addMethod method).run storage =
      .ok () { storage with methods := storage.methods.insert method } := by
  simp [addMethod, run_checkFree, hfree]

theorem run_addCustom {field : CustomField κ} (hfree : storage.hasSlot field.name = false) :
    (addCustom field).run storage =
      .ok () { storage with custom := storage.custom ++ [field] } := by
  simp [addCustom, run_checkFree, hfree]

/-- A name that is taken stops every insertion before anything is changed. -/
theorem perform_insert_of_hasSlot {entry : Entry κ} (h : storage.hasSlot entry.name = true)
    (fresh : Identity) :
    storage.perform (.insert fresh entry) =
      .error (.raised (.duplicateSlot entry.name)) storage := by
  cases entry with
  | field field =>
    have hslot : storage.hasSlot field.name = true := h
    simp [perform, change, putField, run_checkFree, hslot, Entry.name]
  | method method =>
    have hslot : storage.hasSlot method.name = true := h
    simp [perform, change, addMethod, run_checkFree, hslot, Entry.name]
  | custom field =>
    have hslot : storage.hasSlot field.name = true := h
    simp [perform, change, addCustom, run_checkFree, hslot, Entry.name]

theorem run_removeField_of_none {name : Symbol} (fresh : Identity)
    (h : storage.map.place? name = none) :
    (removeField fresh name).run storage = .ok none storage := by
  simp [removeField, h]

theorem run_removeField {name : Symbol} (fresh : Identity) {index : Nat} {value : Value κ}
    (h : storage.map.place? name = some index) (hvalue : storage.values[index]? = some value) :
    (removeField fresh name).run storage = .ok (some value)
      { storage with
        layoutIdentity := fresh
        map := storage.map.without index
        values := storage.values.eraseIdx index } := by
  simp only [removeField, EStateM.run_bind, EStateM.run_get, EStateM.run_modify, h,
    Indexed.takeItemAt_of_some hvalue, orStop]
  rfl

theorem run_removeMethod {name : Symbol} {method : Option (Method κ)}
    {methods : MethodDictionary κ} (h : storage.methods.remove name = .ok (method, methods)) :
    (removeMethod name).run storage = .ok method { storage with methods } := by
  simp only [removeMethod, EStateM.run_bind, EStateM.run_get, h, orStop]
  rfl

theorem run_removeCustom_of_none {name : Symbol} (h : storage.customIndex? name = none) :
    (removeCustom name).run storage = .ok none storage := by
  simp [removeCustom, h]

theorem run_removeCustom {name : Symbol} {index : Nat} {field : CustomField κ}
    (h : storage.customIndex? name = some index) (hfield : storage.custom[index]? = some field) :
    (removeCustom name).run storage =
      .ok (some field.field) { storage with custom := storage.custom.eraseIdx index } := by
  simp only [removeCustom, EStateM.run_bind, EStateM.run_get, h, Indexed.takeItemAt_of_some hfield, orStop]
  rfl

theorem run_write {index : Nat} (value : Value κ) (h : index < storage.values.length) :
    (write index value).run storage =
      .ok () { storage with values := storage.values.set index value } := by
  simp [write, Indexed.withItemAt, h, orStop]

theorem perform_write_of_some {name : Symbol} {index : Nat} (value : Value κ)
    (hindex : storage.fieldIndex? name = some index) (h : index < storage.values.length) :
    storage.perform (.write name value) =
      .ok .done { storage with values := storage.values.set index value } := by
  simp only [perform, change, EStateM.run_bind, EStateM.run_get, hindex]
  exact run_map (run_write value h) _

end IndexedStorage

/-! ## The operations on the containers of a storage -/

namespace Storage

variable {storage : Storage κ}

theorem names_layout (storage : Storage κ) :
    storage.layout.fields.map FieldInfo.name = storage.namesOf .field := by
  simp [layout, namesOf, Function.comp_def]

private theorem perform_indexed_insert (fresh : Identity) (entry : Entry κ) :
    storage.indexed.perform (.insert fresh entry) =
      indexedResult (storage.perform (.insert fresh entry)) := by
  have hdoes := does_perform storage (.insert fresh entry)
  generalize storage.perform (.insert fresh entry) = result at hdoes ⊢
  have hfree {name : Symbol} (h : name ∉ storage.names) : storage.indexed.hasSlot name = false := by
    rw [hasSlot_indexed]
    exact Bool.eq_false_iff.mpr fun hslot => h (hasSlot_iff.mp hslot)
  cases hdoes with
  | taken h =>
    have hslot := (hasSlot_indexed storage entry.name).trans (hasSlot_iff.mpr h)
    exact IndexedStorage.perform_insert_of_hasSlot hslot fresh
  | @insertField _ field h =>
    have hnew : field.name ∉ storage.layout.fields.map FieldInfo.name := by
      rw [names_layout]
      exact fun hmem => h (mem_names_iff.mpr ⟨_, hmem⟩)
    have hlength : storage.layout.fields.length = storage.indexed.values.length := by
      simp [layout, indexed, values]
    have hput := FieldMap.put_of hnew
    rw [hlength] at hput
    have hrun := IndexedStorage.run_putField fresh (hfree h) hput
    refine (IndexedStorage.run_map hrun _).trans ?_
    simp [indexedResult, indexed, layout, values]
  | @insertMethod _ method h =>
    have hnew : method.name ∉ storage.methods.map Method.name :=
      fun hmem => h (mem_names_iff.mpr ⟨.method, hmem⟩)
    refine (IndexedStorage.run_map (IndexedStorage.run_addMethod (hfree h)) _).trans ?_
    simp [indexedResult, indexed, layout, values, MethodDictionary.insert_of hnew]
  | insertCustom h =>
    refine (IndexedStorage.run_map (IndexedStorage.run_addCustom (hfree h)) _).trans ?_
    simp [indexedResult, indexed, layout, values]

private theorem perform_indexed_remove (hnodup : storage.names.Nodup) (fresh : Identity)
    (kind : SlotKind) (name : Symbol) :
    storage.indexed.perform (.remove fresh kind name) =
      indexedResult (storage.perform (.remove fresh kind name)) := by
  cases kind with
  | field =>
    have hplace := fieldIndex?_indexed storage name
    rw [IndexedStorage.fieldIndex?] at hplace
    obtain ⟨hindex, hfind⟩ | ⟨index, field, hindex, hitem, hfind, herase⟩ :=
      findIdx?_cases storage.fields fun field => field.name == name
    · have hrun := IndexedStorage.run_removeField_of_none fresh (hplace.trans hindex)
      refine (IndexedStorage.run_map hrun _).trans ?_
      simp only [perform, removeField?, field?, hfind]
      rfl
    · have hvalue : storage.indexed.values[index]? = some field.value := by
        simp [indexed, values, hitem]
      have hrun := IndexedStorage.run_removeField fresh (hplace.trans hindex) hvalue
      have hlayout : (storage.layout.fields.map FieldInfo.name).Nodup :=
        names_layout storage ▸ nodup_namesOf hnodup .field
      have hmap : storage.indexed.map.without index =
          FieldMap.of (storage.layout.fields.eraseIdx index) :=
        FieldMap.without_of hlayout index
      refine (IndexedStorage.run_map hrun _).trans ?_
      rw [hmap]
      simp only [perform, removeField?, field?, hfind, Option.map_some, removeWith, herase,
        indexedResult, indexed, layout, values, map_eraseIdx]
  | method =>
    have hremove := MethodDictionary.remove_of (nodup_namesOf hnodup .method) name
    refine (IndexedStorage.run_map (IndexedStorage.run_removeMethod hremove) _).trans ?_
    simp only [perform, removeMethod?, method?]
    obtain ⟨hindex, hfind⟩ | ⟨index, method, hindex, hitem, hfind, -⟩ :=
      findIdx?_cases storage.methods fun method => method.name == name
    · simp only [hfind, List.eraseP_eq_eraseIdx, hindex]
      rfl
    · simp only [hfind]
      rfl
  | custom =>
    obtain ⟨hindex, hfind⟩ | ⟨index, field, hindex, hitem, hfind, herase⟩ :=
      findIdx?_cases storage.custom fun field => field.name == name
    · have hcustom : storage.indexed.customIndex? name = none := hindex
      refine (IndexedStorage.run_map (IndexedStorage.run_removeCustom_of_none hcustom) _).trans ?_
      simp only [perform, removeCustom?, custom?, hfind]
      rfl
    · have hcustom : storage.indexed.customIndex? name = some index := hindex
      refine (IndexedStorage.run_map (IndexedStorage.run_removeCustom hcustom hitem) _).trans ?_
      simp only [perform, removeCustom?, custom?, hfind, Option.map_some, removeWith, herase]
      rfl

theorem indexed_write {index : Nat} {value : Value κ} {written : Storage κ}
    (h : storage.write? index value = some written) :
    written.indexed =
      { storage.indexed with values := storage.indexed.values.set index value } := by
  have hlayout := layout_write h
  obtain ⟨field, -, rfl⟩ := write?_eq_some_iff.mp h
  rw [indexed, hlayout]
  simp only [indexed, values, List.map_set]

private theorem perform_indexed_write (name : Symbol) (value : Value κ) :
    storage.indexed.perform (.write name value) =
      indexedResult (storage.perform (.write name value)) := by
  have hindexed := fieldIndex?_indexed storage name
  cases hindex : storage.fieldIndex? name with
  | none =>
    simp [IndexedStorage.perform, IndexedStorage.change, hindexed, hindex, perform, indexedResult]
  | some index =>
    obtain ⟨hlt, -⟩ := List.findIdx?_eq_some_iff_getElem.mp hindex
    have hvalues : index < storage.indexed.values.length := by simpa [indexed, values] using hlt
    obtain ⟨written, hwrite⟩ : ∃ written, storage.write? index value = some written :=
      ⟨_, write?_eq_some_iff.mpr ⟨_, List.getElem?_eq_getElem hlt, rfl⟩⟩
    simp only [perform, hindex, hwrite, indexedResult, indexed_write hwrite]
    exact IndexedStorage.perform_write_of_some value (hindexed.trans hindex) hvalues

/-- An operation on the containers gives the containers of what it gives on the lists. -/
theorem perform_indexed (hnodup : storage.names.Nodup) (operation : SlotOperation κ) :
    storage.indexed.perform operation = indexedResult (storage.perform operation) := by
  cases operation with
  | insert fresh entry => exact perform_indexed_insert fresh entry
  | remove fresh kind name => exact perform_indexed_remove hnodup fresh kind name
  | write name value => exact perform_indexed_write name value
  | clone => rfl

theorem performAll_indexed (hnodup : storage.names.Nodup) (operations : List (SlotOperation κ)) :
    performAll IndexedStorage.perform storage.indexed operations =
      ((performAll perform storage operations).1,
        (performAll perform storage operations).2.indexed) := by
  induction operations generalizing storage with
  | nil => rfl
  | cons operation operations ih =>
    have hnext := (does_perform storage operation).nodup hnodup
    rw [performAll, performAll, perform_indexed hnodup]
    generalize storage.perform operation = result at hnext ⊢
    cases result with
    | ok answer next => simp only [indexedResult, ih (show next.names.Nodup from hnext)]
    | error reason next => simp only [indexedResult, ih (show next.names.Nodup from hnext)]

/-- No call on the lists stops but at a name that is taken. -/
theorem Does.error {operation : SlotOperation κ} {reason : Halt} {after : Storage κ}
    (h : storage.Does operation (.error reason after)) :
    ∃ name, reason = .raised (.duplicateSlot name) := by
  cases h
  exact ⟨_, rfl⟩

theorem error_of_performAll {operations : List (SlotOperation κ)} {reason : Halt}
    (h : .error reason ∈ (performAll perform storage operations).1) :
    ∃ name, reason = .raised (.duplicateSlot name) := by
  induction operations generalizing storage with
  | nil => cases h
  | cons operation operations ih =>
    have hdoes := does_perform storage operation
    rw [performAll] at h
    generalize storage.perform operation = result at hdoes h
    cases result with
    | ok answer after =>
      obtain h | h := List.mem_cons.mp h
      · cases h
      · exact ih h
    | error reason after =>
      obtain h | h := List.mem_cons.mp h
      · cases h
        exact hdoes.error
      · exact ih h

end Storage

/-! ## Aligned containers -/

namespace IndexedStorage

/-- All names of slots: of the fields, the methods and the custom fields. -/
def names (storage : IndexedStorage κ) : List Symbol :=
  storage.map.fields.map FieldInfo.name ++ storage.methods.methods.map Method.name ++
    storage.custom.map CustomField.name

/-- The containers are aligned: maps and vectors are inverse, and names stand apart. -/
structure Aligned (storage : IndexedStorage κ) : Prop where
  values_length : storage.values.length = storage.map.fields.length
  fields_inverse : ∀ (name : Symbol) (index : Nat), storage.map.places[name]? = some index ↔
    (storage.map.fields.map FieldInfo.name)[index]? = some name
  methods_inverse : ∀ (name : Symbol) (index : Nat), storage.methods.places[name]? = some index ↔
    (storage.methods.methods.map Method.name)[index]? = some name
  names_nodup : storage.names.Nodup

/-- The same slots; the layouts may have different identities. -/
def SameSlots (a b : IndexedStorage κ) : Prop :=
  a.map = b.map ∧ a.values = b.values ∧ a.methods = b.methods ∧ a.custom = b.custom

end IndexedStorage

namespace Storage

variable {storage : Storage κ}

theorem aligned_indexed (hnodup : storage.names.Nodup) : storage.indexed.Aligned where
  values_length := by simp [indexed, values, FieldMap.of, layout]
  fields_inverse name index := by
    have hnames := nodup_namesOf hnodup .field
    rw [← names_layout] at hnames
    exact getElem?_placesOf_iff hnames
  methods_inverse name index := getElem?_placesOf_iff (nodup_namesOf hnodup .method)
  names_nodup := by
    rw [names_eq, ← names_layout] at hnodup
    exact hnodup

theorem SameSlots.indexed {a b : Storage κ} (h : a.SameSlots b) :
    a.indexed.SameSlots b.indexed := by
  obtain ⟨identity, rfl⟩ := h
  exact ⟨rfl, rfl, rfl, rfl⟩

end Storage

/-! ## Lookups -/

namespace Storage

theorem method?_indexed (storage : Storage κ) (name : Symbol) :
    storage.indexed.method? name = .ok (storage.method? name) :=
  MethodDictionary.get_of storage.methods name

theorem custom?_indexed (storage : Storage κ) (name : Symbol) :
    storage.indexed.custom? name = .ok (storage.custom? name) := by
  obtain ⟨hindex, hfind⟩ | ⟨index, field, hindex, hitem, hfind, -⟩ :=
    findIdx?_cases storage.custom fun field => field.name == name
  · have hcustom : storage.indexed.customIndex? name = none := hindex
    rw [IndexedStorage.custom?, hcustom, custom?, hfind]
    rfl
  · have hcustom : storage.indexed.customIndex? name = some index := hindex
    have hget : storage.indexed.custom[index]? = some field := hitem
    simp only [IndexedStorage.custom?, hcustom, Indexed.itemAt, hget, custom?, hfind]
    rfl

/-- A field is at the index its name is found at, and so is its value. -/
theorem read_indexed {storage : Storage κ} {name : Symbol} {index : Nat}
    (h : storage.indexed.fieldIndex? name = some index) :
    ∃ field, storage.fields[index]? = some field ∧ field.name = name ∧
      storage.indexed.fieldInfo index = .ok field.toFieldInfo ∧
      storage.indexed.read index = .ok field.value := by
  rw [fieldIndex?_indexed] at h
  obtain ⟨hlt, hname, -⟩ := List.findIdx?_eq_some_iff_getElem.mp h
  have hfield := List.getElem?_eq_getElem hlt
  refine ⟨_, hfield, by simpa using hname, ?_, ?_⟩
  · simp [IndexedStorage.fieldInfo, FieldMap.info, indexed, FieldMap.of, layout, Indexed.itemAt,
      hfield]
  · simp [IndexedStorage.read, indexed, values, Indexed.itemAt, hfield]

end Storage

/-! ## Every sequence of operations -/

theorem indexed_empty (identity : Identity) :
    (Storage.empty identity : Storage κ).indexed = .empty identity := rfl

/-- **Indexed storage refines three ordered lists that share their names.**

Whatever is done from an empty storage on, the calls answer on the containers what they
answer on the lists, and fail only because a name is taken; the containers that are left are
those of the lists that are left, and aligned.  There each further operation does what it says,
on the lists and on the containers; an insertion of a name that is taken changes nothing; every
lookup answers without stopping; and adding a slot, operating on other names and removing the
slot again leaves what operating on the other names leaves. -/
theorem IndexedStorage.refines_lists (identity : Identity) (operations : List (SlotOperation κ)) :
    ∃ answers storage,
      performAll Storage.perform (Storage.empty identity) operations = (answers, storage) ∧
      performAll IndexedStorage.perform (IndexedStorage.empty identity) operations =
        (answers, storage.indexed) ∧
      (∀ reason, .error reason ∈ answers → ∃ name, reason = .raised (.duplicateSlot name)) ∧
      storage.indexed.Aligned ∧
      (∀ operation, storage.Does operation (storage.perform operation) ∧
        storage.indexed.perform operation = Storage.indexedResult (storage.perform operation)) ∧
      (∀ fresh entry, storage.indexed.hasSlot entry.name = true →
        storage.indexed.perform (.insert fresh entry) =
          .error (.raised (.duplicateSlot entry.name)) storage.indexed) ∧
      (∀ name,
        (storage.indexed.hasSlot name = true ↔ name ∈ storage.names) ∧
        storage.indexed.method? name = .ok (storage.method? name) ∧
        storage.indexed.custom? name = .ok (storage.custom? name) ∧
        ∀ index, storage.indexed.fieldIndex? name = some index →
          ∃ field, storage.fields[index]? = some field ∧ field.name = name ∧
            storage.indexed.fieldInfo index = .ok field.toFieldInfo ∧
            storage.indexed.read index = .ok field.value) ∧
      ∀ fresh fresh' entry others, storage.indexed.hasSlot entry.name = false →
        (∀ operation ∈ others, operation.name? ≠ some entry.name) →
        (performAll IndexedStorage.perform storage.indexed
          (.insert fresh entry :: others ++ [.remove fresh' entry.kind entry.name])).2.SameSlots
          (performAll IndexedStorage.perform storage.indexed others).2 := by
  have hempty : (Storage.empty identity : Storage κ).names.Nodup := List.nodup_nil
  have hnodup := Storage.nodup_performAll hempty operations
  refine ⟨_, _, rfl, indexed_empty identity ▸ Storage.performAll_indexed hempty operations,
    fun reason h => Storage.error_of_performAll h, Storage.aligned_indexed hnodup,
    fun operation => ⟨Storage.does_perform _ operation, Storage.perform_indexed hnodup operation⟩,
    fun fresh entry h => IndexedStorage.perform_insert_of_hasSlot h fresh, fun name => ⟨?_, ?_, ?_, ?_⟩,
    fun fresh fresh' entry others hfree hothers => ?_⟩
  · rw [Storage.hasSlot_indexed]
    exact Storage.hasSlot_iff
  · exact Storage.method?_indexed _ name
  · exact Storage.custom?_indexed _ name
  · exact fun index h => Storage.read_indexed h
  · rw [Storage.performAll_indexed hnodup, Storage.performAll_indexed hnodup]
    rw [Storage.hasSlot_indexed] at hfree
    refine (Storage.performAll_insert_remove hnodup fresh fresh' ?_ hothers).indexed
    exact Storage.not_mem_names (by simp [hfree])

end Prototypes
