import Prototypes.Proofs.Safety.Parts
import Prototypes.Semantics.Defaults

/-!
# Checks

What stands between data and its use are checks: of the kind of a value, of the number
of arguments, of a name that may be taken.  None of them fails with an internal error,
and what they answer was held by what they are given (`Yields`).
-/

namespace Prototypes

variable {κ : Type}

/-- Only the host can have got it wrong. -/
def RuntimeError.isInternal : RuntimeError → Bool
  | internal _ => true
  | _ => false

/-- The check raises no internal error, and what it answers was held already. -/
structure Yields {α : Type} [Answer κ α] (held : List (Part κ)) (check : Except RuntimeError α) :
    Prop where
  answer : ∀ {answer}, check = .ok answer → partsOf answer ⊆ held
  error : ∀ {error}, check = .error error → error.isInternal = false

namespace Yields

variable {α β : Type} [Answer κ α] [Answer κ β] {held : List (Part κ)}

theorem ok {answer : α} (h : partsOf answer ⊆ held) : Yields held (.ok answer) where
  answer hanswer := by cases hanswer; exact h
  error herror := by cases herror

theorem fails {error : RuntimeError} (h : error.isInternal = false) :
    Yields (α := α) held (.error error) where
  answer hanswer := by cases hanswer
  error herror := by cases herror; exact h

theorem bind {check : Except RuntimeError α} {next : α → Except RuntimeError β}
    (h : Yields held check) (hnext : ∀ answer, partsOf answer ⊆ held → Yields held (next answer)) :
    Yields held (check >>= next) := by
  cases check with
  | ok answer => exact hnext answer (h.answer rfl)
  | error error => exact fails (h.error rfl)

theorem map {check : Except RuntimeError α} {f : α → β} (h : Yields held check)
    (hf : ∀ answer, partsOf answer ⊆ held → partsOf (f answer) ⊆ held) : Yields held (f <$> check) := by
  cases check with
  | ok answer => exact ok (hf answer (h.answer rfl))
  | error error => exact fails (h.error rfl)

theorem mono {check : Except RuntimeError α} {more : List (Part κ)} (h : Yields held check)
    (hsub : held ⊆ more) : Yields more check where
  answer hanswer := List.Subset.trans (h.answer hanswer) hsub
  error := h.error

end Yields

namespace Value

variable (what : String) (value : Value κ)

theorem yields_expectObject : Yields value.parts (value.expectObject what) := by
  cases value <;> first | exact .fails rfl | exact .ok (List.Subset.refl _)

theorem yields_expectSymbol {held : List (Part κ)} : Yields held (value.expectSymbol what) := by
  cases value <;> first | exact .fails rfl | exact .ok (List.nil_subset _)

theorem yields_expectBool {held : List (Part κ)} : Yields held (value.expectBool what) := by
  cases value <;> first | exact .fails rfl | exact .ok (List.nil_subset _)

theorem yields_expectTable : Yields value.parts (value.expectTable what) := by
  cases value <;> first | exact .fails rfl | exact .ok (List.Subset.refl _)

theorem yields_expectClosure : Yields value.parts (value.expectClosure what) := by
  cases value <;> first | exact .fails rfl | exact .ok (List.Subset.refl _)

theorem yields_expectMethod : Yields value.parts (value.expectMethod what) := by
  cases value <;> first | exact .fails rfl | exact .ok (List.Subset.refl _)

theorem yields_expectTypeTag {held : List (Part κ)} : Yields held (value.expectTypeTag what) := by
  cases value <;> first | exact .fails rfl | exact .ok (List.nil_subset _)

theorem yields_expectContext : Yields value.parts (value.expectContext what) := by
  cases value <;> first | exact .fails rfl | exact .ok (List.Subset.refl _)

end Value

/-! ## Arguments -/

namespace Message

variable {held : List (Part κ)}

private theorem yields_ofSelector {message : Symbol → Message κ}
    (hparts : ∀ selector, (message selector).parts = []) (value : Value κ) :
    Yields held (ofSelector message value) :=
  .map (value.yields_expectSymbol _) fun selector _ => by
    show (message selector).parts ⊆ held
    rw [hparts]
    exact List.nil_subset held

private theorem yields_ofAssignment {message : Symbol → Value κ → Message κ} {value : Value κ}
    (hparts : ∀ selector, (message selector value).parts = value.parts) (selector : Value κ)
    (hvalue : value.parts ⊆ held) : Yields held (ofAssignment message selector value) :=
  .bind (selector.yields_expectSymbol _) fun selector _ => .ok (by
    show (message selector value).parts ⊆ held
    rwa [hparts])

/-- Reading the arguments of an operation. -/
theorem yields_read (op : MetaOp) (arguments : List (Value κ)) :
    Yields (Value.partsOfAll arguments) (read op arguments) := by
  have htable (value : Value κ) {held : List (Part κ)} (h : value.parts ⊆ held) :
      Yields held (readTable value) := (value.yields_expectTable _).mono h
  have hselector (value : Value κ) {held : List (Part κ)} : Yields held (readSelector value) :=
    value.yields_expectSymbol _
  have hone (value : Value κ) : value.parts ⊆ Value.partsOfAll [value] := by simp [Value.partsOfAll]
  have htwo (first second : Value κ) : second.parts ⊆ Value.partsOfAll [first, second] := by
    simp [Value.partsOfAll]
  unfold read
  split
  -- the three that look at a table
  case h_1 receiver selector table =>
    refine .bind (hselector selector) fun selector _ => ?_
    refine .bind (htable table (by simp [Value.partsOfAll])) fun items hitems => .ok ?_
    simpa [Message.parts, Value.partsOfAll] using hitems
  case h_4 selector table =>
    exact .bind (htable table (htwo selector table)) fun items hitems =>
      .bind (hselector selector) fun selector _ => .ok hitems
  case h_9 table => exact .map (htable table (hone table)) fun items hitems => hitems
  case h_2 receiver selector =>
    refine .bind (hselector selector) fun selector _ => .ok ?_
    simp [Message.parts, Value.partsOfAll]
  case h_5 selector value | h_6 selector value | h_7 selector value =>
    exact yields_ofAssignment (fun _ => rfl) selector (htwo selector value)
  case h_31 tag => exact .map (tag.yields_expectTypeTag _) fun tag _ => List.nil_subset _
  all_goals first
    | exact yields_ofSelector (fun _ => rfl) _
    | exact .ok (List.nil_subset _)
    | exact .ok (hone _)
    | exact .fails rfl

end Message

/-- What mirrors have promised to answer. -/
theorem Value.yields_promised (op : MetaOp) (value : Value κ) :
    Yields value.parts (value.promised op) := by
  have hself : Yields value.parts (.ok value) := .ok (List.Subset.refl _)
  have hbool : Yields value.parts (do discard <| value.expectBool op.name; return value) :=
    .bind (α := Unit) (.map (value.yields_expectBool _) fun _ h => h) fun _ _ => hself
  have htable : Yields value.parts (do discard <| value.expectTable op.name; return value) :=
    .bind (α := Unit) (.map (value.yields_expectTable _) fun _ _ => List.nil_subset _) fun _ _ => hself
  cases op with
  | isCloneOf | isRelatedTo | respondsTo | isTaggedAs => exact hbool
  | listFields | listMethods | listSlots | typeTags => exact htable
  | print =>
    cases value with
    | text s => exact hself
    | symbol s => exact .ok (List.nil_subset _)
    | _ => exact .fails rfl
  | _ => exact hself

namespace Method

variable {method : Method κ} {rest : Identity} {arguments : List (Value κ)}

/-- What parameters are bound to are the arguments. -/
theorem parts_pair (rest : Identity) (parameters : List Parameter) (arguments : List (Value κ)) :
    partsOf (pair rest parameters arguments) ⊆ Value.partsOfAll arguments := by
  fun_induction pair rest parameters arguments with
  | case1 name more value values ih =>
    exact List.append_subset.mpr
      ⟨List.subset_append_left _ _, List.Subset.trans ih (List.subset_append_right _ _)⟩
  | case2 name more values ih =>
    exact List.append_subset.mpr
      ⟨List.Subset.refl _, List.Subset.trans ih (Value.partsOfAll_mono (List.tail_sublist values).subset)⟩
  | case3 => exact List.nil_subset _

theorem yields_bindArguments (method : Method κ) (rest : Identity) (arguments : List (Value κ)) :
    Yields (Value.partsOfAll arguments) (method.bindArguments rest arguments) := by
  unfold bindArguments
  split
  · exact .ok (parts_pair rest method.parameters arguments)
  · exact .fails rfl

theorem accepts_of_bindArguments {bindings : List (Symbol × Value κ)}
    (h : method.bindArguments rest arguments = .ok bindings) :
    method.arity.accepts arguments.length = true := by
  unfold bindArguments at h
  split at h
  · assumption
  · cases h

end Method

/-! ## Slots that are put in or taken out -/

namespace Storage

variable {storage after : Storage κ}

/-- One storage comes from another: it holds besides no more than is listed, and no name twice. -/
structure Follows (storage : Storage κ) (added : List (Part κ)) (after : Storage κ) : Prop where
  parts : after.parts ⊆ added ++ storage.parts
  names : storage.names.Nodup → after.names.Nodup

private theorem follows_of_perform {operation : SlotOperation κ} {answer : SlotAnswer κ}
    (h : storage.perform operation = .ok answer after) :
    storage.Follows operation.parts after ∧ answer.parts ⊆ storage.parts := by
  have hdoes := storage.does_perform operation
  rw [h] at hdoes
  exact ⟨⟨hdoes.parts_subset, hdoes.nodup⟩, hdoes.answer_subset⟩

/-- Something is added to a storage, or fails to be for its name. -/
structure Inserts (storage : Storage κ) (added : List (Part κ))
    (changed : Except RuntimeError (Storage κ)) : Prop where
  follows : ∀ {after}, changed = .ok after → storage.Follows added after
  error : ∀ {error}, changed = .error error → error.isInternal = false

private theorem inserts_of_perform (fresh : Identity) (entry : Entry κ) {answer : SlotAnswer κ}
    {changed : Except RuntimeError (Storage κ)}
    (h : storage.perform (.insert fresh entry) = storage.insertWith answer changed) :
    storage.Inserts entry.parts changed where
  follows hchanged := by
    rw [hchanged] at h
    exact (follows_of_perform h).1
  error hchanged := by
    have hdoes := storage.does_perform (.insert fresh entry)
    rw [h, hchanged, insertWith] at hdoes
    cases hdoes
    rfl

theorem inserts_putField (storage : Storage κ) (fresh : Identity) (field : Field κ) :
    storage.Inserts field.value.parts (storage.putField fresh field) :=
  inserts_of_perform fresh (.field field) rfl

theorem inserts_addMethod (storage : Storage κ) (method : Method κ) :
    storage.Inserts method.parts (storage.addMethod method) :=
  inserts_of_perform default (.method method) rfl

theorem inserts_addCustom (storage : Storage κ) (field : CustomField κ) :
    storage.Inserts field.field.parts (storage.addCustom field) :=
  inserts_of_perform default (.custom field) rfl

/-- What is taken out was held, and what is left follows from the storage. -/
private theorem follows_of_remove {α : Type} (fresh : Identity) (kind : SlotKind)
    (answer : Option α → SlotAnswer κ) {name : Symbol} {removed : α}
    (h : storage.perform (.remove fresh kind name) =
      storage.removeWith answer (some (removed, after))) :
    (answer (some removed)).parts ⊆ storage.parts ∧ storage.Follows [] after :=
  (follows_of_perform h).symm

theorem follows_removeField {fresh : Identity} {name : Symbol} {value : Value κ}
    (h : storage.removeField? fresh name = some (value, after)) :
    value.parts ⊆ storage.parts ∧ storage.Follows [] after :=
  follows_of_remove fresh .field .value (by rw [← h]; rfl)

theorem follows_removeMethod {name : Symbol} {method : Method κ}
    (h : storage.removeMethod? name = some (method, after)) :
    method.parts ⊆ storage.parts ∧ storage.Follows [] after :=
  follows_of_remove default .method .method (by rw [← h]; rfl)

theorem follows_removeCustom {name : Symbol} {value : Value κ}
    (h : storage.removeCustom? name = some (value, after)) :
    value.parts ⊆ storage.parts ∧ storage.Follows [] after :=
  follows_of_remove default .custom .value (by rw [← h]; rfl)

/-- A field found by its name is there. -/
theorem exists_read_of_fieldIndex? {name : Symbol} {index : Nat}
    (h : storage.fieldIndex? name = some index) : ∃ value, storage.read? index = some value := by
  obtain ⟨hlt, -⟩ := List.findIdx?_eq_some_iff_getElem.mp h
  exact ⟨storage.fields[index].value, by simp [read?, hlt]⟩

theorem exists_write_of_fieldSlot? {name : Symbol} {index : Nat} {writable : Bool}
    (h : storage.fieldSlot? name = some (index, writable)) (value : Value κ) :
    ∃ after, storage.fieldIndex? name = some index ∧ storage.write? index value = some after := by
  obtain ⟨hindex, field, hfield, -⟩ := fieldSlot?_eq_some_iff.mp h
  exact ⟨_, hindex, write?_eq_some_iff.mpr ⟨field, hfield, rfl⟩⟩

theorem follows_write {name : Symbol} {index : Nat} {value : Value κ}
    (hindex : storage.fieldIndex? name = some index) (h : storage.write? index value = some after) :
    storage.Follows value.parts after := by
  have hdone : storage.perform (.write name value) = .ok .done after := by
    simp only [perform, hindex, h]
  exact (follows_of_perform hdone).1

theorem follows_cloneLayout (storage : Storage κ) : storage.Follows [] storage.cloneLayout := by
  have hdone : storage.perform .clone = .ok (.behind storage.custom) storage.cloneLayout := rfl
  exact (follows_of_perform hdone).1

end Storage

end Prototypes
