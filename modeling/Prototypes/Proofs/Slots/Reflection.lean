import Prototypes.Proofs.Delegation.Plain
import Prototypes.Proofs.Scopes.Lookups
import Prototypes.Proofs.Slots.AllOrNothing
import Prototypes.Proofs.Slots.Omission

/-!
# Slots listed, and added to another object

The slots of an object are listed as values: a method is its own value, a field is a reference to
it.  A reference that is added to another object is read for it, where the field is; what the other
object gets is a field of its own with the same name, value and flag.  So the listed slots, added
one after the other to an object that has none of their names, make it have the slots of the first
object besides its own, and from then on the two objects have nothing to do with each other.

## Main results

* `Storage.receiving` — slots, with more of them behind.
* `World.Receives` — the worlds along the additions.
* `Runtime.addSlots_of_new`, `Runtime.addSlots_of_taken` — how far they get.
* `World.Reslotted.others` — changing the slots of some objects changes no other node, by induction
  on the changes.
* `Runtime.listed_slots_added` — the round trip, from any well-formed world.
-/

namespace Prototypes

variable {κ σ α : Type}

/-! ## Slots as values -/

namespace Entry

/-- The value as which a slot of a node is listed. -/
def asValue (holder : ObjectId) : Entry κ → Value κ
  | field entry => .field ⟨holder, entry.name⟩
  | method entry => .method entry
  | custom entry => entry.field

def field? : Entry κ → Option (Field κ)
  | field entry => some entry
  | _ => none

def method? : Entry κ → Option (Method κ)
  | method entry => some entry
  | _ => none

def custom? : Entry κ → Option (CustomField κ)
  | custom entry => some entry
  | _ => none

/-- A name that occurs is that of a slot of one of the three kinds. -/
theorem mem_names_iff {entries : List (Entry κ)} {selector : Symbol} :
    selector ∈ entries.map name ↔
      selector ∈ (entries.filterMap field?).map (fun field => field.name) ∨
        selector ∈ (entries.filterMap method?).map Method.name ∨
        selector ∈ (entries.filterMap custom?).map CustomField.name := by
  induction entries with
  | nil => simp
  | cons entry entries ih =>
    rw [List.map_cons, List.mem_cons, ih]
    cases entry <;>
      simp only [List.filterMap_cons, field?, method?, custom?, name, List.map_cons, List.mem_cons] <;>
      tauto

end Entry

namespace Storage

variable {storage : Storage κ} {entry : Entry κ}

/-- The slots that are no custom fields, in the order in which they are listed. -/
def native (storage : Storage κ) : List (Entry κ) :=
  storage.fields.map .field ++ storage.methods.map .method

theorem map_name_native (hcustom : storage.custom = []) :
    storage.native.map Entry.name = storage.names := by
  simp [native, names, hcustom, Function.comp_def, Entry.name]

theorem mem_native_iff :
    entry ∈ storage.native ↔
      (∃ field ∈ storage.fields, .field field = entry) ∨
        ∃ method ∈ storage.methods, .method method = entry := by
  simp [native]

/-- A field that is found is listed. -/
theorem mem_native_of_field? {name : Symbol} {field : Field κ} (h : storage.field? name = some field) :
    .field field ∈ storage.native ∧ field.name = name :=
  ⟨mem_native_iff.mpr (.inl ⟨field, List.mem_of_find?_eq_some h, rfl⟩), by
    simpa using List.find?_some h⟩

/-- So is a method. -/
theorem mem_native_of_method? {name : Symbol} {method : Method κ}
    (h : storage.method? name = some method) : .method method ∈ storage.native ∧ method.name = name :=
  ⟨mem_native_iff.mpr (.inr ⟨method, List.mem_of_find?_eq_some h, rfl⟩), by
    simpa using List.find?_some h⟩

section Apart

variable (hnodup : storage.names.Nodup)

include hnodup

theorem nodup_native : (storage.native.map Entry.name).Nodup := by
  refine hnodup.sublist ?_
  simp [native, names, Function.comp_def, Entry.name]

theorem eq_of_mem_native {other : Entry κ} (h : entry ∈ storage.native) (h' : other ∈ storage.native)
    (hname : entry.name = other.name) : entry = other :=
  List.inj_on_of_nodup_map (nodup_native hnodup) h h' hname

theorem field?_of_mem_native {field : Field κ} (h : .field field ∈ storage.native) :
    storage.field? field.name = some field := by
  have hfield : field ∈ storage.fields := by simpa [native] using h
  cases hfind : storage.field? field.name with
  | none => exact absurd (beq_self_eq_true _) (List.find?_eq_none.mp hfind field hfield)
  | some found =>
    obtain ⟨hfound, hname⟩ := mem_native_of_field? hfind
    cases eq_of_mem_native hnodup hfound h hname
    rfl

theorem method?_of_mem_native {method : Method κ} (h : .method method ∈ storage.native) :
    storage.method? method.name = some method := by
  have hmethod : method ∈ storage.methods := by simpa [native] using h
  cases hfind : storage.method? method.name with
  | none => exact absurd (beq_self_eq_true _) (List.find?_eq_none.mp hfind method hmethod)
  | some found =>
    obtain ⟨hfound, hname⟩ := mem_native_of_method? hfind
    cases eq_of_mem_native hnodup hfound h hname
    rfl

/-- The name of a field is not that of a method. -/
theorem method?_of_field_mem_native {field : Field κ} (h : .field field ∈ storage.native) :
    storage.method? field.name = none := by
  cases hfind : storage.method? field.name with
  | none => rfl
  | some found =>
    obtain ⟨hfound, hname⟩ := mem_native_of_method? hfind
    cases eq_of_mem_native hnodup hfound h hname

/-- Different slots are listed as different values. -/
theorem nodup_values (holder : ObjectId) : (storage.native.map (Entry.asValue holder)).Nodup := by
  refine (List.Nodup.of_map _ (nodup_native hnodup)).map_on fun entry h other h' hvalue => ?_
  refine eq_of_mem_native hnodup h h' ?_
  -- a field and a method are different values, and both have their name
  rcases mem_native_iff.mp h with ⟨field, -, rfl⟩ | ⟨method, -, rfl⟩ <;>
    rcases mem_native_iff.mp h' with ⟨otherField, -, rfl⟩ | ⟨otherMethod, -, rfl⟩
  · exact (NativeField.mk.inj (Value.field.inj hvalue)).2
  · cases hvalue
  · cases hvalue
  · exact congrArg Method.name (Value.method.inj hvalue)

end Apart

/-! ## Slots behind slots -/

/-- The slots, and behind those of each kind more of them. -/
def receiving (storage : Storage κ) (layoutIdentity : Identity) (entries : List (Entry κ)) :
    Storage κ where
  layoutIdentity
  fields := storage.fields ++ entries.filterMap Entry.field?
  methods := storage.methods ++ entries.filterMap Entry.method?
  custom := storage.custom ++ entries.filterMap Entry.custom?

theorem receiving_nil (storage : Storage κ) :
    storage.receiving storage.layoutIdentity [] = storage := by
  simp [receiving]

/-- One more. -/
theorem exists_appended_receiving (storage : Storage κ) (layoutIdentity fresh : Identity)
    (entries : List (Entry κ)) (entry : Entry κ) :
    ∃ identity, (storage.receiving layoutIdentity entries).appended fresh entry =
      storage.receiving identity (entries ++ [entry]) := by
  refine ⟨((storage.receiving layoutIdentity entries).appended fresh entry).layoutIdentity, ?_⟩
  cases entry <;> simp [receiving, appended, Entry.field?, Entry.method?, Entry.custom?]

/-- Besides the names that were taken it is those of the new slots that are. -/
theorem hasSlot_receiving (layoutIdentity : Identity) (entries : List (Entry κ)) (name : Symbol) :
    (storage.receiving layoutIdentity entries).hasSlot name = true ↔
      storage.hasSlot name = true ∨ name ∈ entries.map Entry.name := by
  rw [hasSlot_iff, hasSlot_iff, Entry.mem_names_iff]
  simp only [names, receiving, List.map_append, List.mem_append]
  tauto

/-- What has no slots becomes what they are taken from. -/
theorem sameSlots_receiving (hempty : storage.names = []) {origin : Storage κ}
    (hcustom : origin.custom = []) (layoutIdentity : Identity) :
    (storage.receiving layoutIdentity origin.native).SameSlots origin := by
  obtain ⟨identity, fields, methods, custom⟩ := storage
  obtain ⟨hfields, hmethods, hnone⟩ : fields = [] ∧ methods = [] ∧ custom = [] := by
    simpa [names] using hempty
  subst hfields hmethods hnone
  refine ⟨layoutIdentity, ?_⟩
  simp [receiving, native, hcustom, List.filterMap_map, Function.comp_def, Entry.field?, Entry.method?,
    Entry.custom?]

/-- Adds a slot, with `fresh` as the identity of a layout that has to be made. -/
def add (storage : Storage κ) (fresh : Identity) : Entry κ → Except RuntimeError (Storage κ)
  | .field field => storage.putField fresh field
  | .method method => storage.addMethod method
  | .custom field => storage.addCustom field

theorem add_of_new (fresh : Identity) (hnew : storage.hasSlot entry.name = false) :
    storage.add fresh entry = .ok (storage.appended fresh entry) := by
  cases entry <;> exact if_neg (Bool.eq_false_iff.mp hnew)

theorem add_of_taken (fresh : Identity) (htaken : storage.hasSlot entry.name = true) :
    storage.add fresh entry = .error (.duplicateSlot entry.name) := by
  cases entry <;> exact if_pos htaken

end Storage

/-! ## Listing and taking out -/

namespace Runtime

variable {world : World κ σ} {holder : ObjectId} {body : PrototypeObject κ} {selector : Symbol}

theorem send_listSlots (host : Host κ σ) (steps : Nat)
    (hholder : world.heap.node? holder = some (.object body)) (hcustom : body.slots.custom = []) :
    (ofFuel host (steps + 1)).send (.object holder) .listSlots world =
      .ok (.table ⟨world.supply⟩ (body.slots.native.map (Entry.asValue holder)))
        { world with supply := world.supply + 1 } := by
  have hvalues : body.slots.native.map (Entry.asValue holder) =
      body.slots.fields.map (fun field => .field ⟨holder, field.name⟩) ++
        body.slots.custom.map CustomField.field ++ body.slots.methods.map .method := by
    simp [Storage.native, hcustom, Function.comp_def, Entry.asValue]
  have hlist : (defaultListSlots holder : Run κ σ (List (Value κ))) world =
      .ok (body.slots.native.map (Entry.asValue holder)) world := by
    rw [hvalues]
    unfold defaultListSlots defaultListFields defaultListMethods
    rw [bind_assoc, Run.slots_bind hholder, pure_bind, bind_assoc, Run.slots_bind hholder]
    rfl
  rw [send_plain host steps hholder]
  exact Run.bind_of_ok hlist _

/-- A slot that is there is taken out as the value it is listed as. -/
theorem send_grabSlot (host : Host κ σ) (steps : Nat)
    (hholder : world.heap.node? holder = some (.object body)) (hnodup : body.slots.names.Nodup)
    {entry : Entry κ} (hentry : entry ∈ body.slots.native) :
    (ofFuel host (steps + 1)).send (.object holder) (.grabSlot entry.name) world =
      .ok (entry.asValue holder) world := by
  rw [send_plain host steps hholder]
  show defaultGrabSlot holder entry.name world = _
  unfold defaultGrabSlot
  rw [Run.slots_bind hholder]
  rcases Storage.mem_native_iff.mp hentry with ⟨field, hmem, rfl⟩ | ⟨method, hmem, rfl⟩
  · obtain ⟨index, hindex, -⟩ :=
      Storage.field?_eq_some_iff.mp (Storage.field?_of_mem_native hnodup hentry)
    have hmethod : (Node.object body).slots.method? (Entry.field field).name = none :=
      Storage.method?_of_field_mem_native hnodup hentry
    rw [hmethod]
    show defaultGrabField holder field.name world = _
    unfold defaultGrabField
    rw [Run.slots_bind hholder]
    have hfield : (Node.object body).slots.fieldIndex? field.name = some index := hindex
    rw [hfield]
    rfl
  · have hmethod : (Node.object body).slots.method? (Entry.method method).name = some method :=
      Storage.method?_of_mem_native hnodup hentry
    rw [hmethod]
    show defaultGrabMethod holder _ world = _
    unfold defaultGrabMethod
    rw [Run.slots_bind hholder, hmethod]
    rfl

/-- Of a name that no slot has nothing is taken out. -/
theorem send_grabSlot_of_not_hasSlot (host : Host κ σ) (steps : Nat)
    (hholder : world.heap.node? holder = some (.object body))
    (hnone : body.slots.hasSlot selector = false) :
    (ofFuel host (steps + 1)).send (.object holder) (.grabSlot selector) world =
      .error (.raised (notFoundFrom selector holder)) world := by
  have hindex : (Node.object body).slots.fieldIndex? selector = none :=
    Storage.fieldIndex?_of_not_hasSlot hnone
  simp only [Storage.hasSlot, Bool.or_eq_false_iff, Option.isSome_eq_false_iff,
    Option.isNone_iff_eq_none] at hnone
  obtain ⟨⟨-, hmethod⟩, hcustom⟩ := hnone
  rw [send_plain host steps hholder]
  show defaultGrabSlot holder selector world = _
  unfold defaultGrabSlot defaultGrabField
  rw [Run.slots_bind hholder]
  have hmethod : (Node.object body).slots.method? selector = none := hmethod
  rw [hmethod]
  dsimp only [Option.isSome_none]
  rw [if_neg Bool.false_ne_true, Run.slots_bind hholder, hindex]
  have hcustom : (Node.object body).slots.custom? selector = none := hcustom
  rw [hcustom]
  rfl

/-- What is taken out is just what is listed, each slot under its name. -/
theorem grabSlot_eq_ok_iff (host : Host κ σ) (steps : Nat)
    (hholder : world.heap.node? holder = some (.object body)) (hcustom : body.slots.custom = [])
    (hnodup : body.slots.names.Nodup) {slot : Value κ} :
    (∃ after, (ofFuel host (steps + 1)).send (.object holder) (.grabSlot selector) world =
        .ok slot after) ↔
      ∃ entry ∈ body.slots.native, entry.name = selector ∧ entry.asValue holder = slot := by
  constructor
  · rintro ⟨after, hgrabbed⟩
    by_cases hmem : selector ∈ body.slots.native.map Entry.name
    · obtain ⟨entry, hentry, rfl⟩ := List.mem_map.mp hmem
      rw [send_grabSlot host steps hholder hnodup hentry] at hgrabbed
      cases hgrabbed
      exact ⟨entry, hentry, rfl, rfl⟩
    · rw [Storage.map_name_native hcustom, ← Storage.hasSlot_iff, Bool.not_eq_true] at hmem
      rw [send_grabSlot_of_not_hasSlot host steps hholder hmem] at hgrabbed
      cases hgrabbed
  · rintro ⟨entry, hentry, rfl, rfl⟩
    exact ⟨world, send_grabSlot host steps hholder hnodup hentry⟩

/-! ## Adding -/

/-- Another object that is given a listed slot adds the slot, as it is where it is listed. -/
theorem send_addSlot (host : Host κ σ) (steps : Nat)
    (hholder : world.heap.node? holder = some (.object body)) (hnodup : body.slots.names.Nodup)
    {entry : Entry κ} (hentry : entry ∈ body.slots.native) {target : ObjectId}
    {other : PrototypeObject κ} (htarget : world.heap.node? target = some (.object other))
    {added : Except RuntimeError (Storage κ)} (hadded : other.slots.add ⟨world.supply⟩ entry = added) :
    ∃ supply, (ofFuel host (steps + 1)).send (.object target) (.addSlot (entry.asValue holder)) world =
      match added with
      | .ok slots =>
        .ok .nil { world with heap := world.heap.replace target (.object { other with slots }), supply }
      | .error e => .error (.raised e) { world with supply } := by
  rw [send_plain host steps htarget]
  rcases Storage.mem_native_iff.mp hentry with ⟨field, hmem, rfl⟩ | ⟨method, hmem, rfl⟩
  · refine ⟨world.supply + 1, ?_⟩
    show ((ofFuel host steps).addNativeField target ⟨holder, field.name⟩ >>= fun _ => pure Value.nil)
      world = _
    have hfield : (Node.object body).slots.field? field.name = some field :=
      Storage.field?_of_mem_native hnodup hentry
    have hslots : (Node.object other).slots.putField ⟨world.supply⟩ field = added := hadded
    have hput := Run.putField_of_node htarget field
    rw [hslots] at hput
    rw [Run.bind_eq_of_eq ((ofFuel host steps).addNativeField_of_field hholder hfield target)]
    cases added with
    | ok slots => exact Run.bind_of_ok hput _
    | error e => exact Run.bind_of_error hput _
  · refine ⟨world.supply, ?_⟩
    show ((Run.slots target >>= fun slots => Run.check (slots.addMethod method) >>= Run.setSlots target) >>=
      fun _ => pure Value.nil) world = _
    have hslots : (Node.object other).slots.addMethod method = added := hadded
    rw [bind_assoc, Run.slots_bind htarget, bind_assoc, hslots]
    cases added with
    | ok slots => exact Run.bind_of_ok (Run.setSlots_of_node htarget slots) _
    | error e => rfl

end Runtime

/--
The second world is the first, but that an object has more slots behind its own; only identities
have been taken besides.
-/
structure World.Receives (before : World κ σ) (target : ObjectId) (body : PrototypeObject κ)
    (entries : List (Entry κ)) (after : World κ σ) : Prop where
  received : ∃ layoutIdentity, after.heap.node? target =
    some (.object { body with slots := body.slots.receiving layoutIdentity entries })
  others : ∀ id, id ≠ target → after.heap.node? id = before.heap.node? id
  rest : after = { before with heap := after.heap, supply := after.supply }

namespace World.Receives

variable {start world : World κ σ} {holder target : ObjectId} {body other : PrototypeObject κ}
  {entries : List (Entry κ)} {entry : Entry κ}

/-- Nothing but identities has been taken yet. -/
theorem nil (hnode : start.heap.node? target = some (.object other)) (supply : Nat) :
    start.Receives target other [] { start with supply } where
  received := ⟨other.slots.layoutIdentity, by rw [Storage.receiving_nil]; exact hnode⟩
  others _ _ := rfl
  rest := rfl

section Added

variable (h : start.Receives target other entries world)
  (hholder : start.heap.node? holder = some (.object body)) (hne : holder ≠ target)
  (hnodup : body.slots.names.Nodup) (hentry : entry ∈ body.slots.native)
  (host : Host κ σ) (steps : Nat)

include h hholder hne hnodup hentry

/-- A slot whose name is new is added. -/
theorem send_of_new (hnew : other.slots.hasSlot entry.name = false)
    (hother : entry.name ∉ entries.map Entry.name) :
    ∃ after, (Runtime.ofFuel host (steps + 1)).send (.object target) (.addSlot (entry.asValue holder))
        world = .ok .nil after ∧ start.Receives target other (entries ++ [entry]) after := by
  obtain ⟨layoutIdentity, hnode⟩ := h.received
  have hfree : (other.slots.receiving layoutIdentity entries).hasSlot entry.name = false := by
    rw [Bool.eq_false_iff, ne_eq, Storage.hasSlot_receiving, hnew]
    simpa using hother
  obtain ⟨identity, happended⟩ := other.slots.exists_appended_receiving layoutIdentity ⟨world.supply⟩
    entries entry
  obtain ⟨supply, hsent⟩ := Runtime.send_addSlot host steps ((h.others holder hne).trans hholder) hnodup
    hentry hnode (Storage.add_of_new _ hfree)
  rw [happended] at hsent
  have hread := Heap.node?_replace_of_contains (Heap.contains_of_node? hnode)
    (.object { other with slots := other.slots.receiving identity (entries ++ [entry]) })
  refine ⟨_, hsent, ⟨identity, (hread target).trans (if_pos rfl)⟩, fun id hid => ?_, ?_⟩
  · exact (hread id).trans (by rw [if_neg hid, h.others id hid])
  · dsimp only
    rw [h.rest]

/-- One whose name is taken is not. -/
theorem send_of_taken (htaken : other.slots.hasSlot entry.name = true) :
    ∃ after, (Runtime.ofFuel host (steps + 1)).send (.object target) (.addSlot (entry.asValue holder))
        world = .error (.raised (.duplicateSlot entry.name)) after := by
  obtain ⟨layoutIdentity, hnode⟩ := h.received
  have hslot : (other.slots.receiving layoutIdentity entries).hasSlot entry.name = true :=
    (Storage.hasSlot_receiving _ _ _).mpr (.inl htaken)
  obtain ⟨supply, hsent⟩ := Runtime.send_addSlot host steps ((h.others holder hne).trans hholder) hnodup
    hentry hnode (Storage.add_of_taken _ hslot)
  exact ⟨_, hsent⟩

end Added

end World.Receives

namespace Runtime

/-- Gives an object slots, from the left. -/
def addSlots (rt : Runtime κ σ) (target : ObjectId) (slots : List (Value κ)) : Run κ σ PUnit :=
  slots.forM fun slot => discard <| rt.send (.object target) (.addSlot slot)

variable {start world : World κ σ} {holder target : ObjectId} {body other : PrototypeObject κ}
  {entries more : List (Entry κ)}

/-- Slots whose names are new are all added. -/
theorem addSlots_of_new (host : Host κ σ) (steps : Nat) (h : start.Receives target other entries world)
    (hholder : start.heap.node? holder = some (.object body)) (hne : holder ≠ target)
    (hnodup : body.slots.names.Nodup) (hmore : ∀ entry ∈ more, entry ∈ body.slots.native)
    (hnew : ∀ name ∈ more.map Entry.name, other.slots.hasSlot name = false)
    (happart : ((entries ++ more).map Entry.name).Nodup) :
    ∃ after, (ofFuel host (steps + 1)).addSlots target (more.map (Entry.asValue holder)) world =
        .ok ⟨⟩ after ∧ start.Receives target other (entries ++ more) after := by
  have hmap : (ofFuel host (steps + 1)).addSlots target (more.map (Entry.asValue holder)) =
      more.forM fun entry =>
        discard <| (ofFuel host (steps + 1)).send (.object target) (.addSlot (entry.asValue holder)) :=
    List.forM_map
  rw [hmap]
  refine Run.exists_forM Entry.name (fun {done entry v} hdone hentry hother => ?_) h happart
  obtain ⟨next, hsent, hnext⟩ := hdone.send_of_new hholder hne hnodup (hmore entry hentry) host steps
    (hnew _ (List.mem_map_of_mem hentry)) hother
  exact ⟨next, Run.discard_of_ok hsent, hnext⟩

/-- The first whose name is taken is the one that is refused. -/
theorem addSlots_of_taken (host : Host κ σ) (steps : Nat) (h : start.Receives target other [] world)
    (hholder : start.heap.node? holder = some (.object body)) (hne : holder ≠ target)
    (hnodup : body.slots.names.Nodup) {earlier later : List (Entry κ)} {taken : Entry κ}
    (hentries : ∀ entry ∈ earlier ++ taken :: later, entry ∈ body.slots.native)
    (hnew : ∀ name ∈ earlier.map Entry.name, other.slots.hasSlot name = false)
    (happart : (earlier.map Entry.name).Nodup) (htaken : other.slots.hasSlot taken.name = true) :
    ∃ after, (ofFuel host (steps + 1)).addSlots target
        ((earlier ++ taken :: later).map (Entry.asValue holder)) world =
      .error (.raised (.duplicateSlot taken.name)) after := by
  obtain ⟨next, hearlier, hnext⟩ := addSlots_of_new host steps h hholder hne hnodup
    (fun entry hentry => hentries entry (List.mem_append_left _ hentry)) hnew happart
  obtain ⟨after, hfailed⟩ := hnext.send_of_taken hholder hne hnodup
    (hentries taken (List.mem_append_right _ (List.mem_cons_self ..))) host steps htaken
  refine ⟨after, ?_⟩
  rw [List.map_append, List.map_cons]
  exact Run.forM_of_error hearlier (Run.discard_of_error hfailed)

/-- All slots of an object are added just if the other has none of their names. -/
theorem addSlots_native_iff (host : Host κ σ) (steps : Nat) (h : start.Receives target other [] world)
    (hholder : start.heap.node? holder = some (.object body)) (hne : holder ≠ target)
    (hnodup : body.slots.names.Nodup) :
    (∃ after, (ofFuel host (steps + 1)).addSlots target (body.slots.native.map (Entry.asValue holder))
        world = .ok ⟨⟩ after) ↔
      ∀ name ∈ body.slots.native.map Entry.name, other.slots.hasSlot name = false := by
  have happart := Storage.nodup_native hnodup
  constructor
  · rintro ⟨after, hadded⟩
    by_contra htaken
    obtain ⟨entry, hentry⟩ : ∃ entry,
        body.slots.native.find? (fun entry => other.slots.hasSlot entry.name) = some entry := by
      rw [← Option.isSome_iff_exists, List.find?_isSome]
      simpa using htaken
    obtain ⟨htaken, earlier, later, hsplit, hearlier⟩ := List.find?_eq_some_iff_append.mp hentry
    rw [hsplit] at hadded
    rw [hsplit, List.map_append] at happart
    obtain ⟨failed, hfailed⟩ := addSlots_of_taken host steps h hholder hne hnodup
      (fun entry hmem => hsplit ▸ hmem) (by simpa using hearlier) happart.of_append_left htaken
    cases hadded.symm.trans hfailed
  · intro hnew
    obtain ⟨after, hadded, -⟩ :=
      addSlots_of_new host steps h hholder hne hnodup (fun _ => id) hnew happart
    exact ⟨after, hadded⟩

end Runtime

/-! ## Changing slots afterwards -/

/-- All nodes but one are what they were, and the one is an object still. -/
structure World.AltersOnly (before : World κ σ) (id : ObjectId) (after : World κ σ) : Prop where
  others : ∀ other, other ≠ id → after.heap.node? other = before.heap.node? other
  object : ∃ body, after.heap.node? id = some (.object body)

namespace World.AltersOnly

variable {world after : World κ σ} {id : ObjectId} {body : PrototypeObject κ}

theorem of_heap_eq (hbody : world.heap.node? id = some (.object body)) (hheap : after.heap = world.heap) :
    world.AltersOnly id after where
  others other _ := by rw [hheap]
  object := ⟨body, by rw [hheap, hbody]⟩

theorem of_allOrNothing (hbody : world.heap.node? id = some (.object body)) {x : Run κ σ α}
    {alters : ObjectId → Storage κ → Storage κ → Prop} (h : world.heap.AllOrNothing alters (x world))
    (hholder : ∀ holder slots after, alters holder slots after → holder = id) :
    world.AltersOnly id (Run.after x world) := by
  unfold Run.after
  cases hx : x world with
  | error reason after =>
    rw [hx] at h
    cases h with
    | nothing hheap => exact of_heap_eq hbody hheap
  | ok answer after =>
    rw [hx] at h
    cases h with
    | all hnode halters hheap =>
      obtain rfl := hholder _ _ _ halters
      obtain rfl := Option.some.inj (hbody.symm.trans hnode)
      have hread := Heap.node?_replace_of_contains (Heap.contains_of_node? hnode)
      exact ⟨fun other hne => by rw [hheap, hread, if_neg hne], _, by rw [hheap, hread, if_pos rfl]; rfl⟩

end World.AltersOnly

/-- What is altered by a message that is not for a search is the node it is sent to. -/
theorem Heap.Alters.holder_eq {heap : Heap κ} {id holder : ObjectId} {message : Message κ}
    {slots after : Storage κ} (h : heap.Alters id message holder slots after)
    (hfield : ∀ selector value, message ≠ .assignField selector value)
    (hvariable : ∀ selector value, message ≠ .assignVariable selector value) : holder = id := by
  cases h with
  | assignField => exact absurd rfl (hfield _ _)
  | assignVariable => exact absurd rfl (hvariable _ _)
  | addSlotField h => cases h; rfl
  | addSlotMethod h => cases h <;> rfl
  | _ => rfl

/--
The calls that change slots of an object and run no code for it.  A field of its own can be assigned
in four ways: as one of an object, as one of a scope, by its mutator, and by a reference.
-/
inductive Runtime.ChangesSlots (rt : Runtime κ σ) (world : World κ σ) (id : ObjectId) :
    Run κ σ (Value κ) → Prop
  | message {message : Message κ} : message.changesSlot = true → world.heap.OnlyNative id message →
      (∀ selector value, message ≠ .assignField selector value) →
      (∀ selector value, message ≠ .assignVariable selector value) →
        ChangesSlots rt world id (rt.send (.object id) message)
  | assignField {selector : Symbol} {index : Nat} {writable : Bool} (value : Value κ) :
      world.heap.slot? selector id = some (.field index writable) →
        ChangesSlots rt world id (rt.send (.object id) (.assignField selector value))
  | assignVariable {selector : Symbol} {index : Nat} {writable : Bool} (value : Value κ) :
      world.heap.slot? selector id = some (.field index writable) →
        ChangesSlots rt world id (rt.send (.object id) (.assignVariable selector value))
  | mutator {selector : Symbol} {index : Nat} {writable : Bool} (receiver : Value κ)
      (arguments : List (Value κ)) : world.heap.slot? selector id = some (.mutator index writable) →
        ChangesSlots rt world id (rt.send (.object id) (.invoke receiver selector arguments))
  | reference {name : Symbol} {index : Nat} {writable : Bool} (receiver : Value κ)
      (arguments : List (Value κ)) : world.heap.slot? name id = some (.field index writable) →
        ChangesSlots rt world id
          (rt.send (.field ⟨id, name⟩) (.invoke receiver Selector.writeField arguments))

namespace Runtime

variable {world : World κ σ} {id : ObjectId} {body : PrototypeObject κ}

/-- Writing a field of an object, whatever is made of it. -/
theorem altersOnly_writeSlot (rt : Runtime κ σ) (hbody : world.heap.node? id = some (.object body))
    {name : Symbol} {index : Nat} {writable : Bool}
    (hslot : world.heap.slot? name id = some (.field index writable)) (value : Value κ) (f : Unit → α) :
    world.AltersOnly id (Run.after (f <$> rt.writeSlot id name value) world) := by
  have hwrite : world.heap.AllOrNothing (fun holder _ _ => holder = id) (rt.writeSlot id name value world) :=
    .writeSlot rt hslot fun _ _ _ _ => rfl
  exact .of_allOrNothing hbody (hwrite.map f) fun _ _ _ h => h

/-- A mutator that is found in the object itself, invoked with whatever arguments. -/
theorem altersOnly_invokeSlot (rt : Runtime κ σ) (hbody : world.heap.node? id = some (.object body))
    {selector : Symbol} {index : Nat} {writable : Bool}
    (hslot : world.heap.slot? selector id = some (.mutator index writable)) (receiver : Value κ)
    (arguments : List (Value κ)) :
    world.AltersOnly id
      (Run.after (rt.invokeSlot id (.mutator index writable) receiver selector arguments) world) := by
  have hfind : body.slots.find selector = some (.mutator index writable) :=
    (Heap.slot?_of_node? hbody selector).symm.trans hslot
  by_cases hone : arguments.length = 1
  · obtain ⟨value, rfl⟩ := List.length_eq_one_iff.mp hone
    cases Storage.names_of_find hfind with
    | @mutator name _ _ htarget hfield =>
      rw [rt.invokeSlot_mutator htarget, bind_pure_comp]
      exact rt.altersOnly_writeSlot hbody
        ((Heap.slot?_of_node? hbody name).trans (Storage.find_eq_field_iff.mpr hfield)) value fun _ => value
  · rw [rt.invokeSlot_mutator_refused index writable receiver selector hone]
    exact .of_heap_eq hbody rfl

/-- An operation that finds its slot in the object itself ends there, if there are steps to search. -/
theorem altersOnly_walk (host : Host κ σ) (steps : Nat)
    (hbody : world.heap.node? id = some (.object body)) {walk : Walk κ σ α} (hwalk : walk.Operation)
    {slot : Slot κ} (hslot : world.heap.slot? walk.selector id = some slot)
    (hfound : ∀ rt, world.AltersOnly id (Run.after (walk.answer <$> walk.found rt id slot) world)) :
    world.AltersOnly id
      (Run.after ((ofFuel host (steps + 1)).send (.object id) walk.message) world) := by
  unfold Run.after
  cases steps with
  | zero =>
    rw [hwalk.send_exhausted host hbody]
    exact .of_heap_eq hbody rfl
  | succ steps =>
    rw [hwalk.send_of_search host hbody (Heap.searchDynamic_of_slot hslot) nofun]
    exact hfound _

/-- None of the calls alters another node, whatever the number of steps. -/
theorem ChangesSlots.altersOnly {host : Host κ σ} {steps : Nat} {call : Run κ σ (Value κ)}
    (h : (ofFuel host steps).ChangesSlots world id call)
    (hbody : world.heap.node? id = some (.object body)) :
    world.AltersOnly id (Run.after call world) := by
  cases steps with
  | zero => cases h <;> exact .of_heap_eq hbody rfl
  | succ steps =>
    cases h with
    | message hchanges hnative hfield hvariable =>
      have hperforms :=
        (ofFuel host steps).allOrNothing_performDefault hbody hchanges hnative hfield hvariable
      rw [← send_plain host steps hbody] at hperforms
      exact .of_allOrNothing hbody hperforms fun _ _ _ halters => halters.holder_eq hfield hvariable
    | @assignField selector index writable value hslot =>
      exact altersOnly_walk host steps hbody (Walk.Operation.assignField selector value) hslot fun rt =>
        rt.altersOnly_writeSlot hbody hslot value _
    | @mutator selector index writable receiver arguments hslot =>
      refine altersOnly_walk host steps hbody (Walk.Operation.invoke receiver selector arguments) hslot
        fun rt => ?_
      have hinvoked := rt.altersOnly_invokeSlot hbody hslot receiver arguments
      rwa [← id_map (rt.invokeSlot id (.mutator index writable) receiver selector arguments)] at hinvoked
    | @assignVariable selector index writable value hslot =>
      have hassigned := (ofFuel host steps).altersOnly_writeSlot hbody hslot value fun _ =>
        (Value.nil : Value κ)
      have hsend : (ofFuel host (steps + 1)).send (.object id) (.assignVariable selector value) world =
          ((fun _ => Value.nil) <$> (ofFuel host steps).writeSlot id selector value) world := by
        rw [send_plain host steps hbody, ← bind_pure_comp]
        show ((Run.searchLexical id selector >>= _) >>= _) world = _
        rw [bind_assoc, Run.searchLexical_bind_of_ok (Heap.searchLexical_of_slot hslot)]
      unfold Run.after at hassigned ⊢
      rwa [hsend]
    | @reference name index writable receiver arguments hslot =>
      show world.AltersOnly id (Run.after ((ofFuel host steps).performOnValue (.field ⟨id, name⟩)
        (.invoke receiver Selector.writeField arguments)) world)
      by_cases hone : arguments.length = 1
      · obtain ⟨value, rfl⟩ := List.length_eq_one_iff.mp hone
        rw [performOnValue_writeField, bind_pure_comp]
        exact (ofFuel host steps).altersOnly_writeSlot hbody hslot value _
      · unfold Run.after
        rw [performOnValue_writeField_refused _ _ _ hone]
        exact .of_heap_eq hbody rfl

end Runtime

/-- The worlds that changes of slots lead to, each of one of some objects. -/
inductive World.Reslotted (host : Host κ σ) (ids : List ObjectId) (start : World κ σ) :
    World κ σ → Prop
  | start : Reslotted host ids start start
  | change {world : World κ σ} {id : ObjectId} {steps : Nat} {call : Run κ σ (Value κ)} :
      Reslotted host ids start world → id ∈ ids →
        (Runtime.ofFuel host steps).ChangesSlots world id call →
          Reslotted host ids start (Run.after call world)

/-- They are objects still, and all other nodes are what they were. -/
theorem World.Reslotted.others {host : Host κ σ} {ids : List ObjectId} {start world : World κ σ}
    (h : World.Reslotted host ids start world)
    (hids : ∀ id ∈ ids, ∃ body, start.heap.node? id = some (.object body)) :
    (∀ id ∈ ids, ∃ body, world.heap.node? id = some (.object body)) ∧
      ∀ other, other ∉ ids → world.heap.node? other = start.heap.node? other := by
  induction h with
  | start => exact ⟨hids, fun _ _ => rfl⟩
  | @change world id steps call _ hid hcall ih =>
    obtain ⟨hobjects, hothers⟩ := ih
    obtain ⟨body, hbody⟩ := hobjects id hid
    obtain ⟨hsame, hobject⟩ := hcall.altersOnly hbody
    refine ⟨fun other hother => ?_, fun other hother => ?_⟩
    · by_cases hne : other = id
      · exact hne ▸ hobject
      · rw [hsame other hne]
        exact hobjects other hother
    · rw [hsame other (fun heq => hother (heq ▸ hid)), hothers other hother]

/-! ## There and back -/

namespace Runtime

/--
An object without custom fields lists each of its slots once, and lists just what is taken out of it
for the names for which anything is.  Another object can be given the listed slots one after the other
just if it has a slot of none of these names.  This changes no other node, the first object
among them, and where the other had no slots it has those of the first then, values, flags and order
included.  Whatever is done to the slots of the two from then on, nothing done to those of one changes
the other.
-/
theorem listed_slots_added (host : Host κ σ) (steps : Nat) {world : World κ σ} (hworld : world.WellFormed)
    {origin target : ObjectId} {body other : PrototypeObject κ}
    (horigin : world.heap.node? origin = some (.object body)) (hcustom : body.slots.custom = [])
    (htarget : world.heap.node? target = some (.object other)) (hne : origin ≠ target) :
    ∃ (listed : List (Symbol × Value κ)) (identity : Identity) (listing : World κ σ),
      (ofFuel host (steps + 1)).send (.object origin) .listSlots world =
        .ok (.table identity (listed.map Prod.snd)) listing ∧
      (listed.map Prod.fst).Nodup ∧ (listed.map Prod.snd).Nodup ∧
      (∀ selector slot, (selector, slot) ∈ listed ↔ ∃ after,
        (ofFuel host (steps + 1)).send (.object origin) (.grabSlot selector) world = .ok slot after) ∧
      ((∃ after, (ofFuel host (steps + 1)).addSlots target (listed.map Prod.snd) listing = .ok ⟨⟩ after) ↔
        ∀ selector ∈ listed.map Prod.fst, other.slots.hasSlot selector = false) ∧
      ∀ after, (ofFuel host (steps + 1)).addSlots target (listed.map Prod.snd) listing = .ok ⟨⟩ after →
        (∀ id, id ≠ target → after.heap.node? id = world.heap.node? id) ∧
        (other.slots.names = [] → ∃ slots, slots.SameSlots body.slots ∧
          after.heap.node? target = some (.object { other with slots })) ∧
        ∀ mixed, World.Reslotted host [origin, target] after mixed →
          (∀ later, World.Reslotted host [target] mixed later →
            later.heap.node? origin = mixed.heap.node? origin) ∧
          ∀ later, World.Reslotted host [origin] mixed later →
            later.heap.node? target = mixed.heap.node? target := by
  have hnodup : body.slots.names.Nodup := hworld.names origin _ horigin
  have hnames : (body.slots.native.map fun entry => (entry.name, entry.asValue origin)).map Prod.fst =
      body.slots.native.map Entry.name := by simp [Function.comp_def]
  have hvalues : (body.slots.native.map fun entry => (entry.name, entry.asValue origin)).map Prod.snd =
      body.slots.native.map (Entry.asValue origin) := by simp [Function.comp_def]
  have hreceives := World.Receives.nil htarget (world.supply + 1)
  refine ⟨body.slots.native.map fun entry => (entry.name, entry.asValue origin), ⟨world.supply⟩,
    { world with supply := world.supply + 1 }, ?_⟩
  rw [hnames, hvalues]
  refine ⟨send_listSlots host steps horigin hcustom, Storage.nodup_native hnodup,
    Storage.nodup_values hnodup origin, fun selector slot => ?_,
    addSlots_native_iff host steps hreceives horigin hne hnodup, fun after hadded => ?_⟩
  · rw [grabSlot_eq_ok_iff host steps horigin hcustom hnodup, List.mem_map]
    simp only [Prod.mk.injEq]
  · obtain ⟨last, hlast, hafter⟩ := addSlots_of_new host steps hreceives horigin hne hnodup (fun _ => id)
      ((addSlots_native_iff host steps hreceives horigin hne hnodup).mp ⟨after, hadded⟩)
      (Storage.nodup_native hnodup)
    cases hlast.symm.trans hadded
    rw [List.nil_append] at hafter
    obtain ⟨layoutIdentity, hreceived⟩ := hafter.received
    have hobjects : ∀ id ∈ [origin, target], ∃ body, after.heap.node? id = some (.object body) := by
      intro id hid
      rcases List.mem_pair.mp hid with rfl | rfl
      · exact ⟨body, (hafter.others _ hne).trans horigin⟩
      · exact ⟨_, hreceived⟩
    refine ⟨hafter.others, fun hempty =>
      ⟨_, Storage.sameSlots_receiving hempty hcustom layoutIdentity, hreceived⟩, fun mixed hmixed => ?_⟩
    have hobject (id : ObjectId) (hid : id ∈ [origin, target]) :
        ∀ other ∈ [id], ∃ body, mixed.heap.node? other = some (.object body) := by
      intro other hother
      obtain rfl := List.mem_singleton.mp hother
      exact (hmixed.others hobjects).1 other hid
    refine ⟨fun later hlater => ?_, fun later hlater => ?_⟩
    · exact (hlater.others (hobject target (by simp))).2 origin (by simpa using hne)
    · exact (hlater.others (hobject origin (by simp))).2 target (by simpa using hne.symm)

/-- A new world with a fresh mirror, which has no slots of its own, beside the mirror root. -/
private def besideRoot : World Empty Unit :=
  Run.after (Request.freshMirror.run (ofFuel Host.none 0)) (World.new default ())

/-- The fresh mirror is given all slots of the mirror root, and has them afterwards. -/
theorem listed_slots_added_besideRoot :
    ∃ body other, besideRoot.WellFormed ∧ besideRoot.heap.node? ⟨1⟩ = some (.object body) ∧
      body.slots.custom = [] ∧ body.slots.names ≠ [] ∧
      besideRoot.heap.node? ⟨2⟩ = some (.object other) ∧ other.slots.names = [] ∧
      ∃ slots identity listing after,
        (ofFuel Host.none 1).send (.object ⟨1⟩) .listSlots besideRoot =
          .ok (.table identity slots) listing ∧
        (ofFuel Host.none 1).addSlots ⟨2⟩ slots listing = .ok ⟨⟩ after ∧
        after.heap.node? ⟨1⟩ = some (.object body) ∧
        ∃ received, received.SameSlots body.slots ∧
          after.heap.node? ⟨2⟩ = some (.object { other with slots := received }) := by
  have harises : World.Arises Host.none besideRoot :=
    (World.Arises.new default ()).request .freshMirror 0 fun _ h => by cases h
  have hworld : besideRoot.WellFormed := harises.sane.toWellFormed
  obtain ⟨body, horigin, hcustom, hslots⟩ : ∃ body, besideRoot.heap.node? ⟨1⟩ = some (.object body) ∧
      body.slots.custom = [] ∧ body.slots.names ≠ [] := ⟨_, rfl, rfl, by decide⟩
  obtain ⟨other, htarget, hempty⟩ : ∃ other, besideRoot.heap.node? ⟨2⟩ = some (.object other) ∧
      other.slots.names = [] := ⟨_, rfl, rfl⟩
  obtain ⟨listed, identity, listing, hlisted, -, -, -, hiff, hafter⟩ :=
    listed_slots_added Host.none 0 hworld horigin hcustom htarget (by decide)
  obtain ⟨after, hadded⟩ := hiff.mpr fun selector _ => by
    rw [← Bool.not_eq_true, Storage.hasSlot_iff, hempty]
    exact List.not_mem_nil
  obtain ⟨hothers, hreceived, -⟩ := hafter after hadded
  exact ⟨body, other, hworld, horigin, hcustom, hslots, htarget, hempty, _, identity, listing, after,
    hlisted, hadded, (hothers ⟨1⟩ (by decide)).trans horigin, hreceived hempty⟩

end Runtime

end Prototypes
