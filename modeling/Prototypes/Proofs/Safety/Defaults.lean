import Prototypes.Proofs.Safety.Slots

/-!
# Safe operations: default meanings

Continues operation by operation with scopes, cloning, families and tags, slots as values
and new objects, up to `Runtime.Safe.performDefault`: whatever the message, performing it
is safe if the calls of the runtime are.
-/

namespace Prototypes

variable {κ σ : Type}

namespace Runtime

variable {rules : Rules κ} {needs : List (Part κ)} {v : World κ σ} {rt : Runtime κ σ}

open Run.Safe

open Run (EndsSafely)

/-! ## Views of the heap -/

namespace Safe

open World (Sees)

private theorem sees_isCloneOf (hv : v.Sane rules) {id : ObjectId} (other : Value κ)
    (hid : v.heap.contains id = true) (hother : v.Admits rules other.parts) :
    v.Sees rules (v.heap.isCloneOf id other) := by
  have hfamily (value : Value κ) (hvalue : v.Admits rules value.parts) :
      v.Sees rules (v.heap.familyOf? value) := by
    cases value with
    | object id =>
      refine (Sees.get hv (hvalue.contains (by simp))).bind fun node _ => .plain ?_
      cases node <;> rfl
    | _ => exact .plain rfl
  refine (hfamily (.object id) (.handle hid)).bind fun family _ => ?_
  refine (hfamily other hother).bind fun otherFamily _ => ?_
  cases family <;> cases otherFamily <;> exact .plain rfl

private theorem sees_parentStep (hv : v.Sane rules) {node : Node κ}
    (hnode : v.Admits rules node.parts) : v.Sees rules (v.heap.parentStep node) := by
  have hparent := hnode.mono node.parts_dynamicParent
  unfold Heap.parentStep
  cases hnext : node.dynamicParent with
  | nil => exact .plain rfl
  | object next =>
    rw [hnext] at hparent
    refine (Sees.get hv (hparent.contains (by simp))).bind fun nextNode _ => ?_
    split
    · exact .ok hparent
    · exact .ok hparent
  | _ => exact .ok (hnext ▸ hparent)

private theorem sees_relatedFrom (hv : v.Sane rules) (other : Value κ)
    (hother : v.Admits rules other.parts) (fuel : Nat) (current : ObjectId)
    (hcurrent : v.heap.contains current = true) :
    v.Sees rules (v.heap.relatedFrom other fuel current) := by
  induction fuel generalizing current with
  | zero => exact .exhausted
  | succ fuel ih =>
    refine (sees_isCloneOf hv other hcurrent hother).bind fun found _ => ?_
    split
    · exact .plain rfl
    · refine (Sees.get hv hcurrent).bind fun node hnode => ?_
      refine (sees_parentStep hv hnode).bind fun step hstep => ?_
      cases step with
      | inl parent => exact ih parent (hstep.contains (List.mem_singleton_self _))
      | inr ended => exact .ok hstep

private theorem sees_taggedFrom (hv : v.Sane rules) (tag : TypeTag) (fuel : Nat) (current : ObjectId)
    (hcurrent : v.heap.contains current = true) :
    v.Sees rules (v.heap.taggedFrom tag fuel current) := by
  induction fuel generalizing current with
  | zero => exact .exhausted
  | succ fuel ih =>
    refine (Sees.get hv hcurrent).bind fun node hnode => ?_
    cases node.body? with
    | none => exact .plain rfl
    | some body =>
      dsimp only
      split
      · exact .plain rfl
      · refine (sees_parentStep hv hnode).bind fun step hstep => ?_
        cases step with
        | inl parent => exact ih parent (hstep.contains (List.mem_singleton_self _))
        | inr ended => exact .ok hstep

private theorem sees_stretchFrom (hv : v.Sane rules) (fuel : Nat) (current : ObjectId)
    (hcurrent : v.heap.contains current = true) :
    v.Sees rules (v.heap.stretchFrom fuel current) := by
  induction fuel generalizing current with
  | zero => exact .exhausted
  | succ fuel ih =>
    have hself : v.Sees rules (.ok [current]) := .ok (.handle hcurrent)
    refine (Sees.get hv hcurrent).bind fun node hnode => ?_
    split
    next parent _ _ _ _ hbody =>
      have hparent : .handle parent ∈ node.parts := Node.parts_body hbody (by simp)
      refine (Sees.get hv (hnode.contains hparent)).bind fun parentNode _ => ?_
      cases parentNode with
      | object body =>
        dsimp only
        split
        · exact hself
        · refine (ih parent (hnode.contains hparent)).bind fun more hmore => .ok ?_
          intro part hpart
          rcases List.mem_cons.mp hpart with rfl | hpart
          exacts [hcurrent, hmore part hpart]
      | _ => exact hself
    next => exact hself

/-! ## Scopes -/

theorem lookupSlot (h : rt.Safe rules) {holder : ObjectId} {slot : Slot κ} {selector : Symbol}
    (hv : v.Sane rules) (hslot : v.heap.slot? selector holder = some slot) :
    EndsSafely rules v (rt.lookupSlot holder slot selector v) := by
  obtain ⟨node, hnode, hfind⟩ := Option.bind_eq_some_iff.mp hslot
  have hparts := hv.found hslot
  cases Storage.names_of_find hfind with
  | field _ =>
    obtain ⟨value, hread, hvalue⟩ := readIndex_of_slot hv hslot
    unfold Runtime.lookupSlot
    dsimp only
    rw [hread]
    exact .ok (.refl v) hv hvalue
  | custom _ _ => exact h.invoke Selector.readField (by grind) (List.nil_subset _) v hv hparts
  | mutator htarget _ =>
    exact (checkWritable holder selector _).bind (fun _ => mutator htarget (by grind) (by grind)) v hv hparts
  | customMutator htarget _ _ => exact mutator htarget (by grind) (by grind) v hv hparts
  | method _ =>
    exact Run.Safe.bind (methodClosure (by grind) (by grind) (by grind))
      (fun closure => newClosure (by grind)) v hv hparts

theorem defaultLookup (h : rt.Safe rules) {scope : ObjectId} (selector : Symbol)
    (hscope : .handle scope ∈ needs) : Run.Safe rules needs (rt.defaultLookup scope selector) := by
  refine searchLexical_bind hscope (fun v holder slot hv _ hslot => h.lookupSlot hv hslot)
    (fun enclosing => ?_) (raise rfl)
  refine check_bind (enclosing.yields_expectObject _) (by grind) fun id _ => ?_
  exact h.sends (by grind) (List.nil_subset _)

theorem defaultCall (h : rt.Safe rules) {scope : ObjectId} (selector : Symbol)
    {arguments : List (Value κ)} (hscope : .handle scope ∈ needs)
    (harguments : Value.partsOfAll arguments ⊆ needs) :
    Run.Safe rules needs (rt.defaultCall scope selector arguments) := by
  refine (h.defaultLookup selector hscope).bind fun value => ?_
  have hother : Run.Safe rules (value.parts ++ needs)
      (if arguments.isEmpty then return value else rt.applyValue value arguments) := by
    split
    · exact pure (by grind)
    · exact h.applyValue (by grind) (by grind)
  cases value with
  | closure identity closure => exact h.apply (by grind) (by grind)
  | _ => exact hother

theorem defaultAssignVariable (h : rt.Safe rules) {scope : ObjectId} (selector : Symbol)
    {value : Value κ} (hscope : .handle scope ∈ needs) (hvalue : value.parts ⊆ needs) :
    Run.Safe rules needs (rt.defaultAssignVariable scope selector value) := by
  refine searchLexical_bind hscope (fun v holder slot hv hneeds hslot => ?_) (fun enclosing => ?_)
    (raise rfl)
  · have hadmits := (hv.found hslot).append hneeds
    have hwrite : Run.Safe rules ((.handle holder :: slot.parts) ++ needs)
        (rt.writeSlot holder selector value) := h.writeSlot selector (by grind) (by grind)
    cases slot with
    | field | custom => exact hwrite v hv hadmits
    | _ => exact raise (α := Unit) rfl v hv hneeds
  · refine check_bind (enclosing.yields_expectObject _) (by grind) fun id _ => ?_
    exact (h.sends (by grind) (by grind)).ignore

theorem defaultDefineField {target : ObjectId} (selector : Symbol) {value : Value κ}
    (htarget : .handle target ∈ needs) (hvalue : value.parts ⊆ needs) :
    Run.Safe rules needs (Runtime.defaultDefineField target selector value : Run κ σ Unit) :=
  putField htarget hvalue

/-! ## Cloning -/

theorem renewCustom (h : rt.Safe rules) {copy : ObjectId} {fields : List (CustomField κ)}
    (hcopy : .handle copy ∈ needs) (hfields : ∀ field ∈ fields, field.field.parts ⊆ needs) :
    Run.Safe rules needs (rt.renewCustom copy fields) := by
  refine forM fun field hfield => ?_
  refine (h.invoke Selector.new (hfields field hfield) (by grind)).bind fun made => ?_
  exact edit (List.mem_append_right _ hcopy) (List.subset_append_left _ _)
    fun storage => storage.inserts_addCustom ⟨field.name, made⟩

theorem cloneNode (h : rt.Safe rules) {source : ObjectId} {parent : Value κ}
    {wrap : PrototypeObject κ → Node κ} (hsource : .handle source ∈ needs)
    (hparent : parent.parts ⊆ needs) (hwrap : ∀ body, (wrap body).parts = (Node.object body).parts)
    (hslots : ∀ body, (wrap body).slots = body.slots) :
    Run.Safe rules needs (rt.cloneNode source parent wrap) := by
  refine node_bind hsource fun node hnames => ?_
  cases hbody : node.body? with
  | none => exact raise rfl
  | some body =>
    have hfollows := body.slots.follows_cloneLayout
    have hparts := Node.parts_body hbody
    have hcustom : ∀ field ∈ body.slots.custom, field.field.parts ⊆ body.slots.parts :=
      fun field hfield part hpart => Storage.mem_parts.mpr (.inr (.inr ⟨field, hfield, hpart⟩))
    refine Run.Safe.bind (allocate ?_ ?_) fun copy => ?_
    · rw [hwrap]
      have hlayout := hfollows.parts
      grind
    · rw [hslots]
      refine hfollows.names ?_
      cases node <;> cases hbody <;> exact hnames
    · refine (h.renewCustom (by grind) fun field hfield => ?_).bind fun _ => pure (by grind)
      have hheld := hcustom field hfield
      grind

theorem clonedParent (h : rt.Safe rules) {id : ObjectId} (hid : .handle id ∈ needs) :
    Run.Safe rules needs (rt.clonedParent id) := by
  refine node_bind hid fun node _ => ?_
  cases hbody : node.body? with
  | none => exact pure (List.nil_subset _)
  | some body =>
    have hparts := Node.parts_body hbody
    obtain ⟨slots, parent, scope, link, tags, family, flags⟩ := body
    cases link with
    | isA => exact h.sends (by grind) (List.nil_subset _)
    | sharesA => exact pure (by grind)

theorem rebase {mirror copy : ObjectId} (hmirror : .handle mirror ∈ needs)
    (hcopy : .handle copy ∈ needs) :
    Run.Safe rules needs (Runtime.rebase mirror copy : Run κ σ Unit) := by
  refine slots_bind hmirror fun storage hnames => ?_
  cases hindex : storage.fieldIndex? Selector.base with
  | some index =>
    obtain ⟨_, _, _, _, _, hwrite⟩ := Storage.write?_of_fieldIndex? hindex
    have hfollows := Storage.follows_write hindex (hwrite (.object copy))
    simp only [hwrite]
    refine setSlots (by grind) (List.Subset.trans hfollows.parts ?_) (hfollows.names hnames)
    grind
  | none => exact putField (by grind) (by grind)

theorem cloneMirage (h : rt.Safe rules) {id : ObjectId} (hid : .handle id ∈ needs) :
    Run.Safe rules needs (rt.cloneMirage id) := by
  refine (mirrorOf hid).bind fun mirror => (h.clonedParent (by grind)).bind fun parent => ?_
  refine (h.cloneNode (by grind) (by grind) (by simp) fun _ => rfl).bind fun copy => ?_
  refine (h.sends (by grind) (List.nil_subset _)).bind fun answer => ?_
  refine check_bind (answer.yields_expectObject _) (by grind) fun mirrorCopy _ => guard rfl fun _ => ?_
  refine (rebase (by grind) (by grind)).bind fun _ => (setMirror (by grind) (by grind)).bind fun _ => ?_
  exact (report _).bind fun _ => pure (by grind)

theorem cloneStretch (h : rt.Safe rules) {sources : List ObjectId} {last : ObjectId} {parent : Value κ}
    (hsources : ∀ source ∈ sources, .handle source ∈ needs) (hlast : .handle last ∈ needs)
    (hparent : parent.parts ⊆ needs) : Run.Safe rules needs (rt.cloneStretch sources last parent) := by
  induction sources generalizing needs last parent with
  | nil => exact pure (by grind)
  | cons source sources ih =>
    refine (h.cloneNode (by grind) hparent (fun _ => rfl) fun _ => rfl).bind fun copy => ?_
    exact ih (by grind) (by grind) (by grind)

theorem defaultClone (h : rt.Safe rules) {id : ObjectId} (hid : .handle id ∈ needs) :
    Run.Safe rules needs (rt.defaultClone id) := by
  have hplain (node : Node κ) : Run.Safe rules needs
      (if node.body?.any fun body => body.flags.singleton then return id
        else do
          let stretch ← Run.ofHeap fun heap => heap.stretch id
          let parent ← rt.clonedParent (stretch.getLast?.getD id)
          let copy ← rt.cloneStretch stretch.reverse id parent
          Run.report (.cloned id copy stretch.length)
          return copy) := by
    split
    · exact pure (by grind)
    · have hstretch : Run.Safe (α := List ObjectId) rules needs
          (Run.ofHeap fun heap => heap.stretch id : Run κ σ (List ObjectId)) :=
        ofHeap fun v hv hneeds => sees_stretchFrom hv _ id (hneeds.contains hid)
      refine hstretch.bind fun stretch => ?_
      have hmem : ∀ source ∈ stretch, .handle source ∈ (partsOf stretch : List (Part κ)) :=
        fun source hsource => List.mem_map_of_mem hsource
      refine (h.clonedParent ?_).bind fun parent => ?_
      · grind
      · refine (h.cloneStretch (by grind) (by grind) (by grind)).bind fun copy => ?_
        exact (report _).bind fun _ => pure (by grind)
  refine node_bind hid fun node _ => ?_
  cases node with
  | mirage mirage => exact h.cloneMirage (by grind)
  | object body => exact (hplain (.object body)).mono (by grind)
  | frame frame => exact (hplain (.frame frame)).mono (by grind)

theorem defaultNewInstance (h : rt.Safe rules) {id : ObjectId} {arguments : List (Value κ)}
    (hid : .handle id ∈ needs) (harguments : Value.partsOfAll arguments ⊆ needs) :
    Run.Safe rules needs (rt.defaultNewInstance id arguments) :=
  (h.defaultClone hid).bind fun _ =>
    (h.invoke Selector.init (by grind) (by grind)).ignore.bind fun _ => pure (by grind)

/-! ## Families and tags -/

theorem defaultIsCloneOf {id : ObjectId} {other : Value κ} (hid : .handle id ∈ needs)
    (hother : other.parts ⊆ needs) :
    Run.Safe rules needs (Runtime.defaultIsCloneOf id other : Run κ σ Bool) :=
  ofHeap fun _ hv hneeds => sees_isCloneOf hv other (hneeds.contains hid) (hneeds.mono hother)

theorem defaultIsRelatedTo (h : rt.Safe rules) {id : ObjectId} {other : Value κ}
    (hid : .handle id ∈ needs) (hother : other.parts ⊆ needs) :
    Run.Safe rules needs (rt.defaultIsRelatedTo id other) := by
  have hwalk : Run.Safe rules needs
      (Run.ofHeap fun heap => heap.relatedFrom other heap.walkLimit id : Run κ σ (Heap.Walk κ)) :=
    ofHeap fun _ hv hneeds =>
      sees_relatedFrom hv other (hneeds.mono hother) _ id (hneeds.contains hid)
  refine hwalk.bind fun walk => ?_
  cases walk with
  | decided answer => exact pure (List.nil_subset _)
  | ask parent =>
    refine (h.sends (List.subset_append_left _ _) (by grind)).bind fun answer => ?_
    exact check (answer.yields_expectBool _) (List.Subset.refl _)

theorem defaultIsTaggedAs (h : rt.Safe rules) {id : ObjectId} (tag : TypeTag)
    (hid : .handle id ∈ needs) : Run.Safe rules needs (rt.defaultIsTaggedAs id tag) := by
  have hwalk : Run.Safe rules needs
      (Run.ofHeap fun heap => heap.taggedFrom tag heap.walkLimit id : Run κ σ (Heap.Walk κ)) :=
    ofHeap fun _ hv hneeds => sees_taggedFrom hv tag _ id (hneeds.contains hid)
  refine hwalk.bind fun walk => ?_
  cases walk with
  | decided answer => exact pure (List.nil_subset _)
  | ask parent =>
    refine (h.sends (List.subset_append_left _ _) (List.nil_subset _)).bind fun answer => ?_
    exact check (answer.yields_expectBool _) (List.Subset.refl _)

theorem defaultTypeTags {id : ObjectId} (hid : .handle id ∈ needs) :
    Run.Safe rules needs (Runtime.defaultTypeTags id : Run κ σ (List (Value κ))) := by
  refine node_bind hid fun node _ => ?_
  cases node.body? with
  | none => exact pure (List.nil_subset _)
  | some body =>
    refine pure fun part hpart => ?_
    obtain ⟨value, hvalue, hpart⟩ := Value.mem_partsOfAll.mp hpart
    obtain ⟨tag, _, rfl⟩ := List.mem_map.mp hvalue
    cases hpart

theorem defaultPass (h : rt.Safe rules) {id : ObjectId} (hid : .handle id ∈ needs) :
    Run.Safe rules needs (rt.defaultPass id) := by
  refine get fun w => (h.defaultIsTaggedAs w.isolateTag (by grind)).bind fun isolated => ?_
  cases isolated <;> exact pure (by grind)

theorem defaultPrint {id : ObjectId} (hid : .handle id ∈ needs) :
    Run.Safe rules needs (Runtime.defaultPrint id : Run κ σ (Value κ)) := by
  refine node_bind hid fun node _ => ?_
  cases node <;> exact pure (List.nil_subset _)

/-! ## Slots as values -/

theorem addCustomField (h : rt.Safe rules) {target : ObjectId} {prototype : Value κ}
    (htarget : .handle target ∈ needs) (hprototype : prototype.parts ⊆ needs) :
    Run.Safe rules needs (rt.addCustomField target prototype) := by
  refine (h.invoke Selector.name hprototype (List.nil_subset _)).bind fun answer => ?_
  refine check_bind (answer.yields_expectSymbol _) (List.Subset.refl _) fun name _ => ?_
  refine slots_bind (by grind) fun storage _ => guard rfl fun _ => ?_
  refine (h.invoke Selector.new (by grind) (by grind)).bind fun field => ?_
  exact edit (by grind) (List.subset_append_left _ _)
    fun storage => storage.inserts_addCustom ⟨name, field⟩

theorem addNativeField (h : rt.Safe rules) {target : ObjectId} {field : NativeField}
    (htarget : .handle target ∈ needs) (hhost : .handle field.host ∈ needs) :
    Run.Safe rules needs (rt.addNativeField target field) := by
  refine (h.readSlot field.name hhost).bind fun value => slots_bind (by grind) fun storage _ => ?_
  exact putField (by grind) (by grind)

theorem defaultAddField (h : rt.Safe rules) {target : ObjectId} {field : Value κ}
    (htarget : .handle target ∈ needs) (hfield : field.parts ⊆ needs) :
    Run.Safe rules needs (rt.defaultAddField target field) := by
  cases field with
  | field native => exact h.addNativeField htarget (by grind)
  | method found => exact raise rfl
  | closure identity closure => exact raise rfl
  | _ => exact h.addCustomField htarget hfield

theorem defaultGrabField {target : ObjectId} (selector : Symbol) (htarget : .handle target ∈ needs) :
    Run.Safe rules needs (Runtime.defaultGrabField target selector : Run κ σ (Value κ)) := by
  refine slots_bind htarget fun storage _ => ?_
  split
  · exact pure (by grind)
  · cases hcustom : storage.custom? selector with
    | some field =>
      have hfield := Storage.parts_of_custom? hcustom
      exact pure (by grind)
    | none => exact raise rfl

theorem defaultListFields {target : ObjectId} (htarget : .handle target ∈ needs) :
    Run.Safe rules needs (Runtime.defaultListFields target : Run κ σ (List (Value κ))) := by
  refine slots_bind htarget fun storage _ => pure fun part hpart => ?_
  obtain ⟨value, hvalue, hpart⟩ := Value.mem_partsOfAll.mp hpart
  rcases List.mem_append.mp hvalue with hvalue | hvalue
  · obtain ⟨field, _, rfl⟩ := List.mem_map.mp hvalue
    obtain rfl := List.mem_singleton.mp hpart
    exact List.mem_append_right _ htarget
  · obtain ⟨field, hfield, rfl⟩ := List.mem_map.mp hvalue
    exact List.mem_append_left _ (Storage.mem_parts.mpr (.inr (.inr ⟨field, hfield, hpart⟩)))

theorem defaultAddMethod {target : ObjectId} {method : Value κ} (htarget : .handle target ∈ needs)
    (hmethod : method.parts ⊆ needs) :
    Run.Safe rules needs (Runtime.defaultAddMethod target method : Run κ σ Unit) := by
  have hadd (added : Method κ) : Run.Safe (α := Unit) rules (partsOf added ++ needs) (do
      Run.setSlots target (← Run.check ((← Run.slots target).addMethod added)) : Run κ σ Unit) :=
    edit (by grind) (List.subset_append_left _ _) fun storage => storage.inserts_addMethod added
  cases method with
  | closure identity closure => exact Run.Safe.bind (x := Pure.pure closure.method) (pure (by grind)) hadd
  | _ => exact check_bind (Value.yields_expectMethod _ _) hmethod fun added _ => hadd added

theorem defaultGrabMethod {target : ObjectId} (selector : Symbol) (htarget : .handle target ∈ needs) :
    Run.Safe rules needs (Runtime.defaultGrabMethod target selector : Run κ σ (Value κ)) := by
  refine slots_bind htarget fun storage _ => ?_
  cases hmethod : storage.method? selector with
  | some found =>
    have hfound := Storage.parts_of_method? hmethod
    exact pure (by grind)
  | none => exact raise rfl

theorem defaultListMethods {target : ObjectId} (htarget : .handle target ∈ needs) :
    Run.Safe rules needs (Runtime.defaultListMethods target : Run κ σ (List (Value κ))) := by
  refine slots_bind htarget fun storage _ => pure fun part hpart => ?_
  obtain ⟨value, hvalue, hpart⟩ := Value.mem_partsOfAll.mp hpart
  obtain ⟨found, hfound, rfl⟩ := List.mem_map.mp hvalue
  exact List.mem_append_left _ (Storage.mem_parts.mpr (.inr (.inl ⟨found, hfound, hpart⟩)))

theorem defaultAddSlot (h : rt.Safe rules) {target : ObjectId} {slot : Value κ}
    (htarget : .handle target ∈ needs) (hslot : slot.parts ⊆ needs) :
    Run.Safe rules needs (rt.defaultAddSlot target slot) := by
  have hmethod : Run.Safe rules needs (Runtime.defaultAddMethod target slot : Run κ σ Unit) :=
    defaultAddMethod htarget hslot
  have hfield := h.defaultAddField htarget hslot
  cases slot with
  | method found => exact hmethod
  | closure identity closure => exact hmethod
  | _ => exact hfield

theorem defaultGrabSlot {target : ObjectId} (selector : Symbol) (htarget : .handle target ∈ needs) :
    Run.Safe rules needs (Runtime.defaultGrabSlot target selector : Run κ σ (Value κ)) := by
  refine slots_bind htarget fun storage _ => ?_
  split
  · exact defaultGrabMethod selector (by grind)
  · exact defaultGrabField selector (by grind)

/-- What is removed was held, and what is left takes the place of what was there. -/
private theorem remove {target : ObjectId} {storage rest : Storage κ} {removed : Value κ}
    (hnames : storage.names.Nodup) (htarget : .handle target ∈ needs)
    (h : removed.parts ⊆ storage.parts ∧ storage.Follows [] rest) (hparts : storage.parts ⊆ needs) :
    Run.Safe rules needs (do
      Run.setSlots target rest
      return removed : Run κ σ (Value κ)) := by
  have hrest := h.2.parts
  refine (setSlots htarget (by grind) (h.2.names hnames)).bind fun _ => pure ?_
  exact List.Subset.trans h.1 (by grind)

theorem defaultRemoveSlot {target : ObjectId} (selector : Symbol) (htarget : .handle target ∈ needs) :
    Run.Safe rules needs (Runtime.defaultRemoveSlot target selector : Run κ σ (Value κ)) := by
  refine slots_bind htarget fun storage hnames => fresh.bind fun identity => ?_
  rcases hfield : storage.removeField? identity selector with _ | ⟨value, rest⟩
  · rcases hmethod : storage.removeMethod? selector with _ | ⟨found, rest⟩
    · rcases hcustom : storage.removeCustom? selector with _ | ⟨field, rest⟩
      · exact raise rfl
      · exact remove hnames (by grind) (Storage.follows_removeCustom hcustom) (by grind)
    · exact remove hnames (by grind) (Storage.follows_removeMethod hmethod) (by grind)
  · exact remove hnames (by grind) (Storage.follows_removeField hfield) (by grind)

theorem defaultListSlots {target : ObjectId} (htarget : .handle target ∈ needs) :
    Run.Safe rules needs (Runtime.defaultListSlots target : Run κ σ (List (Value κ))) := by
  refine (defaultListFields htarget).bind fun fields => ?_
  refine (defaultListMethods (by grind)).bind fun methods => pure fun part hpart => ?_
  obtain ⟨value, hvalue, hpart⟩ := Value.mem_partsOfAll.mp hpart
  have hheld (values : List (Value κ)) (hmem : value ∈ values) : part ∈ Value.partsOfAll values :=
    Value.mem_partsOfAll.mpr ⟨value, hmem, hpart⟩
  grind

/-! ## New objects -/

theorem newObject : Run.Safe rules needs (Run.newObject : Run κ σ (Value κ)) := by
  refine get fun w => newNode_bind (by grind) (by grind) (fun _ => rfl) (fun _ => rfl) fun id => ?_
  exact pure (by grind)

theorem defaultHandler {receiver : Value κ} (selector : Symbol) (hreceiver : receiver.parts ⊆ needs) :
    Run.Safe rules needs (Run.defaultHandler receiver selector : Run κ σ (Value κ)) := by
  refine fresh.bind fun identity => get fun w => ?_
  refine made (Method.isMade_builtin identity selector (.notUnderstood selector)) <| newClosure ?_
  cases receiver <;> simp only [Value.asObject?, Option.getD_some, Option.getD_none] <;> grind

theorem extendWith (h : rt.Safe rules) {parent : Value κ} (link : ParentLink) {code : Value κ}
    (tags : List TypeTag) (hparent : parent.parts ⊆ needs) (hcode : code.parts ⊆ needs) :
    Run.Safe rules needs (rt.extendWith parent link code tags) := by
  refine check_bind (code.yields_expectClosure _) hcode fun closure _ => ?_
  have hscope : .handle closure.context.scope ∈ closure.parts := by simp
  refine newNode_bind (by grind) (by grind) (fun _ => rfl) (fun _ => rfl) fun id => ?_
  refine (report _).bind fun _ => ?_
  exact (h.applyInScope (by grind) (List.nil_subset _) (by grind)).ignore.bind fun _ => pure (by grind)

theorem createMirage (h : rt.Safe rules) {code mirror : Value κ} (tags : List TypeTag)
    (hcode : code.parts ⊆ needs) (hmirror : mirror.parts ⊆ needs) :
    Run.Safe rules needs (rt.createMirage code mirror tags) := by
  refine check_bind (code.yields_expectClosure _) hcode fun closure _ => ?_
  refine check_bind (mirror.yields_expectObject _) (by grind) fun mirrorId _ => ?_
  have hscope : .handle closure.context.scope ∈ closure.parts := by simp
  refine (newMirage .isA tags (List.nil_subset _) (by grind)).bind fun id => get fun w => ?_
  have hbuild {more : List (Part κ)} (hmore : .handle id :: closure.parts ⊆ more) :
      Run.Safe rules more (do
        discard <| rt.applyInScope closure [] ⟨id, .object id, .nil⟩
        return (.object id : Value κ)) :=
    (h.applyInScope (by grind) (List.nil_subset _) (by grind)).ignore.bind fun _ => pure (by grind)
  split
  · exact freshMirror.bind fun made => (bindMirror (by grind) (by grind)).bind fun _ => hbuild (by grind)
  · exact (h.sends (by grind) (by grind)).ignore.bind fun _ => hbuild (by grind)

/-! ## Any message -/

/-- Doing something and answering nothing. -/
private theorem answering_nil {x : Run κ σ Unit} (h : Run.Safe rules needs x) :
    Run.Safe rules needs (do x; return (.nil : Value κ)) :=
  h.bind fun _ => pure (List.nil_subset _)

/-- Answering a table. -/
private theorem answering_table {x : Run κ σ (List (Value κ))} (h : Run.Safe rules needs x) :
    Run.Safe rules needs (do Run.newTable (← x)) :=
  h.bind fun _ => newTable (by grind)

private theorem answering_bool {x : Run κ σ Bool} (h : Run.Safe rules needs x) :
    Run.Safe rules needs (.bool <$> x : Run κ σ (Value κ)) :=
  h.map fun _ => List.nil_subset _

theorem performDefault (h : rt.Safe rules) {id : ObjectId} {message : Message κ}
    (hid : .handle id ∈ needs) (hmessage : message.parts ⊆ needs) :
    Run.Safe rules needs (rt.performDefault id message) := by
  cases message with
  | invoke receiver selector arguments =>
    exact h.defaultInvoke selector hid (by grind) (by grind)
  | select receiver selector => exact h.defaultSelect selector hid hmessage
  | lookup selector => exact h.defaultLookup selector hid
  | call selector arguments => exact h.defaultCall selector hid hmessage
  | assignField selector value => exact answering_nil (h.defaultAssignField selector hid hmessage)
  | assignVariable selector value => exact answering_nil (h.defaultAssignVariable selector hid hmessage)
  | defineField selector value => exact answering_nil (defaultDefineField selector hid hmessage)
  | clone => exact (h.defaultClone hid).map fun _ => by grind
  | newInstance arguments => exact h.defaultNewInstance hid hmessage
  | extend code => exact h.extendWith .isA [] (by grind) hmessage
  | share code => exact h.extendWith .sharesA [] (by grind) hmessage
  | doesNotUnderstand selector => exact defaultHandler selector (by grind)
  | isCloneOf other => exact answering_bool (defaultIsCloneOf hid hmessage)
  | isRelatedTo other => exact answering_bool (h.defaultIsRelatedTo hid hmessage)
  | addField field => exact answering_nil (h.defaultAddField hid hmessage)
  | grabField selector => exact defaultGrabField selector hid
  | listFields => exact answering_table (defaultListFields hid)
  | addMethod method => exact answering_nil (defaultAddMethod hid hmessage)
  | grabMethod selector => exact defaultGrabMethod selector hid
  | listMethods => exact answering_table (defaultListMethods hid)
  | addSlot slot => exact answering_nil (h.defaultAddSlot hid hmessage)
  | grabSlot selector => exact defaultGrabSlot selector hid
  | removeSlot selector => exact defaultRemoveSlot selector hid
  | listSlots => exact answering_table (defaultListSlots hid)
  | respondsTo selector => exact answering_bool (h.defaultRespondsTo selector hid)
  | eval context => exact pure (by grind)
  | quote context => exact pure (by grind)
  | pass => exact h.defaultPass hid
  | resolve => exact pure (by grind)
  | print => exact defaultPrint hid
  | isTaggedAs tag => exact answering_bool (h.defaultIsTaggedAs tag hid)
  | typeTags => exact answering_table (defaultTypeTags hid)

end Safe

end Runtime

end Prototypes
