import Prototypes.Proofs.Approximation.Slots

/-!
# Operations below others: default meanings

Continues operation by operation with scopes, cloning, families and tags, slots
as values and new objects, up to `Runtime.Below.performDefault`: whatever the
message, performing it over one runtime is below performing it over another
whose calls are above.
-/

namespace Prototypes

variable {κ σ : Type}

open Run (Steady)

namespace Runtime

variable {R : World κ σ → World κ σ → Prop} [World.Affinity R]

namespace Steady

open Run.Below

theorem defaultDefineField (target : ObjectId) (selector : Symbol) (value : Value κ) :
    Steady R (Runtime.defaultDefineField target selector value : Run κ σ Unit) :=
  putField target _

/-- Making a mirror reflect on a copy keeps a relation, if writing over what it reflects on does. -/
theorem rebase_of {mirror copy : ObjectId}
    (hset : ∀ {v w : World κ σ} {node : Node κ} {index : Nat} {slots : Storage κ}, R v w →
      v.heap.node? mirror = some node → node.slots.fieldIndex? Selector.base = some index →
      node.slots.write? index (.object copy) = some slots →
      R { v with heap := v.heap.replace mirror (node.withSlots slots) }
        { w with heap := v.heap.replace mirror (node.withSlots slots) }) :
    Steady R (Runtime.rebase mirror copy : Run κ σ Unit) := by
  refine fun v w hvw => agrees_slots_bind hvw fun node hnode => ?_
  cases hindex : node.slots.fieldIndex? Selector.base with
  | some index =>
    cases hwrite : node.slots.write? index (.object copy) with
    | some written =>
      simpa only [hwrite] using agrees_setSlots hvw hnode (hset hvw hnode hindex hwrite)
    | none => simpa only [hwrite] using .error .outOfBounds hvw
  | none => exact putField mirror _ v w hvw

omit [World.Affinity R] in
theorem rebase [World.Likeness R] (mirror copy : ObjectId) :
    Steady R (Runtime.rebase mirror copy : Run κ σ Unit) :=
  rebase_of fun hvw hnode _ _ => World.Likeness.setHeap (.replace _ (Heap.contains_of_node? hnode)) hvw

theorem defaultIsCloneOf (id : ObjectId) (other : Value κ) :
    Steady R (Runtime.defaultIsCloneOf id other : Run κ σ Bool) := ofHeap _

theorem defaultTypeTags (id : ObjectId) :
    Steady R (Runtime.defaultTypeTags id : Run κ σ (List (Value κ))) := by
  refine (node id).bind fun found => ?_
  cases found <;> exact pure _

theorem defaultPrint (id : ObjectId) :
    Steady R (Runtime.defaultPrint id : Run κ σ (Value κ)) := by
  refine (node id).bind fun found => ?_
  cases found <;> exact pure _

theorem defaultHandler (receiver : Value κ) (selector : Symbol) :
    Steady R (Run.defaultHandler receiver selector : Run κ σ (Value κ)) := by
  refine fresh.bind fun identity => get fun v w hvw => ?_
  rw [World.Affinity.lexicalRoot_eq hvw]
  exact newClosure _

theorem newObject : Steady R (Run.newObject : Run κ σ (Value κ)) := by
  refine get fun v w hvw => ?_
  rw [World.Affinity.lexicalRoot_eq hvw]
  exact found_bind _ _ _ _ fun _ => pure _

theorem defaultGrabField (target : ObjectId) (selector : Symbol) :
    Steady R (Runtime.defaultGrabField target selector : Run κ σ (Value κ)) := by
  refine (slots target).bind fun storage => ?_
  split
  · exact pure _
  · cases storage.custom? selector with
    | some field => exact pure _
    | none => exact raise _

theorem defaultListFields (target : ObjectId) :
    Steady R (Runtime.defaultListFields target : Run κ σ (List (Value κ))) :=
  (slots target).bind fun _ => pure _

theorem defaultAddMethod {target : ObjectId} (hid : World.Editable R target) (method : Value κ) :
    Steady R (Runtime.defaultAddMethod target method : Run κ σ Unit) := by
  have hadd : ∀ method : Method κ, Steady R (do
      Run.setSlots target (← Run.check ((← Run.slots target).addMethod method)) :
        Run κ σ Unit) := fun method =>
    edit hid fun _ _ hadd => .addMethod hadd
  cases method with
  | closure identity closure => exact (pure closure.method).bind hadd
  | _ => exact (check _).bind hadd

theorem defaultGrabMethod (target : ObjectId) (selector : Symbol) :
    Steady R (Runtime.defaultGrabMethod target selector : Run κ σ (Value κ)) := by
  refine (slots target).bind fun storage => ?_
  cases storage.method? selector with
  | some method => exact pure _
  | none => exact raise _

theorem defaultListMethods (target : ObjectId) :
    Steady R (Runtime.defaultListMethods target : Run κ σ (List (Value κ))) :=
  (slots target).bind fun _ => pure _

theorem defaultGrabSlot (target : ObjectId) (selector : Symbol) :
    Steady R (Runtime.defaultGrabSlot target selector : Run κ σ (Value κ)) := by
  refine (slots target).bind fun storage => ?_
  split
  · exact defaultGrabMethod target selector
  · exact defaultGrabField target selector

/-- Removing a slot, if the relation is kept where it is a field that is removed. -/
theorem agrees_defaultRemoveSlot {target : ObjectId} {selector : Symbol} (hid : World.Editable R target)
    {v w : World κ σ} (hvw : R v w)
    (hremove : ∀ v' w' node identity value rest, R v' w' → v'.heap = v.heap →
      v.heap.node? target = some node → node.slots.removeField? identity selector = some (value, rest) →
        Run.Agrees R (Run.setSlots target rest v') (Run.setSlots target rest w')) :
    Run.Agrees R ((Runtime.defaultRemoveSlot target selector : Run κ σ (Value κ)) v)
      (Runtime.defaultRemoveSlot target selector w) := by
  refine agrees_slots_bind hvw fun node hnode => ?_
  refine agrees_fresh hvw fun identity v' w' hvw' hheap => ?_
  have hnode' := (congrArg (Heap.node? · target) hheap).trans hnode
  rcases hfield : node.slots.removeField? identity selector with _ | ⟨value, rest⟩
  · rcases hmethod : node.slots.removeMethod? selector with _ | ⟨method, rest⟩
    · rcases hcustom : node.slots.removeCustom? selector with _ | ⟨field, rest⟩
      · simpa only [hfield, hmethod, hcustom] using .error _ hvw'
      · have hset := agrees_setSlots hvw' hnode' (hid hnode' (.removeCustom hcustom) hvw')
        simpa only [hfield, hmethod, hcustom] using hset.bind fun _ => pure field
    · have hset := agrees_setSlots hvw' hnode' (hid hnode' (.removeMethod hmethod) hvw')
      simpa only [hfield, hmethod] using hset.bind fun _ =>
        Run.Below.pure (Value.method method)
  · have hset := hremove v' w' node identity value rest hvw' hheap hnode hfield
    simpa only [hfield] using hset.bind fun _ => pure value

theorem defaultListSlots (target : ObjectId) :
    Steady R (Runtime.defaultListSlots target : Run κ σ (List (Value κ))) :=
  (defaultListFields target).bind fun _ => (defaultListMethods target).bind fun _ => pure _

end Steady

/-! ## Other ways to clone mirages -/

section Definitions

variable (rt : Runtime κ σ)

/-- A copy of a mirage, tied to a copy of its mirror by `tie`; `rebase` makes it the actual one. -/
def cloneMirageBy (tie : ObjectId → ObjectId → Run κ σ Unit) (id : ObjectId) : Run κ σ ObjectId := do
  let mirror ← Run.mirrorOf id
  let parent ← rt.clonedParent id
  let copy ← rt.cloneNode id parent fun object => .mirage ⟨object, none⟩
  let mirrorCopy ← Run.check ((← rt.send (.object mirror) .clone).expectObject "mirror clone")
  if mirrorCopy = mirror then
    Run.raise (.illegalOperation (.mirrorNotCloneable mirror id))
  tie mirrorCopy copy
  Run.setMirror copy mirrorCopy
  Run.report (.clonedMirage id copy mirrorCopy)
  return copy

variable (cloneMirage : ObjectId → Run κ σ ObjectId) (id : ObjectId)

/-- A copy of an object, mirages being cloned by `cloneMirage`. -/
def defaultCloneBy : Run κ σ ObjectId := do
  match ← Run.node id with
  | .mirage _ => cloneMirage id
  | node =>
    if node.body?.any fun body => body.flags.singleton then return id
    else
      let stretch ← Run.ofHeap fun heap => heap.stretch id
      let parent ← rt.clonedParent (stretch.getLast?.getD id)
      let copy ← rt.cloneStretch stretch.reverse id parent
      Run.report (.cloned id copy stretch.length)
      return copy

/-- What nodes do by default, mirages being cloned by `cloneMirage`. -/
def performDefaultBy : Message κ → Run κ σ (Value κ)
  | .clone => .object <$> rt.defaultCloneBy cloneMirage id
  | .newInstance arguments => do
    let copy : Value κ := .object (← rt.defaultCloneBy cloneMirage id)
    discard <| rt.invoke copy Selector.init arguments
    return copy
  | message => rt.performDefault id message

theorem performDefaultBy_cloneMirage (message : Message κ) :
    rt.performDefaultBy rt.cloneMirage id message = rt.performDefault id message := by
  cases message <;> rfl

end Definitions

variable {rt rt' : Runtime κ σ}

namespace Below

open Run.Below

/-! ## Scopes -/

theorem lookupSlot (h : Below R rt rt') (holder : ObjectId) (slot : Slot κ) (selector : Symbol) :
    Run.Below R (rt.lookupSlot holder slot selector) (rt'.lookupSlot holder slot selector) := by
  cases slot with
  | field index writable => exact Steady.readIndex holder index
  | custom field => exact h.invoke field _ _
  | mutator index writable =>
    exact (Steady.checkWritable holder selector writable).bind fun _ =>
      Steady.mutator holder _ selector
  | customMutator field => exact Steady.mutator holder _ selector
  | method method => exact (Steady.methodClosure holder method _).bind fun _ => newClosure _

theorem defaultLookup (h : Below R rt rt') (scope : ObjectId) (selector : Symbol) :
    Run.Below R (rt.defaultLookup scope selector) (rt'.defaultLookup scope selector) := by
  refine (searchLexical scope selector).bind fun resolution => ?_
  cases resolution with
  | found holder slot => exact h.lookupSlot holder slot selector
  | delegate enclosing => exact (check _).bind fun _ => h.send _ _
  | absent => exact raise _

theorem defaultCall (h : Below R rt rt') (scope : ObjectId) (selector : Symbol)
    (arguments : List (Value κ)) :
    Run.Below R (rt.defaultCall scope selector arguments)
      (rt'.defaultCall scope selector arguments) := by
  have hother : ∀ value : Value κ, Run.Below R
      (if arguments.isEmpty then return value else rt.applyValue value arguments)
      (if arguments.isEmpty then return value else rt'.applyValue value arguments) := by
    intro value
    split
    · exact pure value
    · exact h.applyValue value arguments
  refine (h.defaultLookup scope selector).bind fun value => ?_
  cases value with
  | closure identity closure => exact h.apply closure arguments
  | _ => exact hother _

theorem defaultAssignVariable (h : Below R rt rt') (scope : ObjectId) (selector : Symbol)
    (value : Value κ) :
    Run.Below R (rt.defaultAssignVariable scope selector value)
      (rt'.defaultAssignVariable scope selector value) := by
  refine (searchLexical scope selector).bind fun resolution => ?_
  match resolution with
  | .found holder (.field ..) => exact h.writeSlot holder selector value
  | .found holder (.custom _) => exact h.writeSlot holder selector value
  | .found holder (.mutator ..) => exact raise _
  | .found holder (.customMutator _) => exact raise _
  | .found holder (.method _) => exact raise _
  | .delegate enclosing => exact (check _).bind fun _ => (h.send _ _).ignore
  | .absent => exact raise _

/-! ## Cloning -/

theorem renewCustom (h : Below R rt rt') {copy : ObjectId} (hid : World.Editable R copy)
    (fields : List (CustomField κ)) :
    Run.Below R (rt.renewCustom copy fields) (rt'.renewCustom copy fields) := by
  refine forM fun field => (h.invoke field.field _ _).bind fun made => ?_
  exact edit hid fun _ _ hadd => .addCustom hadd

theorem clonedParent (h : Below R rt rt') (id : ObjectId) :
    Run.Below R (rt.clonedParent id) (rt'.clonedParent id) := by
  refine (node id).bind fun found => ?_
  rcases found.body? with _ | ⟨slots, parent, scope, link, tags, family, flags⟩
  · exact pure _
  · cases link with
    | isA => exact h.send parent .clone
    | sharesA => exact pure parent

/-- Copying nodes keeps the relation. -/
structure Copies (R : World κ σ → World κ σ → Prop) (rt rt' : Runtime κ σ) : Prop where
  object : ∀ source parent,
    Run.Below R (rt.cloneNode source parent .object) (rt'.cloneNode source parent .object)
  mirage : ∀ source parent,
    Run.Below R (rt.cloneNode source parent fun object => .mirage ⟨object, none⟩)
      (rt'.cloneNode source parent fun object => .mirage ⟨object, none⟩)

section Kinship

omit [World.Affinity R]

variable [World.Kinship R]

theorem cloneNode (h : Below R rt rt') (source : ObjectId) (parent : Value κ)
    {wrap : PrototypeObject κ → Node κ} (hwrap : ∀ body, (wrap body).mirror? = none) :
    Run.Below R (rt.cloneNode source parent wrap) (rt'.cloneNode source parent wrap) := by
  refine (node source).bind fun found => ?_
  cases found.body? with
  | none => exact raise _
  | some body =>
    exact (allocate (hwrap _)).bind fun copy =>
      (h.renewCustom (World.Kinship.editable copy) body.slots.custom).bind fun _ => pure copy

theorem copies (h : Below R rt rt') : Copies R rt rt' where
  object source parent := h.cloneNode source parent fun _ => rfl
  mirage source parent := h.cloneNode source parent fun _ => rfl

end Kinship

/-- A mirage cloned, if its copy is tied to the copy of its mirror in a way that keeps the relation. -/
theorem cloneMirageBy (h : Below R rt rt') (hcopies : Copies R rt rt')
    {tie tie' : ObjectId → ObjectId → Run κ σ Unit}
    (htie : ∀ mirror copy, Run.Below R (tie mirror copy) (tie' mirror copy))
    (hset : ∀ mirage mirror, Steady R (Run.setMirror mirage mirror : Run κ σ Unit)) (id : ObjectId) :
    Run.Below R (rt.cloneMirageBy tie id) (rt'.cloneMirageBy tie' id) := by
  refine (mirrorOf id).bind fun mirror => (h.clonedParent id).bind fun parent => ?_
  refine (hcopies.mirage id parent).bind fun copy => (h.send _ _).bind fun answer => ?_
  refine (check _).bind fun mirrorCopy => guard _ ?_
  exact (htie mirrorCopy copy).bind fun _ => (hset copy mirrorCopy).bind fun _ =>
    (report _).bind fun _ => pure copy

omit [World.Affinity R] in
theorem cloneMirage [World.Likeness R] (h : Below R rt rt') (id : ObjectId) :
    Run.Below R (rt.cloneMirage id) (rt'.cloneMirage id) :=
  h.cloneMirageBy h.copies Steady.rebase Steady.setMirror id

omit [World.Affinity R] in
theorem cloneStretch (hcopies : Copies R rt rt') (sources : List ObjectId) (last : ObjectId)
    (parent : Value κ) :
    Run.Below R (rt.cloneStretch sources last parent) (rt'.cloneStretch sources last parent) := by
  induction sources generalizing last parent with
  | nil => exact pure last
  | cons source sources ih => exact (hcopies.object source parent).bind fun copy => ih copy _

theorem defaultCloneBy (h : Below R rt rt') (hcopies : Copies R rt rt')
    {clone clone' : ObjectId → Run κ σ ObjectId} {id : ObjectId} (hmirage : Run.Below R (clone id) (clone' id)) :
    Run.Below R (rt.defaultCloneBy clone id) (rt'.defaultCloneBy clone' id) := by
  have hplain : ∀ node : Node κ, Run.Below R
      (if node.body?.any fun body => body.flags.singleton then return id
        else do
          let stretch ← Run.ofHeap fun heap => heap.stretch id
          let parent ← rt.clonedParent (stretch.getLast?.getD id)
          let copy ← rt.cloneStretch stretch.reverse id parent
          Run.report (.cloned id copy stretch.length)
          return copy)
      (if node.body?.any fun body => body.flags.singleton then return id
        else do
          let stretch ← Run.ofHeap fun heap => heap.stretch id
          let parent ← rt'.clonedParent (stretch.getLast?.getD id)
          let copy ← rt'.cloneStretch stretch.reverse id parent
          Run.report (.cloned id copy stretch.length)
          return copy) := by
    intro node
    split
    · exact pure id
    · refine (ofHeap _).bind fun stretch => (h.clonedParent _).bind fun parent => ?_
      exact (cloneStretch hcopies stretch.reverse id parent).bind fun copy =>
        (report _).bind fun _ => pure copy
  refine (node id).bind fun found => ?_
  cases found with
  | mirage mirage => exact hmirage
  | object body => exact hplain (.object body)
  | frame frame => exact hplain (.frame frame)

/-! ## Families and tags -/

theorem defaultIsRelatedTo (h : Below R rt rt') (id : ObjectId) (other : Value κ) :
    Run.Below R (rt.defaultIsRelatedTo id other) (rt'.defaultIsRelatedTo id other) := by
  refine (ofHeap _).bind fun walk => ?_
  cases walk with
  | decided answer => exact pure answer
  | ask parent => exact (h.send parent _).bind fun _ => check _

theorem defaultIsTaggedAs (h : Below R rt rt') (id : ObjectId) (tag : TypeTag) :
    Run.Below R (rt.defaultIsTaggedAs id tag) (rt'.defaultIsTaggedAs id tag) := by
  refine (ofHeap _).bind fun walk => ?_
  cases walk with
  | decided answer => exact pure answer
  | ask parent => exact (h.send parent _).bind fun _ => check _

theorem defaultPass (h : Below R rt rt') (id : ObjectId) :
    Run.Below R (rt.defaultPass id) (rt'.defaultPass id) := by
  refine get fun v w hvw => ?_
  rw [World.Affinity.isolateTag_eq hvw, World.Affinity.actor_eq hvw]
  refine (h.defaultIsTaggedAs id w.isolateTag).bind fun isolated => ?_
  cases isolated <;> exact pure _

/-! ## Slots as values -/

theorem addCustomField (h : Below R rt rt') {target : ObjectId} (hid : World.Editable R target) (prototype : Value κ) :
    Run.Below R (rt.addCustomField target prototype) (rt'.addCustomField target prototype) := by
  refine (h.invoke prototype _ _).bind fun answer => (check _).bind fun name => ?_
  refine (slots target).bind fun storage => guard _ ?_
  refine (h.invoke prototype _ _).bind fun field => ?_
  exact edit hid fun _ _ hadd => .addCustom hadd

theorem addNativeField (h : Below R rt rt') (target : ObjectId) (field : NativeField) :
    Run.Below R (rt.addNativeField target field) (rt'.addNativeField target field) :=
  (h.readSlot field.host field.name).bind fun _ => (slots field.host).bind fun _ => putField target _

theorem defaultAddField (h : Below R rt rt') {target : ObjectId} (hid : World.Editable R target) (field : Value κ) :
    Run.Below R (rt.defaultAddField target field) (rt'.defaultAddField target field) := by
  cases field with
  | field native => exact h.addNativeField target native
  | method method => exact raise _
  | closure identity closure => exact raise _
  | _ => exact h.addCustomField hid _

theorem defaultAddSlot (h : Below R rt rt') {target : ObjectId} (hid : World.Editable R target) (slot : Value κ) :
    Run.Below R (rt.defaultAddSlot target slot) (rt'.defaultAddSlot target slot) := by
  have hmethod : Steady R (Runtime.defaultAddMethod target slot : Run κ σ Unit) :=
    Steady.defaultAddMethod hid slot
  have hfield := h.defaultAddField hid slot
  cases slot with
  | method method => exact hmethod
  | closure identity closure => exact hmethod
  | _ => exact hfield

/-! ## New objects -/

theorem extendWith (h : Below R rt rt') (parent : Value κ) (link : ParentLink) (code : Value κ)
    (tags : List TypeTag) :
    Run.Below R (rt.extendWith parent link code tags) (rt'.extendWith parent link code tags) := by
  refine (check _).bind fun closure => found_bind _ _ _ _ fun id => (report _).bind fun _ => ?_
  exact (h.applyInScope closure [] _).ignore.bind fun _ => pure _

/-- A mirage created, if mirages are made and mirrors tied in a way that keeps the relation. -/
theorem createMirage_of (h : Below R rt rt')
    (hmake : ∀ parent link scope tags, Steady R (Run.newMirage parent link scope tags : Run κ σ ObjectId))
    (hbind : ∀ mirage : Value κ, Steady R (Run.freshMirror >>= fun mirror => Run.bindMirror mirror mirage))
    (code mirror : Value κ) (tags : List TypeTag) :
    Run.Below R (rt.createMirage code mirror tags) (rt'.createMirage code mirror tags) := by
  refine (check _).bind fun closure => (check _).bind fun mirrorId => ?_
  refine (hmake _ _ _ _).bind fun id => ?_
  have hbuild : Run.Below R
      (do discard <| rt.applyInScope closure [] ⟨id, .object id, .nil⟩; return (.object id : Value κ))
      (do discard <| rt'.applyInScope closure [] ⟨id, .object id, .nil⟩; return (.object id : Value κ)) :=
    (h.applyInScope closure [] _).ignore.bind fun _ => pure _
  refine get fun v w hvw => ?_
  rw [World.Affinity.mirrorRoot_eq hvw]
  split
  · simpa only [bind_assoc] using (hbind (.object id)).bind fun _ => hbuild
  · exact (h.send mirror _).ignore.bind fun _ => hbuild

omit [World.Affinity R] in
theorem createMirage [World.Kinship R] (h : Below R rt rt')
    (hbind : ∀ mirage : Value κ, Steady R (Run.freshMirror >>= fun mirror => Run.bindMirror mirror mirage))
    (code mirror : Value κ) (tags : List TypeTag) :
    Run.Below R (rt.createMirage code mirror tags) (rt'.createMirage code mirror tags) :=
  h.createMirage_of Steady.newMirage hbind code mirror tags

/-! ## Any message -/

/-- A message performed, if nodes are cloned and fields removed in a way that keeps the relation. -/
theorem performDefaultBy_of_clone (h : Below R rt rt') {clone clone' : ObjectId → Run κ σ ObjectId}
    {id : ObjectId} (hclone : Run.Below R (rt.defaultCloneBy clone id) (rt'.defaultCloneBy clone' id))
    (message : Message κ) (hid : message.op.appliesToFrames = false → World.Editable R id)
    (hremove : ∀ selector, message = .removeSlot selector →
      Steady R (Runtime.defaultRemoveSlot id selector : Run κ σ (Value κ))) :
    Run.Below R (rt.performDefaultBy clone id message) (rt'.performDefaultBy clone' id message) := by
  cases message with
  | invoke receiver selector arguments => exact h.defaultInvoke id receiver selector arguments
  | select receiver selector => exact h.defaultSelect id receiver selector
  | lookup selector => exact h.defaultLookup id selector
  | call selector arguments => exact h.defaultCall id selector arguments
  | assignField selector value =>
    exact (h.defaultAssignField id selector value).bind fun _ => pure _
  | assignVariable selector value =>
    exact (h.defaultAssignVariable id selector value).bind fun _ => pure _
  | defineField selector value =>
    exact (Steady.defaultDefineField id selector value).bind fun _ => pure _
  | clone => exact hclone.map _
  | newInstance arguments =>
    exact hclone.bind fun _ => (h.invoke _ _ _).ignore.bind fun _ => pure _
  | extend code => exact h.extendWith _ .isA code []
  | share code => exact h.extendWith _ .sharesA code []
  | doesNotUnderstand selector => exact Steady.defaultHandler _ selector
  | isCloneOf other => exact (Steady.defaultIsCloneOf id other).map _
  | isRelatedTo other => exact (h.defaultIsRelatedTo id other).map _
  | addField field => exact (h.defaultAddField (hid rfl) field).bind fun _ => pure _
  | grabField selector => exact Steady.defaultGrabField id selector
  | listFields => exact (Steady.defaultListFields id).bind fun _ => newTable _
  | addMethod method => exact (Steady.defaultAddMethod (hid rfl) method).bind fun _ => pure _
  | grabMethod selector => exact Steady.defaultGrabMethod id selector
  | listMethods => exact (Steady.defaultListMethods id).bind fun _ => newTable _
  | addSlot slot => exact (h.defaultAddSlot (hid rfl) slot).bind fun _ => pure _
  | grabSlot selector => exact Steady.defaultGrabSlot id selector
  | removeSlot selector => exact hremove selector rfl
  | listSlots => exact (Steady.defaultListSlots id).bind fun _ => newTable _
  | respondsTo selector => exact (h.defaultRespondsTo id selector).map _
  | eval context => exact pure _
  | quote context => exact pure _
  | pass => exact h.defaultPass id
  | resolve => exact pure _
  | print => exact Steady.defaultPrint id
  | isTaggedAs tag => exact (h.defaultIsTaggedAs id tag).map _
  | typeTags => exact (Steady.defaultTypeTags id).bind fun _ => newTable _

section Kinship

omit [World.Affinity R]

variable [World.Kinship R]

/-- A message performed, if mirages are cloned and fields removed in a way that keeps the relation. -/
theorem performDefaultBy_of (h : Below R rt rt') {clone clone' : ObjectId → Run κ σ ObjectId}
    {id : ObjectId} (hmirage : Run.Below R (clone id) (clone' id)) (message : Message κ)
    (hremove : ∀ selector, message = .removeSlot selector →
      Steady R (Runtime.defaultRemoveSlot id selector : Run κ σ (Value κ))) :
    Run.Below R (rt.performDefaultBy clone id message) (rt'.performDefaultBy clone' id message) :=
  h.performDefaultBy_of_clone (h.defaultCloneBy h.copies hmirage) message
    (fun _ => World.Kinship.editable id) hremove

theorem performDefault_of (h : Below R rt rt') {id : ObjectId}
    (hmirage : Run.Below R (rt.cloneMirage id) (rt'.cloneMirage id)) (message : Message κ)
    (hremove : ∀ selector, message = .removeSlot selector →
      Steady R (Runtime.defaultRemoveSlot id selector : Run κ σ (Value κ))) :
    Run.Below R (rt.performDefault id message) (rt'.performDefault id message) := by
  have hperform := h.performDefaultBy_of hmirage message hremove
  rwa [performDefaultBy_cloneMirage, performDefaultBy_cloneMirage] at hperform

omit [World.Kinship R] in
theorem performDefault [World.Likeness R] (h : Below R rt rt') (id : ObjectId) (message : Message κ) :
    Run.Below R (rt.performDefault id message) (rt'.performDefault id message) :=
  h.performDefault_of (h.cloneMirage id) message fun _ _ _ _ hvw =>
    Steady.agrees_defaultRemoveSlot (World.Kinship.editable id) hvw fun _ _ _ _ _ rest hvw' _ _ _ => setSlots id rest _ _ hvw'

end Kinship

end Below

end Runtime

end Prototypes
