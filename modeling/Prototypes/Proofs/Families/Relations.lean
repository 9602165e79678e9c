import Prototypes.Proofs.Families.Pedigrees

/-!
# Who is related to whom

An object is related to another one when it or one of its parents is of that one's family
(`Heap.Related`).  That this can be composed rests on families: whatever one gets to from an
object by parents, one gets to its like from every object of its family.

A walk along parents that are plain objects answers the same, step for step, wherever in a
family it starts; and without circles of parents it gets to every parent there is.

## Main results

* `Heap.Related.trans`, `Heap.Familial.relatedFrom_eq` — relatedness composes, and families
  share it.
* `Heap.AcyclicAlong.relatedFrom_iff` — the walk finds out whether two objects are related.
* `World.send_isRelatedTo_of_related`, `World.related_of_send`, `World.send_isRelatedTo_eq` —
  the same of the message.
-/

namespace Prototypes

variable {κ σ : Type}

namespace Heap

variable {heap : Heap κ} {a b c : ObjectId}

/-! ## Climbing -/

/-- Both are objects, and the one is the parent of the other. -/
def ChildOf (heap : Heap κ) (id parent : ObjectId) : Prop :=
  ∃ body above, heap.node? id = some (.object body) ∧ body.dynamicParent = .object parent ∧
    heap.node? parent = some (.object above)

/-- The object or one of its parents, through objects, is of the other's family. -/
def Related (heap : Heap κ) (id other : ObjectId) : Prop :=
  ∃ ancestor, Relation.ReflTransGen heap.ChildOf id ancestor ∧ heap.SameFamily ancestor other

theorem ChildOf.ascends (h : heap.ChildOf a b) : heap.Ascends .dynamic a b := by
  obtain ⟨body, above, ha, hparent, -⟩ := h
  exact ⟨_, ha, hparent⟩

/-- One gets from every object of a family to the like of a parent. -/
theorem Familial.climb {ancestor : ObjectId} (h : heap.Familial) (hfamily : heap.SameFamily a b)
    (hclimb : Relation.ReflTransGen heap.ChildOf b ancestor) :
    ∃ like, Relation.ReflTransGen heap.ChildOf a like ∧ heap.SameFamily like ancestor := by
  induction hclimb with
  | refl => exact ⟨a, .refl, hfamily⟩
  | tail _ hstep ih =>
    obtain ⟨like, hlike, body, other, hbody, hother, hsame⟩ := ih
    obtain ⟨body', above, hbody', hparent, habove⟩ := hstep
    cases hother.symm.trans hbody'
    rcases (h _ _ body other hbody hother hsame).parent with hidentical | ⟨p, q, hp, hq, hkin⟩
    · exact ⟨_, hlike.tail ⟨body, above, hbody, hidentical.trans hparent, habove⟩, .refl habove⟩
    · cases hparent.symm.trans hq
      obtain ⟨above', hp'⟩ := hkin.isObject
      exact ⟨p, hlike.tail ⟨body, above', hbody, hp, hp'⟩, hkin⟩

theorem Related.refl {body : PrototypeObject κ} (h : heap.node? a = some (.object body)) :
    heap.Related a a :=
  ⟨a, .refl, .refl h⟩

theorem Related.trans (hfamilial : heap.Familial) (h : heap.Related a b) (h' : heap.Related b c) :
    heap.Related a c := by
  obtain ⟨ancestor, hclimb, hfamily⟩ := h
  obtain ⟨ancestor', hclimb', hfamily'⟩ := h'
  obtain ⟨like, hlike, hsame⟩ := hfamilial.climb hfamily hclimb'
  exact ⟨like, hclimb.trans hlike, hsame.trans hfamily'⟩

/-! ## Walks -/

theorem familyOf?_of_object {body : PrototypeObject κ} (h : heap.node? a = some (.object body)) :
    heap.familyOf? (.object a) = .ok (some body.family) := by
  rw [familyOf?, get_eq_ok_iff.mpr h]
  rfl

theorem isCloneOf_of_objects {body other : PrototypeObject κ} (ha : heap.node? a = some (.object body))
    (hb : heap.node? b = some (.object other)) :
    heap.isCloneOf a (.object b) = .ok (body.family == other.family) := by
  rw [isCloneOf, familyOf?_of_object ha, familyOf?_of_object hb]
  rfl

theorem isCloneOf_iff {body other : PrototypeObject κ} (ha : heap.node? a = some (.object body))
    (hb : heap.node? b = some (.object other)) :
    heap.isCloneOf a (.object b) = .ok true ↔ heap.SameFamily a b := by
  rw [isCloneOf_of_objects ha hb]
  constructor
  · intro h
    exact ⟨body, other, ha, hb, beq_iff_eq.mp (Except.ok.inj h)⟩
  · rintro ⟨body', other', ha', hb', hfamily⟩
    cases ha.symm.trans ha'
    cases hb.symm.trans hb'
    rw [hfamily, beq_self_eq_true]

/-- Objects of one family are clones of the same. -/
theorem SameFamily.isCloneOf_eq (h : heap.SameFamily a b) (other : Value κ) :
    heap.isCloneOf a other = heap.isCloneOf b other := by
  obtain ⟨body, body', ha, hb, hfamily⟩ := h
  rw [isCloneOf, isCloneOf, familyOf?_of_object ha, familyOf?_of_object hb, hfamily]

/-- One step of a walk from an object. -/
theorem relatedFrom_succ {body : PrototypeObject κ} (ha : heap.node? a = some (.object body))
    (other : Value κ) (fuel : Nat) :
    heap.relatedFrom other (fuel + 1) a = (do
      if ← heap.isCloneOf a other then return .decided true
      else
        match ← heap.parentStep (.object body) with
        | .inl parent => heap.relatedFrom other fuel parent
        | .inr ended => return ended) := by
  rw [relatedFrom, get_eq_ok_iff.mpr ha]
  rfl

/-- What a walk does next, where it goes on to a parent. -/
theorem parentStep_eq_inl_iff {body : PrototypeObject κ} :
    heap.parentStep (.object body) = .ok (.inl b) ↔
      body.dynamicParent = .object b ∧ ∃ above, heap.node? b = some (.object above) := by
  unfold parentStep
  cases hparent : body.dynamicParent with
  | object parent =>
    simp only [Node.dynamicParent, hparent, Value.object.injEq]
    cases hnode : heap.node? parent with
    | none =>
      rw [get_eq_error_iff.mpr ⟨hnode, rfl⟩]
      constructor
      · intro h
        cases h
      · rintro ⟨rfl, above, habove⟩
        cases hnode.symm.trans habove
    | some node =>
      rw [get_eq_ok_iff.mpr hnode]
      cases node with
      | object above =>
        refine ⟨fun h => ?_, fun h => ?_⟩
        · cases h
          exact ⟨rfl, above, hnode⟩
        · obtain ⟨rfl, -⟩ := h
          rfl
      | mirage | frame =>
        constructor
        · intro h
          cases h
        · rintro ⟨rfl, above, habove⟩
          cases hnode.symm.trans habove
  | _ =>
    simp only [Node.dynamicParent, hparent]
    constructor
    · intro h
      cases h
    · rintro ⟨h, -⟩
      cases h

/-- Where a walk does not go on, it has found nothing, and asks no plain object. -/
theorem parentStep_eq_inr {node : Node κ} {ended : Walk κ}
    (h : heap.parentStep node = .ok (.inr ended)) :
    ended = .decided false ∨ ∃ parent, ended = .ask parent ∧
      ∀ id above, parent = .object id → heap.node? id ≠ some (.object above) := by
  unfold parentStep at h
  cases hparent : node.dynamicParent with
  | nil =>
    rw [hparent] at h
    cases h
    exact .inl rfl
  | object parent =>
    simp only [hparent] at h
    cases hget : heap.get parent with
    | error reason =>
      rw [hget] at h
      cases h
    | ok found =>
      rw [hget] at h
      cases found with
      | object body => cases h
      | mirage | frame =>
        cases h
        refine .inr ⟨_, rfl, fun id above hid habove => ?_⟩
        cases hid
        cases (get_eq_ok_iff.mp hget).symm.trans habove
  | _ =>
    simp only [hparent] at h
    cases h
    exact .inr ⟨_, rfl, fun _ _ hid => nomatch hid⟩

/-- Wherever in a family a walk starts, it ends in the same way. -/
theorem Familial.relatedFrom_eq (h : heap.Familial) (hfamily : heap.SameFamily a b) (other : Value κ)
    (fuel : Nat) : heap.relatedFrom other fuel a = heap.relatedFrom other fuel b := by
  induction fuel generalizing a b with
  | zero => rfl
  | succ fuel ih =>
    have hclone := hfamily.isCloneOf_eq other
    obtain ⟨body, body', ha, hb, hsame⟩ := hfamily
    rw [relatedFrom_succ ha, relatedFrom_succ hb, hclone]
    rcases (h a b body body' ha hb hsame).parent with hidentical | ⟨p, q, hp, hq, hkin⟩
    · have hstep : heap.parentStep (.object body) = heap.parentStep (.object body') := by
        unfold parentStep
        rw [show (Node.object body).dynamicParent = (Node.object body').dynamicParent from hidentical]
      rw [hstep]
    · rw [parentStep_eq_inl_iff.mpr ⟨hp, hkin.isObject⟩,
        parentStep_eq_inl_iff.mpr ⟨hq, hkin.symm.isObject⟩]
      simp only [bind, Except.bind, ih hkin]

/-- A walk ends where it starts, at the next parent's end, or for want of one. -/
theorem relatedFrom_eq_ok {body other : PrototypeObject κ} (ha : heap.node? a = some (.object body))
    (hb : heap.node? b = some (.object other)) {fuel : Nat} {ended : Walk κ}
    (h : heap.relatedFrom (.object b) (fuel + 1) a = .ok ended) :
    (heap.SameFamily a b ∧ ended = .decided true) ∨
      (∃ parent, heap.ChildOf a parent ∧ heap.relatedFrom (.object b) fuel parent = .ok ended) ∨
        heap.parentStep (.object body) = .ok (.inr ended) := by
  rw [relatedFrom_succ ha, isCloneOf_of_objects ha hb] at h
  by_cases hfamily : body.family = other.family
  · rw [hfamily, beq_self_eq_true] at h
    cases h
    exact .inl ⟨⟨body, other, ha, hb, hfamily⟩, rfl⟩
  · simp only [bind, Except.bind, beq_eq_false_iff_ne.mpr hfamily, Bool.false_eq_true, if_false] at h
    cases hstep : heap.parentStep (.object body) with
    | error reason =>
      rw [hstep] at h
      cases h
    | ok step =>
      rw [hstep] at h
      cases step with
      | inl parent =>
        obtain ⟨hparent, above, habove⟩ := parentStep_eq_inl_iff.mp hstep
        exact .inr (.inl ⟨parent, ⟨body, above, ha, hparent, habove⟩, h⟩)
      | inr result =>
        cases h
        exact .inr (.inr rfl)

/-- A walk that finds a clone has come to a relative. -/
theorem related_of_relatedFrom {body other : PrototypeObject κ} (ha : heap.node? a = some (.object body))
    (hb : heap.node? b = some (.object other)) {fuel : Nat}
    (h : heap.relatedFrom (.object b) fuel a = .ok (.decided true)) : heap.Related a b := by
  induction fuel generalizing a body with
  | zero => cases h
  | succ fuel ih =>
    rcases relatedFrom_eq_ok ha hb h with ⟨hfamily, -⟩ | ⟨parent, hstep, hrest⟩ | hstep
    · exact ⟨a, .refl, hfamily⟩
    · have ⟨_, above, _, _, habove⟩ := hstep
      obtain ⟨ancestor, hclimb, hsame⟩ := ih habove hrest
      exact ⟨ancestor, .head hstep hclimb, hsame⟩
    · rcases parentStep_eq_inr hstep with hended | ⟨_, hended, -⟩ <;> cases hended

/-- What a walk asks is no plain object. -/
theorem not_plain_of_relatedFrom {body other : PrototypeObject κ}
    (ha : heap.node? a = some (.object body))
    (hb : heap.node? b = some (.object other)) {fuel : Nat} {asked : Value κ}
    (h : heap.relatedFrom (.object b) fuel a = .ok (.ask asked)) {id : ObjectId}
    {above : PrototypeObject κ} (hid : asked = .object id) : heap.node? id ≠ some (.object above) := by
  induction fuel generalizing a body with
  | zero => cases h
  | succ fuel ih =>
    rcases relatedFrom_eq_ok ha hb h with ⟨-, hended⟩ | ⟨parent, hstep, hrest⟩ | hstep
    · cases hended
    · obtain ⟨_, next, -, -, hnext⟩ := hstep
      exact ih hnext hrest
    · rcases parentStep_eq_inr hstep with hended | ⟨_, hended, hplain⟩ <;> cases hended
      exact hplain id above hid

/-- A walk to a relative finds it, or goes past as many nodes as it may. -/
theorem Related.relatedFrom_cases {other : PrototypeObject κ} (h : heap.Related a b)
    (hb : heap.node? b = some (.object other)) (fuel : Nat) :
    heap.relatedFrom (.object b) fuel a = .ok (.decided true) ∨
      ∃ passed : List ObjectId, passed.length = fuel ∧ passed.IsChain (heap.Ascends .dynamic) ∧
        (∀ id ∈ passed, heap.contains id = true) ∧ ∀ first ∈ passed.head?, first = a := by
  induction fuel generalizing a with
  | zero => exact .inr ⟨[], rfl, .nil, (fun _ hmem => by cases hmem), fun _ hmem => by cases hmem⟩
  | succ fuel ih =>
    obtain ⟨ancestor, hclimb, hsame⟩ := h
    obtain ⟨body, ha⟩ : ∃ body, heap.node? a = some (.object body) := by
      rcases hclimb.cases_head with rfl | ⟨next, ⟨body, -, ha, -, -⟩, -⟩
      · exact hsame.isObject
      · exact ⟨body, ha⟩
    rw [relatedFrom_succ ha, isCloneOf_of_objects ha hb]
    by_cases hfamily : body.family = other.family
    · rw [hfamily, beq_self_eq_true]
      exact .inl rfl
    · simp only [bind, Except.bind, beq_eq_false_iff_ne.mpr hfamily, Bool.false_eq_true, if_false]
      rcases hclimb.cases_head with rfl | ⟨next, hstep, hrest⟩
      · exact absurd ((isCloneOf_iff ha hb).mpr hsame) (by
          rw [isCloneOf_of_objects ha hb, beq_eq_false_iff_ne.mpr hfamily]
          exact fun h => nomatch h)
      · have hascends := hstep.ascends
        obtain ⟨body', above, ha', hparent, habove⟩ := hstep
        cases ha.symm.trans ha'
        rw [parentStep_eq_inl_iff.mpr ⟨hparent, above, habove⟩]
        rcases ih ⟨ancestor, hrest, hsame⟩ with hfound | ⟨passed, rfl, hchain, hpassed, hfirst⟩
        · exact .inl hfound
        · refine .inr ⟨a :: passed, rfl, List.isChain_cons.mpr ⟨fun first hmem => ?_, hchain⟩, ?_, ?_⟩
          · obtain rfl := hfirst first hmem
            exact hascends
          · intro id hmem
            rcases List.mem_cons.mp hmem with rfl | hmem
            · exact contains_of_node? ha
            · exact hpassed id hmem
          · intro first hmem
            exact (Option.some.inj hmem).symm

/-- Without circles a walk finds out whether one object is related to another. -/
theorem AcyclicAlong.relatedFrom_iff (h : heap.AcyclicAlong .dynamic) {body other : PrototypeObject κ}
    (ha : heap.node? a = some (.object body)) (hb : heap.node? b = some (.object other)) :
    heap.relatedFrom (.object b) heap.walkLimit a = .ok (.decided true) ↔ heap.Related a b := by
  refine ⟨related_of_relatedFrom ha hb, fun hrelated => ?_⟩
  rcases hrelated.relatedFrom_cases hb heap.walkLimit with hfound | ⟨passed, hlength, hchain, hpassed, -⟩
  · exact hfound
  · exact absurd hlength (h.length_lt_walkLimit hchain hpassed).ne

end Heap

/-! ## Messages -/

namespace World

variable {w u : World κ σ} {a b : ObjectId} {body other : PrototypeObject κ} {host : Host κ σ}

/-- An object performs what it is sent, with one step less. -/
theorem send_of_object (ha : w.heap.node? a = some (.object body)) (host : Host κ σ) (steps : Nat)
    (message : Message κ) :
    (Runtime.ofFuel host (steps + 1)).send (.object a) message w =
      (Runtime.ofFuel host steps).performDefault a message w :=
  (Runtime.ofFuel host steps).dispatchBy_plain _ ha message

theorem send_isCloneOf (ha : w.heap.node? a = some (.object body))
    (hb : w.heap.node? b = some (.object other)) (host : Host κ σ) (steps : Nat) :
    (Runtime.ofFuel host (steps + 1)).send (.object a) (.isCloneOf (.object b)) w =
      .ok (.bool (body.family == other.family)) w := by
  rw [send_of_object ha]
  show EStateM.map Value.bool (Runtime.defaultIsCloneOf a (.object b)) w = _
  simp only [EStateM.map, Runtime.defaultIsCloneOf, Run.ofHeap, Run.observe,
    Heap.isCloneOf_of_objects ha hb]

/-- What an object does to find out whether it is related to a value. -/
theorem send_isRelatedTo (ha : w.heap.node? a = some (.object body)) (host : Host κ σ) (steps : Nat)
    (value : Value κ) :
    (Runtime.ofFuel host (steps + 1)).send (.object a) (.isRelatedTo value) w =
      match w.heap.relatedFrom value w.heap.walkLimit a with
      | .ok (.decided answer) => .ok (.bool answer) w
      | .ok (.ask parent) => (Value.bool <$> do
          Run.check ((← (Runtime.ofFuel host steps).send parent (.isRelatedTo value)).expectBool
            "isRelatedTo result")) w
      | .error reason => .error reason w := by
  rw [send_of_object ha]
  show EStateM.map Value.bool (EStateM.bind _ _) w = _
  simp only [EStateM.map, EStateM.bind, Run.ofHeap, Run.observe]
  cases w.heap.relatedFrom value w.heap.walkLimit a with
  | error reason => rfl
  | ok ended => cases ended <;> rfl

/-- Objects of one family are related to the same, and find out in the same way. -/
theorem send_isRelatedTo_eq (hw : w.heap.Familial) (h : w.heap.SameFamily a b) (host : Host κ σ)
    (steps : Nat) (value : Value κ) :
    (Runtime.ofFuel host steps).send (.object a) (.isRelatedTo value) w =
      (Runtime.ofFuel host steps).send (.object b) (.isRelatedTo value) w := by
  cases steps with
  | zero => rfl
  | succ steps =>
    obtain ⟨body, ha⟩ := h.isObject
    obtain ⟨other, hb⟩ := h.symm.isObject
    rw [send_isRelatedTo ha, send_isRelatedTo hb, hw.relatedFrom_eq h]

/-- Nobody but an object says that it is related to one. -/
theorem send_isRelatedTo_ne_true (hunmirrored : ∀ id mirage, w.heap.node? id ≠ some (.mirage mirage))
    {value : Value κ} (hplain : ∀ id above, value = .object id → w.heap.node? id ≠ some (.object above))
    (host : Host κ σ) (steps : Nat) (b : ObjectId) (after : World κ σ) :
    (Runtime.ofFuel host steps).send value (.isRelatedTo (.object b)) w ≠ .ok (.bool true) after := by
  cases steps with
  | zero => exact fun h => nomatch h
  | succ steps =>
    cases value with
    | object id =>
      show (Run.node id >>= _) w ≠ _
      rw [Run.node_bind]
      cases hnode : w.heap.node? id with
      | none =>
        rw [Heap.get_eq_error_iff.mpr ⟨hnode, rfl⟩]
        exact fun h => nomatch h
      | some node =>
        rw [Heap.get_eq_ok_iff.mpr hnode]
        cases node with
        | object above => exact absurd hnode (hplain id above rfl)
        | mirage m => exact absurd hnode (hunmirrored id m)
        | frame frame => exact fun h => nomatch h
    | _ => exact fun h => nomatch h

/-- Where there are no circles, an object that is related to another one says so. -/
theorem send_isRelatedTo_of_related (hacyclic : w.heap.AcyclicAlong .dynamic)
    (ha : w.heap.node? a = some (.object body)) (hb : w.heap.node? b = some (.object other))
    (h : w.heap.Related a b) (host : Host κ σ) (steps : Nat) :
    (Runtime.ofFuel host (steps + 1)).send (.object a) (.isRelatedTo (.object b)) w =
      .ok (.bool true) w := by
  rw [send_isRelatedTo ha, (hacyclic.relatedFrom_iff ha hb).mpr h]

/-- Where there are no mirages, an object that says that it is related to another one is. -/
theorem related_of_send (hunmirrored : ∀ id mirage, w.heap.node? id ≠ some (.mirage mirage))
    (ha : w.heap.node? a = some (.object body)) (hb : w.heap.node? b = some (.object other))
    {steps : Nat}
    (h : (Runtime.ofFuel host steps).send (.object a) (.isRelatedTo (.object b)) w =
      .ok (.bool true) u) :
    w.heap.Related a b := by
  cases steps with
  | zero => cases h
  | succ steps =>
    rw [send_isRelatedTo ha] at h
    cases hwalk : w.heap.relatedFrom (.object b) w.heap.walkLimit a with
    | error reason =>
      rw [hwalk] at h
      cases h
    | ok ended =>
      rw [hwalk] at h
      cases ended with
      | decided answer =>
        cases h
        exact Heap.related_of_relatedFrom ha hb hwalk
      | ask parent =>
        change (Value.bool <$> ((Runtime.ofFuel host steps).send parent (.isRelatedTo (.object b)) >>=
          fun answer => Run.check (answer.expectBool "isRelatedTo result")) : Run κ σ (Value κ)) w = _ at h
        rw [← bind_pure_comp, bind_assoc] at h
        obtain ⟨answer, after, hsent, hrest⟩ := Run.eq_ok_of_bind h
        have hanswer : answer = .bool true := by
          cases answer with
          | bool answer => cases hrest; rfl
          | _ => cases hrest
        rw [hanswer] at hsent
        exact absurd hsent (send_isRelatedTo_ne_true hunmirrored
          (fun _ _ hid => Heap.not_plain_of_relatedFrom ha hb hwalk hid) host steps b after)

end World

end Prototypes
