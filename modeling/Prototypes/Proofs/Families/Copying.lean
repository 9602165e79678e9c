import Prototypes.Proofs.Cloning.Recursion
import Prototypes.Proofs.Families.Pedigrees

/-!
# Cloning within families

Cloning an object copies the stretch of plain is-a parents above it, from the top down.  Each
copy is put on the copy of its source's parent, and the topmost on what that one's own parent
answers as its clone.  So long as there are no mirages that is the parent itself: it is a
singleton, or no heap node.

Code of others runs in the meantime, when custom fields are made anew, and may clone the same
objects again.  What carries the induction is that it cannot change what a node was made as
(`World.Tracked`).

## Main results

* `Runtime.Tracking.defaultClone` — a clone is of its source's family, and all that was copied
  with it has been entered into the pedigree.
-/

namespace Prototypes

variable {κ σ : Type}

open Run (Steady Ends)

/-! ## Worlds that are tracked -/

namespace World

variable {p : Pedigree} {start u v w : World κ σ}

/-- The world has a pedigree. -/
def Recorded (w : World κ σ) : Prop := ∃ p, w.Descends p

/-- The same world, which has a pedigree, and has grown from `start`. -/
def Tracked (start v w : World κ σ) : Prop := v = w ∧ v.Recorded ∧ start.Grows v

theorem Recorded.free (h : w.Recorded) : w.heap.FreeListExact := by
  obtain ⟨p, hp⟩ := h
  exact hp.documented.free

theorem Recorded.unmirrored (h : w.Recorded) {id : ObjectId} {mirage : Mirage κ} :
    w.heap.node? id ≠ some (.mirage mirage) := by
  obtain ⟨p, hp⟩ := h
  exact hp.documented.unmirrored id mirage

theorem Grows.object (h : v.Grows w) {id : ObjectId} {body : PrototypeObject κ}
    (hbody : v.heap.node? id = some (.object body)) :
    ∃ later, w.heap.node? id = some (.object later) ∧ later.family = body.family ∧
      later.dynamicParent = body.dynamicParent := by
  obtain ⟨after, hafter, hstays⟩ := h.nodes hbody
  cases after with
  | object later => exact ⟨later, hafter, Option.some.inj hstays.family, hstays.dynamicParent⟩
  | mirage m => cases hstays.plain
  | frame frame => cases hstays.plain

theorem Grows.sameFamily (h : v.Grows w) {a b : ObjectId} (hfamily : v.heap.SameFamily a b) :
    w.heap.SameFamily a b := by
  refine hfamily.mono (fun body hbody => ?_) fun body hbody => ?_
  · obtain ⟨later, hlater, hfamily, -⟩ := h.object hbody
    exact ⟨later, hlater, hfamily⟩
  · obtain ⟨later, hlater, hfamily, -⟩ := h.object hbody
    exact ⟨later, hlater, hfamily⟩

/-- What an object descends from remains what it descends from. -/
theorem Descends.origin_eq {q : Pedigree} (hv : v.Descends p) (hw : w.Descends q) (h : v.Grows w)
    {id : ObjectId} (hid : v.heap.IsObject id) : q.origin id = p.origin id := by
  obtain ⟨body, hbody⟩ := hid
  obtain ⟨later, hlater, hfamily, -⟩ := h.object hbody
  obtain ⟨hbefore, -⟩ := hv.documented.origin id body hbody
  obtain ⟨hafter, -⟩ := hw.documented.origin id later hlater
  rw [hbefore, hafter] at hfamily
  simpa using hfamily

theorem Grows.found (hfree : v.heap.FreeListExact) (parent : Value κ) (link : ParentLink)
    (scope : Option ObjectId) (tags : List TypeTag) : v.Grows (v.found parent link scope tags) := by
  have hdrawn : v.Grows { v with heap := v.heap.newFamily.2, supply := v.supply + 1 } :=
    SameNodes.grows ⟨rfl, rfl, rfl, rfl, rfl⟩
  exact hdrawn.trans (Grows.allocate (hfree.follows .newFamily) _)

/-- In the later world the object is of the family that was next in the earlier one. -/
def HasOriginal (v w : World κ σ) (id : ObjectId) : Prop :=
  ∃ body, w.heap.node? id = some (.object body) ∧ body.family = ⟨v.heap.families + 1⟩

theorem hasOriginal_found (hfree : v.heap.FreeListExact) (parent : Value κ) (link : ParentLink)
    (scope : Option ObjectId) (tags : List TypeTag) :
    v.HasOriginal (v.found parent link scope tags) v.heap.nextId := by
  have hdrawn : v.heap.newFamily.2.FreeListExact := hfree.follows .newFamily
  exact ⟨v.newBody parent link scope tags, (hdrawn.node?_allocate _ _).trans (if_pos rfl), rfl⟩

namespace HasOriginal

variable {id : ObjectId}

theorem isObject (h : v.HasOriginal w id) : w.heap.IsObject id := by
  obtain ⟨body, hbody, -⟩ := h
  exact ⟨body, hbody⟩

theorem grows (h : v.HasOriginal w id) (hgrows : w.Grows u) : v.HasOriginal u id := by
  obtain ⟨body, hbody, hfamily⟩ := h
  obtain ⟨later, hlater, hsame, -⟩ := hgrows.object hbody
  exact ⟨later, hlater, hsame.trans hfamily⟩

/-- Nobody who was there before descends from what the object does. -/
theorem origin_ne {q : Pedigree} (h : v.HasOriginal w id) (hv : v.Descends p) (hw : w.Descends q)
    (hgrows : v.Grows w) {other : ObjectId} (hother : v.heap.IsObject other) :
    q.origin other ≠ q.origin id := by
  rw [hv.origin_eq hw hgrows hother]
  obtain ⟨body, hbody⟩ := hother
  obtain ⟨-, hlt⟩ := hv.documented.origin other body hbody
  obtain ⟨first, hfirst, hfamily⟩ := h
  obtain ⟨horigin, -⟩ := hw.documented.origin id first hfirst
  rw [horigin, hv.documented.families] at hfamily
  have hnumber := congrArg CloneFamily.number hfamily
  dsimp only at hnumber
  omega

end HasOriginal

namespace Tracked

theorem refl (h : w.Recorded) : Tracked w w w := ⟨rfl, h, .refl w⟩

theorem earlier (h : Tracked v w w) (hstart : start.Grows v) : Tracked start w w :=
  ⟨rfl, h.2.1, hstart.trans h.2.2⟩

/-- What is no heap node may change. -/
theorem aside (h : Tracked start v v) (supply : Nat) (log : Array Event) (host : σ) :
    Tracked start { v with supply, log, host } { v with supply, log, host } := by
  obtain ⟨-, ⟨p, hp⟩, hgrows⟩ := h
  exact ⟨rfl, ⟨p, hp.aside supply log host⟩,
    hgrows.trans (SameNodes.grows ⟨rfl, rfl, rfl, rfl, rfl⟩)⟩

/-- Slots may change. -/
theorem editable (id : ObjectId) : World.Editable (Tracked start) id := by
  rintro v _ node slots hnode - ⟨rfl, ⟨p, hp⟩, hgrows⟩
  exact ⟨rfl, ⟨p, hp.edit slots hnode⟩, hgrows.trans (.replace hnode (.withSlots node slots))⟩

instance affinity : World.Affinity (Tracked start) where
  visible h := congrArg World.visible h.1
  found := by
    rintro v _ parent link scope tags ⟨rfl, ⟨p, hp⟩, hgrows⟩
    exact ⟨rfl, ⟨_, hp.found parent link scope tags⟩, hgrows.trans (.found hp.documented.free ..)⟩
  enter := by
    rintro v _ layout scope ⟨rfl, ⟨p, hp⟩, hgrows⟩
    exact ⟨rfl, ⟨p, hp.enter _⟩, hgrows.trans (.allocate hp.documented.free _)⟩
  editFields hnode hedit _ h := editable _ hnode hedit h
  setSupply := by
    rintro v _ supply ⟨rfl, h⟩
    exact aside ⟨rfl, h⟩ supply v.log v.host
  setHost := by
    rintro v _ host ⟨rfl, h⟩
    exact aside ⟨rfl, h⟩ v.supply v.log host
  append := by
    rintro v _ events ⟨rfl, h⟩
    exact aside ⟨rfl, h⟩ v.supply (v.log ++ events) v.host

end Tracked

end World

/-- What is kept from where a run begins is kept from earlier on. -/
theorem Run.Ends.tracked_earlier {α : Type} {start v : World κ σ} {post : α → World κ σ → Prop}
    {result : EStateM.Result Halt (World κ σ) α} (h : Ends (World.Tracked v) post result)
    (hstart : start.Grows v) : Ends (World.Tracked start) post result :=
  h.mono (fun _ hw => hw.earlier hstart) fun _ _ _ => id

/-! ## Copies -/

namespace Runtime

variable {rt : Runtime κ σ} {start v w : World κ σ}

/-- Every call keeps track. -/
def Tracking (rt : Runtime κ σ) : Prop := ∀ start : World κ σ, Below (World.Tracked start) rt rt

/-- What is not cloned along with its children is its own clone. -/
def ClonesInPlace (rt : Runtime κ σ) : Prop :=
  ∀ {v w : World κ σ} {parent answer : Value κ}, v.Recorded →
    (∀ id body, parent = .object id → v.heap.node? id = some (.object body) →
      body.flags.singleton = true) →
    rt.send parent .clone v = .ok answer w → answer = parent

/-- What is extended is answered as an original. -/
theorem Tracking.extendWith (hrt : rt.Tracking) (hv : v.Recorded) (parent : Value κ) (link : ParentLink)
    (code : Value κ) (tags : List TypeTag) :
    Ends (World.Tracked v) (fun answer w => ∃ id, answer = .object id ∧ v.HasOriginal w id)
      (rt.extendWith parent link code tags v) := by
  unfold Runtime.extendWith
  cases code.expectClosure "extension code" with
  | error reason => exact .error _ (.refl hv)
  | ok closure =>
    have hfree := hv.free
    obtain ⟨p, hp⟩ := hv
    have hfound : (v.found parent link (some closure.context.scope) tags).Recorded :=
      ⟨_, hp.found parent link _ tags⟩
    have horiginal := World.hasOriginal_found hfree parent link (some closure.context.scope) tags
    rw [Run.check_ok_bind, Run.newBody_allocate_bind]
    refine Ends.tracked_earlier ?_ (World.Grows.found hfree parent link (some closure.context.scope) tags)
    refine (Ends.of_steady (Run.Below.report _) (.refl hfound)).bind fun _ w hw _ => ?_
    refine (Ends.of_steady ((hrt _).applyInScope closure [] _).ignore hw).bind fun _ u hu _ => ?_
    exact .ok hu ⟨_, rfl, horiginal.grows hu.2.2⟩

/-- The copy of an object is of its family. -/
theorem Tracking.cloneNode (hrt : rt.Tracking) (hv : v.Recorded) {source : ObjectId} {parent : Value κ}
    (hparent : ∀ body, v.heap.node? source = some (.object body) →
      v.heap.Kin parent body.dynamicParent) :
    Ends (World.Tracked v) (fun copy w => w.heap.SameFamily copy source)
      (rt.cloneNode source parent .object v) := by
  unfold Runtime.cloneNode
  rw [Run.node_bind]
  cases hnode : v.heap.node? source with
  | none =>
    rw [Heap.get_eq_error_iff.mpr ⟨hnode, rfl⟩]
    exact .error _ (.refl hv)
  | some node =>
    rw [Heap.get_eq_ok_iff.mpr hnode]
    cases node with
    | mirage m => exact absurd hnode hv.unmirrored
    | frame frame => exact .error _ (.refl hv)
    | object body =>
      have hfree := hv.free
      obtain ⟨p, hp⟩ := hv
      dsimp only [Node.body?]
      rw [Run.allocate_bind]
      have hcopied : World.Recorded
          { v with heap := (v.heap.allocate (.object (body.copied parent))).2 } :=
        ⟨_, hp.copy hnode (hparent body hnode)⟩
      have hgrown : v.Grows { v with heap := (v.heap.allocate (.object (body.copied parent))).2 } :=
        .allocate hfree _
      have hfamily : (v.heap.allocate (.object (body.copied parent))).2.SameFamily
          v.heap.nextId source :=
        ⟨body.copied parent, body, (hfree.node?_allocate _ _).trans (if_pos rfl),
          Heap.Keeps.allocate hfree _ _ _ hnode, rfl⟩
      have hrenewed := Ends.of_steady ((hrt _).renewCustom (World.Tracked.editable v.heap.nextId) body.slots.custom)
        (.refl hcopied)
      refine Ends.tracked_earlier (hrenewed.bind fun _ w hw _ => ?_) hgrown
      exact .ok hw (hw.2.2.sameFamily hfamily)

/-- What the topmost copy is put on is the parent of its source. -/
theorem Tracking.clonedParent (hrt : rt.Tracking) (hplace : rt.ClonesInPlace) (hv : v.Recorded)
    {top : ObjectId} (htop : v.heap.clonedAlong? top = .ok none) :
    Ends (World.Tracked v) (fun parent _ => ∀ body, v.heap.node? top = some (.object body) →
      parent = body.dynamicParent) (rt.clonedParent top v) := by
  refine (Ends.of_steady ((hrt v).clonedParent top) (.refl hv)).mono (fun _ => id)
    fun parent w _ hanswer body hbody => ?_
  unfold Runtime.clonedParent at hanswer
  rw [Run.node_bind_of_some hbody] at hanswer
  dsimp only [Node.body?] at hanswer
  cases hlink : body.link with
  | sharesA =>
    rw [hlink] at hanswer
    cases hanswer
    rfl
  | isA =>
    rw [hlink] at hanswer
    refine hplace hv (fun id above hid habove => ?_) hanswer
    rw [Heap.clonedAlong?_of_isA hbody rfl hlink hid, Heap.get_eq_ok_iff.mpr habove] at htop
    cases hsingleton : above.flags.singleton with
    | true => rfl
    | false =>
      simp only [bind, Except.bind, hsingleton] at htop
      cases htop

/-- The parent of an object is what it was when the world was another. -/
private theorem kin_of_grows (hgrows : v.Grows w) {source : ObjectId} {parent : Value κ}
    (hlive : v.heap.contains source = true)
    (hparent : ∀ body, v.heap.node? source = some (.object body) →
      w.heap.Kin parent body.dynamicParent)
    (later : PrototypeObject κ) (hlater : w.heap.node? source = some (.object later)) :
    w.heap.Kin parent later.dynamicParent := by
  obtain ⟨node, hnode⟩ := Heap.contains_iff.mp hlive
  obtain ⟨after, hafter, hstays⟩ := hgrows.nodes hnode
  cases hlater.symm.trans hafter
  cases node with
  | object body =>
    rw [show later.dynamicParent = body.dynamicParent from hstays.dynamicParent]
    exact hparent body hnode
  | mirage m => cases hstays.plain
  | frame frame => cases hstays.plain

private theorem contains_of_clonedAlong? {heap : Heap κ} {id : ObjectId} {above : Option ObjectId}
    (h : heap.clonedAlong? id = .ok above) : heap.contains id = true := by
  cases hnode : heap.node? id with
  | some node => exact Heap.contains_of_node? hnode
  | none =>
    unfold Heap.clonedAlong? at h
    rw [Heap.get_eq_error_iff.mpr ⟨hnode, rfl⟩] at h
    cases h

/-- The copies of a stretch are of the families of their sources, from the top down. -/
theorem Tracking.cloneStretch (hrt : rt.Tracking) {id : ObjectId} {ids : List ObjectId}
    (hclimb : v.heap.Stretch id ids) (hw : World.Tracked v w w) {parent : Value κ}
    (hparent : ∀ top body, ids.getLast? = some top → v.heap.node? top = some (.object body) →
      parent = body.dynamicParent) (last : ObjectId) :
    Ends (World.Tracked v) (fun copy u => u.heap.SameFamily copy id)
      (rt.cloneStretch ids.reverse last parent w) := by
  unfold Heap.Stretch at hclimb
  generalize hending : (Except.ok () : Except Halt Unit) = ending at hclimb
  induction hclimb generalizing parent with
  | stop => cases hending
  | @top id htop =>
    simp only [List.reverse_singleton, Runtime.cloneStretch, bind_pure]
    refine (hrt.cloneNode hw.2.1 ?_).tracked_earlier hw.2.2
    exact kin_of_grows hw.2.2 (contains_of_clonedAlong? htop) fun body hbody =>
      .inl (hparent id body rfl hbody)
  | @step id above ids _ hstep hrest ih =>
    have hne : ids ≠ [] := by
      rintro rfl
      cases hrest
    have hlast : (id :: ids).getLast? = ids.getLast? := List.getLast?_cons_of_ne_nil hne
    rw [List.reverse_cons, rt.cloneStretch_concat (List.reverse_ne_nil_iff.mpr hne) id last last]
    refine (ih (fun top body htop => hparent top body (hlast.trans htop)) hending).bind
      fun copy u hu hcopy => ?_
    refine (hrt.cloneNode hu.2.1 ?_).tracked_earlier hu.2.2
    refine kin_of_grows hu.2.2 (contains_of_clonedAlong? hstep) fun body hbody => ?_
    obtain ⟨node, _, _, hnode, hsame, -, habove, -, -⟩ := Heap.clonedAlong?_eq_some_iff.mp hstep
    cases hbody.symm.trans hnode
    cases hsame
    rw [habove]
    exact hcopy.kin

/-- The clone of an object is of its family. -/
theorem Tracking.defaultClone (hrt : rt.Tracking) (hplace : rt.ClonesInPlace) (hv : v.Recorded)
    (id : ObjectId) : Ends (World.Tracked v) (fun copy w => w.heap.SameFamily copy id)
      (rt.defaultClone id v) := by
  -- a node that is no singleton is copied with the stretch above it
  have hcopies : Ends (World.Tracked v) (fun copy w => w.heap.SameFamily copy id) ((do
      let stretch ← Run.ofHeap fun heap => heap.stretch id
      let parent ← rt.clonedParent (stretch.getLast?.getD id)
      let copy ← rt.cloneStretch stretch.reverse id parent
      Run.report (.cloned id copy stretch.length)
      return copy : Run κ σ ObjectId) v) := by
    refine (Ends.of_steady (Run.Below.ofHeap _) (.refl hv)).bind fun stretch w hw hstretch => ?_
    obtain ⟨hstretch, rfl⟩ := Run.observe_eq_ok hstretch
    have hclimb := Heap.stretch_eq_ok_iff.mp hstretch
    obtain ⟨top, hlast, htop⟩ := hclimb.exists_top
    rw [hlast]
    refine (hrt.clonedParent hplace hv htop).bind fun parent u hu hparent => ?_
    have hends := hrt.cloneStretch hclimb hu (fun other body hother => by
      cases hlast.symm.trans hother
      exact hparent body) id
    exact hends.bind fun copy u' hu' hfamily =>
      .ok (World.Affinity.push hu' _) hfamily
  unfold Runtime.defaultClone
  rw [Run.node_bind]
  cases hnode : v.heap.node? id with
  | none =>
    rw [Heap.get_eq_error_iff.mpr ⟨hnode, rfl⟩]
    exact .error _ (.refl hv)
  | some node =>
    rw [Heap.get_eq_ok_iff.mpr hnode]
    cases node with
    | mirage m => exact absurd hnode hv.unmirrored
    | frame frame => exact hcopies
    | object body =>
      cases hsingleton : body.flags.singleton with
      | true =>
        simp only [Node.body?, Option.any, hsingleton, if_true]
        exact .ok (.refl hv) (.refl hnode)
      | false =>
        simp only [Node.body?, Option.any, hsingleton, Bool.false_eq_true, if_false]
        exact hcopies

/-- So are the answers to the messages that clone. -/
theorem Tracking.performDefault_clone (hrt : rt.Tracking) (hplace : rt.ClonesInPlace)
    (hv : v.Recorded) (id : ObjectId) {message : Message κ}
    (hmessage : message = .clone ∨ ∃ arguments, message = .newInstance arguments) :
    Ends (World.Tracked v) (fun answer w => ∃ copy, answer = .object copy ∧ w.heap.SameFamily copy id)
      (rt.performDefault id message v) := by
  have hclone := hrt.defaultClone hplace hv id
  rcases hmessage with rfl | ⟨arguments, rfl⟩
  · show Ends _ _ ((Value.object <$> rt.defaultClone id) v)
    rw [← bind_pure_comp]
    exact hclone.bind fun copy w hw hfamily => .ok hw ⟨copy, rfl, hfamily⟩
  · refine hclone.bind fun copy w hw hfamily => ?_
    have hinit := Ends.of_steady (((hrt w).invoke (.object copy) Selector.init arguments).ignore)
      (.refl hw.2.1)
    refine Ends.tracked_earlier (hinit.bind fun _ u hu _ => ?_) hw.2.2
    exact .ok hu ⟨copy, rfl, hu.2.2.sameFamily hfamily⟩

end Runtime

end Prototypes
