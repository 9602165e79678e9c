import Mathlib.Logic.Function.Basic
import Prototypes.Proofs.Safety.Worlds

/-!
# Families and pedigrees

A new object is the first of a family, and a copy is of the family of its source.  Where
nothing else makes objects, a family is what descends by copying from one original, and it
stays a family when the original is reclaimed.

A `Pedigree` is a record kept beside a world of which original each object descends from.  It
is no part of the world: `World.Descends` says how it is kept while objects are made,
copied, changed and reclaimed.  In a world with a pedigree there are no mirages.

Objects of one family have the same link, the same tags and the same flags.  Their parents are
the same or are again of one family, since a copy has the parent of its source or a copy of it.

## Main results

* `World.Descends.documented` — in a world with a pedigree, families are numbered as its
  originals are, and objects of one family have in common what they should.
* `World.Documented.sameFamily_iff` — two objects are of one family when they descend from
  the same original.
-/

namespace Prototypes

variable {κ σ : Type}

/-! ## Objects of one family -/

namespace Heap

/-- The handle is that of a plain object. -/
def IsObject (heap : Heap κ) (id : ObjectId) : Prop := ∃ body, heap.node? id = some (.object body)

/-- Both are objects, and of one family. -/
def SameFamily (heap : Heap κ) (a b : ObjectId) : Prop :=
  ∃ body other, heap.node? a = some (.object body) ∧ heap.node? b = some (.object other) ∧
    body.family = other.family

/-- The values are the same, or objects of one family. -/
def Kin (heap : Heap κ) (x y : Value κ) : Prop :=
  x = y ∨ ∃ a b, x = .object a ∧ y = .object b ∧ heap.SameFamily a b

/-- What objects of one family have in common. -/
structure Resemble (heap : Heap κ) (body other : PrototypeObject κ) : Prop where
  link : body.link = other.link
  tags : body.typeTags = other.typeTags
  flags : body.flags = other.flags
  parent : heap.Kin body.dynamicParent other.dynamicParent

/-- Objects of one family have in common what they should. -/
def Familial (heap : Heap κ) : Prop :=
  ∀ a b body other, heap.node? a = some (.object body) → heap.node? b = some (.object other) →
    body.family = other.family → heap.Resemble body other

variable {heap after : Heap κ} {a b c : ObjectId} {x y z : Value κ} {body other : PrototypeObject κ}

theorem SameFamily.refl (h : heap.node? a = some (.object body)) : heap.SameFamily a a :=
  ⟨body, body, h, h, rfl⟩

theorem SameFamily.symm (h : heap.SameFamily a b) : heap.SameFamily b a := by
  obtain ⟨body, other, ha, hb, hfamily⟩ := h
  exact ⟨other, body, hb, ha, hfamily.symm⟩

theorem SameFamily.trans (h : heap.SameFamily a b) (h' : heap.SameFamily b c) :
    heap.SameFamily a c := by
  obtain ⟨first, middle, ha, hb, hfamily⟩ := h
  obtain ⟨middle', last, hb', hc, hfamily'⟩ := h'
  cases hb.symm.trans hb'
  exact ⟨first, last, ha, hc, hfamily.trans hfamily'⟩

theorem SameFamily.isObject (h : heap.SameFamily a b) : heap.IsObject a := by
  obtain ⟨body, -, ha, -, -⟩ := h
  exact ⟨body, ha⟩

theorem SameFamily.kin (h : heap.SameFamily a b) : heap.Kin (.object a) (.object b) :=
  .inr ⟨a, b, rfl, rfl, h⟩

theorem Kin.symm (h : heap.Kin x y) : heap.Kin y x := by
  rcases h with rfl | ⟨a, b, rfl, rfl, h⟩
  · exact .inl rfl
  · exact h.symm.kin

theorem Kin.trans (h : heap.Kin x y) (h' : heap.Kin y z) : heap.Kin x z := by
  rcases h with rfl | ⟨a, b, rfl, rfl, h⟩
  · exact h'
  · rcases h' with rfl | ⟨_, c, hb, rfl, h'⟩
    · exact h.kin
    · cases hb
      exact (h.trans h').kin

theorem Resemble.refl (heap : Heap κ) (body : PrototypeObject κ) : heap.Resemble body body :=
  ⟨rfl, rfl, rfl, .inl rfl⟩

theorem Resemble.symm (h : heap.Resemble body other) : heap.Resemble other body :=
  ⟨h.link.symm, h.tags.symm, h.flags.symm, h.parent.symm⟩

/-- Objects that are there still are of one family if they were. -/
theorem SameFamily.mono (h : heap.SameFamily a b)
    (hleft : ∀ body, heap.node? a = some (.object body) →
      ∃ later, after.node? a = some (.object later) ∧ later.family = body.family)
    (hright : ∀ body, heap.node? b = some (.object body) →
      ∃ later, after.node? b = some (.object later) ∧ later.family = body.family) :
    after.SameFamily a b := by
  obtain ⟨body, other, ha, hb, hfamily⟩ := h
  obtain ⟨body', ha', hbody⟩ := hleft body ha
  obtain ⟨other', hb', hother⟩ := hright other hb
  exact ⟨body', other', ha', hb', hbody.trans (hfamily.trans hother.symm)⟩

namespace Familial

/-- A heap in which objects are what they were but for their slots, and their parents are there. -/
theorem of_earlier (h : heap.Familial)
    (hearlier : ∀ id later, after.node? id = some (.object later) →
      ∃ body, heap.node? id = some (.object body) ∧ later = { body with slots := later.slots })
    (hparents : ∀ id later parent above, after.node? id = some (.object later) →
      later.dynamicParent = .object parent → heap.node? parent = some (.object above) →
        ∃ body, after.node? parent = some (.object body) ∧ body.family = above.family) :
    after.Familial := by
  intro a b body other ha hb hfamily
  obtain ⟨body', ha', hbody⟩ := hearlier a body ha
  obtain ⟨other', hb', hother⟩ := hearlier b other hb
  rw [hbody, hother] at hfamily
  have hresemble := h a b body' other' ha' hb' hfamily
  refine ⟨?_, ?_, ?_, ?_⟩
  · rw [hbody, hother]
    exact hresemble.link
  · rw [hbody, hother]
    exact hresemble.tags
  · rw [hbody, hother]
    exact hresemble.flags
  · have hbodyParent : body.dynamicParent = body'.dynamicParent := by rw [hbody]
    have hotherParent : other.dynamicParent = other'.dynamicParent := by rw [hother]
    rcases hresemble.parent with hsame | ⟨p, q, hp, hq, hkin⟩
    · exact .inl (hbodyParent.trans (hsame.trans hotherParent.symm))
    · rw [hbodyParent, hotherParent, hp, hq]
      exact (hkin.mono (fun above => hparents a body p above ha (hbodyParent.trans hp))
        fun above => hparents b other q above hb (hotherParent.trans hq)).kin

/-- A new object that resembles those of its family. -/
theorem allocate (h : heap.Familial) (hfree : heap.FreeListExact)
    (hnew : ∀ b other, heap.node? b = some (.object other) → body.family = other.family →
      heap.Resemble body other) : (heap.allocate (.object body)).2.Familial := by
  have hread := hfree.node?_allocate (.object body)
  have hkeeps := Keeps.allocate hfree (.object body)
  have hkin {x y : Value κ} (hkin : heap.Kin x y) : (heap.allocate (.object body)).2.Kin x y := by
    rcases hkin with rfl | ⟨p, q, rfl, rfl, hfamily⟩
    · exact .inl rfl
    · exact (hfamily.mono (fun _ hp => ⟨_, hkeeps _ _ hp, rfl⟩)
        fun _ hq => ⟨_, hkeeps _ _ hq, rfl⟩).kin
  have hlater {first second : PrototypeObject κ} (hresemble : heap.Resemble first second) :
      (heap.allocate (.object body)).2.Resemble first second :=
    ⟨hresemble.link, hresemble.tags, hresemble.flags, hkin hresemble.parent⟩
  intro a b first second ha hb hfamily
  rw [hread] at ha hb
  by_cases haNew : a = heap.nextId <;> by_cases hbNew : b = heap.nextId
  · rw [if_pos haNew] at ha
    rw [if_pos hbNew] at hb
    cases ha.symm.trans hb
    exact .refl _ _
  · rw [if_pos haNew] at ha
    rw [if_neg hbNew] at hb
    cases ha
    exact hlater (hnew b second hb hfamily)
  · rw [if_neg haNew] at ha
    rw [if_pos hbNew] at hb
    cases hb
    exact hlater (hnew a first ha hfamily.symm).symm
  · rw [if_neg haNew] at ha
    rw [if_neg hbNew] at hb
    exact hlater (h a b first second ha hb hfamily)

/-- A new frame is no object. -/
theorem enter (h : heap.Familial) (hfree : heap.FreeListExact) (frame : CallFrame κ) :
    (heap.allocate (.frame frame)).2.Familial := by
  have hkeeps := Keeps.allocate hfree (.frame frame)
  refine h.of_earlier (fun id later hlater => ⟨later, ?_, rfl⟩)
    fun _ _ _ _ _ _ habove => ⟨_, hkeeps _ _ habove, rfl⟩
  rw [hfree.node?_allocate] at hlater
  split at hlater
  · cases hlater
  · exact hlater

/-- Other slots leave an object what it is to its family. -/
theorem edit (h : heap.Familial) {id : ObjectId} {node : Node κ} (hnode : heap.node? id = some node)
    (slots : Storage κ) : (heap.replace id (node.withSlots slots)).Familial := by
  have hread := heap.node?_replace_of_contains (contains_of_node? hnode) (node.withSlots slots)
  refine h.of_earlier (fun other later hlater => ?_) fun _ _ parent above _ _ habove => ?_
  · rw [hread] at hlater
    by_cases hother : other = id
    · rw [if_pos hother] at hlater
      cases node with
      | object body =>
        cases hlater
        exact ⟨body, hother ▸ hnode, rfl⟩
      | mirage m => cases hlater
      | frame frame => cases hlater
    · rw [if_neg hother] at hlater
      exact ⟨later, hlater, rfl⟩
  · rw [hread]
    by_cases hparent : parent = id
    · rw [if_pos hparent]
      subst hparent
      cases hnode.symm.trans habove
      exact ⟨_, rfl, rfl⟩
    · rw [if_neg hparent]
      exact ⟨above, habove, rfl⟩

/-- Whoever is left by a collection is left with a parent. -/
theorem collect (h : heap.Familial) {roots : List (Value κ)} {collected : Collected}
    (hcollect : heap.collect roots = .ok (collected, after)) : after.Familial := by
  have hleft := node?_of_collect hcollect
  refine h.of_earlier (fun id later hlater => ⟨later, ((hleft id _).mp hlater).1, rfl⟩)
    fun id later parent above hlater hparent habove => ⟨above, (hleft parent _).mpr ⟨habove, ?_⟩, rfl⟩
  obtain ⟨hbefore, hreached⟩ := (hleft id _).mp hlater
  exact hreached.edge hbefore (Route.dynamic.mem_edges hparent)

end Familial

end Heap

/-! ## Pedigrees -/

/-- Which original each object descends from; originals are numbered as they are made. -/
structure Pedigree where
  origin : ObjectId → Nat
  originals : Nat

namespace Pedigree

/-- The pedigree of a new world, the two roots of which are originals. -/
def roots : Pedigree := ⟨ObjectId.index, 2⟩

/-- The pedigree after `id` was made as an original. -/
def found (pedigree : Pedigree) (id : ObjectId) : Pedigree :=
  ⟨Function.update pedigree.origin id pedigree.originals, pedigree.originals + 1⟩

/-- The pedigree after `copy` was made as a copy of `source`. -/
def copy (pedigree : Pedigree) (source copy : ObjectId) : Pedigree :=
  ⟨Function.update pedigree.origin copy (pedigree.origin source), pedigree.originals⟩

end Pedigree

/-- What a copy of an object is made as. -/
def PrototypeObject.copied (body : PrototypeObject κ) (parent : Value κ) : PrototypeObject κ :=
  { body with slots := body.slots.cloneLayout, dynamicParent := parent }

/--
Worlds in which originals are made and copied, and the pedigrees of their objects.  A copy gets
the parent of its source or a clone of it.  Call frames, changes of slots, collections and what
is no heap node leave pedigrees as they are.
-/
inductive World.Descends : Pedigree → World κ σ → Prop
  | new (settings : WorldSettings) (memory : σ) : Descends .roots (World.new settings memory)
  | found {p : Pedigree} {v : World κ σ} (parent : Value κ) (link : ParentLink)
      (scope : Option ObjectId) (tags : List TypeTag) : Descends p v →
        Descends (p.found v.heap.nextId) (v.found parent link scope tags)
  | copy {p : Pedigree} {v : World κ σ} {source : ObjectId} {body : PrototypeObject κ}
      {parent : Value κ} :
      v.heap.node? source = some (.object body) → v.heap.Kin parent body.dynamicParent →
        Descends p v → Descends (p.copy source v.heap.nextId)
          { v with heap := (v.heap.allocate (.object (body.copied parent))).2 }
  | enter {p : Pedigree} {v : World κ σ} (frame : CallFrame κ) : Descends p v →
      Descends p { v with heap := (v.heap.allocate (.frame frame)).2 }
  | edit {p : Pedigree} {v : World κ σ} {id : ObjectId} {node : Node κ} (slots : Storage κ) :
      v.heap.node? id = some node → Descends p v →
        Descends p { v with heap := v.heap.replace id (node.withSlots slots) }
  | collect {p : Pedigree} {v w : World κ σ} {extra : List (Value κ)} {collected : Collected} :
      Run.collect extra v = .ok collected w → Descends p v → Descends p w
  | aside {p : Pedigree} {v : World κ σ} (supply : Nat) (log : Array Event) (host : σ) :
      Descends p v → Descends p { v with supply, log, host }

namespace World

variable {p : Pedigree} {u v w : World κ σ}

/-- What pedigrees keep to: families are numbered as originals are, and there are no mirages. -/
structure Documented (p : Pedigree) (w : World κ σ) : Prop where
  free : w.heap.FreeListExact
  families : w.heap.families = p.originals
  unmirrored : ∀ id mirage, w.heap.node? id ≠ some (.mirage mirage)
  origin : ∀ id body, w.heap.node? id = some (.object body) →
    body.family = ⟨p.origin id + 1⟩ ∧ p.origin id < p.originals
  familial : w.heap.Familial

/-- The nodes of a new world are two objects, each of a family of its own. -/
private theorem node?_new {settings : WorldSettings} {memory : σ} {id : ObjectId} {node : Node κ}
    (h : (World.new settings memory : World κ σ).heap.node? id = some node) :
    ∃ body, node = .object body ∧ body.family = ⟨id.index + 1⟩ ∧ id.index < 2 := by
  obtain ⟨index⟩ := id
  match index with
  | 0 => cases h; exact ⟨_, rfl, rfl, by decide⟩
  | 1 => cases h; exact ⟨_, rfl, rfl, by decide⟩
  | index + 2 => simp [World.new, Heap.node?] at h

theorem documented_new (settings : WorldSettings) (memory : σ) :
    Documented .roots (World.new settings memory : World κ σ) where
  free := (World.sound_new settings memory).free
  families := rfl
  unmirrored id mirage h := by
    obtain ⟨_, hobject, -⟩ := node?_new h
    cases hobject
  origin id body h := by
    obtain ⟨_, hobject, hfamily⟩ := node?_new h
    cases hobject
    exact hfamily
  familial a b body other ha hb hfamily := by
    obtain ⟨_, hbody, hbodyFamily, -⟩ := node?_new ha
    obtain ⟨_, hother, hotherFamily, -⟩ := node?_new hb
    cases hbody
    cases hother
    have hsame : a = b := by
      rw [hbodyFamily, hotherFamily] at hfamily
      cases a
      cases b
      simpa using hfamily
    subst hsame
    cases ha.symm.trans hb
    exact .refl _ _

/-- What a node is read as after another one was put at the next handle. -/
private theorem cases_allocate {heap : Heap κ} (hfree : heap.FreeListExact) {new node : Node κ}
    {id : ObjectId} (hnode : (heap.allocate new).2.node? id = some node) :
    (id = heap.nextId ∧ node = new) ∨ (id ≠ heap.nextId ∧ heap.node? id = some node) := by
  rw [hfree.node?_allocate] at hnode
  by_cases hid : id = heap.nextId
  · rw [if_pos hid] at hnode
    exact .inl ⟨hid, (Option.some.inj hnode).symm⟩
  · rw [if_neg hid] at hnode
    exact .inr ⟨hid, hnode⟩

namespace Documented

/-- The next family is nobody's yet. -/
theorem family_ne (h : Documented p w) {id : ObjectId} {body : PrototypeObject κ}
    (hbody : w.heap.node? id = some (.object body)) : body.family ≠ ⟨w.heap.families + 1⟩ := by
  obtain ⟨hfamily, hlt⟩ := h.origin id body hbody
  rw [hfamily, h.families]
  intro hsame
  have hnumber := congrArg CloneFamily.number hsame
  dsimp only at hnumber
  omega

theorem found (h : Documented p v) (parent : Value κ) (link : ParentLink) (scope : Option ObjectId)
    (tags : List TypeTag) :
    Documented (p.found v.heap.nextId) (v.found parent link scope tags) := by
  have hfree : v.heap.newFamily.2.FreeListExact := ⟨h.free.nodup, h.free.mem_iff⟩
  refine ⟨hfree.allocate _, ?_, fun id mirage hnode => ?_, fun id body hnode => ?_, ?_⟩
  · rw [World.found, Heap.families_allocate]
    exact congrArg (· + 1) h.families
  · rcases cases_allocate hfree hnode with ⟨-, hnew⟩ | ⟨-, hold⟩
    · cases hnew
    · exact h.unmirrored id mirage hold
  · rcases cases_allocate hfree hnode with ⟨rfl, hnew⟩ | ⟨hid, hold⟩
    · cases hnew
      have horigin : (p.found v.heap.nextId).origin v.heap.nextId = v.heap.families :=
        (Function.update_self ..).trans h.families.symm
      refine ⟨congrArg (CloneFamily.mk <| · + 1) horigin.symm, ?_⟩
      exact horigin.trans_lt (h.families.trans_lt (Nat.lt_succ_self _))
    · obtain ⟨hfamily, hlt⟩ := h.origin id body hold
      have horigin : (p.found v.heap.nextId).origin id = p.origin id := Function.update_of_ne hid ..
      rw [horigin]
      exact ⟨hfamily, Nat.lt_succ_of_lt hlt⟩
  · have hfamilial : v.heap.newFamily.2.Familial :=
      h.familial.of_earlier (fun id later hlater => ⟨later, hlater, rfl⟩)
        fun _ _ _ above _ _ habove => ⟨above, habove, rfl⟩
    exact hfamilial.allocate hfree fun b other hother hfamily =>
      absurd hfamily.symm (h.family_ne hother)

theorem copy (h : Documented p v) {source : ObjectId} {body : PrototypeObject κ} {parent : Value κ}
    (hsource : v.heap.node? source = some (.object body))
    (hparent : v.heap.Kin parent body.dynamicParent) :
    Documented (p.copy source v.heap.nextId)
      { v with heap := (v.heap.allocate (.object (body.copied parent))).2 } := by
  refine ⟨h.free.allocate _, ?_, fun id mirage hnode => ?_, fun id found hnode => ?_, ?_⟩
  · exact (Heap.families_allocate _ _).trans h.families
  · rcases cases_allocate h.free hnode with ⟨-, hnew⟩ | ⟨-, hold⟩
    · cases hnew
    · exact h.unmirrored id mirage hold
  · rcases cases_allocate h.free hnode with ⟨rfl, hnew⟩ | ⟨hid, hold⟩
    · cases hnew
      have horigin : (p.copy source v.heap.nextId).origin v.heap.nextId = p.origin source :=
        Function.update_self ..
      rw [horigin]
      exact h.origin source body hsource
    · have horigin : (p.copy source v.heap.nextId).origin id = p.origin id :=
        Function.update_of_ne hid ..
      rw [horigin]
      exact h.origin id found hold
  · refine h.familial.allocate h.free fun b other hother hfamily => ?_
    have hresemble := h.familial source b body other hsource hother hfamily
    exact ⟨hresemble.link, hresemble.tags, hresemble.flags, hparent.trans hresemble.parent⟩

theorem enter (h : Documented p v) (frame : CallFrame κ) :
    Documented p { v with heap := (v.heap.allocate (.frame frame)).2 } := by
  refine ⟨h.free.allocate _, (Heap.families_allocate _ _).trans h.families, fun id mirage hnode => ?_,
    fun id body hnode => ?_, h.familial.enter h.free frame⟩
  · rcases cases_allocate h.free hnode with ⟨-, hnew⟩ | ⟨-, hold⟩
    · cases hnew
    · exact h.unmirrored id mirage hold
  · rcases cases_allocate h.free hnode with ⟨-, hnew⟩ | ⟨-, hold⟩
    · cases hnew
    · exact h.origin id body hold

theorem edit (h : Documented p v) {id : ObjectId} {node : Node κ} (slots : Storage κ)
    (hnode : v.heap.node? id = some node) :
    Documented p { v with heap := v.heap.replace id (node.withSlots slots) } := by
  have hlive := Heap.contains_of_node? hnode
  have hread := v.heap.node?_replace_of_contains hlive (node.withSlots slots)
  refine ⟨h.free.replace hlive _, h.families, fun other mirage hother => ?_,
    fun other body hother => ?_, h.familial.edit hnode slots⟩
  · rw [hread] at hother
    split at hother
    · cases node with
      | mirage m => exact h.unmirrored id m hnode
      | object body => cases hother
      | frame frame => cases hother
    · exact h.unmirrored other mirage hother
  · rw [hread] at hother
    split at hother
    next hid =>
      subst hid
      cases node with
      | object found =>
        cases hother
        exact h.origin other found hnode
      | mirage m => cases hother
      | frame frame => cases hother
    next => exact h.origin other body hother

theorem collect (h : Documented p v) {extra : List (Value κ)} {collected : Collected}
    (hcollect : Run.collect extra v = .ok collected w) : Documented p w := by
  obtain ⟨heap, hheap, rfl⟩ := Run.collect_eq_ok_iff.mp hcollect
  have hleft := Heap.node?_of_collect hheap
  have hfamilies : heap.families = v.heap.families := by
    obtain ⟨marked, rfl⟩ := Heap.exists_marked_of_collect hheap
    rfl
  exact {
    free := h.free.follows (.collect hheap)
    families := hfamilies.trans h.families
    unmirrored := fun id mirage hnode => h.unmirrored id mirage ((hleft id _).mp hnode).1
    origin := fun id body hnode => h.origin id body ((hleft id _).mp hnode).1
    familial := h.familial.collect hheap }

theorem family_eq_iff (h : Documented p w) {a b : ObjectId} {body other : PrototypeObject κ}
    (ha : w.heap.node? a = some (.object body)) (hb : w.heap.node? b = some (.object other)) :
    body.family = other.family ↔ p.origin a = p.origin b := by
  obtain ⟨hbody, -⟩ := h.origin a body ha
  obtain ⟨hother, -⟩ := h.origin b other hb
  rw [hbody, hother]
  simp

theorem sameFamily_iff (h : Documented p w) {a b : ObjectId} (ha : w.heap.IsObject a)
    (hb : w.heap.IsObject b) : w.heap.SameFamily a b ↔ p.origin a = p.origin b := by
  obtain ⟨body, ha⟩ := ha
  obtain ⟨other, hb⟩ := hb
  rw [← h.family_eq_iff ha hb]
  constructor
  · rintro ⟨body', other', ha', hb', hfamily⟩
    cases ha.symm.trans ha'
    cases hb.symm.trans hb'
    exact hfamily
  · exact fun hfamily => ⟨body, other, ha, hb, hfamily⟩

end Documented

/-- Whatever happens to a world, its pedigree is kept. -/
theorem Descends.documented (h : w.Descends p) : Documented p w := by
  induction h with
  | new settings memory => exact documented_new settings memory
  | found parent link scope tags _ ih => exact ih.found parent link scope tags
  | copy hsource hparent _ ih => exact ih.copy hsource hparent
  | enter frame _ ih => exact ih.enter frame
  | edit slots hnode _ ih => exact ih.edit slots hnode
  | collect hcollect _ ih => exact ih.collect hcollect
  | aside supply log host _ ih =>
    exact ⟨ih.free, ih.families, ih.unmirrored, ih.origin, ih.familial⟩

end World

end Prototypes
