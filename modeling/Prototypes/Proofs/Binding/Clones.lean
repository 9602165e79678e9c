import Prototypes.Proofs.Binding.Tying
import Prototypes.Proofs.Cloning.Stretches

/-!
# Clones of mirages

The copy of a mirage is tied to a copy of its mirror.  That copy holds the mirage that
was copied until it is made to reflect on the new one, and code of others runs in the
meantime.  Nobody has it for a mirror, though: whoever is tied to it would be the mirage
it holds, and that one has the mirror it had.

The copy of the mirage may even have been bound to something else by then, and is given
its new mirror in spite of that.  So what cloning keeps is what those know who were there
before: to them both copies are new.

## Main results

* `Runtime.Bonding.defaultClone` — a mirror's clone is the mirror itself or a new plain object
  that holds the same mirage.
* `Runtime.Bonding.cloneMirage` — cloning a mirage keeps the ties, and ties the copy.
-/

namespace Prototypes

variable {κ σ α β : Type}

open Run (Steady Ends)

namespace Runtime

variable {rt : Runtime κ σ} {v w : World κ σ}

/-! ## What is asked of the calls -/

/-- Every call keeps the ties. -/
def Bonding (rt : Runtime κ σ) : Prop := ∀ start : World κ σ, Below (World.Bonds start) rt rt

/-- The clone a mirror answers is the mirror itself, or new and holds the same mirage. -/
def ClonesAfresh (rt : Runtime κ σ) : Prop :=
  ∀ {v w : World κ σ} {mirror mirage : ObjectId} {node : Node κ} {answer : Value κ}, v.Bonded →
    v.heap.node? mirror = some node → node.Holds mirage →
      rt.send (.object mirror) .clone v = .ok answer w →
        answer = .object mirror ∨ ∃ copy new, answer = .object copy ∧
          v.heap.contains copy = false ∧ w.heap.node? copy = some new ∧ new.Holds mirage

/-! ## Copies -/

/-- The copy of a node is new, and still what it was made as. -/
theorem Bonding.cloneNode (hrt : rt.Bonding) {source copy : ObjectId} {parent : Value κ}
    {wrap : PrototypeObject κ → Node κ} (hwrap : ∀ body, (wrap body).mirror? = none)
    (hv : v.Bonded) (h : rt.cloneNode source parent wrap v = .ok copy w) :
    ∃ node body new, v.heap.node? source = some node ∧ node.body? = some body ∧
      v.heap.contains copy = false ∧ w.heap.node? copy = some new ∧
        (wrap { body with slots := body.slots.cloneLayout, dynamicParent := parent }).Becomes new := by
  unfold Runtime.cloneNode at h
  rw [Run.node_bind] at h
  cases hnode : v.heap.node? source with
  | none =>
    rw [Heap.get_eq_error_iff.mpr ⟨hnode, rfl⟩] at h
    cases h
  | some node =>
    rw [Heap.get_eq_ok_iff.mpr hnode] at h
    dsimp only at h
    cases hbody : node.body? with
    | none =>
      rw [hbody] at h
      cases h
    | some body =>
      rw [hbody] at h
      dsimp only at h
      rw [Run.allocate_bind] at h
      obtain ⟨_, u, hrenew, hrest⟩ := Run.eq_ok_of_bind h
      cases hrest
      have hallocated := World.Bonds.allocate hv (.refl v)
        (hwrap { body with slots := body.slots.cloneLayout, dynamicParent := parent }) rfl
      have hevolves := (Run.kept (fun _ => (hrt _).renewCustom (World.Kinship.editable _) _) hallocated.2.1 hrenew).2
      obtain ⟨new, hnew, hbecomes⟩ := hevolves.node
        ((hv.free.node?_allocate _ _).trans (if_pos rfl))
      exact ⟨node, body, new, rfl, hbody, hv.free.not_contains_nextId, hnew, hbecomes⟩

/-- The last copy that is made of a stretch is that of its bottom. -/
theorem Bonding.cloneStretch (hrt : rt.Bonding) {sources : List ObjectId} {source last copy : ObjectId}
    {parent : Value κ} (hv : v.Bonded)
    (h : rt.cloneStretch (sources ++ [source]) last parent v = .ok copy w) :
    ∃ u parent, u.Bonded ∧ v.Evolves u ∧ rt.cloneNode source parent .object u = .ok copy w := by
  induction sources generalizing v last parent with
  | nil =>
    refine ⟨v, parent, hv, .refl v, ?_⟩
    simpa only [List.nil_append, Runtime.cloneStretch, bind_pure] using h
  | cons first sources ih =>
    rw [List.cons_append, Runtime.cloneStretch] at h
    obtain ⟨above, u, hfirst, hrest⟩ := Run.eq_ok_of_bind h
    obtain ⟨hu, hevolves⟩ := Run.kept (fun _ => (hrt _).cloneNode first parent fun _ => rfl) hv hfirst
    obtain ⟨u', parent', hu', hevolves', hlast⟩ := ih hu hrest
    exact ⟨u', parent', hu', hevolves.trans hevolves', hlast⟩

/-- The default clone of a mirror is the mirror itself, or new and holds the same mirage. -/
theorem Bonding.defaultClone (hrt : rt.Bonding) {mirror mirage copy : ObjectId} {node : Node κ}
    (hv : v.Bonded) (hnode : v.heap.node? mirror = some node) (hholds : node.Holds mirage)
    (h : rt.defaultClone mirror v = .ok copy w) :
    copy = mirror ∨ ∃ new, v.heap.contains copy = false ∧ w.heap.node? copy = some new ∧
      new.Holds mirage := by
  cases node with
  | mirage m => cases hholds.plain
  | frame frame => cases hholds.plain
  | object body =>
    unfold Runtime.defaultClone at h
    rw [Run.node_bind_of_some hnode] at h
    dsimp only at h
    split at h
    · cases h
      exact .inl rfl
    · obtain ⟨stretch, u, hstretch, h⟩ := Run.eq_ok_of_bind h
      obtain ⟨hstretch, rfl⟩ := Run.observe_eq_ok hstretch
      obtain ⟨above, rfl⟩ : ∃ above, stretch = mirror :: above := by
        cases Heap.stretch_eq_ok_iff.mp hstretch with
        | top => exact ⟨[], rfl⟩
        | step => exact ⟨_, rfl⟩
      obtain ⟨parent, u₁, hparent, h⟩ := Run.eq_ok_of_bind h
      obtain ⟨hu₁, hevolves₁⟩ := Run.kept (fun _ => (hrt _).clonedParent _) hv hparent
      obtain ⟨last, u₂, hcopies, h⟩ := Run.eq_ok_of_bind h
      cases h
      rw [List.reverse_cons] at hcopies
      -- by the time the mirror itself is copied it still holds its mirage
      obtain ⟨u₃, onto, hu₃, hevolves₃, hcopy⟩ := hrt.cloneStretch hu₁ hcopies
      obtain ⟨source, body', new, hsource, hbody, hfresh, hnew, hbecomes⟩ :=
        hrt.cloneNode (fun _ => rfl) hu₃ hcopy
      have hevolves := hevolves₁.trans hevolves₃
      obtain ⟨source', hsource', hkept⟩ := hevolves.node hnode
      cases hsource.symm.trans hsource'
      have hheld := hkept.holds hholds
      refine .inr ⟨new, hevolves.not_contains hfresh, hnew, hbecomes.holds ⟨rfl, ?_⟩⟩
      cases source with
      | object sourceBody =>
        cases hbody
        exact hheld.base
      | mirage m => cases hheld.plain
      | frame frame => cases hheld.plain

/-! ## Cloning a mirage -/

theorem mirrorOf_eq_ok {mirage mirror : ObjectId} (h : Run.mirrorOf mirage v = .ok mirror w) :
    v.HasMirror mirage mirror ∧ w = v := by
  obtain ⟨hview, rfl⟩ := Run.observe_eq_ok h
  refine ⟨?_, rfl⟩
  unfold World.mirrorOf at hview
  cases hget : w.heap.get mirage with
  | error reason =>
    rw [hget] at hview
    cases hview
  | ok node =>
    rw [hget] at hview
    match node with
    | .mirage ⟨body, some found⟩ =>
      cases hview
      exact ⟨_, Heap.get_eq_ok_iff.mp hget, rfl⟩
    | .mirage ⟨body, none⟩ => cases hview
    | .object body => cases hview
    | .frame frame => cases hview

/-- A new mirror that is nobody's yet is made to reflect on another mirage. -/
theorem rebase_ends {start : World κ σ} (hv : start.Bonds v v) {mirror mirage : ObjectId}
    {node : Node κ} (hnode : v.heap.node? mirror = some node) (hholds : node.Holds mirage)
    (hnew : start.heap.contains mirror = false) (hroot : mirror ≠ v.mirrorRoot)
    (hfree : ∀ other, ¬ v.HasMirror other mirror) (copy : ObjectId) :
    Ends start.Bonds (fun _ w => w.Ties mirror copy ∧
      ∀ other, other ≠ mirror → w.heap.node? other = v.heap.node? other) (rebase mirror copy v) := by
  obtain ⟨index, hindex, hfield⟩ := hholds.base.exists_index
  obtain ⟨slots, hwrite⟩ : ∃ slots, node.slots.write? index (.object copy) = some slots :=
    ⟨_, Storage.write?_eq_some_iff.mpr ⟨_, hfield, rfl⟩⟩
  have hlive := Heap.contains_of_node? hnode
  have hread := v.heap.node?_replace_of_contains hlive (node.withSlots slots)
  have hrun : rebase mirror copy v =
      .ok () { v with heap := v.heap.replace mirror (node.withSlots slots) } := by
    unfold rebase
    rw [Run.slots_bind hnode, hindex]
    dsimp only
    rw [hwrite]
    exact Run.setSlots_of_node hnode slots
  rw [hrun]
  refine .ok (World.Bonds.replace hv.2.1 hv.2.2 hlive (node.withSlots slots) ?kept ?held ?mirror rfl)
    ⟨⟨hroot, node.withSlots slots, (hread mirror).trans (if_pos rfl), ?holds⟩, ?elsewhere⟩
  case kept =>
    intro old hold
    rw [Heap.contains_of_node? hold] at hnew
    cases hnew
  case held => exact fun other hother => absurd hother (hfree other)
  case mirror =>
    intro other hother
    rw [Node.mirror?_withSlots] at hother
    have hmirage := Node.isMirage_of_mirror? hother
    rw [hholds.not_isMirage] at hmirage
    cases hmirage
  case holds =>
    refine ⟨(node.isPlain_withSlots slots).trans hholds.plain, ?_⟩
    rw [Node.slots_withSlots]
    exact hholds.base.write hindex hwrite
  case elsewhere => exact fun other hne => (hread other).trans (if_neg hne)

/-- Cloning a mirage keeps the ties, and the copy, which is new, gets a mirror of its own. -/
theorem Bonding.cloneMirage (hrt : rt.Bonding) (hafresh : rt.ClonesAfresh) (hv : v.Bonded)
    (id : ObjectId) :
    Ends v.Bonds (fun copy w => v.heap.contains copy = false ∧ ∃ mirror, w.HasMirror copy mirror)
      (rt.cloneMirage id v) := by
  unfold Runtime.cloneMirage
  refine (Ends.of_steady (Run.Below.mirrorOf id) (.refl hv)).bind fun mirror u hu hmirror => ?_
  obtain ⟨hhas, rfl⟩ := mirrorOf_eq_ok hmirror
  refine (Ends.of_steady ((hrt _).clonedParent id) (.refl hv)).bind fun parent v₁ hv₁ _ => ?_
  refine (Ends.of_steady ((hrt _).cloneNode id parent fun _ => rfl) hv₁).bind
    fun copy v₂ hv₂ hcopy => ?_
  obtain ⟨_, _, made, _, _, hcopyNew, hmade, hbecomes⟩ := hrt.cloneNode (fun _ => rfl) hv₁.2.1 hcopy
  obtain ⟨-, held, hheld, hholds⟩ := hv₂.2.2.ties (hv.tied id mirror hhas)
  refine (Ends.of_steady ((hrt _).send (.object mirror) .clone) hv₂).bind
    fun answer v₃ hv₃ hanswer => ?_
  have hevolves := (Run.kept (fun _ => (hrt _).send _ _) hv₂.2.1 hanswer).2
  obtain ⟨made', hmade', hbecomes'⟩ := hevolves.node hmade
  rcases hafresh hv₂.2.1 hheld hholds hanswer with rfl | ⟨mirrorCopy, new, rfl, hnew, hnode, hnewHolds⟩
  · simp only [Value.expectObject, Run.check_ok_bind, if_true]
    exact .error _ hv₃
  · have hother {other : ObjectId} (hlive : v₂.heap.contains other = true) : other ≠ mirrorCopy := by
      rintro rfl
      rw [hlive] at hnew
      cases hnew
    have hne : mirrorCopy ≠ mirror := (hother (Heap.contains_of_node? hheld)).symm
    simp only [Value.expectObject, Run.check_ok_bind, if_neg hne]
    have hroot : mirrorCopy ≠ v₃.mirrorRoot := hevolves.mirrorRoot ▸ (hother hv₂.2.1.root).symm
    have hnewAbove := hv₂.2.2.not_contains hnew
    have hcopyAbove := hv₁.2.2.not_contains hcopyNew
    -- whoever had the copy of the mirror would be the original mirage, which has the mirror itself
    have hfree : ∀ other, ¬ v₃.HasMirror other mirrorCopy := by
      intro other hhasCopy
      have hheldBy : v₃.Ties mirrorCopy id := ⟨hroot, new, hnode, hnewHolds⟩
      obtain rfl := (hv₃.2.1.tied _ _ hhasCopy).unique hheldBy
      exact hne (hhasCopy.unique (hv₃.2.2.hasMirror hhas))
    refine (rebase_ends hv₃ hnode hnewHolds hnewAbove hroot hfree copy).bind
      fun _ v₄ hv₄ hrebased => ?_
    obtain ⟨hties, helsewhere⟩ := hrebased
    have hcopyNode := (helsewhere copy (hother (Heap.contains_of_node? hmade))).trans hmade'
    have hmirage : made'.isMirage = true := hbecomes'.mirage.trans hbecomes.mirage
    refine (Ends.setMirror hv₄.2.1 hv₄.2.2 hcopyNode hmirage (fun old hold => ?_) hties).bind
      fun _ v₅ hv₅ hmirror => ?_
    · rw [Heap.contains_of_node? hold] at hcopyAbove
      cases hcopyAbove
    · refine .ok (World.Affinity.push hv₅ _) ⟨hcopyAbove, mirrorCopy, hmirror⟩

end Runtime

end Prototypes
