import Prototypes.Proofs.Approximation.Outcomes
import Prototypes.Proofs.Heap.Reachability

/-!
# Mirrors and mirages tied to each other

A mirage knows its mirror by a handle, and the mirror knows its mirage by the
value of its read-only field `base`.  In a *bonded* world every mirage that has a
mirror finds itself held by it (`World.Bonded`).

Two things are said of what becomes of a world.  The later world is bonded too, and it
has *evolved* from the earlier one (`World.Evolves`): what was there still is, with its
kind, its mirror if it had one, and its read-only `base`.  Neither is broken by the steps
of runs that tie no mirrors (`World.Bonds`), so that only tying remains to be looked
into.

## Main results

* `World.Bonded.unique` — no two mirages have the same mirror.
* `World.Bonds.replace` — when another node may be put in the place of one.
* `World.Bonds.kinship` — ordinary steps keep the ties.
* `World.bonded_new`, `World.Bonded.collect` — new worlds are bonded, and so is what a
  collection leaves.
-/

namespace Prototypes

variable {κ σ : Type}

/-- What a collection does that succeeds. -/
theorem Run.collect_eq_ok {extra : List (Value κ)} {v w : World κ σ} {collected : Collected}
    (h : Run.collect extra v = .ok collected w) :
    ∃ heap, v.heap.collect (.object v.lexicalRoot :: .object v.mirrorRoot :: extra) =
        .ok (collected, heap) ∧
      w = { v with heap, log := v.log.push (.collected collected.live collected.freed) } :=
  Run.collect_eq_ok_iff.mp h

/-! ## What a node is to others -/

namespace Node

/-- The node is a plain object whose own, read-only `base` is the mirage. -/
structure Holds (node : Node κ) (mirage : ObjectId) : Prop where
  plain : node.isPlain = true
  base : node.slots.ReadOnly Selector.base (.object mirage)

/-- The node has its kind, its mirror and its read-only `base` from `before`. -/
structure Becomes (before after : Node κ) : Prop where
  plain : after.isPlain = before.isPlain
  mirage : after.isMirage = before.isMirage
  mirror : ∀ mirror, before.mirror? = some mirror → after.mirror? = some mirror
  base : ∀ value, before.slots.ReadOnly Selector.base value →
    after.slots.ReadOnly Selector.base value

variable {node before middle after : Node κ} {mirage mirror : ObjectId}

theorem Becomes.refl (node : Node κ) : node.Becomes node := ⟨rfl, rfl, fun _ => id, fun _ => id⟩

theorem Becomes.trans (h : before.Becomes middle) (h' : middle.Becomes after) :
    before.Becomes after where
  plain := h'.plain.trans h.plain
  mirage := h'.mirage.trans h.mirage
  mirror r := h'.mirror r ∘ h.mirror r
  base value := h'.base value ∘ h.base value

theorem Becomes.holds (h : before.Becomes after) (hholds : before.Holds mirage) :
    after.Holds mirage :=
  ⟨h.plain.trans hholds.plain, h.base _ hholds.base⟩

theorem Holds.unique {other : ObjectId} (h : node.Holds mirage) (h' : node.Holds other) :
    mirage = other :=
  Value.object.inj (h.base.unique h'.base)

theorem isMirage_of_mirror? (h : node.mirror? = some mirror) : node.isMirage = true := by
  cases node with
  | mirage m => rfl
  | object body => cases h
  | frame frame => cases h

/-- Nothing is both a mirror and a mirage. -/
theorem Holds.not_isMirage (h : node.Holds mirage) : node.isMirage = false := by
  cases node with
  | object body => rfl
  | mirage m => cases h.plain
  | frame frame => cases h.plain

theorem mirror?_withSlots (node : Node κ) (slots : Storage κ) :
    (node.withSlots slots).mirror? = node.mirror? := by
  cases node <;> rfl

theorem isPlain_withSlots (node : Node κ) (slots : Storage κ) :
    (node.withSlots slots).isPlain = node.isPlain := by
  cases node <;> rfl

/-- Slots with the same read-only `base` keep what a node is to others. -/
theorem becomes_withSlots {slots : Storage κ}
    (h : ∀ value, node.slots.ReadOnly Selector.base value → slots.ReadOnly Selector.base value) :
    node.Becomes (node.withSlots slots) where
  plain := node.isPlain_withSlots slots
  mirage := by cases node <;> rfl
  mirror r hmirror := (node.mirror?_withSlots slots).trans hmirror
  base value hbase := by
    rw [slots_withSlots]
    exact h value hbase

theorem mirror?_withMirror (h : node.isMirage = true) (mirror : ObjectId) :
    (node.withMirror (some mirror)).mirror? = some mirror := by
  cases node with
  | mirage m => rfl
  | object body => cases h
  | frame frame => cases h

/-- A mirror is given to a node that had none. -/
theorem Becomes.withMirror (h : before.Becomes after) (hfree : before.mirror? = none)
    (mirror : ObjectId) : before.Becomes (after.withMirror (some mirror)) where
  plain := by rw [← h.plain]; cases after <;> rfl
  mirage := by rw [← h.mirage]; cases after <;> rfl
  mirror other hother := by rw [hfree] at hother; cases hother
  base value hbase := by
    have hslots : (after.withMirror (some mirror)).slots = after.slots := by cases after <;> rfl
    rw [hslots]
    exact h.base value hbase

/-- Where there is a mirror, it is an edge; where a mirage is held, it is one too. -/
theorem mem_edges_of_mirror? (h : node.mirror? = some mirror) : mirror ∈ node.edges := by
  cases node with
  | mirage m =>
    have hmirror : m.mirror = some mirror := h
    simp [edges, hmirror]
  | object body => cases h
  | frame frame => cases h

theorem Holds.mem_edges (h : node.Holds mirage) : mirage ∈ node.edges := by
  obtain ⟨index, -, hfield⟩ := h.base.exists_index
  have hslots : mirage ∈ node.slots.edges := by
    have hvalue : mirage ∈ (Value.object mirage : Value κ).edges := by simp [Value.edges]
    simp only [Storage.edges, List.mem_append, List.mem_flatMap]
    exact .inl (.inl ⟨_, List.mem_of_getElem? hfield, hvalue⟩)
  cases node with
  | object body => simp [edges, show mirage ∈ body.slots.edges from hslots]
  | mirage m => cases h.plain
  | frame frame => cases h.plain

end Node

/-! ## Worlds in which mirrors and mirages are tied -/

namespace World

/-- `mirror` is a plain object other than the mirror root, and its own, read-only `base` is `mirage`. -/
def Ties (world : World κ σ) (mirror mirage : ObjectId) : Prop :=
  mirror ≠ world.mirrorRoot ∧ ∃ node, world.heap.node? mirror = some node ∧ node.Holds mirage

/-- `mirage` has the mirror `mirror`. -/
def HasMirror (world : World κ σ) (mirage mirror : ObjectId) : Prop :=
  ∃ node, world.heap.node? mirage = some node ∧ node.mirror? = some mirror

/-- Every mirage that has a mirror is held by it. -/
structure Bonded (world : World κ σ) : Prop where
  free : world.heap.FreeListExact
  root : world.heap.contains world.mirrorRoot = true
  tied : ∀ mirage mirror, world.HasMirror mirage mirror → world.Ties mirror mirage

/-- What was there in `before` is there in `after`, and still is what it was to others. -/
structure Evolves (before after : World κ σ) : Prop where
  mirrorRoot : after.mirrorRoot = before.mirrorRoot
  node : ∀ {id : ObjectId} {old : Node κ}, before.heap.node? id = some old →
    ∃ new, after.heap.node? id = some new ∧ old.Becomes new

/-- The same world, bonded, and evolved from `start`. -/
def Bonds (start v w : World κ σ) : Prop := v = w ∧ v.Bonded ∧ start.Evolves v

variable {start u v w : World κ σ} {mirror mirage : ObjectId}

theorem HasMirror.unique {other : ObjectId} (h : w.HasMirror mirage mirror)
    (h' : w.HasMirror mirage other) : mirror = other := by
  obtain ⟨node, hnode, hmirror⟩ := h
  obtain ⟨node', hnode', hother⟩ := h'
  cases hnode.symm.trans hnode'
  exact Option.some.inj (hmirror.symm.trans hother)

/-- A mirror holds one mirage. -/
theorem Ties.unique {other : ObjectId} (h : w.Ties mirror mirage) (h' : w.Ties mirror other) :
    mirage = other := by
  obtain ⟨-, node, hnode, hholds⟩ := h
  obtain ⟨-, node', hnode', hother⟩ := h'
  cases hnode.symm.trans hnode'
  exact hholds.unique hother

/-- No two mirages have the same mirror. -/
theorem Bonded.unique {other : ObjectId} (hw : w.Bonded) (h : w.HasMirror mirage mirror)
    (h' : w.HasMirror other mirror) : mirage = other :=
  (hw.tied _ _ h).unique (hw.tied _ _ h')

/-- A mirage is nobody's mirror. -/
theorem Bonded.not_mirror_of_isMirage (hw : w.Bonded) {node : Node κ}
    (hnode : w.heap.node? mirror = some node) (hmirage : node.isMirage = true) :
    ¬ w.HasMirror mirage mirror := by
  intro hmirror
  obtain ⟨-, held, hheld, hholds⟩ := hw.tied _ _ hmirror
  cases hnode.symm.trans hheld
  rw [hholds.not_isMirage] at hmirage
  cases hmirage

/-! ## Evolving -/

namespace Evolves

theorem refl (w : World κ σ) : w.Evolves w := ⟨rfl, fun hnode => ⟨_, hnode, .refl _⟩⟩

theorem trans (h : u.Evolves v) (h' : v.Evolves w) : u.Evolves w where
  mirrorRoot := h'.mirrorRoot.trans h.mirrorRoot
  node hnode := by
    obtain ⟨middle, hmiddle, hold⟩ := h.node hnode
    obtain ⟨new, hnew, hmid⟩ := h'.node hmiddle
    exact ⟨new, hnew, hold.trans hmid⟩

theorem contains (h : v.Evolves w) {id : ObjectId} (hlive : v.heap.contains id = true) :
    w.heap.contains id = true := by
  obtain ⟨node, hnode⟩ := Heap.contains_iff.mp hlive
  obtain ⟨new, hnew, -⟩ := h.node hnode
  exact Heap.contains_of_node? hnew

/-- What is not there yet was not there before. -/
theorem not_contains (h : v.Evolves w) {id : ObjectId} (hnew : w.heap.contains id = false) :
    v.heap.contains id = false := by
  cases hlive : v.heap.contains id with
  | false => rfl
  | true =>
    rw [h.contains hlive] at hnew
    cases hnew

theorem ties (h : v.Evolves w) (hties : v.Ties mirror mirage) : w.Ties mirror mirage := by
  obtain ⟨hroot, node, hnode, hholds⟩ := hties
  obtain ⟨new, hnew, hbecomes⟩ := h.node hnode
  exact ⟨h.mirrorRoot ▸ hroot, new, hnew, hbecomes.holds hholds⟩

theorem hasMirror (h : v.Evolves w) (hmirror : v.HasMirror mirage mirror) :
    w.HasMirror mirage mirror := by
  obtain ⟨node, hnode, hmirror⟩ := hmirror
  obtain ⟨new, hnew, hbecomes⟩ := h.node hnode
  exact ⟨new, hnew, hbecomes.mirror _ hmirror⟩

end Evolves

/-! ## Ordinary steps -/

namespace Bonds

theorem refl (hw : w.Bonded) : w.Bonds w w := ⟨rfl, hw, .refl w⟩

/-- What has evolved from a world has evolved from whatever that one has evolved from. -/
theorem earlier (hvw : u.Bonds v w) (h : start.Evolves u) : start.Bonds v w :=
  ⟨hvw.1, hvw.2.1, h.trans hvw.2.2⟩

/-- Nothing but nodes and the mirror root matter. -/
theorem alter (hv : v.Bonded) (hstart : start.Evolves v) (hfree : w.heap.FreeListExact)
    (hnodes : ∀ id, w.heap.node? id = v.heap.node? id) (hroot : w.mirrorRoot = v.mirrorRoot) :
    start.Bonds w w := by
  have hevolves : v.Evolves w := ⟨hroot, fun hnode => ⟨_, (hnodes _).trans hnode, .refl _⟩⟩
  refine ⟨rfl, ⟨hfree, hroot ▸ hevolves.contains hv.root, ?_⟩, hstart.trans hevolves⟩
  rintro mirage mirror ⟨node, hnode, hmirror⟩
  exact hevolves.ties (hv.tied mirage mirror ⟨node, (hnodes _).symm.trans hnode, hmirror⟩)

/-- New nodes come without a mirror, and nobody has them as mirrors yet. -/
theorem allocate (hv : v.Bonded) (hstart : start.Evolves v) {node : Node κ}
    (hnode : node.mirror? = none) (hw : w = { v with heap := (v.heap.allocate node).2 }) :
    start.Bonds w w := by
  subst hw
  have hread := hv.free.node?_allocate node
  have hnew := hv.free.not_contains_nextId
  have hevolves : v.Evolves { v with heap := (v.heap.allocate node).2 } := by
    refine ⟨rfl, fun {id old} hold => ⟨old, ?_, .refl old⟩⟩
    have hne : id ≠ v.heap.nextId := by
      rintro rfl
      rw [Heap.contains_of_node? hold] at hnew
      cases hnew
    exact (hread id).trans ((if_neg hne).trans hold)
  refine ⟨rfl, ⟨hv.free.allocate node, hevolves.contains hv.root, ?_⟩, hstart.trans hevolves⟩
  rintro mirage mirror ⟨found, hfound, hmirror⟩
  by_cases hmirage : mirage = v.heap.nextId
  · have hfound' : some node = some found := (((hread mirage).trans (if_pos hmirage)).symm.trans hfound)
    cases hfound'
    rw [hnode] at hmirror
    cases hmirror
  · have hold := ((hread mirage).trans (if_neg hmirage)).symm.trans hfound
    exact hevolves.ties (hv.tied mirage mirror ⟨found, hold, hmirror⟩)

/--
Another node may be put in the place of one if it is to others what they know of it:
what was there at the start, the mirage it is the mirror of, and its own mirror.
-/
theorem replace (hv : v.Bonded) (hstart : start.Evolves v) {id : ObjectId}
    (hlive : v.heap.contains id = true) (node : Node κ)
    (hkept : ∀ old, start.heap.node? id = some old → old.Becomes node)
    (hheld : ∀ mirage, v.HasMirror mirage id → node.Holds mirage)
    (hmirror : ∀ mirror, node.mirror? = some mirror → mirror ≠ id ∧ v.Ties mirror id)
    (hw : w = { v with heap := v.heap.replace id node }) : start.Bonds w w := by
  subst hw
  have hread := v.heap.node?_replace_of_contains hlive node
  have hother {other : ObjectId} (hne : other ≠ id) :
      (v.heap.replace id node).node? other = v.heap.node? other :=
    (hread other).trans (if_neg hne)
  have hself : (v.heap.replace id node).node? id = some node := (hread id).trans (if_pos rfl)
  have hlives : ∀ other, (v.heap.replace id node).contains other = v.heap.contains other :=
    v.heap.contains_replace_of_contains hlive node
  refine ⟨rfl, ⟨hv.free.replace hlive node, (hlives _).trans hv.root, ?_⟩,
    hstart.mirrorRoot, ?_⟩
  · rintro mirage mirror ⟨found, hfound, hfoundMirror⟩
    -- what ties the mirage is there in `v`, and was not replaced or is known to hold
    have hties {other : ObjectId} (hne : other ≠ id) (h : v.Ties other mirage) :
        Ties { v with heap := v.heap.replace id node } other mirage := by
      obtain ⟨hroot, held, hheldNode, hholds⟩ := h
      exact ⟨hroot, held, (hother hne).trans hheldNode, hholds⟩
    by_cases hmirage : mirage = id
    · subst hmirage
      cases hself.symm.trans hfound
      obtain ⟨hne, h⟩ := hmirror mirror hfoundMirror
      exact hties hne h
    · have hhas : v.HasMirror mirage mirror := ⟨found, (hother hmirage).symm.trans hfound, hfoundMirror⟩
      have h := hv.tied mirage mirror hhas
      by_cases hne : mirror = id
      · subst hne
        exact ⟨h.1, node, hself, hheld mirage hhas⟩
      · exact hties hne h
  · intro other old hold
    by_cases hne : other = id
    · subst hne
      exact ⟨node, hself, hkept old hold⟩
    · obtain ⟨new, hnew, hbecomes⟩ := hstart.node hold
      exact ⟨new, (hother hne).trans hnew, hbecomes⟩

/-- A node that stays what it is to others can be replaced at any time. -/
theorem replace_becomes (hv : v.Bonded) (hstart : start.Evolves v) {id : ObjectId}
    {node after : Node κ} (hnode : v.heap.node? id = some node) (hbecomes : node.Becomes after)
    (hmirror : after.mirror? = node.mirror?)
    (hw : w = { v with heap := v.heap.replace id after }) : start.Bonds w w := by
  refine replace hv hstart (Heap.contains_of_node? hnode) after ?_ ?_ ?_ hw
  · intro old hold
    obtain ⟨new, hnew, hold⟩ := hstart.node hold
    cases hnode.symm.trans hnew
    exact hold.trans hbecomes
  · intro mirage hmirage
    obtain ⟨-, held, hheld, hholds⟩ := hv.tied mirage id hmirage
    cases hnode.symm.trans hheld
    exact hbecomes.holds hholds
  · intro mirror hafter
    have hhas : v.HasMirror id mirror := ⟨node, hnode, hmirror.symm.trans hafter⟩
    refine ⟨?_, hv.tied id mirror hhas⟩
    rintro rfl
    exact hv.not_mirror_of_isMirage hnode (Node.isMirage_of_mirror? (hmirror.symm.trans hafter)) hhas

instance kinship : World.Kinship (Bonds start) where
  visible h := congrArg World.visible h.1
  newFamily := by
    rintro v w ⟨rfl, hv, hstart⟩
    exact alter hv hstart ⟨hv.free.nodup, hv.free.mem_iff⟩ (fun _ => rfl) rfl
  allocate := by
    rintro v w node hnode ⟨rfl, hv, hstart⟩
    exact allocate hv hstart hnode rfl
  edit := by
    rintro v w id node slots hnode hedit ⟨rfl, hv, hstart⟩
    exact replace_becomes hv hstart hnode (Node.becomes_withSlots fun _ => hedit.readOnly)
      (node.mirror?_withSlots slots) rfl
  setSupply supply := by
    rintro ⟨rfl, hv, hstart⟩
    exact alter hv hstart hv.free (fun _ => rfl) rfl
  setHost host := by
    rintro ⟨rfl, hv, hstart⟩
    exact alter hv hstart hv.free (fun _ => rfl) rfl
  append events := by
    rintro ⟨rfl, hv, hstart⟩
    exact alter hv hstart hv.free (fun _ => rfl) rfl

end Bonds

/-! ## New worlds and collections -/

theorem Bonded.of_alike (hv : v.Bonded) (h : v.Alike w) : w.Bonded := by
  rw [h.eq_with_log]
  exact ⟨hv.free, hv.root, hv.tied⟩

theorem bonded_new (settings : WorldSettings) (host : σ) :
    (World.new settings host : World κ σ).Bonded where
  free := (World.sound_new settings host).free
  root := rfl
  tied := by
    rintro ⟨index⟩ mirror ⟨node, hnode, hmirror⟩
    match index with
    | 0 => cases hnode; cases hmirror
    | 1 => cases hnode; cases hmirror
    | index + 2 => simp [World.new, Heap.node?] at hnode

section Collection

variable {extra : List (Value κ)} {collected : Collected}

/-- A mirage and its mirror reach each other, so a collection keeps both as they are or frees both. -/
theorem Bonded.collected_together (hv : v.Bonded) (h : Run.collect extra v = .ok collected w)
    (hmirror : v.HasMirror mirage mirror) :
    (w.heap.node? mirage = v.heap.node? mirage ∧ w.heap.node? mirror = v.heap.node? mirror) ∨
      (w.heap.contains mirage = false ∧ w.heap.contains mirror = false) := by
  obtain ⟨heap, hcollect, rfl⟩ := Run.collect_eq_ok h
  obtain ⟨-, held, hheld, hholds⟩ := hv.tied mirage mirror hmirror
  obtain ⟨node, hnode, hnodeMirror⟩ := hmirror
  generalize .object v.lexicalRoot :: .object v.mirrorRoot :: extra = roots at hcollect
  have hleft := Heap.node?_of_collect hcollect
  have hboth : v.heap.Reaches roots mirage ↔ v.heap.Reaches roots mirror :=
    ⟨fun hreach => hreach.edge hnode (Node.mem_edges_of_mirror? hnodeMirror),
      fun hreach => hreach.edge hheld hholds.mem_edges⟩
  have hgone {id : ObjectId} (hunreached : ¬ v.heap.Reaches roots id) : heap.contains id = false := by
    rw [← Bool.not_eq_true, Heap.contains_iff]
    rintro ⟨left, hkept⟩
    exact hunreached ((hleft id left).mp hkept).2
  by_cases hreach : v.heap.Reaches roots mirage
  · exact .inl ⟨((hleft mirage node).mpr ⟨hnode, hreach⟩).trans hnode.symm,
      ((hleft mirror held).mpr ⟨hheld, hboth.mp hreach⟩).trans hheld.symm⟩
  · exact .inr ⟨hgone hreach, hgone (mt hboth.mpr hreach)⟩

/-- A collection leaves a bonded world. -/
theorem Bonded.collect (hv : v.Bonded) (h : Run.collect extra v = .ok collected w) : w.Bonded := by
  obtain ⟨heap, hcollect, rfl⟩ := Run.collect_eq_ok h
  have hleft := Heap.node?_of_collect hcollect
  refine ⟨hv.free.follows (.collect hcollect), ?_, ?_⟩
  · obtain ⟨root, hroot⟩ := Heap.contains_iff.mp hv.root
    have hreach : v.heap.Reaches (.object v.lexicalRoot :: .object v.mirrorRoot :: extra) v.mirrorRoot :=
      .root (by simp [Value.edgesOfAll, Value.edges])
    exact Heap.contains_of_node? ((hleft _ root).mpr ⟨hroot, hreach⟩)
  · rintro mirage mirror ⟨node, hnode, hmirror⟩
    have hhas : v.HasMirror mirage mirror := ⟨node, ((hleft mirage node).mp hnode).1, hmirror⟩
    obtain ⟨hroot, held, hheld, hholds⟩ := hv.tied mirage mirror hhas
    rcases hv.collected_together h hhas with ⟨-, hkept⟩ | ⟨hgone, -⟩
    · exact ⟨hroot, held, hkept.trans hheld, hholds⟩
    · rw [Heap.contains_of_node? hnode] at hgone
      cases hgone

end Collection

end World

end Prototypes
