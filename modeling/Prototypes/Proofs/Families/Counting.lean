import Prototypes.Proofs.Binding.Reached

/-!
# Families are numbered

Whatever is made from nothing, on a parent or as a mirage is of a family with the number after
the last one; a copy is of the family of its source; and frames are of none.  Nothing else
gives a node its family.  So the numbers in use are among those handed out, however nodes are
cloned, changed and reclaimed, and what is made next is of a family that no other node has.

## Main results

* `World.Counted` — the families of all nodes have been handed out.
* `World.Counted.family?_ne` — no node is of the family that comes next.
* `Runtime.counting` — every call keeps it so, whatever host code does and collects.
* `World.counted_new`, `Program.counted_of_ended` — so it is after every program.
-/

namespace Prototypes

variable {κ σ α : Type}

open Run (Steady)

/-- The family of an object or a mirage. -/
def Node.family? (node : Node κ) : Option CloneFamily := node.body?.map PrototypeObject.family

namespace Node

@[simp] theorem family?_withSlots (node : Node κ) (slots : Storage κ) :
    (node.withSlots slots).family? = node.family? := by
  cases node <;> rfl

@[simp] theorem family?_withMirror (node : Node κ) (mirror : Option ObjectId) :
    (node.withMirror mirror).family? = node.family? := by
  cases node <;> rfl

end Node

namespace World

/-! ## Families that have been handed out -/

/-- The free list is exact, and every family that a node is of has been handed out. -/
structure Counted (w : World κ σ) : Prop where
  free : w.heap.FreeListExact
  families : ∀ id node family, w.heap.node? id = some node → node.family? = some family →
    family.number ≤ w.heap.families

/-- The same world, and counted. -/
def Counting (v w : World κ σ) : Prop := v = w ∧ v.Counted

namespace Counted

variable {v w : World κ σ}

/-- No node is of the family that comes next. -/
theorem family?_ne (h : w.Counted) {id : ObjectId} {node : Node κ} (hnode : w.heap.node? id = some node) :
    node.family? ≠ some ⟨w.heap.families + 1⟩ := by
  intro hfamily
  have hle := h.families id node _ hnode hfamily
  exact Nat.not_succ_le_self _ hle

/-- Only nodes and the number of the last family matter. -/
theorem alter (h : v.Counted) (hfree : w.heap.FreeListExact)
    (hnodes : ∀ id, w.heap.node? id = v.heap.node? id) (hfamilies : v.heap.families ≤ w.heap.families) :
    w.Counted :=
  ⟨hfree, fun id node family hnode hfamily =>
    (h.families id node family ((hnodes id).symm.trans hnode) hfamily).trans hfamilies⟩

theorem withRest (h : v.Counted) (supply : Nat) (log : Array Event) (host : σ) :
    Counted { v with supply, log, host } :=
  h.alter h.free (fun _ => rfl) (Nat.le_refl _)

theorem newFamily (h : v.Counted) (supply : Nat) :
    Counted { v with heap := v.heap.newFamily.2, supply } :=
  h.alter (h.free.follows .newFamily) (fun _ => rfl) (Nat.le_succ _)

/-- A node may be made of a family that has been handed out. -/
theorem allocate (h : v.Counted) (node : Node κ)
    (hnode : ∀ family, node.family? = some family → family.number ≤ v.heap.families) :
    Counted { v with heap := (v.heap.allocate node).2 } where
  free := h.free.allocate node
  families id other family hother hfamily := by
    show family.number ≤ (v.heap.allocate node).2.families
    rw [Heap.families_allocate]
    rw [h.free.node?_allocate] at hother
    split at hother
    · obtain rfl := Option.some.inj hother
      exact hnode family hfamily
    · exact h.families id other family hother hfamily

/-- A new mirage or object is of a new family. -/
theorem found (h : v.Counted) (parent : Value κ) (link : ParentLink) (scope : Option ObjectId)
    (tags : List TypeTag) (node : Node κ) (hnode : node.body? = some (v.newBody parent link scope tags)) :
    Counted { v with heap := (v.heap.newFamily.2.allocate node).2, supply := v.supply + 1 } := by
  refine (h.newFamily (v.supply + 1)).allocate node fun family hfamily => ?_
  rw [Node.family?, hnode] at hfamily
  obtain rfl := Option.some.inj hfamily
  exact Nat.le_refl _

/-- A node may be replaced by another one of its family. -/
theorem replace (h : v.Counted) {id : ObjectId} {node after : Node κ}
    (hnode : v.heap.node? id = some node) (hafter : after.family? = node.family?) :
    Counted { v with heap := v.heap.replace id after } where
  free := h.free.replace (Heap.contains_of_node? hnode) after
  families other last family hlast hfamily := by
    rw [v.heap.node?_replace_of_contains (Heap.contains_of_node? hnode)] at hlast
    split at hlast
    · obtain rfl := Option.some.inj hlast
      exact h.families id node family hnode (hafter.symm.trans hfamily)
    · exact h.families other last family hlast hfamily

end Counted

namespace Counting

theorem refl {w : World κ σ} (h : w.Counted) : Counting w w := ⟨rfl, h⟩

instance affinity : World.Affinity (Counting (κ := κ) (σ := σ)) where
  visible h := congrArg World.visible h.1
  found := by
    rintro v _ parent link scope tags ⟨rfl, h⟩
    exact refl (h.found parent link scope tags _ rfl)
  enter := by
    rintro v _ layout scope ⟨rfl, h⟩
    exact refl (h.allocate _ fun family hfamily => nomatch hfamily)
  editFields := by
    rintro v _ id node slots hnode - - ⟨rfl, h⟩
    exact refl (h.replace hnode (node.family?_withSlots slots))
  setSupply := by
    rintro v _ supply ⟨rfl, h⟩
    exact refl (h.withRest supply v.log v.host)
  setHost := by
    rintro v _ host ⟨rfl, h⟩
    exact refl (h.withRest v.supply v.log host)
  append := by
    rintro v _ events ⟨rfl, h⟩
    exact refl (h.withRest v.supply (v.log ++ events) v.host)

theorem editable (id : ObjectId) : World.Editable (Counting (κ := κ) (σ := σ)) id := by
  rintro v _ node slots hnode - ⟨rfl, h⟩
  exact refl (h.replace hnode (node.family?_withSlots slots))

end Counting

/-- In a new world there are two families, one for each root. -/
theorem counted_new (settings : WorldSettings) (host : σ) : (World.new settings host : World κ σ).Counted := by
  refine ⟨(World.sound_new settings host).free, fun id node family hnode hfamily => ?_⟩
  obtain ⟨index⟩ := id
  match index with
  | 0 =>
    cases hnode
    cases hfamily
    exact Nat.le_succ 1
  | 1 =>
    cases hnode
    cases hfamily
    exact Nat.le_refl 2
  | index + 2 => cases hnode

end World

/-! ## Operations -/

open World (Counting)

namespace Run

/-- Changing a node that has been looked at, its family apart. -/
private theorem counting_change (id : ObjectId) {change : Node κ → Node κ}
    (hchange : ∀ node, (change node).family? = node.family?) :
    Steady Counting (do Run.replace id (change (← Run.node id)) : Run κ σ Unit) := by
  rintro v _ ⟨rfl, h⟩
  exact Run.Below.agrees_change (.refl h) fun node hnode => .refl (h.replace hnode (hchange node))

theorem counting_setSlots (id : ObjectId) (slots : Storage κ) :
    Steady Counting (Run.setSlots id slots : Run κ σ Unit) :=
  counting_change id fun node => node.family?_withSlots slots

theorem counting_setMirror (mirage mirror : ObjectId) :
    Steady Counting (Run.setMirror mirage mirror : Run κ σ Unit) :=
  counting_change mirage fun node => node.family?_withMirror (some mirror)

theorem counting_bindMirror (mirror mirage : Value κ) :
    Steady Counting (Run.bindMirror mirror mirage : Run κ σ Unit) :=
  Runtime.Steady.bindMirror_of counting_setMirror mirror mirage

theorem counting_newMirage (parent : Value κ) (link : ParentLink) (scope : Option ObjectId)
    (tags : List TypeTag) :
    Steady Counting (Run.newMirage parent link scope tags : Run κ σ ObjectId) := by
  rintro v _ ⟨rfl, h⟩
  let made : Node κ := .mirage ⟨v.newBody parent link scope tags, none⟩
  exact .ok _ (.refl (h.found parent link scope tags made rfl))

/-- A collection leaves nodes as they are, or frees them. -/
theorem counting_collect (extra : List (Value κ)) :
    Steady Counting (Run.collect extra : Run κ σ Collected) := by
  rintro v _ ⟨rfl, h⟩
  cases hcollect : Run.collect extra v with
  | error reason w =>
    obtain ⟨-, rfl⟩ := Run.collect_eq_error_iff.mp hcollect
    exact .error reason (.refl h)
  | ok collected w =>
    obtain ⟨heap, hheap, rfl⟩ := Run.collect_eq_ok hcollect
    have hfamilies : v.heap.families = heap.families := by
      obtain ⟨marked, rfl⟩ := Heap.exists_marked_of_collect hheap
      rfl
    refine .ok collected (.refl ⟨h.free.follows (.collect hheap), fun id node family hnode hfamily => ?_⟩)
    rw [← hfamilies]
    exact h.families id node family ((Heap.node?_of_collect hheap id node).mp hnode).1 hfamily

end Run

namespace Runtime

variable {rt rt' : Runtime κ σ}

/-- A copy is of the family of its source. -/
private theorem counting_cloneNode (hrt : Below Counting rt rt') (source : ObjectId) (parent : Value κ)
    {wrap : PrototypeObject κ → Node κ} (hwrap : ∀ body, (wrap body).body? = some body) :
    Run.Below Counting (rt.cloneNode source parent wrap) (rt'.cloneNode source parent wrap) := by
  rintro v _ ⟨rfl, h⟩
  unfold Runtime.cloneNode
  rw [Run.node_bind, Run.node_bind]
  cases hget : v.heap.get source with
  | error reason => exact .error reason (.refl h)
  | ok node =>
    cases hbody : node.body? with
    | none => simpa only [hbody] using .error _ (.refl h)
    | some body =>
      have hsource (family : CloneFamily) (hfamily : some body.family = some family) :
          family.number ≤ v.heap.families := by
        refine h.families source node family (Heap.get_eq_ok_iff.mp hget) ?_
        rw [Node.family?, hbody]
        exact hfamily
      have hcopied := h.allocate
        (wrap { body with slots := body.slots.cloneLayout, dynamicParent := parent })
        fun family hfamily => hsource family (by rwa [Node.family?, hwrap] at hfamily)
      have hrenew := (hrt.renewCustom (World.Counting.editable v.heap.nextId) body.slots.custom).bind
        (fun _ => Run.Below.pure v.heap.nextId) _ _ (.refl hcopied)
      simp only [hbody, Run.allocate_bind]
      exact hrenew

private theorem counting_rebase (mirror copy : ObjectId) :
    Steady Counting (rebase mirror copy : Run κ σ Unit) := by
  refine Steady.rebase_of ?_
  rintro v _ node index slots ⟨rfl, h⟩ hnode - -
  exact .refl (h.replace hnode (node.family?_withSlots slots))

private theorem counting_performDefault (hrt : Below Counting rt rt') (id : ObjectId)
    (message : Message κ) :
    Run.Below Counting (rt.performDefault id message) (rt'.performDefault id message) := by
  have hcopies : Below.Copies Counting rt rt' :=
    { object := fun source parent => counting_cloneNode hrt source parent fun _ => rfl
      mirage := fun source parent => counting_cloneNode hrt source parent fun _ => rfl }
  have hmirage : Run.Below Counting (rt.cloneMirage id) (rt'.cloneMirage id) :=
    hrt.cloneMirageBy hcopies counting_rebase Run.counting_setMirror id
  have hperform := hrt.performDefaultBy_of_clone (hrt.defaultCloneBy hcopies hmirage) message
    (fun _ => World.Counting.editable id) fun _ _ _ _ hvw =>
      Steady.agrees_defaultRemoveSlot (World.Counting.editable id) hvw fun _ _ _ _ _ rest hvw' _ _ _ =>
        Run.counting_setSlots id rest _ _ hvw'
  rwa [performDefaultBy_cloneMirage, performDefaultBy_cloneMirage] at hperform

private theorem counting_request (hrt : Below Counting rt rt') (request : Request κ) :
    Run.Below Counting (request.run rt) (request.run rt') := by
  refine hrt.request_of_mirages request fun _ => ?_
  cases request with
  | newMirage parent link scope tags => exact (Run.counting_newMirage parent link scope tags).map _
  | bindMirror mirror mirage => exact (Run.counting_bindMirror mirror mirage).bind fun _ => .pure _
  | createMirage code mirror tags =>
    exact hrt.createMirage_of Run.counting_newMirage
      (fun mirage => Steady.freshMirror.bind fun made => Run.counting_bindMirror made mirage) code mirror tags
  | _ => contradiction

private theorem counting_program (hrt : Below Counting rt rt') (program : Program κ σ α) :
    Run.Below Counting (program.run rt) (program.run rt') := by
  rw [Program.run_eq_runBy, Program.run_eq_runBy]
  exact program.runBy_below (counting_request hrt) Run.counting_collect

/-- Every call hands out families by number, whatever host code does and collects. -/
theorem counting (host : Host κ σ) (steps : Nat) :
    Below Counting (ofFuel host steps) (ofFuel host steps) := by
  rw [← machineWith_actual]
  exact machineWith_below host counting_performDefault counting_program Run.counting_bindMirror steps

end Runtime

/-- What programs leave is counted if what they found is. -/
theorem Program.counted_of_ended {host : Host κ σ} {steps : Nat} (program : Program κ σ α) {world : World κ σ}
    (hworld : world.Counted) (hended : Run.Ended (program.runFor steps host) world) :
    (Run.after (program.runFor steps host) world).Counted :=
  ((Runtime.counting_program (Runtime.counting host steps) program).after_of_ended (.refl hworld) hended).2

end Prototypes
