import Prototypes.Host.Program
import Prototypes.Proofs.Heap.FreeList
import Prototypes.Proofs.Slots.Edits

/-!
# Runs that answer what others answer

`Run.Below R x y` says that `y` ends as `x` does wherever `x` does not run out
of steps: from worlds related by `R` both give the same answer, or halt for the
same reason, and leave worlds related by `R`.  Being exhausted promises nothing.

With `World.Alike`, `Below` says that `x` is `y` with fewer steps, up to what
was reported on the way, which nothing inside a world ever reads.  Relations
that are stricter say besides what runs leave intact.  Everything here is
therefore stated for any relation that runs cannot break (`World.Likeness`), much of it
for any that can only be broken where mirrors are tied, fields removed or nodes reclaimed
(`World.Kinship`), and most of it for any that can besides be broken where nodes are
cloned or mirages made (`World.Affinity`).

The module goes through the steps of runs one by one; sequencing is
`Run.Below.bind`.  A run that is below itself (`Run.Steady`) does the same in
related worlds.
-/

namespace Prototypes

variable {κ σ α β γ : Type}

/-! ## Relations between worlds -/

/-- The mirror of a mirage that has one. -/
def Node.mirror? : Node κ → Option ObjectId
  | .mirage m => m.mirror
  | _ => none

/-- The body of a new object. -/
def World.newBody (world : World κ σ) (parent : Value κ) (link : ParentLink) (scope : Option ObjectId)
    (tags : List TypeTag) : PrototypeObject κ where
  slots := Storage.empty ⟨world.supply⟩
  dynamicParent := parent
  lexicalParent := scope
  link
  typeTags := tags
  family := ⟨world.heap.families + 1⟩
  flags := .none

/-- The world with a new object. -/
def World.found (world : World κ σ) (parent : Value κ) (link : ParentLink) (scope : Option ObjectId)
    (tags : List TypeTag) : World κ σ :=
  { world with
    heap := (world.heap.newFamily.2.allocate (.object (world.newBody parent link scope tags))).2
    supply := world.supply + 1 }

/--
A relation that only the log can tell from equality, and that is kept by the steps of
runs that clone no nodes, make and tie no mirages, remove no fields, add and remove no
other slots, and reclaim no nodes.
-/
class World.Affinity (R : World κ σ → World κ σ → Prop) : Prop where
  visible {v w : World κ σ} : R v w → v.visible = w.visible
  found {v w : World κ σ} (parent : Value κ) (link : ParentLink) (scope : Option ObjectId)
    (tags : List TypeTag) : R v w → R (v.found parent link scope tags) (w.found parent link scope tags)
  enter {v w : World κ σ} (layout : Identity) (scope : ObjectId) : R v w →
    R { v with heap := (v.heap.allocate (.frame ⟨Storage.empty layout, scope⟩)).2 }
      { w with heap := (v.heap.allocate (.frame ⟨Storage.empty layout, scope⟩)).2 }
  editFields {v w : World κ σ} {id : ObjectId} {node : Node κ} {slots : Storage κ} :
    v.heap.node? id = some node → node.slots.Edit slots → node.slots.AltersOnlyFields slots → R v w →
      R { v with heap := v.heap.replace id (node.withSlots slots) }
        { w with heap := v.heap.replace id (node.withSlots slots) }
  setSupply {v w : World κ σ} (supply : Nat) : R v w → R { v with supply } { w with supply }
  setHost {v w : World κ σ} (host : σ) : R v w → R { v with host } { w with host }
  append {v w : World κ σ} (events : Array Event) : R v w →
    R { v with log := v.log ++ events } { w with log := w.log ++ events }

/--
A relation that only the log can tell from equality, and that is kept by the steps of
runs that tie no mirrors, remove no fields, and reclaim no nodes.
-/
class World.Kinship (R : World κ σ → World κ σ → Prop) : Prop where
  visible {v w : World κ σ} : R v w → v.visible = w.visible
  newFamily {v w : World κ σ} : R v w →
    R { v with heap := v.heap.newFamily.2 } { w with heap := v.heap.newFamily.2 }
  allocate {v w : World κ σ} {node : Node κ} : node.mirror? = none → R v w →
    R { v with heap := (v.heap.allocate node).2 } { w with heap := (v.heap.allocate node).2 }
  edit {v w : World κ σ} {id : ObjectId} {node : Node κ} {slots : Storage κ} :
    v.heap.node? id = some node → node.slots.Edit slots → R v w →
      R { v with heap := v.heap.replace id (node.withSlots slots) }
        { w with heap := v.heap.replace id (node.withSlots slots) }
  setSupply {v w : World κ σ} (supply : Nat) : R v w → R { v with supply } { w with supply }
  setHost {v w : World κ σ} (host : σ) : R v w → R { v with host } { w with host }
  append {v w : World κ σ} (events : Array Event) : R v w →
    R { v with log := v.log ++ events } { w with log := w.log ++ events }

/-- A relation that only the log can tell from equality, and that the steps of runs keep. -/
class World.Likeness (R : World κ σ → World κ σ → Prop) : Prop where
  visible {v w : World κ σ} : R v w → v.visible = w.visible
  setHeap {v w : World κ σ} {heap : Heap κ} : v.heap.Follows heap → R v w →
    R { v with heap } { w with heap }
  setSupply {v w : World κ σ} (supply : Nat) : R v w → R { v with supply } { w with supply }
  setHost {v w : World κ σ} (host : σ) : R v w → R { v with host } { w with host }
  append {v w : World κ σ} (events : Array Event) : R v w →
    R { v with log := v.log ++ events } { w with log := w.log ++ events }

instance World.Likeness.kinship {R : World κ σ → World κ σ → Prop} [World.Likeness R] :
    World.Kinship R where
  visible := World.Likeness.visible
  newFamily := World.Likeness.setHeap .newFamily
  allocate _ := World.Likeness.setHeap (.allocate _)
  edit hnode _ := World.Likeness.setHeap (.replace _ (Heap.contains_of_node? hnode))
  setSupply := World.Likeness.setSupply
  setHost := World.Likeness.setHost
  append := World.Likeness.append

/-- A new object is a new node of a new family. -/
instance World.Kinship.affinity {R : World κ σ → World κ σ → Prop} [World.Kinship R] :
    World.Affinity R where
  visible := World.Kinship.visible
  found {v w} parent link scope tags h := by
    have hheap : v.heap = w.heap := (congrArg World.heap (World.Kinship.visible h) :)
    have hsupply : v.supply = w.supply := (congrArg World.supply (World.Kinship.visible h) :)
    have hfound : w.found parent link scope tags =
        { w with
          heap := (v.heap.newFamily.2.allocate (.object (v.newBody parent link scope tags))).2
          supply := v.supply + 1 } := by
      simp only [World.found, World.newBody, hheap, hsupply]
    rw [hfound]
    exact World.Kinship.setSupply (v.supply + 1)
      (World.Kinship.allocate rfl (World.Kinship.newFamily h))
  enter _ _ := World.Kinship.allocate rfl
  editFields hnode hedit _ := World.Kinship.edit hnode hedit
  setSupply := World.Kinship.setSupply
  setHost := World.Kinship.setHost
  append := World.Kinship.append

/-- A relation that is kept however the slots of a node are edited. -/
def World.Editable (R : World κ σ → World κ σ → Prop) (id : ObjectId) : Prop :=
  ∀ {v w : World κ σ} {node : Node κ} {slots : Storage κ},
    v.heap.node? id = some node → node.slots.Edit slots → R v w →
      R { v with heap := v.heap.replace id (node.withSlots slots) }
        { w with heap := v.heap.replace id (node.withSlots slots) }

theorem World.Kinship.editable {R : World κ σ → World κ σ → Prop} [World.Kinship R] (id : ObjectId) :
    World.Editable R id := World.Kinship.edit

/-- The same but for what was reported. -/
def World.Alike (v w : World κ σ) : Prop := v.visible = w.visible

/-- The world after an event has been reported, if forwarding is. -/
def World.traced (world : World κ σ) (event : Event) : World κ σ :=
  if world.tracing then { world with log := world.log.push event } else world

namespace World.Alike

theorem refl (w : World κ σ) : w.Alike w := rfl

theorem symm {v w : World κ σ} (h : v.Alike w) : w.Alike v := Eq.symm h

theorem trans {u v w : World κ σ} (h : u.Alike v) (h' : v.Alike w) : u.Alike w := Eq.trans h h'

/-- Worlds are alike when one is the other with another log. -/
theorem eq_with_log {v w : World κ σ} (h : v.Alike w) : w = { v with log := w.log } := by
  have hfields := World.mk.inj h
  obtain ⟨h₁, h₂, h₃, h₄, h₅, h₆, h₇, h₈, -, h₉⟩ := hfields
  cases v; cases w
  simp_all

theorem with_log (w : World κ σ) (log : Array Event) : w.Alike { w with log } := rfl

theorem traced (w : World κ σ) (event : Event) : w.Alike (w.traced event) := by
  unfold World.traced
  split
  · exact with_log w _
  · exact refl w

end World.Alike

instance : World.Likeness (World.Alike (κ := κ) (σ := σ)) where
  visible h := h
  setHeap _ h := by rw [h.eq_with_log]; rfl
  setSupply supply h := by rw [h.eq_with_log]; rfl
  setHost host h := by rw [h.eq_with_log]; rfl
  append events h := by rw [h.eq_with_log]; rfl

namespace World.Affinity

variable {R : World κ σ → World κ σ → Prop} [World.Affinity R] {v w : World κ σ}

theorem heap_eq (h : R v w) : v.heap = w.heap := (congrArg World.heap (visible h) :)

theorem lexicalRoot_eq (h : R v w) : v.lexicalRoot = w.lexicalRoot :=
  (congrArg World.lexicalRoot (visible h) :)

theorem mirrorRoot_eq (h : R v w) : v.mirrorRoot = w.mirrorRoot :=
  (congrArg World.mirrorRoot (visible h) :)

theorem isMirrorDefault_eq (h : R v w) : v.isMirrorDefault = w.isMirrorDefault :=
  (congrArg World.isMirrorDefault (visible h) :)

theorem isolateTag_eq (h : R v w) : v.isolateTag = w.isolateTag :=
  (congrArg World.isolateTag (visible h) :)

theorem actor_eq (h : R v w) : v.actor = w.actor := (congrArg World.actor (visible h) :)

theorem tracing_eq (h : R v w) : v.tracing = w.tracing := (congrArg World.tracing (visible h) :)

theorem supply_eq (h : R v w) : v.supply = w.supply := (congrArg World.supply (visible h) :)

theorem host_eq (h : R v w) : v.host = w.host := (congrArg World.host (visible h) :)

theorem push (h : R v w) (event : Event) :
    R { v with log := v.log.push event } { w with log := w.log.push event } := by
  simpa only [Array.push_eq_append] using append #[event] h

end World.Affinity

/-! ## Runs below others -/

namespace Run

/-! ### Runs at a world -/

theorem fresh_bind (f : Identity → Run κ σ β) (world : World κ σ) :
    (fresh >>= f) world = f ⟨world.supply⟩ { world with supply := world.supply + 1 } := rfl

theorem check_ok_bind (a : α) (f : α → Run κ σ β) : (check (.ok a) >>= f) = f a := rfl

theorem allocate_bind (node : Node κ) (f : ObjectId → Run κ σ β) (world : World κ σ) :
    (allocate node >>= f) world =
      f world.heap.nextId { world with heap := (world.heap.allocate node).2 } := by
  simp only [bind, EStateM.bind, allocate, changeHeap, Heap.allocate_fst]

/-- A new object is made in one go. -/
theorem newBody_allocate_bind (parent : Value κ) (link : ParentLink) (scope : Option ObjectId)
    (tags : List TypeTag) (f : ObjectId → Run κ σ β) (world : World κ σ) :
    (newBody parent link scope tags >>= fun body => allocate (.object body) >>= f) world =
      f world.heap.nextId (world.found parent link scope tags) := by
  show (allocate (.object (world.newBody parent link scope tags)) >>= f)
    { world with heap := world.heap.newFamily.2, supply := world.supply + 1 } = _
  rw [allocate_bind]
  rfl

theorem node_bind (id : ObjectId) (f : Node κ → Run κ σ β) (w : World κ σ) :
    (node id >>= f) w =
      match w.heap.get id with
      | .ok node => f node w
      | .error reason => .error reason w := by
  simp only [bind, EStateM.bind, node, ofHeap, observe]
  cases w.heap.get id <;> rfl

theorem node_bind_of_some {id : ObjectId} {node : Node κ} {world : World κ σ}
    (h : world.heap.node? id = some node) (f : Node κ → Run κ σ β) :
    (Run.node id >>= f) world = f node world := by
  rw [node_bind, Heap.get_eq_ok_iff.mpr h]

theorem slots_bind {id : ObjectId} {node : Node κ} {world : World κ σ}
    (h : world.heap.node? id = some node) (f : Storage κ → Run κ σ β) :
    (slots id >>= f) world = f node.slots world := by
  rw [slots, bind_map_left, node_bind_of_some h]

theorem searchDynamic_bind (start : ObjectId) (selector : Symbol) (f : Resolution κ → Run κ σ β)
    (w : World κ σ) :
    (searchDynamic start selector >>= f) w =
      match w.heap.searchDynamic start selector with
      | .ok resolution => f resolution w
      | .error reason => .error reason w := by
  simp only [bind, EStateM.bind, searchDynamic, ofHeap, observe]
  cases w.heap.searchDynamic start selector <;> rfl

theorem searchLexical_bind_of_ok {start : ObjectId} {selector : Symbol} {world : World κ σ}
    {resolution : Resolution κ} (h : world.heap.searchLexical start selector = .ok resolution)
    (f : Resolution κ → Run κ σ α) :
    (searchLexical start selector >>= f) world = f resolution world := by
  simp only [bind, EStateM.bind, searchLexical, ofHeap, observe, h]

theorem searchLexical_bind_of_error {start : ObjectId} {selector : Symbol} {world : World κ σ}
    {reason : Halt} (h : world.heap.searchLexical start selector = .error reason)
    (f : Resolution κ → Run κ σ α) :
    (searchLexical start selector >>= f) world = .error reason world := by
  simp only [bind, EStateM.bind, searchLexical, ofHeap, observe, h]

theorem mirrorOf_bind {mirage mirror : ObjectId} {body : PrototypeObject κ} {w : World κ σ}
    (h : w.heap.get mirage = .ok (.mirage ⟨body, some mirror⟩)) (f : ObjectId → Run κ σ β) :
    (mirrorOf mirage >>= f) w = f mirror w := by
  simp only [bind, EStateM.bind, mirrorOf, observe, World.mirrorOf, h, Except.bind]
  rfl

/-- Looking at a world leaves it as it is. -/
theorem observe_eq_ok {view : World κ σ → Except Halt α} {a : α} {v w : World κ σ}
    (h : Run.observe view v = .ok a w) : view v = .ok a ∧ w = v := by
  unfold Run.observe at h
  cases hview : view v with
  | ok answer =>
    rw [hview] at h
    cases h
    exact ⟨rfl, rfl⟩
  | error reason =>
    rw [hview] at h
    cases h

theorem node_eq_ok {id : ObjectId} {node : Node κ} {v w : World κ σ} (h : Run.node id v = .ok node w) :
    v.heap.node? id = some node ∧ w = v := by
  have hseen : observe (fun world => world.heap.get id) v = .ok node w := h
  obtain ⟨hget, rfl⟩ := observe_eq_ok hseen
  exact ⟨Heap.get_eq_ok_iff.mp hget, rfl⟩

theorem trace_bind (event : Event) (f : Unit → Run κ σ β) (w : World κ σ) :
    (trace event >>= f) w = f () (w.traced event) := by
  simp only [bind, EStateM.bind, trace, World.traced]
  cases w.tracing <;> rfl

theorem bind_of_ok {x : Run κ σ α} {v w : World κ σ} {a : α} (h : x v = .ok a w)
    (f : α → Run κ σ β) : (x >>= f) v = f a w := by
  simp only [bind, EStateM.bind, h]

theorem bind_of_error {x : Run κ σ α} {v w : World κ σ} {reason : Halt} (h : x v = .error reason w)
    (f : α → Run κ σ β) : (x >>= f) v = .error reason w := by
  simp only [bind, EStateM.bind, h]

/-- Runs that do the same in two worlds are gone on with in the same way. -/
theorem bind_eq_of_eq {x y : Run κ σ α} {v w : World κ σ} (h : x v = y w) (f : α → Run κ σ β) :
    (x >>= f) v = (y >>= f) w := by
  show EStateM.bind x f v = EStateM.bind y f w
  unfold EStateM.bind
  rw [h]

/-- What is done after a step matters only for what the step can answer. -/
theorem bind_congr_of_ok {x : Run κ σ α} {f g : α → Run κ σ β} {v : World κ σ}
    (h : ∀ a w, x v = .ok a w → f a w = g a w) : (x >>= f) v = (x >>= g) v := by
  show EStateM.bind x f v = EStateM.bind x g v
  unfold EStateM.bind
  cases hx : x v with
  | ok a w => exact h a w hx
  | error reason w => rfl

/-- A sequence that answers has answered at each step. -/
theorem eq_ok_of_bind {x : Run κ σ α} {f : α → Run κ σ β} {v w : World κ σ} {b : β}
    (h : (x >>= f) v = .ok b w) : ∃ a u, x v = .ok a u ∧ f a u = .ok b w := by
  simp only [bind, EStateM.bind] at h
  cases hx : x v with
  | ok a u =>
    rw [hx] at h
    exact ⟨a, u, rfl, h⟩
  | error reason u =>
    rw [hx] at h
    cases h

/-- A run whose answer is not used has answered all the same. -/
theorem eq_ok_of_discard {x : Run κ σ α} {v w : World κ σ} {u : PUnit}
    (h : (discard x : Run κ σ PUnit) v = .ok u w) : ∃ a, x v = .ok a w := by
  change EStateM.map (Function.const α PUnit.unit) x v = _ at h
  unfold EStateM.map at h
  cases hx : x v with
  | ok a u =>
    rw [hx] at h
    cases h
    exact ⟨a, rfl⟩
  | error reason u =>
    rw [hx] at h
    cases h

theorem discard_bind (x : Run κ σ α) (f : PUnit → Run κ σ β) :
    (discard x >>= f) = (x >>= fun _ => f ⟨⟩) := by
  simp [discard, Functor.discard, map_const]

theorem discard_of_ok {x : Run κ σ α} {a : α} {v w : World κ σ} (h : x v = .ok a w) :
    (discard x : Run κ σ PUnit) v = .ok ⟨⟩ w := by
  change EStateM.map (Function.const α PUnit.unit) x v = _
  rw [EStateM.map, h]

theorem discard_of_error {x : Run κ σ α} {reason : Halt} {v w : World κ σ} (h : x v = .error reason w) :
    (discard x : Run κ σ PUnit) v = .error reason w := by
  change EStateM.map (Function.const α PUnit.unit) x v = _
  rw [EStateM.map, h]

section Loops

variable {ι ν : Type} {step : ι → Run κ σ PUnit} {v w : World κ σ}

/-- A loop over items whose names are apart ends, if each of them is done where none of its name has been. -/
theorem exists_forM (name : ι → ν) {Done : List ι → World κ σ → Prop} {done items : List ι}
    (hstep : ∀ {done : List ι} {item : ι} {v : World κ σ}, Done done v → item ∈ items →
      name item ∉ done.map name → ∃ w, step item v = .ok ⟨⟩ w ∧ Done (done ++ [item]) w)
    (hv : Done done v) (hnodup : ((done ++ items).map name).Nodup) :
    ∃ w, items.forM step v = .ok ⟨⟩ w ∧ Done (done ++ items) w := by
  -- what has been done so far is what the induction carries
  induction items generalizing done v with
  | nil => exact ⟨v, rfl, by rwa [List.append_nil]⟩
  | cons item items ih =>
    have hother : name item ∉ done.map name := by
      intro hmem
      rw [List.map_append, List.nodup_append] at hnodup
      exact hnodup.2.2 _ hmem _ (List.mem_cons_self ..) rfl
    obtain ⟨next, hdone, hnext⟩ := hstep hv (List.mem_cons_self ..) hother
    rw [List.append_cons] at hnodup ⊢
    obtain ⟨w, hitems, hw⟩ :=
      ih (fun hv hitem => hstep hv (List.mem_cons_of_mem _ hitem)) hnext hnodup
    exact ⟨w, (bind_of_ok hdone _).trans hitems, hw⟩

/-- It fails for the first item that does. -/
theorem forM_of_error {earlier later : List ι} {item : ι} {next : World κ σ} {reason : Halt}
    (hearlier : earlier.forM step v = .ok ⟨⟩ next) (hfailed : step item next = .error reason w) :
    (earlier ++ item :: later).forM step v = .error reason w := by
  have happend : (earlier ++ item :: later).forM step =
      (earlier.forM step >>= fun _ => (item :: later).forM step) := List.forM_append
  rw [happend, bind_of_ok hearlier]
  exact bind_of_error hfailed _

end Loops

/-- Two ends of runs that agree, unless the first is out of steps. -/
inductive Agrees (R : World κ σ → World κ σ → Prop) :
    EStateM.Result Halt (World κ σ) α → EStateM.Result Halt (World κ σ) α → Prop
  | exhausted (v : World κ σ) (result : EStateM.Result Halt (World κ σ) α) :
      Agrees R (.error .exhausted v) result
  | ok (answer : α) {v w : World κ σ} : R v w → Agrees R (.ok answer v) (.ok answer w)
  | error (reason : Halt) {v w : World κ σ} : R v w → Agrees R (.error reason v) (.error reason w)

/-- Ends that agree are gone on from, if what is done from there agrees. -/
theorem Agrees.bind {R : World κ σ → World κ σ → Prop} {x y : Run κ σ α} {f g : α → Run κ σ β}
    {v w : World κ σ} (h : Agrees R (x v) (y w))
    (hnext : ∀ a v w, R v w → Agrees R (f a v) (g a w)) :
    Agrees R ((x >>= f) v) ((y >>= g) w) := by
  show Agrees R (EStateM.bind x f v) (EStateM.bind y g w)
  unfold EStateM.bind
  generalize x v = first at h
  generalize y w = second at h
  cases h with
  | exhausted v _ => exact .exhausted v _
  | ok a hvw => exact hnext a _ _ hvw
  | error reason hvw => exact .error reason hvw

theorem Agrees.mono {R R' : World κ σ → World κ σ → Prop}
    {first second : EStateM.Result Halt (World κ σ) α} (h : Agrees R first second)
    (himp : ∀ v w, R v w → R' v w) : Agrees R' first second := by
  cases h with
  | exhausted v _ => exact .exhausted v _
  | ok answer hvw => exact .ok answer (himp _ _ hvw)
  | error reason hvw => exact .error reason (himp _ _ hvw)

/-- `y` ends as `x` does wherever `x` has steps enough. -/
def Below (R : World κ σ → World κ σ → Prop) (x y : Run κ σ α) : Prop :=
  ∀ v w, R v w → Agrees R (x v) (y w)

/-- In related worlds the run does the same. -/
abbrev Steady (R : World κ σ → World κ σ → Prop) (x : Run κ σ α) : Prop := Below R x x

variable {R : World κ σ → World κ σ → Prop}

theorem Agrees.trans {first second third : EStateM.Result Halt (World κ σ) α}
    (h : Agrees World.Alike first second) (h' : Agrees World.Alike second third) :
    Agrees World.Alike first third := by
  cases h with
  | exhausted v _ => exact .exhausted v third
  | ok answer hvw =>
    cases h' with
    | ok _ hwu => exact .ok answer (hvw.trans hwu)
  | error reason hvw =>
    cases h' with
    | exhausted => exact .exhausted _ third
    | error _ hwu => exact .error reason (hvw.trans hwu)

namespace Below

theorem trans {x y z : Run κ σ α} (h : Below World.Alike x y) (h' : Below World.Alike y z) :
    Below World.Alike x z :=
  fun v w hvw => (h v w hvw).trans (h' w w (.refl w))

/-- A run out of steps is below everything. -/
theorem exhausted (y : Run κ σ α) : Below R (Run.halt .exhausted) y :=
  fun v w _ => .exhausted v (y w)

theorem pure (a : α) : Steady R (Pure.pure a : Run κ σ α) := fun _ _ h => .ok a h

theorem halt (reason : Halt) : Steady R (Run.halt reason : Run κ σ α) := fun _ _ h => .error reason h

/-- One run after the other. -/
theorem bind {x y : Run κ σ α} {f g : α → Run κ σ β} (h : Below R x y)
    (hnext : ∀ a, Below R (f a) (g a)) : Below R (x >>= f) (y >>= g) :=
  fun v w hvw => (h v w hvw).bind fun a _ _ => hnext a _ _

theorem map {x y : Run κ σ α} (f : α → β) (h : Below R x y) : Below R (f <$> x) (f <$> y) := by
  rw [← bind_pure_comp, ← bind_pure_comp]
  exact h.bind fun a => pure (f a)

theorem ignore {x y : Run κ σ α} (h : Below R x y) :
    Below R (discard x) (discard y) :=
  h.map (Function.const α PUnit.unit)

theorem raise (error : RuntimeError) : Steady R (Run.raise error : Run κ σ α) :=
  halt (.raised error)

theorem check (checked : Except RuntimeError α) : Steady R (Run.check checked : Run κ σ α) := by
  cases checked with
  | ok a => exact pure a
  | error e => exact raise e

/-- Stopping on a condition and going on otherwise. -/
theorem guard {c : Prop} [Decidable c] (error : RuntimeError) {x y : Run κ σ α}
    (h : Below R x y) :
    Below R (if c then Run.raise error >>= fun _ : PUnit => x else x)
      (if c then Run.raise error >>= fun _ : PUnit => y else y) := by
  split
  · exact (raise error).bind fun _ => h
  · exact h

/-- Doing the same for each member of a list. -/
theorem forM {items : List α} {f g : α → Run κ σ PUnit} (h : ∀ a, Below R (f a) (g a)) :
    Below R (items.forM f) (items.forM g) := by
  induction items with
  | nil => exact pure PUnit.unit
  | cons item items ih => exact (h item).bind fun _ => ih

/-! ## Steps that look at the world -/

/-- Looking at the world; what is seen may differ by what `R` allows. -/
theorem get {f g : World κ σ → Run κ σ α} (h : ∀ v w, R v w → Below R (f v) (g w)) :
    Below R (MonadState.get >>= f) (MonadState.get >>= g) :=
  fun v w hvw => h v w hvw v w hvw

variable [World.Affinity R]

theorem observe {view : World κ σ → Except Halt α} (h : ∀ w, view w.visible = view w) :
    Steady R (Run.observe view) := by
  intro v w hvw
  have hview : view v = view w := by rw [← h v, ← h w, World.Affinity.visible hvw]
  unfold Run.observe
  rw [hview]
  cases view w with
  | ok a => exact .ok a hvw
  | error reason => exact .error reason hvw

theorem ofHeap (view : Heap κ → Except Halt α) : Steady R (Run.ofHeap view : Run κ σ α) :=
  observe fun _ => rfl

theorem node (id : ObjectId) : Steady R (Run.node id : Run κ σ (Node κ)) := ofHeap _

theorem slots (id : ObjectId) : Steady R (Run.slots id : Run κ σ (Storage κ)) := (node id).map _

theorem searchDynamic (start : ObjectId) (selector : Symbol) :
    Steady R (Run.searchDynamic start selector : Run κ σ (Resolution κ)) := ofHeap _

theorem searchLexical (start : ObjectId) (selector : Symbol) :
    Steady R (Run.searchLexical start selector : Run κ σ (Resolution κ)) := ofHeap _

theorem mirrorOf (mirage : ObjectId) : Steady R (Run.mirrorOf mirage : Run κ σ ObjectId) :=
  observe fun _ => rfl

/-! ## Steps that change the world -/

theorem fresh : Steady R (Run.fresh : Run κ σ Identity) := by
  intro v w hvw
  have hsupply := World.Affinity.supply_eq hvw
  unfold Run.fresh
  rw [hsupply]
  exact .ok _ (World.Affinity.setSupply _ hvw)

/-- Taking an identity does not touch the heap. -/
theorem agrees_fresh {v w : World κ σ} (hvw : R v w) {f g : Identity → Run κ σ α}
    (h : ∀ identity v' w', R v' w' → v'.heap = v.heap → Agrees R (f identity v') (g identity w')) :
    Agrees R ((Run.fresh >>= f) v) ((Run.fresh >>= g) w) := by
  show Agrees R (f ⟨v.supply⟩ { v with supply := v.supply + 1 })
    (g ⟨w.supply⟩ { w with supply := w.supply + 1 })
  rw [← World.Affinity.supply_eq hvw]
  exact h _ _ _ (World.Affinity.setSupply _ hvw) rfl

theorem report (event : Event) : Steady R (Run.report event : Run κ σ Unit) :=
  fun _ _ hvw => .ok () (World.Affinity.push hvw event)

theorem trace (event : Event) : Steady R (Run.trace event : Run κ σ Unit) := by
  intro v w hvw
  have htracing := World.Affinity.tracing_eq hvw
  unfold Run.trace
  by_cases hw : w.tracing = true
  · rw [if_pos hw, if_pos (htracing.trans hw)]
    exact .ok () (World.Affinity.push hvw event)
  · rw [if_neg hw, if_neg (fun hv => hw (htracing.symm.trans hv))]
    exact .ok () hvw

theorem enter (layout : Identity) (scope : ObjectId) :
    Steady R (Run.allocate (.frame ⟨Storage.empty layout, scope⟩) : Run κ σ ObjectId) := by
  intro v w hvw
  have hentered := World.Affinity.enter layout scope hvw
  unfold Run.allocate Run.changeHeap
  rw [← World.Affinity.heap_eq hvw]
  exact .ok _ hentered

/-- Going on with a new object. -/
theorem found_bind (parent : Value κ) (link : ParentLink) (scope : Option ObjectId)
    (tags : List TypeTag) {f g : ObjectId → Run κ σ α} (h : ∀ id, Below R (f id) (g id)) :
    Below R (Run.newBody parent link scope tags >>= fun body => Run.allocate (.object body) >>= f)
      (Run.newBody parent link scope tags >>= fun body => Run.allocate (.object body) >>= g) := by
  intro v w hvw
  rw [newBody_allocate_bind, newBody_allocate_bind, ← World.Affinity.heap_eq hvw]
  exact h _ _ _ (World.Affinity.found parent link scope tags hvw)

/-- Going on with the slots a node has. -/
theorem agrees_slots_bind {v w : World κ σ} (hvw : R v w) {id : ObjectId} {f g : Storage κ → Run κ σ α}
    (h : ∀ node, v.heap.node? id = some node → Agrees R (f node.slots v) (g node.slots w)) :
    Agrees R ((Run.slots id >>= f) v) ((Run.slots id >>= g) w) := by
  unfold Run.slots
  rw [bind_map_left, bind_map_left, node_bind, node_bind, ← World.Affinity.heap_eq hvw]
  cases hget : v.heap.get id with
  | ok node => exact h node (Heap.get_eq_ok_iff.mp hget)
  | error reason => exact .error reason hvw

/-- Putting another node in the place of one that has been looked at. -/
theorem agrees_change {v w : World κ σ} (hvw : R v w) {id : ObjectId} {change : Node κ → Node κ}
    (h : ∀ node, v.heap.node? id = some node → R { v with heap := v.heap.replace id (change node) }
      { w with heap := v.heap.replace id (change node) }) :
    Agrees R ((do Run.replace id (change (← Run.node id)) : Run κ σ Unit) v)
      ((do Run.replace id (change (← Run.node id)) : Run κ σ Unit) w) := by
  rw [node_bind, node_bind, ← World.Affinity.heap_eq hvw]
  cases hget : v.heap.get id with
  | ok node =>
    simp only [Run.replace, Run.changeHeap, ← World.Affinity.heap_eq hvw]
    exact .ok () (h node (Heap.get_eq_ok_iff.mp hget))
  | error reason => exact .error reason hvw

/-- Giving a node other slots. -/
theorem agrees_setSlots {v w : World κ σ} (hvw : R v w) {id : ObjectId} {node : Node κ}
    (hnode : v.heap.node? id = some node) {slots : Storage κ}
    (hedited : R { v with heap := v.heap.replace id (node.withSlots slots) }
      { w with heap := v.heap.replace id (node.withSlots slots) }) :
    Agrees R (Run.setSlots id slots v) (Run.setSlots id slots w) :=
  agrees_change hvw fun other hother => by
    cases hnode.symm.trans hother
    exact hedited

/-- Editing the slots of a node. -/
theorem edit {id : ObjectId} (hid : World.Editable R id)
    {change : Storage κ → Except RuntimeError (Storage κ)} (h : ∀ slots edited, change slots = .ok edited → slots.Edit edited) :
    Steady R (do Run.setSlots id (← Run.check (change (← Run.slots id))) : Run κ σ Unit) := by
  refine fun v w hvw => agrees_slots_bind hvw fun node hnode => ?_
  cases hchange : change node.slots with
  | ok edited => exact agrees_setSlots hvw hnode (hid hnode (h _ _ hchange) hvw)
  | error e => exact .error _ hvw

theorem putField (id : ObjectId) (field : Field κ) :
    Steady R (Run.putField id field : Run κ σ Unit) := by
  refine fun v w hvw => agrees_slots_bind hvw fun node hnode => ?_
  refine agrees_fresh hvw fun identity v' w' hvw' hheap => ?_
  rw [← hheap] at hnode
  cases hput : node.slots.putField identity field with
  | ok edited =>
    exact agrees_setSlots hvw' hnode
      (World.Affinity.editFields hnode (.putField hput) (Storage.altersOnlyFields_putField hput) hvw')
  | error e => exact .error _ hvw'

theorem newTable (items : List (Value κ)) : Steady R (Run.newTable items : Run κ σ (Value κ)) :=
  fresh.bind fun _ => pure _

theorem newClosure (closure : Closure κ) :
    Steady R (Run.newClosure closure : Run κ σ (Value κ)) :=
  fresh.bind fun _ => pure _

/-! ## Steps that make nodes of any kind -/

section Kinship

omit [World.Affinity R]

variable [World.Kinship R]

theorem allocate {node : Node κ} (hnode : node.mirror? = none) :
    Steady R (Run.allocate node : Run κ σ ObjectId) := by
  intro v w hvw
  have hallocated := World.Kinship.allocate hnode hvw
  unfold Run.allocate Run.changeHeap
  rw [← World.Affinity.heap_eq hvw]
  exact .ok _ hallocated

theorem newFamily : Steady R (Run.newFamily : Run κ σ CloneFamily) := by
  intro v w hvw
  have hfollows := World.Kinship.newFamily hvw
  unfold Run.newFamily Run.changeHeap
  rw [← World.Affinity.heap_eq hvw]
  exact .ok _ hfollows

end Kinship

/-! ## Steps that tie and reclaim -/

section Likeness

omit [World.Affinity R]

variable [World.Likeness R]

/-- Putting another node in the place of one that has been looked at. -/
theorem change (id : ObjectId) (change : Node κ → Node κ) :
    Steady R (do Run.replace id (change (← Run.node id)) : Run κ σ Unit) := by
  refine fun v w hvw => agrees_change hvw fun node hnode => ?_
  exact World.Likeness.setHeap (.replace (change node) (Heap.contains_of_node? hnode)) hvw

theorem setSlots (id : ObjectId) (slots : Storage κ) :
    Steady R (Run.setSlots id slots : Run κ σ Unit) :=
  change id fun node => node.withSlots slots

theorem collect (extra : List (Value κ)) : Steady R (Run.collect extra : Run κ σ Collected) := by
  intro v w hvw
  have hcollect : v.heap.collect (.object v.lexicalRoot :: .object v.mirrorRoot :: extra) =
      w.heap.collect (.object w.lexicalRoot :: .object w.mirrorRoot :: extra) := by
    rw [World.Affinity.heap_eq hvw, World.Affinity.lexicalRoot_eq hvw,
      World.Affinity.mirrorRoot_eq hvw]
  unfold Run.collect
  rw [← hcollect]
  cases hresult : v.heap.collect (.object v.lexicalRoot :: .object v.mirrorRoot :: extra) with
  | ok result => exact .ok _ (World.Affinity.push (World.Likeness.setHeap (.collect hresult) hvw) _)
  | error reason => exact .error reason hvw

end Likeness

end Below

/-- It makes no difference to a world what is reported. -/
theorem trace_below (event event' : Event) :
    Below World.Alike (Run.trace event : Run κ σ Unit) (Run.trace event') := by
  intro v w hvw
  have htracing := World.Affinity.tracing_eq hvw
  unfold Run.trace
  by_cases hw : w.tracing = true
  · rw [if_pos hw, if_pos (htracing.trans hw)]
    exact .ok () hvw
  · rw [if_neg hw, if_neg fun hv => hw (htracing.symm.trans hv)]
    exact .ok () hvw

/-! ## Ends of runs from one world -/

/--
A run is out of steps, or it leaves a world that is related to itself; where it answers, `post`
holds besides.
-/
inductive Ends (R : World κ σ → World κ σ → Prop) (post : α → World κ σ → Prop) :
    EStateM.Result Halt (World κ σ) α → Prop
  | exhausted (w : World κ σ) : Ends R post (.error .exhausted w)
  | ok {answer : α} {w : World κ σ} : R w w → post answer w → Ends R post (.ok answer w)
  | error (reason : Halt) {w : World κ σ} : R w w → Ends R post (.error reason w)

namespace Ends

variable {post : α → World κ σ → Prop} {v : World κ σ}

/-- A steady run ends in this way, and answers what it answers. -/
theorem of_steady {x : Run κ σ α} (h : Steady R x) (hv : R v v) :
    Ends R (fun answer w => x v = .ok answer w) (x v) := by
  have hagrees := h v v hv
  generalize x v = result at hagrees
  cases hagrees with
  | exhausted w _ => exact .exhausted w
  | ok answer hw => exact .ok hw rfl
  | error reason hw => exact .error reason hw

theorem agrees {result : EStateM.Result Halt (World κ σ) α} (h : Ends R post result) :
    Agrees R result result := by
  cases h with
  | exhausted w => exact .exhausted w _
  | ok hw _ => exact .ok _ hw
  | error reason hw => exact .error reason hw

theorem mono {R' : World κ σ → World κ σ → Prop} {result : EStateM.Result Halt (World κ σ) α}
    {post' : α → World κ σ → Prop} (h : Ends R post result) (himp : ∀ w, R w w → R' w w)
    (hpost : ∀ answer w, R w w → post answer w → post' answer w) : Ends R' post' result := by
  cases h with
  | exhausted w => exact .exhausted w
  | ok hw hpost' => exact .ok (himp _ hw) (hpost _ _ hw hpost')
  | error reason hw => exact .error reason (himp _ hw)

theorem bind {x : Run κ σ α} {f : α → Run κ σ β} {post' : β → World κ σ → Prop}
    (h : Ends R post (x v))
    (hnext : ∀ answer w, R w w → post answer w → Ends R post' (f answer w)) :
    Ends R post' ((x >>= f) v) := by
  show Ends R post' (EStateM.bind x f v)
  unfold EStateM.bind
  generalize x v = result at h
  cases h with
  | exhausted w => exact .exhausted w
  | ok hw hpost => exact hnext _ _ hw hpost
  | error reason hw => exact .error reason hw

end Ends

end Run

end Prototypes
