import Prototypes.Proofs.Heap.Reachability
import Prototypes.Semantics.Extension

/-!
# Collecting what refers to other actors

A far reference names a node by the handle it has in the actor that owns it.  An edge
does not say whether it comes from such a reference, and so marking follows the target
of a *foreign* reference, one of another actor, as if it were a node of this heap.

What an object holds is listed here with the owner of each handle
(`Value.references`), the edges being its targets.  Then the foreign references that a
collection meets can be told from the local ones, and decide two things.  If one of
their targets leads nowhere here, the collection halts; if one of them leads to a node
that is not reached locally, that node stays.  Only where all of them happen to lead to
nodes that stay anyway do they make no difference.

## Main results

* `Node.edges_eq_map` — edges are the targets of references.
* `Run.collect_foreign` — what foreign references do to a collection.
* `Run.collect_foreign_dangling`, `Run.collect_foreign_kept` — a foreign reference that
  halts a collection, and one that keeps a node.
-/

namespace Prototypes

variable {κ σ : Type}

/-! ## Handles and their owners -/

/-- A handle as data holds it: to a node of its own world, or as a far reference. -/
inductive Reference where
  | near (id : ObjectId)
  | far (reference : FarReference)
deriving DecidableEq

namespace Reference

/-- The handle, whoever owns the node. -/
def target : Reference → ObjectId
  | near id => id
  | far reference => reference.target

/-- The node is one of another actor than `actor`. -/
def Foreign (actor : ActorId) : Reference → Prop
  | near _ => False
  | far reference => reference.owner ≠ actor

instance (actor : ActorId) : DecidablePred (Foreign actor)
  | near _ => .isFalse id
  | far reference => inferInstanceAs (Decidable (reference.owner ≠ actor))

end Reference

mutual

/-- The handles a value holds, each with its owner. -/
def Value.references : Value κ → List Reference
  | .object id => [.near id]
  | .table _ items => Value.referencesOfAll items
  | .closure _ closure => Closure.references closure
  | .method method => Method.references method
  | .field field => [.near field.host]
  | .context _ context => Context.references context
  | .fragment _ fragment => Fragment.references fragment
  | .farReference reference => [.far reference]
  | .nil | .bool _ | .fixnum _ | .float _ | .text _ | .symbol _ | .typeTag _ => []

def Value.referencesOfAll : List (Value κ) → List Reference
  | [] => []
  | value :: more => Value.references value ++ Value.referencesOfAll more

def Context.references : Context κ → List Reference
  | ⟨scope, receiver, superView⟩ =>
    .near scope :: (Value.references receiver ++ Value.references superView)

def Closure.references : Closure κ → List Reference
  | ⟨method, context⟩ => Method.references method ++ Context.references context

def Method.references : Method κ → List Reference
  | ⟨_, _, _, body⟩ => Body.references body

def Body.references : Body κ → List Reference
  | .builtin _ => []
  | .host _ => []
  | .fragment body => Fragment.references body

def Fragment.references : Fragment κ → List Reference
  | .literal value => Value.references value
  | .selfReference => []
  | .variableReference _ => []
  | .definition _ value => Fragment.references value
  | .assignment _ value => Fragment.references value
  | .methodDefinition method => Method.references method
  | .messageSend receiver _ arguments =>
    Fragment.references receiver ++ Fragment.referencesOfAll arguments
  | .sequence statements => Fragment.referencesOfAll statements
  | .quotation body => Fragment.references body
  | .unquotation body => Fragment.references body

def Fragment.referencesOfAll : List (Fragment κ) → List Reference
  | [] => []
  | fragment :: more => Fragment.references fragment ++ Fragment.referencesOfAll more

end

mutual

/-- Edges are the targets of references. -/
theorem Value.edges_eq_map : (value : Value κ) → value.edges = value.references.map Reference.target
  | .object _ | .field _ | .farReference _ => rfl
  | .table _ items => by
    simpa only [Value.edges, Value.references] using Value.edgesOfAll_eq_map items
  | .closure _ closure => by
    simpa only [Value.edges, Value.references] using Closure.edges_eq_map closure
  | .method method => by
    simpa only [Value.edges, Value.references] using Method.edges_eq_map method
  | .context _ context => by
    simpa only [Value.edges, Value.references] using Context.edges_eq_map context
  | .fragment _ fragment => by
    simpa only [Value.edges, Value.references] using Fragment.edges_eq_map fragment
  | .nil | .bool _ | .fixnum _ | .float _ | .text _ | .symbol _ | .typeTag _ => rfl

theorem Value.edgesOfAll_eq_map : (values : List (Value κ)) →
    Value.edgesOfAll values = (Value.referencesOfAll values).map Reference.target
  | [] => rfl
  | value :: more => by
    simp only [Value.edgesOfAll, Value.referencesOfAll, List.map_append,
      Value.edges_eq_map value, Value.edgesOfAll_eq_map more]

theorem Context.edges_eq_map : (context : Context κ) →
    context.edges = context.references.map Reference.target
  | ⟨scope, receiver, superView⟩ => by
    simp only [Context.edges, Context.references, List.map_cons, List.map_append,
      Reference.target, Value.edges_eq_map receiver, Value.edges_eq_map superView]

theorem Closure.edges_eq_map : (closure : Closure κ) →
    closure.edges = closure.references.map Reference.target
  | ⟨method, context⟩ => by
    simp only [Closure.edges, Closure.references, List.map_append, Method.edges_eq_map method,
      Context.edges_eq_map context]

theorem Method.edges_eq_map : (method : Method κ) →
    method.edges = method.references.map Reference.target
  | ⟨_, _, _, body⟩ => by
    simpa only [Method.edges, Method.references] using Body.edges_eq_map body

theorem Body.edges_eq_map : (body : Body κ) → body.edges = body.references.map Reference.target
  | .builtin _ | .host _ => rfl
  | .fragment body => by
    simpa only [Body.edges, Body.references] using Fragment.edges_eq_map body

theorem Fragment.edges_eq_map : (fragment : Fragment κ) →
    fragment.edges = fragment.references.map Reference.target
  | .literal value => by
    simpa only [Fragment.edges, Fragment.references] using Value.edges_eq_map value
  | .selfReference | .variableReference _ => rfl
  | .definition _ value | .assignment _ value => by
    simpa only [Fragment.edges, Fragment.references] using Fragment.edges_eq_map value
  | .methodDefinition method => by
    simpa only [Fragment.edges, Fragment.references] using Method.edges_eq_map method
  | .messageSend receiver _ arguments => by
    simp only [Fragment.edges, Fragment.references, List.map_append,
      Fragment.edges_eq_map receiver, Fragment.edgesOfAll_eq_map arguments]
  | .sequence statements => by
    simpa only [Fragment.edges, Fragment.references] using Fragment.edgesOfAll_eq_map statements
  | .quotation body | .unquotation body => by
    simpa only [Fragment.edges, Fragment.references] using Fragment.edges_eq_map body

theorem Fragment.edgesOfAll_eq_map : (fragments : List (Fragment κ)) →
    Fragment.edgesOfAll fragments = (Fragment.referencesOfAll fragments).map Reference.target
  | [] => rfl
  | fragment :: more => by
    simp only [Fragment.edgesOfAll, Fragment.referencesOfAll, List.map_append,
      Fragment.edges_eq_map fragment, Fragment.edgesOfAll_eq_map more]

end

/-- The handles a storage holds: those of its fields, methods and custom fields. -/
def Storage.references (storage : Storage κ) : List Reference :=
  storage.fields.flatMap (fun field => field.value.references) ++
    storage.methods.flatMap Method.references ++
    storage.custom.flatMap fun field => field.field.references

theorem Storage.edges_eq_map (storage : Storage κ) :
    storage.edges = storage.references.map Reference.target := by
  simp only [Storage.edges, Storage.references, List.map_append, List.map_flatMap,
    Value.edges_eq_map, ← Method.edges_eq_map]

namespace Node

/-- The handles a node holds: those of its slots, its parents and its mirror. -/
def references : Node κ → List Reference
  | object body =>
    body.slots.references ++ body.dynamicParent.references ++ body.lexicalParent.toList.map .near
  | mirage m =>
    m.object.slots.references ++ m.object.dynamicParent.references ++
      m.object.lexicalParent.toList.map .near ++ m.mirror.toList.map .near
  | frame f => f.slots.references ++ [.near f.lexicalParent]

theorem edges_eq_map (node : Node κ) : node.edges = node.references.map Reference.target := by
  have hnear (ids : List ObjectId) : (ids.map Reference.near).map Reference.target = ids := by
    simp [Function.comp_def, Reference.target]
  cases node <;>
    simp only [edges, references, List.map_append, hnear, Storage.edges_eq_map,
      Value.edges_eq_map, List.map_cons, List.map_nil, Reference.target]

end Node

/-! ## What is reached from here, and what is met on the way -/

namespace Heap

/-- Every handle of a node leads to a node, but for those of other actors than `actor`. -/
def LocalEdgesLive (heap : Heap κ) (actor : ActorId) : Prop :=
  ∀ id node, heap.node? id = some node → ∀ reference ∈ node.references,
    ¬ reference.Foreign actor → heap.contains reference.target = true

/-- Every handle among the roots leads to a node, but for those of other actors than `actor`. -/
def LocalRootsLive (heap : Heap κ) (actor : ActorId) (roots : List (Value κ)) : Prop :=
  ∀ reference ∈ Value.referencesOfAll roots,
    ¬ reference.Foreign actor → heap.contains reference.target = true

/-- The handles that can be reached from the roots without going by a foreign reference. -/
inductive ReachesLocally (heap : Heap κ) (actor : ActorId) (roots : List (Value κ)) :
    ObjectId → Prop
  | root {reference : Reference} :
      reference ∈ Value.referencesOfAll roots → ¬ reference.Foreign actor →
        ReachesLocally heap actor roots reference.target
  | edge {id : ObjectId} {node : Node κ} {reference : Reference} :
      ReachesLocally heap actor roots id → heap.node? id = some node →
        reference ∈ node.references → ¬ reference.Foreign actor →
        ReachesLocally heap actor roots reference.target

/-- The foreign references held by the roots, or by a node that is reached from them. -/
inductive Meets (heap : Heap κ) (actor : ActorId) (roots : List (Value κ)) : Reference → Prop
  | root {reference : Reference} :
      reference ∈ Value.referencesOfAll roots → reference.Foreign actor →
        Meets heap actor roots reference
  | node {id : ObjectId} {node : Node κ} {reference : Reference} :
      heap.Reaches roots id → heap.node? id = some node → reference ∈ node.references →
        reference.Foreign actor → Meets heap actor roots reference

variable {heap : Heap κ} {actor : ActorId} {roots : List (Value κ)}

/-- The target of a reference among the roots is reached. -/
private theorem Reaches.target_root {reference : Reference}
    (h : reference ∈ Value.referencesOfAll roots) : heap.Reaches roots reference.target :=
  .root (Value.edgesOfAll_eq_map roots ▸ List.mem_map_of_mem h)

/-- The target of a reference of a node that is reached is reached. -/
private theorem Reaches.target_node {id : ObjectId} {node : Node κ} {reference : Reference}
    (hid : heap.Reaches roots id) (hnode : heap.node? id = some node)
    (h : reference ∈ node.references) : heap.Reaches roots reference.target :=
  .edge hid hnode (node.edges_eq_map ▸ List.mem_map_of_mem h)

/-- What is reached locally is reached. -/
theorem ReachesLocally.reaches {id : ObjectId} (h : heap.ReachesLocally actor roots id) :
    heap.Reaches roots id := by
  induction h with
  | root hmem _ => exact .target_root hmem
  | edge _ hnode hmem _ ih => exact ih.target_node hnode hmem

/-- The target of a foreign reference is reached like any other. -/
theorem Meets.reaches {reference : Reference} (h : heap.Meets actor roots reference) :
    heap.Reaches roots reference.target := by
  cases h with
  | root hmem _ => exact .target_root hmem
  | node hid hnode hmem _ => exact hid.target_node hnode hmem

/--
What is true of the targets of all references that are met, and of everything that local
references of roots and nodes lead to, is true of everything that is reached.
-/
theorem Reaches.of_meets (property : ObjectId → Prop)
    (hmeets : ∀ reference, heap.Meets actor roots reference → property reference.target)
    (hroots : ∀ reference ∈ Value.referencesOfAll roots, ¬ reference.Foreign actor →
      property reference.target)
    (hedges : ∀ id node, property id → heap.node? id = some node → ∀ reference ∈ node.references,
      ¬ reference.Foreign actor → property reference.target)
    {id : ObjectId} (h : heap.Reaches roots id) : property id := by
  induction h with
  | root hmem =>
    rw [Value.edgesOfAll_eq_map] at hmem
    obtain ⟨reference, hreference, rfl⟩ := List.mem_map.mp hmem
    by_cases hforeign : reference.Foreign actor
    · exact hmeets reference (.root hreference hforeign)
    · exact hroots reference hreference hforeign
  | edge hid hnode hmem ih =>
    rw [Node.edges_eq_map] at hmem
    obtain ⟨reference, hreference, rfl⟩ := List.mem_map.mp hmem
    by_cases hforeign : reference.Foreign actor
    · exact hmeets reference (.node hid hnode hreference hforeign)
    · exact hedges _ _ ih hnode reference hreference hforeign

/-- With live local handles, all that is reached is live if the foreign references met are. -/
theorem reached_live_iff (hedges : heap.LocalEdgesLive actor)
    (hroots : heap.LocalRootsLive actor roots) :
    (∀ id, heap.Reaches roots id → heap.contains id = true) ↔
      ∀ reference, heap.Meets actor roots reference → heap.contains reference.target = true :=
  ⟨fun hlive _ hmeets => hlive _ hmeets.reaches,
    fun hmeets _ hid => hid.of_meets (heap.contains · = true) hmeets hroots
      fun id node _ hnode => hedges id node hnode⟩

/-- What is reached is reached locally if the foreign references met lead to such nodes. -/
theorem reached_locally_iff :
    (∀ id, heap.Reaches roots id → heap.ReachesLocally actor roots id) ↔
      ∀ reference, heap.Meets actor roots reference →
        heap.ReachesLocally actor roots reference.target :=
  ⟨fun hlocal _ hmeets => hlocal _ hmeets.reaches,
    fun hmeets _ hid => hid.of_meets (heap.ReachesLocally actor roots) hmeets (fun _ => .root)
      fun _ _ hid hnode _ => hid.edge hnode⟩

end Heap

/-! ## Collections of a world -/

namespace Run

/--
In a world whose local handles are all live, a collection succeeds just when every foreign
reference it meets has a target that is a node here too; else it halts, at a handle that
dangles or lies beyond the arena, and leaves the world as it was.

When it succeeds, the nodes left are those that are reached, each unchanged, and they are
the ones reached locally just when every foreign reference that is met leads to one of these.
-/
theorem collect_foreign {world : World κ σ} {extra : List (Value κ)}
    (hedges : world.heap.LocalEdgesLive world.actor)
    (hroots : world.heap.LocalRootsLive world.actor (world.roots extra)) :
    ((∃ collected after, Run.collect extra world = .ok collected after) ↔
      ∀ reference, world.heap.Meets world.actor (world.roots extra) reference →
        world.heap.contains reference.target = true) ∧
    (∀ halt after, Run.collect extra world = .error halt after →
      after = world ∧ ∃ id, world.heap.Reaches (world.roots extra) id ∧
        world.heap.contains id = false ∧ (halt = .dangling id ∨ halt = .outOfBounds)) ∧
    (∀ collected after, Run.collect extra world = .ok collected after →
      (∀ id node, after.heap.node? id = some node ↔
        world.heap.node? id = some node ∧ world.heap.Reaches (world.roots extra) id) ∧
      ((∀ id, after.heap.contains id = true ↔
          world.heap.ReachesLocally world.actor (world.roots extra) id) ↔
        ∀ reference, world.heap.Meets world.actor (world.roots extra) reference →
          world.heap.ReachesLocally world.actor (world.roots extra) reference.target)) := by
  refine ⟨?_, ?_, ?_⟩
  · rw [← Heap.reached_live_iff hedges hroots, ← Heap.collect_ok_iff]
    constructor
    · rintro ⟨collected, after, h⟩
      obtain ⟨heap, hheap, _⟩ := collect_eq_ok_iff.mp h
      exact ⟨collected, heap, hheap⟩
    · rintro ⟨collected, heap, hheap⟩
      exact ⟨collected, _, collect_eq_ok_iff.mpr ⟨heap, hheap, rfl⟩⟩
  · intro halt after h
    obtain ⟨hcollect, rfl⟩ := collect_eq_error_iff.mp h
    exact ⟨rfl, Heap.exists_dangling_of_collect hcollect⟩
  · intro collected after h
    obtain ⟨heap, hcollect, rfl⟩ := collect_eq_ok_iff.mp h
    have hsurvive := Heap.node?_of_collect hcollect
    have hlive := Heap.collect_ok_iff.mp ⟨_, _, hcollect⟩
    refine ⟨hsurvive, ?_⟩
    have hcontains : ∀ id, heap.contains id = true ↔ world.heap.Reaches (world.roots extra) id := by
      intro id
      rw [Heap.contains_iff]
      constructor
      · rintro ⟨node, hnode⟩
        exact ((hsurvive id node).mp hnode).2
      · intro hid
        obtain ⟨node, hnode⟩ := Heap.contains_iff.mp (hlive id hid)
        exact ⟨node, (hsurvive id node).mpr ⟨hnode, hid⟩⟩
    rw [← Heap.reached_locally_iff]
    simp only [hcontains]
    exact ⟨fun h id => (h id).mp, fun h id => ⟨h id, fun hid => hid.reaches⟩⟩

/-- The first actor's new world, with one more object that nothing refers to. -/
private def withStray : World Empty Unit :=
  match Run.newObject (World.new { (default : WorldSettings) with actor := ⟨1⟩ } ()) with
  | .ok _ world => world
  | .error _ world => world

/-- That world once the object was reclaimed. -/
private def swept : World Empty Unit :=
  match Run.collect [] withStray with
  | .ok _ world => world
  | .error _ world => world

/-- A reference to the node `index` of the seventh actor. -/
private def abroad (index : Nat) : Value Empty := .farReference ⟨⟨index⟩, ⟨7⟩⟩

private theorem localEdgesLive_withStray : withStray.heap.LocalEdgesLive withStray.actor := by
  rintro ⟨i⟩ node hnode
  match i with
  | 0 | 1 | 2 =>
    obtain rfl := Option.some.inj hnode
    decide
  | n + 3 => cases hnode

private theorem localEdgesLive_swept : swept.heap.LocalEdgesLive swept.actor := by
  rintro ⟨i⟩ node hnode
  match i with
  | 0 | 1 =>
    obtain rfl := Option.some.inj hnode
    decide
  | 2 => cases hnode
  | n + 3 => cases hnode

/-- A stray object stays only because another actor's reference has its number. -/
theorem collect_foreign_kept :
    withStray.heap.LocalEdgesLive withStray.actor ∧
    withStray.heap.LocalRootsLive withStray.actor (withStray.roots [abroad 2]) ∧
    (∃ collected after, Run.collect [abroad 2] withStray = .ok collected after ∧
      after.heap.contains ⟨2⟩ = true) ∧
    (∃ collected after, Run.collect [abroad 0] withStray = .ok collected after ∧
      after.heap.contains ⟨2⟩ = false) := by
  have hroots : withStray.heap.LocalRootsLive withStray.actor (withStray.roots [abroad 2]) := by
    unfold Heap.LocalRootsLive
    decide
  obtain ⟨-, -, hkept⟩ := collect_foreign localEdgesLive_withStray hroots
  have hreached : withStray.heap.Reaches (withStray.roots [abroad 2]) ⟨2⟩ := .root (by decide)
  have hsurvives := ((hkept _ _ rfl).1 ⟨2⟩ _).mpr ⟨rfl, hreached⟩
  exact ⟨localEdgesLive_withStray, hroots,
    ⟨_, _, rfl, Heap.contains_of_node? hsurvives⟩, ⟨_, _, rfl, rfl⟩⟩

/-- A collection halts at another actor's reference, though every handle of its own is live. -/
theorem collect_foreign_dangling :
    swept.heap.LocalEdgesLive swept.actor ∧
    swept.heap.LocalRootsLive swept.actor (swept.roots [abroad 2]) ∧
    Run.collect [abroad 2] swept = .error (.dangling ⟨2⟩) swept ∧
    Run.collect [abroad 1000] swept = .error .outOfBounds swept := by
  refine ⟨localEdgesLive_swept, ?_, rfl, rfl⟩
  unfold Heap.LocalRootsLive
  decide

end Run

end Prototypes
