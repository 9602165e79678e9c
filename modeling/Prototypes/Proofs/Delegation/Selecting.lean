import Prototypes.Proofs.Cloning.Independence
import Prototypes.Proofs.Delegation.Plain
import Prototypes.Proofs.Slots.Fields

/-!
# Selecting and then applying

A message can be sent in two steps: a slot of the receiver is selected, and the closure it
is answered as is applied to the arguments.  Selecting runs no code, so for a method the
steps come to the same as the message.  Other slots are answered as closures over built-in
bodies, which do in a frame of their own what the message does without one.  The frame is
nested in the node that holds the slot; that is how the body finds the field.

Whether a field can be assigned is looked at when its mutator is selected, and the number
of arguments when the closure is applied.  A message looks at them in the other order,
so which of two errors is raised depends on the way taken, but not whether one is.

## Main results

* `Runtime.selectAndApply` — the message in two steps.
* `Heap.SameButFrame`, `Run.SameButFrame` — heaps, and ends of runs, that are the same up to
  one frame.
* `Runtime.selectAndApply_agrees` — the message in two steps and in one, for each kind of slot.
-/

namespace Prototypes

variable {κ σ α : Type}

/-- The world once a number of identities are taken. -/
def World.taken (world : World κ σ) (count : Nat) : World κ σ :=
  { world with supply := world.supply + count }

theorem World.Sound.taken {world : World κ σ} (h : world.Sound) (count : Nat) :
    (world.taken count).Sound := ⟨h.free, h.defaults⟩

namespace Runtime

/-- Selects a slot of a receiver, and applies the closure it is answered as. -/
def selectAndApply (rt : Runtime κ σ) (receiver : Value κ) (selector : Symbol)
    (arguments : List (Value κ)) : Run κ σ (Value κ) := do
  let selected ← rt.send receiver (.select receiver selector)
  rt.applyValue selected arguments

end Runtime

/-! ## The same up to a frame -/

/-- The heaps have the same nodes, but that the first may have one call frame more. -/
def Heap.SameButFrame (first second : Heap κ) : Prop :=
  (∀ id, first.node? id = second.node? id) ∨
    ∃ extra frame, first.node? extra = some (.frame frame) ∧ second.node? extra = none ∧
      ∀ id, id ≠ extra → first.node? id = second.node? id

namespace Heap.SameButFrame

theorem refl (heap : Heap κ) : heap.SameButFrame heap := .inl fun _ => rfl

theorem allocate {heap : Heap κ} (hfree : heap.FreeListExact) (frame : CallFrame κ) :
    (heap.allocate (.frame frame)).2.SameButFrame heap := by
  refine .inr ⟨heap.nextId, frame, ?_, hfree.node?_nextId, fun id hid => ?_⟩
  · rw [hfree.node?_allocate, if_pos rfl]
  · rw [hfree.node?_allocate, if_neg hid]

/-- A node that both have is replaced in both. -/
theorem replace {first second : Heap κ} (h : first.SameButFrame second) {id : ObjectId}
    (hfirst : first.contains id = true) (hsecond : second.contains id = true) (node : Node κ) :
    (first.replace id node).SameButFrame (second.replace id node) := by
  have hreplaced := node?_replace_of_contains hfirst node
  have hreplaced' := node?_replace_of_contains hsecond node
  rcases h with hsame | ⟨extra, frame, hframe, hnone, hsame⟩
  · exact .inl fun other => by rw [hreplaced, hreplaced', hsame]
  · have hother : extra ≠ id := by
      rintro rfl
      simp [contains, hnone] at hsecond
    refine .inr ⟨extra, frame, ?_, ?_, fun other hne => ?_⟩
    · rw [hreplaced, if_neg hother, hframe]
    · rw [hreplaced', if_neg hother, hnone]
    · rw [hreplaced, hreplaced', hsame other hne]

end Heap.SameButFrame

/-- Two runs that both answer the same, or both raise an error, the heaps being the same up to a frame. -/
inductive Run.SameButFrame :
    EStateM.Result Halt (World κ σ) α → EStateM.Result Halt (World κ σ) α → Prop
  | ok (answer : α) {v w : World κ σ} : v.heap.SameButFrame w.heap →
      SameButFrame (.ok answer v) (.ok answer w)
  | raised (error error' : RuntimeError) {v w : World κ σ} : v.heap.SameButFrame w.heap →
      SameButFrame (.error (.raised error) v) (.error (.raised error') w)

/-! ## Closures over slots, applied -/

namespace Runtime

section Applying

variable (host : Host κ σ) {world : World κ σ} (steps : Nat) {holder : ObjectId} {node : Node κ}
  {name : Symbol} {index : Nat}

/-- Applied to a wrong number of arguments, a closure fails before there is a frame. -/
theorem apply_refused (rt : Runtime κ σ) (closure : Closure κ) (arguments : List (Value κ))
    (h : closure.method.arity.accepts arguments.length = false) (world : World κ σ) :
    rt.apply closure arguments world =
      .error (.raised (.arityMismatch closure.method.name closure.method.arity arguments.length))
        (world.taken 1) := by
  have hbind : closure.method.bindArguments ⟨world.supply⟩ arguments =
      .error (.arityMismatch closure.method.name closure.method.arity arguments.length) := by
    rw [Method.bindArguments, h]
    rfl
  unfold apply
  rw [Run.fresh_bind, hbind]
  rfl

/-- Within a frame, the slots in question are those of the scope around it. -/
theorem slotOwner_bind (hsound : world.Sound) (bindings : List (Symbol × Value κ))
    (receiver superView : Value κ) (f : ObjectId → Run κ σ α) :
    (slotOwner (κ := κ) ⟨world.heap.nextId, receiver, superView⟩ >>= f) (world.enter holder bindings) =
      f holder (world.enter holder bindings) := by
  unfold slotOwner
  rw [bind_assoc, Run.node_bind_of_some (hsound.node?_enter holder bindings)]
  rfl

/-- A node that is there is there in a world with one frame more. -/
theorem node?_enter_of_some (hsound : world.Sound) (hnode : world.heap.node? holder = some node)
    (scope : ObjectId) (bindings : List (Symbol × Value κ)) :
    (world.enter scope bindings).heap.node? holder = some node :=
  Heap.Keeps.allocate hsound.free _ _ _ hnode

/-- An accessor reads the field of its scope. -/
theorem apply_accessor (hsound : world.Sound) (hnode : world.heap.node? holder = some node)
    {writable : Bool} {value : Value κ} (hfield : node.slots.fieldSlot? name = some (index, writable))
    (hread : node.slots.read? index = some value) (identity : Identity) (receiver : Value κ) :
    (ofFuel host (steps + 1)).apply
        ⟨.builtin identity name [] (.accessor name), ⟨holder, receiver, .nil⟩⟩ [] world =
      .ok value (world.enter holder []) := by
  rw [apply_eq _ _ hsound ⟨rfl, rfl⟩]
  show (slotOwner _ >>= fun owner => (ofFuel host steps).readSlot owner name) (world.enter holder []) = _
  rw [Context.withScope, slotOwner_bind hsound]
  exact (ofFuel host steps).readSlot_of_field (node?_enter_of_some hsound hnode holder []) hfield hread

/-- A mutator writes it. -/
theorem apply_mutator (hsound : world.Sound) (hnode : world.heap.node? holder = some node)
    {value : Value κ} {written : Storage κ} (hfield : node.slots.fieldSlot? name = some (index, true))
    (hwrite : node.slots.write? index value = some written) (identity : Identity) (selector : Symbol)
    (receiver : Value κ) :
    (ofFuel host (steps + 1)).apply
        ⟨.builtin identity selector [.required ⟨"value"⟩] (.mutator name), ⟨holder, receiver, .nil⟩⟩
        [value] world =
      let entered := world.enter holder [(⟨"value"⟩, value)]
      .ok value { entered with heap := entered.heap.replace holder (node.withSlots written) } := by
  rw [apply_eq _ _ hsound ⟨rfl, rfl⟩]
  show (slotOwner _ >>= fun owner => firstArgument [value] >>= fun value =>
    (ofFuel host steps).writeSlot owner name value >>= fun _ => pure value)
      (world.enter holder [(⟨"value"⟩, value)]) = _
  rw [Context.withScope, slotOwner_bind hsound]
  exact Run.bind_of_ok ((ofFuel host steps).writeSlot_of_writable
    (node?_enter_of_some hsound hnode holder _) hfield hwrite) _

/-- A value of a field that is no closure is answered if there are no arguments. -/
theorem applyFieldValue_of_other (rt : Runtime κ σ) {value : Value κ}
    (h : ∀ identity closure, value ≠ .closure identity closure) (selector : Symbol)
    (arguments : List (Value κ)) :
    rt.applyFieldValue selector value arguments =
      if arguments.isEmpty then pure value
      else Run.raise (.arityMismatch selector (.exact 0) arguments.length) := by
  cases value with
  | closure identity closure => exact absurd rfl (h identity closure)
  | _ => rfl

/-- A closure over a primitive runs it, in a frame for the arguments. -/
theorem apply_primitive (hsound : world.Sound) (identity : Identity) (primitive : Primitive)
    (selector : Symbol) (scope : ObjectId) (receiver : Value κ) (arguments : List (Value κ)) :
    (ofFuel host (steps + 1)).apply
        ⟨.builtin identity selector [.rest ⟨"arguments"⟩] (.primitive primitive selector),
          ⟨scope, receiver, .nil⟩⟩ arguments world =
      (ofFuel host steps).callPrimitive primitive receiver selector arguments
        (world.enter scope [(⟨"arguments"⟩, .table ⟨world.supply⟩ arguments)]) := by
  rw [apply_eq _ _ hsound ⟨rfl, rfl⟩]
  rfl

end Applying

/-! ## In two steps and in one -/

section Agreement

variable (host : Host κ σ) {world : World κ σ} {o : ObjectId} {ids : List ObjectId}
  (hsound : world.Sound) (hchain : world.heap.Chain (.object o) ids)
  (hplain : ∀ id ∈ ids, ∃ body, world.heap.node? id = some (.object body)) {selector : Symbol}
  (arguments : List (Value κ)) (steps : Nat) {holder : ObjectId}

include hchain hplain

theorem selectAndApply_eq {resolution : Resolution κ}
    (hnearest : world.heap.nearest selector ids = resolution) :
    (ofFuel host (steps + 2)).selectAndApply (.object o) selector arguments world =
      ((Walk.select (.object o) selector).conclude (ofFuel host (steps + 1)) o resolution >>=
        fun selected => (ofFuel host (steps + 2)).applyValue selected arguments) world := by
  have hselect := (Walk.Operation.select (.object o) selector).send_of_plain host hchain hplain steps
  dsimp only [Walk.select] at hselect
  rw [hnearest, id_map'] at hselect
  exact Run.bind_eq_of_eq hselect _

theorem invoke_eq {resolution : Resolution κ}
    (hnearest : world.heap.nearest selector ids = resolution) :
    (ofFuel host (steps + 2)).invoke (.object o) selector arguments world =
      (Walk.invoke (.object o) selector arguments).conclude (ofFuel host (steps + 1)) o resolution
        world := by
  rw [invoke_of_plain host hchain hplain, hnearest]

/-- A method: the closure takes an identity, and then all is as for the message. -/
theorem selectAndApply_method {method : Method κ}
    (hnearest : world.heap.nearest selector ids = .found holder (.method method)) :
    (ofFuel host (steps + 2)).selectAndApply (.object o) selector arguments world =
      (ofFuel host (steps + 3)).invoke (.object o) selector arguments (world.taken 1) := by
  obtain ⟨node, hnode, -⟩ := Option.bind_eq_some_iff.mp (Heap.slot?_of_nearest hnearest)
  have hnode' : (world.taken 1).heap.node? holder = some node := hnode
  have hchain' : (world.taken 1).heap.Chain (.object o) ids := hchain
  rw [selectAndApply_eq host hchain hplain arguments steps hnearest]
  refine Eq.trans ?_ (invoke_eq host hchain' hplain arguments (steps + 1) hnearest).symm
  show ((methodClosure holder method (.object o) >>= Run.newClosure) >>= fun selected =>
      (ofFuel host (steps + 2)).applyValue selected arguments) world =
    (methodClosure holder method (.object o) >>= fun closure =>
      (ofFuel host (steps + 2)).apply closure arguments) (world.taken 1)
  unfold methodClosure
  simp only [bind_assoc, pure_bind]
  rw [Run.node_bind_of_some hnode, Run.node_bind_of_some hnode']
  rfl

/-- A message that nothing answers: the handler is what is selected, and what is applied. -/
theorem selectAndApply_notUnderstood (hnearest : world.heap.nearest selector ids = .absent)
    (hprimitive : Primitive.ofSelector? selector = none) (hsound : world.Sound) :
    (ofFuel host (steps + 2)).selectAndApply (.object o) selector arguments world =
      (ofFuel host (steps + 2)).invoke (.object o) selector arguments world := by
  obtain ⟨body, hnode⟩ := hplain o hchain.mem_self
  have hhandler := send_plain host steps hnode (.doesNotUnderstand selector)
  rw [selectAndApply_eq host hchain hplain arguments steps hnearest,
    invoke_eq host hchain hplain arguments steps hnearest]
  refine Eq.trans ?_ (invokeFallback_of_none host hsound hnode hprimitive arguments steps).symm
  show ((ofFuel host (steps + 1)).selectFallback (.object o) selector >>= fun selected =>
    (ofFuel host (steps + 2)).applyValue selected arguments) world = _
  unfold selectFallback
  rw [hprimitive]
  dsimp only
  rw [Run.bind_eq_of_eq hhandler]
  exact applyValue_defaultHandler host (steps + 1) hsound (.object o) selector arguments

/-- A primitive: it is run in a frame for its arguments. -/
theorem selectAndApply_primitive {primitive : Primitive}
    (hnearest : world.heap.nearest selector ids = .absent)
    (hprimitive : Primitive.ofSelector? selector = some primitive) (hsound : world.Sound) :
    (ofFuel host (steps + 2)).selectAndApply (.object o) selector arguments world =
      (ofFuel host (steps + 1)).callPrimitive primitive (.object o) selector arguments
        ((world.taken 2).enter world.lexicalRoot
          [(⟨"arguments"⟩, .table ⟨world.supply + 2⟩ arguments)]) := by
  rw [selectAndApply_eq host hchain hplain arguments steps hnearest]
  show ((ofFuel host (steps + 1)).selectFallback (.object o) selector >>= fun selected =>
    (ofFuel host (steps + 2)).applyValue selected arguments) world = _
  unfold selectFallback
  rw [hprimitive]
  exact apply_primitive host (steps + 1) (hsound.taken 2) ⟨world.supply⟩ primitive selector
    world.lexicalRoot (.object o) arguments

/-- A field whose value is no closure: it is read, or there are too many arguments. -/
theorem selectAndApply_field {index : Nat} {writable : Bool} (hsound : world.Sound)
    (hnearest : world.heap.nearest selector ids = .found holder (.field index writable))
    (hvalue : ∀ identity closure,
      world.heap.fieldValue? o selector ≠ some (.closure identity closure)) :
    Run.SameButFrame
      ((ofFuel host (steps + 2)).selectAndApply (.object o) selector arguments world)
      ((ofFuel host (steps + 2)).invoke (.object o) selector arguments world) := by
  obtain ⟨node, hnode, hfind⟩ := Option.bind_eq_some_iff.mp (Heap.slot?_of_nearest hnearest)
  have hfield := Storage.find_eq_field_iff.mp hfind
  obtain ⟨value, hread⟩ := Storage.exists_read hfield
  have hsearch := hchain.searchDynamic_eq_nearest hplain selector
  rw [hnearest] at hsearch
  rw [Heap.fieldValue?_of_found hsearch hnode, hread] at hvalue
  have hselect := selectAndApply_eq host hchain hplain arguments steps hnearest
  have hinvoke := invoke_eq host hchain hplain arguments steps hnearest
  replace hinvoke := hinvoke.trans (Run.bind_of_ok (readIndex_of_read hnode hread) _)
  rw [applyFieldValue_of_other _ fun identity closure h => hvalue identity closure (congrArg some h)]
    at hinvoke
  have hnode' : (world.taken 2).heap.node? holder = some node := hnode
  cases arguments with
  | nil =>
    have hread := apply_accessor host (steps + 1) (hsound.taken 2) hnode' hfield hread ⟨world.supply⟩
      (.object o)
    rw [hselect.trans hread, hinvoke]
    exact .ok value (.allocate hsound.free _)
  | cons argument more =>
    have hrefused := apply_refused (ofFuel host (steps + 2))
      ⟨.builtin ⟨world.supply⟩ selector [] (.accessor selector), ⟨holder, .object o, .nil⟩⟩
      (argument :: more) rfl (world.taken 2)
    rw [hselect.trans hrefused, hinvoke]
    exact .raised _ _ (.refl _)

/-- A mutator that cannot be selected fails, and so does the message, whatever its arguments. -/
theorem selectAndApply_readOnly {index : Nat}
    (hnearest : world.heap.nearest selector ids = .found holder (.mutator index false)) :
    ∃ error error',
      (ofFuel host (steps + 2)).selectAndApply (.object o) selector arguments world =
        .error (.raised error) world ∧
      (ofFuel host (steps + 2)).invoke (.object o) selector arguments world =
        .error (.raised error') world := by
  obtain ⟨node, hnode, hfind⟩ := Option.bind_eq_some_iff.mp (Heap.slot?_of_nearest hnearest)
  have hselect := selectAndApply_eq host hchain hplain arguments steps hnearest
  have hinvoke : (ofFuel host (steps + 2)).invoke (.object o) selector arguments world =
      (ofFuel host (steps + 1)).invokeSlot holder (.mutator index false) (.object o) selector arguments
        world := invoke_eq host hchain hplain arguments steps hnearest
  cases Storage.names_of_find hfind with
  | mutator htarget hfield =>
    by_cases hone : arguments.length = 1
    · obtain ⟨value, rfl⟩ := List.length_eq_one_iff.mp hone
      have hrefused := (ofFuel host (steps + 1)).writeSlot_of_readOnly hnode hfield value
      rw [invokeSlot_mutator _ htarget] at hinvoke
      exact ⟨_, _, hselect, hinvoke.trans (Run.bind_of_error hrefused _)⟩
    · rw [invokeSlot_mutator_refused _ _ _ _ _ hone] at hinvoke
      exact ⟨_, _, hselect, hinvoke⟩

/-- A mutator that can be selected writes the field, if it is given one value. -/
theorem selectAndApply_writable {index : Nat} (hsound : world.Sound)
    (hnearest : world.heap.nearest selector ids = .found holder (.mutator index true)) :
    Run.SameButFrame
      ((ofFuel host (steps + 2)).selectAndApply (.object o) selector arguments world)
      ((ofFuel host (steps + 2)).invoke (.object o) selector arguments world) := by
  obtain ⟨node, hnode, hfind⟩ := Option.bind_eq_some_iff.mp (Heap.slot?_of_nearest hnearest)
  cases Storage.names_of_find hfind with
  | @mutator target _ _ htarget hfield =>
    have hselect : (ofFuel host (steps + 2)).selectAndApply (.object o) selector arguments world =
        (ofFuel host (steps + 2)).apply
          ⟨.builtin ⟨world.supply⟩ selector [.required ⟨"value"⟩] (.mutator target),
            ⟨holder, .object o, .nil⟩⟩ arguments (world.taken 2) := by
      rw [selectAndApply_eq host hchain hplain arguments steps hnearest]
      show (mutator holder (.object o) selector >>= _) world = _
      unfold mutator assignmentTarget
      rw [htarget]
      rfl
    have hinvoke : (ofFuel host (steps + 2)).invoke (.object o) selector arguments world =
        (ofFuel host (steps + 1)).invokeSlot holder (.mutator index true) (.object o) selector arguments
          world := invoke_eq host hchain hplain arguments steps hnearest
    by_cases hone : arguments.length = 1
    · obtain ⟨value, rfl⟩ := List.length_eq_one_iff.mp hone
      obtain ⟨written, hwrite⟩ := Storage.exists_write (Storage.find_eq_field_iff.mpr hfield) value
      have hnode' : (world.taken 2).heap.node? holder = some node := hnode
      have happlied := apply_mutator host (steps + 1) (hsound.taken 2) hnode' hfield hwrite
        ⟨world.supply⟩ selector (.object o)
      have hwritten := (ofFuel host (steps + 1)).writeSlot_of_writable hnode hfield hwrite
      rw [invokeSlot_mutator _ htarget] at hinvoke
      rw [hselect.trans happlied, hinvoke.trans (Run.bind_of_ok hwritten _)]
      have hlive := Heap.contains_of_node? hnode
      refine .ok value (Heap.SameButFrame.replace (.allocate hsound.free _) ?_ hlive _)
      exact Heap.contains_of_node? (node?_enter_of_some (hsound.taken 2) hnode' holder _)
    · have hrefused := apply_refused (ofFuel host (steps + 2))
        ⟨.builtin ⟨world.supply⟩ selector [.required ⟨"value"⟩] (.mutator target),
          ⟨holder, .object o, .nil⟩⟩ arguments (decide_eq_false hone) (world.taken 2)
      rw [invokeSlot_mutator_refused _ _ _ _ _ hone] at hinvoke
      rw [hselect.trans hrefused, hinvoke]
      exact .raised _ _ (.refl _)

end Agreement

/--
Sent in two steps, a message to an object on a chain of plain objects does what it does in
one.  If it finds a method, or nothing at all, the two are the same run, but that selecting a
method takes an identity for the closure.  If it finds a field whose value is no closure, or
the mutator of one, both answer the same or both fail, and leave the same nodes but for one
frame; a mutator of a read-only field fails both ways and changes nothing.  If there is a
primitive, it is run for the same receiver and arguments, in a world with one frame more the
first time, and refuses a wrong number of arguments in both with the same error.
-/
theorem selectAndApply_agrees (host : Host κ σ) {world : World κ σ} (hsound : world.Sound)
    {o : ObjectId} {ids : List ObjectId} (hchain : world.heap.Chain (.object o) ids)
    (hplain : ∀ id ∈ ids, ∃ body, world.heap.node? id = some (.object body)) (selector : Symbol)
    (arguments : List (Value κ)) (steps : Nat) :
    let applied := (ofFuel host (steps + 2)).selectAndApply (.object o) selector arguments world
    let invoked := (ofFuel host (steps + 2)).invoke (.object o) selector arguments world
    (∀ holder method, world.heap.nearest selector ids = .found holder (.method method) →
      applied = (ofFuel host (steps + 3)).invoke (.object o) selector arguments (world.taken 1)) ∧
    (world.heap.nearest selector ids = .absent → Primitive.ofSelector? selector = none →
      applied = invoked) ∧
    (∀ holder index writable, world.heap.nearest selector ids = .found holder (.field index writable) →
      (∀ identity closure, world.heap.fieldValue? o selector ≠ some (.closure identity closure)) →
        Run.SameButFrame applied invoked) ∧
    (∀ holder index writable, world.heap.nearest selector ids = .found holder (.mutator index writable) →
      Run.SameButFrame applied invoked ∧
        (writable = false → ∃ error error', applied = .error (.raised error) world ∧
          invoked = .error (.raised error') world)) ∧
    (∀ primitive, world.heap.nearest selector ids = .absent →
      Primitive.ofSelector? selector = some primitive →
        let entered := (world.taken 2).enter world.lexicalRoot
          [(⟨"arguments"⟩, .table ⟨world.supply + 2⟩ arguments)]
        let mismatch : RuntimeError := .arityMismatch selector primitive.arity arguments.length
        applied = (ofFuel host (steps + 1)).callPrimitive primitive (.object o) selector arguments
          entered ∧
        invoked = (ofFuel host (steps + 1)).callPrimitive primitive (.object o) selector arguments
          world ∧
        (primitive.arity.accepts arguments.length = false →
          applied = .error (.raised mismatch) entered ∧ invoked = .error (.raised mismatch) world)) := by
  intro applied invoked
  refine ⟨fun holder method hnearest => ?_, fun hnearest hprimitive => ?_,
    fun holder index writable hnearest hvalue => ?_, fun holder index writable hnearest => ?_,
    fun primitive hnearest hprimitive => ?_⟩
  · exact selectAndApply_method host hchain hplain arguments steps hnearest
  · exact selectAndApply_notUnderstood host hchain hplain arguments steps hnearest hprimitive hsound
  · exact selectAndApply_field host hchain hplain arguments steps hsound hnearest hvalue
  · cases writable with
    | true =>
      exact ⟨selectAndApply_writable host hchain hplain arguments steps hsound hnearest, nofun⟩
    | false =>
      obtain ⟨error, error', happlied, hinvoked⟩ :=
        selectAndApply_readOnly host hchain hplain arguments steps hnearest
      refine ⟨?_, fun _ => ⟨error, error', happlied, hinvoked⟩⟩
      show Run.SameButFrame (selectAndApply _ _ _ _ _) (invoke _ _ _ _ _)
      rw [happlied, hinvoked]
      exact .raised error error' (.refl _)
  · intro entered mismatch
    have happlied : applied = _ :=
      selectAndApply_primitive host hchain hplain arguments steps hnearest hprimitive hsound
    have hinvoked : invoked = (ofFuel host (steps + 1)).callPrimitive primitive (.object o) selector
        arguments world := by
      refine (invoke_eq host hchain hplain arguments steps hnearest).trans ?_
      show (ofFuel host (steps + 1)).invokeFallback (.object o) selector arguments world = _
      rw [invokeFallback, hprimitive]
    refine ⟨happlied, hinvoked, fun hrefused => ?_⟩
    rw [happlied, hinvoked]
    simp only [callPrimitive, hrefused, Bool.not_false, if_true]
    exact ⟨rfl, rfl⟩

/-- The object at index 3 on the one at index 2, which has a field `x`. -/
private def stacked : World Empty Unit :=
  let world : World Empty Unit := World.new default ()
  let upper : PrototypeObject Empty :=
    { slots :=
        { Storage.empty ⟨100⟩ with
          fields := [{ name := ⟨"x"⟩, writable := true, value := .bool true }] }
      dynamicParent := .nil
      lexicalParent := none
      link := .isA
      typeTags := []
      family := ⟨3⟩
      flags := .none }
  let lower : PrototypeObject Empty :=
    { upper with slots := Storage.empty ⟨101⟩, dynamicParent := .object ⟨2⟩ }
  let nodes : List (Node Empty) := [.object upper, .object lower]
  { world with heap := nodes.foldl (fun heap node => (heap.allocate node).2) world.heap }

private theorem sound_stacked : stacked.Sound where
  free := ((World.sound_new default ()).free.allocate _).allocate _
  defaults := ⟨3, rfl⟩

private theorem chain_stacked : stacked.heap.Chain (.object ⟨3⟩) [⟨3⟩, ⟨2⟩] :=
  .cons rfl rfl (.cons rfl rfl .nil)

private theorem plain_stacked :
    ∀ id ∈ [⟨3⟩, ⟨2⟩], ∃ body, stacked.heap.node? id = some (.object body) := by
  intro id hmem
  simp only [List.mem_cons, List.not_mem_nil, or_false] at hmem
  rcases hmem with rfl | rfl <;> exact ⟨_, rfl⟩

/-- An inherited field is read both ways, and can be assigned both ways. -/
theorem selectAndApply_agrees_inherited :
    stacked.Sound ∧ stacked.heap.Chain (.object ⟨3⟩) [⟨3⟩, ⟨2⟩] ∧
      (∀ id ∈ [⟨3⟩, ⟨2⟩], ∃ body, stacked.heap.node? id = some (.object body)) ∧
      (ofFuel Host.none 2).invoke (.object ⟨3⟩) ⟨"x"⟩ [] stacked = .ok (.bool true) stacked ∧
      Run.SameButFrame ((ofFuel Host.none 2).selectAndApply (.object ⟨3⟩) ⟨"x"⟩ [] stacked)
        ((ofFuel Host.none 2).invoke (.object ⟨3⟩) ⟨"x"⟩ [] stacked) ∧
      Run.SameButFrame
        ((ofFuel Host.none 2).selectAndApply (.object ⟨3⟩) ⟨"x:="⟩ [.bool false] stacked)
        ((ofFuel Host.none 2).invoke (.object ⟨3⟩) ⟨"x:="⟩ [.bool false] stacked) := by
  obtain ⟨-, -, hread, -, -⟩ :=
    selectAndApply_agrees Host.none sound_stacked chain_stacked plain_stacked ⟨"x"⟩ [] 0
  obtain ⟨-, -, -, hwrite, -⟩ :=
    selectAndApply_agrees Host.none sound_stacked chain_stacked plain_stacked ⟨"x:="⟩ [.bool false] 0
  exact ⟨sound_stacked, chain_stacked, plain_stacked, rfl,
    hread ⟨2⟩ 0 true rfl fun _ _ h => (nomatch h), (hwrite ⟨2⟩ 0 true rfl).1⟩

end Runtime

end Prototypes
