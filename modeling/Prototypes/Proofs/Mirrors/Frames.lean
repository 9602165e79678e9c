import Prototypes.Proofs.Approximation.Outcomes
import Prototypes.Proofs.Heap.Chains

/-!
# Methods applied

Applying a method that accepts its arguments allocates one call frame, binds
the parameters in it, and runs the body there.  Nothing else happens, so what a
message does to an object whose chain holds a method for it is what the body
does in a world with one frame more.

## Main results

* `World.enter` — the world with the frame of an application.
* `World.Ran` — the worlds with frames of any number of applications.
* `Runtime.apply_eq` — applying a closure runs its body in that world.
* `Runtime.send_method` — so does a message to a plain object that finds a
  method, with two steps less.
-/

namespace Prototypes

variable {κ σ α β : Type}

/-! ## Frames -/

/-- A node that has just been allocated is replaced as if the other one had been allocated. -/
theorem Heap.replace_allocate (heap : Heap κ) (node other : Node κ) :
    (heap.allocate node).2.replace heap.nextId other = (heap.allocate other).2 := by
  unfold Heap.allocate Heap.replace Heap.nextId
  cases heap.free with
  | nil => simp [Array.setIfInBounds, Array.set_push]
  | cons index free => simp [Array.setIfInBounds_setIfInBounds]

theorem Heap.walkLimit_le_allocate (heap : Heap κ) (node : Node κ) :
    heap.walkLimit ≤ (heap.allocate node).2.walkLimit := by
  unfold Heap.allocate Heap.walkLimit
  cases heap.free with
  | nil => simp
  | cons index free => simp

namespace CallFrame

/-- A frame with fields for the bindings and nothing else. -/
def binding (layoutIdentity : Identity) (scope : ObjectId) (bindings : List (Symbol × Value κ)) :
    CallFrame κ where
  slots :=
    { Storage.empty layoutIdentity with
      fields := bindings.map fun binding =>
        { name := binding.1, writable := true, value := binding.2 } }
  lexicalParent := scope

theorem names_binding (layoutIdentity : Identity) (scope : ObjectId)
    (bindings : List (Symbol × Value κ)) :
    (binding layoutIdentity scope bindings).slots.names = bindings.map Prod.fst := by
  simp [binding, Storage.names, Storage.empty, Function.comp_def]

/-- A frame takes another binding if the name is new. -/
theorem putField_binding (layoutIdentity identity : Identity) (scope : ObjectId)
    {bindings : List (Symbol × Value κ)} {name : Symbol} (hnew : name ∉ bindings.map Prod.fst)
    (value : Value κ) :
    (binding layoutIdentity scope bindings).slots.putField identity
        { name, writable := true, value } =
      .ok (binding identity scope (bindings ++ [(name, value)])).slots := by
  have hslot : ¬ (binding layoutIdentity scope bindings).slots.hasSlot name = true := by
    rwa [Storage.hasSlot_iff, names_binding]
  rw [Storage.putField, if_neg hslot]
  simp [binding, Storage.empty]

end CallFrame

namespace World

/-- The world with a new frame in `scope` that has bindings, as applying a method leaves it. -/
def enter (world : World κ σ) (scope : ObjectId) (bindings : List (Symbol × Value κ)) :
    World κ σ :=
  { world with
    heap := (world.heap.allocate
      (.frame (.binding ⟨world.supply + 1 + bindings.length⟩ scope bindings))).2
    supply := world.supply + 2 + bindings.length }

end World

/-- The frame of an application is where there was no node. -/
theorem World.Sound.node?_enter {world : World κ σ} (h : world.Sound) (scope : ObjectId)
    (bindings : List (Symbol × Value κ)) :
    (world.enter scope bindings).heap.node? world.heap.nextId =
      some (.frame (.binding ⟨world.supply + 1 + bindings.length⟩ scope bindings)) := by
  show (world.heap.allocate _).2.node? _ = _
  rw [h.free.node?_allocate, if_pos rfl]

/-! ## Worlds with more frames -/

/-- The second heap is the first with frames allocated in these scopes, one after the other. -/
inductive Heap.Entered : Heap κ → List ObjectId → Heap κ → Prop
  | nil (heap : Heap κ) : Entered heap [] heap
  | cons {heap after : Heap κ} {frame : CallFrame κ} {scopes : List ObjectId} :
      Entered (heap.allocate (.frame frame)).2 scopes after →
        Entered heap (frame.lexicalParent :: scopes) after

namespace Heap.Entered

variable {heap middle after : Heap κ} {scopes more : List ObjectId}

theorem append (h : heap.Entered scopes middle) (h' : middle.Entered more after) :
    heap.Entered (scopes ++ more) after := by
  induction h with
  | nil => exact h'
  | cons _ ih => exact .cons (ih h')

theorem free (h : heap.Entered scopes after) (hfree : heap.FreeListExact) : after.FreeListExact := by
  induction h with
  | nil => exact hfree
  | cons _ ih => exact ih (hfree.allocate _)

theorem keeps (h : heap.Entered scopes after) (hfree : heap.FreeListExact) : heap.Keeps after := by
  induction h with
  | nil heap => exact .refl heap
  | cons _ ih => exact (Keeps.allocate hfree _).trans (ih (hfree.allocate _))

theorem walkLimit_le (h : heap.Entered scopes after) : heap.walkLimit ≤ after.walkLimit := by
  induction h with
  | nil => exact Nat.le_refl _
  | cons _ ih => exact (Heap.walkLimit_le_allocate _ _).trans ih

end Heap.Entered

/--
The second world is the first with frames in these scopes besides.  Identities,
reports and what the host remembers may differ.
-/
structure World.Ran (before : World κ σ) (scopes : List ObjectId) (after : World κ σ) : Prop where
  entered : before.heap.Entered scopes after.heap
  rest : after = { before with
    heap := after.heap, supply := after.supply, log := after.log, host := after.host }

namespace World.Ran

variable {u v w : World κ σ} {scopes more : List ObjectId}

theorem trans (h : u.Ran scopes v) (h' : v.Ran more w) : u.Ran (scopes ++ more) w where
  entered := h.entered.append h'.entered
  rest := by rw [h'.rest, h.rest]

/-- Running a method in a scope leaves one frame. -/
theorem enter (v : World κ σ) (scope : ObjectId) (bindings : List (Symbol × Value κ)) :
    v.Ran [scope] (v.enter scope bindings) where
  entered := (Heap.Entered.nil (v.enter scope bindings).heap).cons
  rest := rfl

/-- Reports, identities and the host's memory are no part of what is kept. -/
theorem withRest (v : World κ σ) (supply : Nat) (log : Array Event) (host : σ) :
    v.Ran [] { v with supply, log, host } where
  entered := .nil v.heap
  rest := rfl

theorem of_alike (h : v.Alike w) : v.Ran [] w := by
  rw [h.eq_with_log]
  exact withRest v v.supply w.log v.host

theorem traced (v : World κ σ) (event : Event) : v.Ran [] (v.traced event) :=
  of_alike (.traced v event)

theorem keeps (h : v.Ran scopes w) (hsound : v.Sound) : v.heap.Keeps w.heap :=
  h.entered.keeps hsound.free

theorem sound (h : v.Ran scopes w) (hsound : v.Sound) : w.Sound where
  free := h.entered.free hsound.free
  defaults := by
    rw [h.rest]
    exact hsound.defaults

/-- What a search has found it finds again. -/
theorem searchDynamic_of_found (h : v.Ran scopes w) (hsound : v.Sound) {start holder : ObjectId}
    {selector : Symbol} {slot : Slot κ}
    (hfound : v.heap.searchDynamic start selector = .ok (.found holder slot)) :
    w.heap.searchDynamic start selector = .ok (.found holder slot) :=
  Heap.searchDynamicFrom_of_found
    (fun id node hnode => ⟨node, h.keeps hsound id node hnode, rfl, rfl, fun hplain => hplain⟩)
    h.entered.walkLimit_le hfound

theorem mirrorRoot (h : v.Ran scopes w) : w.mirrorRoot = v.mirrorRoot := by rw [h.rest]

theorem mirrorDefaults (h : v.Ran scopes w) : w.mirrorDefaults = v.mirrorDefaults := by rw [h.rest]

end World.Ran

namespace Runtime

/-- One more binding in a frame that has just been allocated. -/
theorem putField_frame {heap : Heap κ} (hfree : heap.FreeListExact) (world : World κ σ)
    {layoutIdentity : Identity} {scope : ObjectId} {bindings : List (Symbol × Value κ)}
    (hworld : world.heap = (heap.allocate (.frame (.binding layoutIdentity scope bindings))).2)
    {name : Symbol} (hnew : name ∉ bindings.map Prod.fst) (value : Value κ) :
    Run.putField heap.nextId { name, writable := true, value } world =
      .ok () { world with
        heap := (heap.allocate
          (.frame (.binding ⟨world.supply⟩ scope (bindings ++ [(name, value)])))).2
        supply := world.supply + 1 } := by
  have hnode : world.heap.node? heap.nextId =
      some (.frame (.binding layoutIdentity scope bindings)) := by
    rw [hworld, hfree.node?_allocate, if_pos rfl]
  have hput := CallFrame.putField_binding layoutIdentity ⟨world.supply⟩ scope hnew value
  have hget : world.heap.get heap.nextId = .ok (.frame (.binding layoutIdentity scope bindings)) :=
    Heap.get_eq_ok_iff.mpr hnode
  unfold Run.putField
  rw [Run.slots_bind hnode, Run.fresh_bind]
  dsimp only [Node.slots]
  rw [hput, Run.check_ok_bind, Run.setSlots, Run.node_bind]
  dsimp only
  rw [hget]
  simp only [Run.replace, Run.changeHeap, hworld, Heap.replace_allocate]
  rfl

/-- All bindings in a frame that has just been allocated, with the last identity for its layout. -/
theorem bindAll_frame {heap : Heap κ} (hfree : heap.FreeListExact) (scope : ObjectId)
    (bindings more : List (Symbol × Value κ)) (world : World κ σ) {last : Nat} (hsupply : world.supply = last + 1)
    (hworld : world.heap = (heap.allocate (.frame (.binding ⟨last⟩ scope bindings))).2)
    (hnodup : ((bindings ++ more).map Prod.fst).Nodup) :
    bindAll heap.nextId more world =
      .ok () { world with
        heap := (heap.allocate
          (.frame (.binding ⟨last + more.length⟩ scope (bindings ++ more)))).2
        supply := last + 1 + more.length } := by
  induction more generalizing world last bindings with
  | nil =>
    simp only [List.append_nil, List.length_nil, Nat.add_zero, ← hworld, ← hsupply]
    rfl
  | cons binding more ih =>
    obtain ⟨name, value⟩ := binding
    have hnew : name ∉ bindings.map Prod.fst := by
      intro hmem
      rw [List.map_append, List.nodup_append] at hnodup
      exact hnodup.2.2 name hmem name (List.mem_cons_self ..) rfl
    have hput := putField_frame hfree world hworld hnew value
    have hrest := ih (bindings ++ [(name, value)])
      { world with
        heap := (heap.allocate
          (.frame (.binding ⟨world.supply⟩ scope (bindings ++ [(name, value)])))).2
        supply := world.supply + 1 }
      rfl rfl (by simpa using hnodup)
    show (Run.putField heap.nextId { name, writable := true, value } >>= fun _ =>
      bindAll heap.nextId more) world = _
    rw [Run.bind_of_ok hput, hrest]
    simp only [hsupply, List.append_assoc, List.singleton_append, List.length_cons]
    rw [show last + (more.length + 1) = last + 1 + more.length by omega,
      show last + 1 + (more.length + 1) = last + 1 + 1 + more.length by omega]

end Runtime

/-! ## Parameters -/

/-- The names a checked list of parameters binds are distinct. -/
theorem Parameter.nodup_of_checkList {method : Symbol} {parameters : List Parameter}
    {seen : List Symbol} (h : checkList method seen parameters = .ok ()) :
    (parameters.map Parameter.name).Nodup ∧ ∀ name ∈ parameters.map Parameter.name, name ∉ seen := by
  induction parameters generalizing seen with
  | nil => exact ⟨List.nodup_nil, fun _ hmem => nomatch hmem⟩
  | cons parameter more ih =>
    unfold checkList at h
    split at h
    · cases h
    · split at h
      · cases h
      · rename_i hseen
        obtain ⟨hnodup, hnew⟩ := ih h
        refine ⟨List.nodup_cons.mpr ⟨fun hmem => ?_, hnodup⟩, fun name hmem => ?_⟩
        · exact hnew _ hmem (List.mem_append_right _ (List.mem_singleton_self _))
        · rcases List.mem_cons.mp hmem with rfl | hmem
          · exact hseen
          · exact fun hold => hnew name hmem (List.mem_append_left _ hold)

/-- Bindings have the names of the parameters, from the left. -/
theorem Method.map_fst_pair_sublist (rest : Identity) (parameters : List Parameter)
    (arguments : List (Value κ)) :
    ((pair rest parameters arguments).map Prod.fst).Sublist (parameters.map Parameter.name) := by
  induction parameters generalizing arguments with
  | nil => cases arguments <;> exact List.Sublist.refl _
  | cons parameter more ih =>
    match parameter, arguments with
    | .required name, [] => exact List.nil_sublist _
    | .required name, argument :: arguments => exact (ih arguments).cons_cons name
    | .rest name, arguments =>
      rw [pair]
      exact (ih arguments.tail).cons_cons name

/-- Required parameters are bound to the arguments one by one. -/
theorem Method.pair_required (rest : Identity) (names : List Symbol) (arguments : List (Value κ)) :
    pair rest (names.map .required) arguments = names.zip arguments := by
  induction names generalizing arguments with
  | nil => cases arguments <;> rfl
  | cons name names ih =>
    cases arguments with
    | nil => rfl
    | cons argument arguments =>
      show (name, argument) :: pair rest (names.map .required) arguments = _
      rw [ih]
      rfl

/-! ## Applying -/

/-- A method that accepts a number of arguments and whose parameters have been checked. -/
structure Method.Accepts (method : Method κ) (count : Nat) : Prop where
  checked : Parameter.checkList method.name [] method.parameters = .ok ()
  arity : method.arity.accepts count = true

namespace Runtime

/-- A closure that accepts its arguments is applied by running its body in a new frame. -/
theorem apply_eq (rt : Runtime κ σ) (closure : Closure κ) {arguments : List (Value κ)}
    {world : World κ σ} (hsound : world.Sound)
    (haccepts : closure.method.Accepts arguments.length) :
    rt.apply closure arguments world =
      rt.run closure.method (closure.context.withScope world.heap.nextId) arguments
        (world.enter closure.context.scope
          (Method.pair ⟨world.supply⟩ closure.method.parameters arguments)) := by
  have hbind : closure.method.bindArguments ⟨world.supply⟩ arguments =
      .ok (Method.pair ⟨world.supply⟩ closure.method.parameters arguments) := by
    rw [Method.bindArguments, if_pos haccepts.arity]
  have hnodup := (Method.map_fst_pair_sublist ⟨world.supply⟩ closure.method.parameters
    arguments).nodup (Parameter.nodup_of_checkList haccepts.checked).1
  have hall := bindAll_frame hsound.free closure.context.scope []
    (Method.pair ⟨world.supply⟩ closure.method.parameters arguments)
    { world with
      heap := (world.heap.allocate
        (.frame (.binding ⟨world.supply + 1⟩ closure.context.scope []))).2
      supply := world.supply + 2 }
    rfl rfl hnodup
  unfold apply
  rw [Run.fresh_bind, hbind, Run.check_ok_bind, Run.fresh_bind, Run.allocate_bind]
  have hframe : ({ slots := Storage.empty ⟨world.supply + 1⟩
                   lexicalParent := closure.context.scope } : CallFrame κ) =
      .binding ⟨world.supply + 1⟩ closure.context.scope [] := rfl
  dsimp only
  rw [hframe, Run.bind_of_ok hall]
  rfl

/-- A plain object does by default what it is sent. -/
theorem send_plain (host : Host κ σ) (steps : Nat) {world : World κ σ} {id : ObjectId}
    {body : PrototypeObject κ} (hid : world.heap.node? id = some (.object body))
    (message : Message κ) :
    (ofFuel host (steps + 1)).send (.object id) message world =
      (ofFuel host steps).performDefault id message world := by
  show (Run.node id >>= _) world = _
  rw [Run.node_bind_of_some hid]

/-- A mirage does what it is sent by way of its mirror. -/
theorem send_mirage (host : Host κ σ) (steps : Nat) {world : World κ σ} {id : ObjectId}
    {body : Mirage κ} (hid : world.heap.node? id = some (.mirage body)) (message : Message κ) :
    (ofFuel host (steps + 1)).send (.object id) message world =
      (ofFuel host steps).forward id message world := by
  show (Run.node id >>= _) world = _
  rw [Run.node_bind_of_some hid]

/-- A message to a plain object that finds a method runs the method's body in a new frame. -/
theorem send_method (host : Host κ σ) (steps : Nat) {world : World κ σ} (hsound : world.Sound)
    (receiver : Value κ) {arguments : List (Value κ)} {start holder : ObjectId}
    {body : PrototypeObject κ} {node : Node κ} {selector : Symbol} {method : Method κ}
    (hstart : world.heap.node? start = some (.object body))
    (hsearch : world.heap.searchDynamic start selector = .ok (.found holder (.method method)))
    (hholder : world.heap.node? holder = some node) (haccepts : method.Accepts arguments.length) :
    (ofFuel host (steps + 2)).send (.object start) (.invoke receiver selector arguments) world =
      (ofFuel host steps).runMethod host method
        ⟨world.heap.nextId, receiver, node.dynamicParent⟩ arguments
        (world.enter holder (Method.pair ⟨world.supply⟩ method.parameters arguments)) := by
  rw [send_plain host (steps + 1) hstart]
  show (ofFuel host (steps + 1)).defaultInvoke start receiver selector arguments world = _
  unfold defaultInvoke resolve
  rw [fuel_ofFuel, resolveFrom, bind_assoc, Run.searchDynamic_bind, hsearch]
  show (methodClosure holder method receiver >>= fun closure =>
    (ofFuel host (steps + 1)).apply closure arguments) world = _
  unfold methodClosure
  rw [bind_assoc, Run.node_bind_of_some hholder]
  exact (ofFuel host (steps + 1)).apply_eq ⟨method, ⟨holder, receiver, node.dynamicParent⟩⟩ hsound
    haccepts

end Runtime

end Prototypes
