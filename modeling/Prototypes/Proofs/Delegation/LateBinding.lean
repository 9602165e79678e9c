import Prototypes.Proofs.Delegation.Transparency

/-!
# Late binding

The receiver of a message has no part in the walk along dynamic parents.  Whichever node of a
chain the walk ends at, a method found there is run for the receiver the message was sent for,
in a fresh frame nested in the node that holds it.  Its super view is the parent of that node,
so what it sends on goes to the rest of the chain.

A method may do nothing but send its message on with the arguments it was given, the host
taking note of it before and making something of the answer afterwards (`Method.SendsOn`).
Then the methods of a chain run one inside the other, the nearest first and each once, and the
last of them has the receiver asked for its handler.  What is still to be done when the handler
answers is told by `Activation.resumeAll`.

## Main results

* `Runtime.send_along` — a message to the first node of a chain ends at the nearest slot.
* `Runtime.send_nearest` — a method found there runs in a fresh frame.
* `Runtime.send_starts`, `Runtime.send_activates` — a method that sends on starts and sends on;
  and so those of a chain run one inside the other, by induction on its slots.
* `Runtime.late_bound` — all of it, and how it ends for a receiver with the default handler.
-/

namespace Prototypes

variable {κ σ α β : Type}

/-! ## The slots of a chain -/

namespace Heap

/-- The slots that a selector names in these nodes, each with its node. -/
def held (heap : Heap κ) (selector : Symbol) (ids : List ObjectId) : List (ObjectId × Slot κ) :=
  ids.filterMap fun id => (heap.slot? selector id).map (Prod.mk id)

variable {heap other : Heap κ} {selector : Symbol} {value : Value κ} {id holder : ObjectId}
  {ids : List ObjectId} {slot : Slot κ} {rest : List (ObjectId × Slot κ)}

theorem held_cons_some (h : heap.slot? selector id = some slot) (ids : List ObjectId) :
    heap.held selector (id :: ids) = (id, slot) :: heap.held selector ids :=
  List.filterMap_cons_some (by rw [h]; rfl)

theorem held_cons_none (h : heap.slot? selector id = none) (ids : List ObjectId) :
    heap.held selector (id :: ids) = heap.held selector ids :=
  List.filterMap_cons_none (by rw [h]; rfl)

theorem mem_held_iff : (id, slot) ∈ heap.held selector ids ↔
    id ∈ ids ∧ heap.slot? selector id = some slot := by
  simp only [held, List.mem_filterMap, Option.map_eq_some_iff, Prod.mk.injEq]
  constructor
  · rintro ⟨id, hmem, slot, hslot, rfl, rfl⟩
    exact ⟨hmem, hslot⟩
  · rintro ⟨hmem, hslot⟩
    exact ⟨id, hmem, slot, hslot, rfl, rfl⟩

theorem map_fst_held_sublist (heap : Heap κ) (selector : Symbol) (ids : List ObjectId) :
    ((heap.held selector ids).map Prod.fst).Sublist ids := by
  induction ids with
  | nil => exact List.nil_sublist _
  | cons id ids ih =>
    cases hslot : heap.slot? selector id with
    | some slot =>
      rw [held_cons_some hslot]
      exact ih.cons_cons id
    | none =>
      rw [held_cons_none hslot]
      exact ih.cons id

/-- The nearest slot is the first one. -/
theorem nearest_eq_of_held (h : heap.held selector ids = (holder, slot) :: rest) :
    heap.nearest selector ids = .found holder slot := by
  induction ids with
  | nil => cases h
  | cons id ids ih =>
    rw [nearest]
    cases hslot : heap.slot? selector id with
    | some found =>
      rw [held_cons_some hslot] at h
      cases h
      rfl
    | none =>
      rw [held_cons_none hslot] at h
      exact ih h

theorem nearest_eq_absent (h : heap.held selector ids = []) : heap.nearest selector ids = .absent := by
  induction ids with
  | nil => rfl
  | cons id ids ih =>
    rw [nearest]
    cases hslot : heap.slot? selector id with
    | some found =>
      rw [held_cons_some hslot] at h
      cases h
    | none =>
      rw [held_cons_none hslot] at h
      exact ih h

/-- Behind the first of the slots there is the chain of its node's parent, with the others. -/
theorem Chain.exists_behind (h : heap.Chain value ids)
    (hheld : heap.held selector ids = (holder, slot) :: rest) :
    ∃ node behind, heap.node? holder = some node ∧ heap.Chain node.dynamicParent behind ∧
      behind <:+ ids ∧ heap.held selector behind = rest := by
  induction h with
  | nil => cases hheld
  | @cons id node ids hnode _ hrest ih =>
    cases hslot : heap.slot? selector id with
    | some found =>
      rw [held_cons_some hslot] at hheld
      cases hheld
      exact ⟨node, ids, hnode, hrest, List.suffix_cons _ ids, rfl⟩
    | none =>
      rw [held_cons_none hslot] at hheld
      obtain ⟨other, behind, hother, hbehind, hsuffix, hheld⟩ := ih hheld
      exact ⟨other, behind, hother, hbehind, hsuffix.trans (List.suffix_cons id ids), hheld⟩

theorem Chain.held_of_keeps (h : heap.Chain value ids) (hkeeps : heap.Keeps other)
    (selector : Symbol) : other.held selector ids = heap.held selector ids := by
  unfold held
  refine List.filterMap_congr fun id hmem => ?_
  rw [h.slot?_of_keeps hkeeps selector hmem]

end Heap

/-! ## A message to a chain -/

namespace Runtime

variable (host : Host κ σ) {world : World κ σ} {value : Value κ} {ids : List ObjectId}

/--
Along a chain of plain objects and mirages whose mirrors do the default thing, a message
sent for a receiver does at the nearest slot what is done at a slot for that receiver, and if
there is none what is done when nothing is found.
-/
theorem send_along (hchain : world.heap.Chain value ids)
    (hplainlike : ∀ id ∈ ids, world.Plainlike [.invoke] id) {steps : Nat} (hsteps : ids.length ≤ steps)
    (receiver : Value κ) (selector : Symbol) (arguments : List (Value κ)) :
    ∃ last after, world.Alike after ∧
      (ofFuel host (steps + 1)).send value (.invoke receiver selector arguments) world =
        (Walk.invoke receiver selector arguments).conclude (ofFuel host steps) last
          (world.heap.nearest selector ids) after := by
  cases hchain with
  | nil =>
    refine ⟨world.lexicalRoot, world, .refl world, ?_⟩
    show ((ofFuel host steps).valueProtocol .nil selector arguments >>= _) world = _
    rfl
  | @cons id node ids hnode hframe hrest =>
    have hop : (Message.invoke receiver selector arguments).op ∈ [MetaOp.invoke] :=
      List.mem_singleton_self _
    obtain ⟨sent, hsent, hsend⟩ := send_plainlike host steps (hplainlike id (List.mem_cons_self ..)) hop
    have hheap : world.heap = sent.heap := World.Affinity.heap_eq hsent
    have hfuel : (id :: ids).length ≤ (ofFuel host steps).fuel := by rwa [fuel_ofFuel]
    obtain ⟨last, after, hwalk, hafter⟩ := (ofFuel host steps).resolveVisiting_along hop selector
      (hheap ▸ Heap.Chain.cons hnode hframe hrest)
      (fun other hmem => (hplainlike other hmem).of_alike hsent) hfuel
    obtain ⟨last, after, hafter, hperform⟩ :=
      (Walk.Operation.invoke receiver selector arguments).performDefault_of_resolves
        ⟨last, after, hwalk, hafter⟩
    refine ⟨last, after, hsent.trans hafter, ?_⟩
    rw [hsend, hheap]
    exact hperform.trans (congrFun (id_map _) after)

/-- A method found there runs for the receiver, in a fresh frame nested in its holder. -/
theorem send_nearest (hsound : world.Sound) (hchain : world.heap.Chain value ids)
    (hplainlike : ∀ id ∈ ids, world.Plainlike [.invoke] id) (steps : Nat)
    (hsteps : ids.length ≤ steps + 1) {selector : Symbol} {holder : ObjectId} {method : Method κ}
    (hnearest : world.heap.nearest selector ids = .found holder (.method method)) {node : Node κ}
    (hnode : world.heap.node? holder = some node) (receiver : Value κ) {arguments : List (Value κ)}
    (haccepts : method.Accepts arguments.length) :
    ∃ after, world.Alike after ∧
      (ofFuel host (steps + 2)).send value (.invoke receiver selector arguments) world =
        (ofFuel host steps).runMethod host method
          ⟨world.heap.nextId, receiver, node.dynamicParent⟩ arguments
          (after.enter holder (Method.pair ⟨world.supply⟩ method.parameters arguments)) := by
  obtain ⟨last, after, hafter, hsend⟩ :=
    send_along host hchain hplainlike hsteps receiver selector arguments
  have hheap : world.heap = after.heap := World.Affinity.heap_eq hafter
  have hsupply : world.supply = after.supply := World.Affinity.supply_eq hafter
  refine ⟨after, hafter, ?_⟩
  rw [hsend, hnearest, hheap, hsupply]
  show (methodClosure holder method receiver >>= fun closure =>
    (ofFuel host (steps + 1)).apply closure arguments) after = _
  unfold methodClosure
  rw [bind_assoc, Run.node_bind_of_some (hheap ▸ hnode)]
  exact (ofFuel host (steps + 1)).apply_eq ⟨method, ⟨holder, receiver, node.dynamicParent⟩⟩
    (hsound.of_alike hafter) haccepts

end Runtime

/-! ## Methods that send on -/

/-- A program after which another one runs. -/
theorem Program.run_bind (rt : Runtime κ σ) (program : Program κ σ α) (next : α → Program κ σ β) :
    (program.bind next).run rt = program.run rt >>= fun answer => (next answer).run rt := by
  induction program with
  | done answer => rfl
  | stop reason => rfl
  | observe more ih => exact funext fun world => congrFun (ih world.visible) world
  | remember update more ih => exact funext fun world => congrFun ih _
  | fresh more ih => exact funext fun world => congrFun (ih ⟨world.supply⟩) _
  | request request more ih =>
    funext world
    show _ = EStateM.bind _ _ world
    unfold EStateM.bind
    simp only [Program.bind, Program.run]
    cases request.run rt world with
    | ok answer after => exact congrFun (ih (.ok answer)) after
    | error reason after =>
      cases reason with
      | raised error => exact congrFun (ih (.error error)) after
      | _ => rfl
  | collect roots more ih =>
    funext world
    show _ = EStateM.bind _ _ world
    unfold EStateM.bind
    simp only [Program.bind, Program.run]
    cases Run.collect roots world with
    | ok collected after => exact congrFun (ih collected) after
    | error reason after => rfl

/-- The run of a method: the object that holds it, and the context its body is in. -/
structure Activation (κ : Type) where
  holder : ObjectId
  method : Method κ
  context : Context κ

section

variable (host : Host κ σ) (note : κ → Context κ → List (Value κ) → σ → σ)
  (next : κ → Context κ → List (Value κ) → Value κ → Program κ σ (Value κ))

/--
A method that sends a message on with the arguments it received: as host code, which may take
note of its run and make something of the answer, or as a built-in body.
-/
inductive Method.SendsOn (selector : Symbol) (method : Method κ) : Prop
  | code {code : κ} : method.body = .host code →
      (∀ (rt : Runtime κ σ) context arguments, (host.program code context arguments).run rt =
        (Program.remember (note code context arguments)
          ((Program.superSend context selector arguments).bind (next code context arguments))).run rt) →
        SendsOn selector method
  | resend : method.body = .builtin (.resend selector) → SendsOn selector method

variable {host note next}

namespace Activation

/-- What the host remembers when it has taken note of the run. -/
def noted (note : κ → Context κ → List (Value κ) → σ → σ) (arguments : List (Value κ)) (memory : σ)
    (activation : Activation κ) : σ :=
  match activation.method.body with
  | .host code => note code activation.context arguments memory
  | _ => memory

/-- What a body does with the answer to what it sent on. -/
def resume (next : κ → Context κ → List (Value κ) → Value κ → Program κ σ (Value κ))
    (rt : Runtime κ σ) (arguments : List (Value κ)) (activation : Activation κ) (answer : Value κ) :
    Run κ σ (Value κ) :=
  match activation.method.body with
  | .host code => (next code activation.context arguments answer).run rt
  | _ => pure answer

/--
What bodies do that run one inside the other when the innermost, the last of them, is answered
with so many steps left; each is then answered by the next one, which is two steps further on.
-/
def resumeAll (host : Host κ σ)
    (next : κ → Context κ → List (Value κ) → Value κ → Program κ σ (Value κ))
    (arguments : List (Value κ)) (steps : Nat) : List (Activation κ) → Value κ → Run κ σ (Value κ)
  | [], answer => pure answer
  | activation :: more, answer => do
    let answer ← resumeAll host next arguments steps more answer
    activation.resume next (Runtime.ofFuel host (steps + 2 * more.length + 1)) arguments answer

end Activation

/-- Running a method that sends on takes note of it, sends the message on, and resumes. -/
theorem Method.SendsOn.runMethod {selector : Symbol} {activation : Activation κ}
    (h : activation.method.SendsOn host note next selector) (rt : Runtime κ σ)
    (arguments : List (Value κ)) (world : World κ σ) :
    rt.runMethod host activation.method activation.context arguments world =
      (rt.send activation.context.superView
          (.invoke activation.context.receiver selector arguments) >>=
        activation.resume next rt arguments)
        { world with host := activation.noted note arguments world.host } := by
  unfold Runtime.runMethod Activation.noted Activation.resume
  cases h with
  | @code code hbody hprogram =>
    rw [hbody]
    dsimp only
    rw [hprogram, ← Program.run_superSend, ← Program.run_bind]
    rfl
  | resend hbody =>
    rw [hbody]
    dsimp only
    rw [bind_pure]
    rfl

/-! ## Bodies one inside the other -/

/--
A body runs for the receiver in a fresh frame nested in its holder, the parent of which is the
super view.
-/
structure Activation.Nested (before : Heap κ) (receiver : Value κ) (after : Heap κ)
    (activation : Activation κ) : Prop where
  receiver : activation.context.receiver = receiver
  fresh : before.node? activation.context.scope = none
  frame : ∃ frame, after.node? activation.context.scope = some (.frame frame) ∧
    frame.lexicalParent = activation.holder
  superView : ∃ node, after.node? activation.holder = some node ∧
    activation.context.superView = node.dynamicParent

/-- These bodies have started one after the other for the receiver, and nothing else has happened. -/
structure World.Activated (note : κ → Context κ → List (Value κ) → σ → σ) (receiver : Value κ)
    (arguments : List (Value κ)) (before : World κ σ) (running : List (Activation κ))
    (after : World κ σ) : Prop where
  ran : before.Ran (running.map Activation.holder) after
  host : after.host = running.foldl (Activation.noted note arguments) before.host
  nested : ∀ activation ∈ running, activation.Nested before.heap receiver after.heap
  scopes : (running.map fun activation => activation.context.scope).Nodup

namespace World

variable {u v w : World κ σ} {receiver value : Value κ} {arguments : List (Value κ)}
  {running : List (Activation κ)} {selector : Symbol} {ids : List ObjectId}

theorem Activated.of_alike (h : v.Alike w) : v.Activated note receiver arguments [] w where
  ran := .of_alike h
  host := (World.Affinity.host_eq h).symm
  nested _ hmem := nomatch hmem
  scopes := List.nodup_nil

/-- A body that starts, and takes note of it. -/
theorem Activated.start {activation : Activation κ} {node : Node κ} (hsound : v.Sound)
    (hvw : v.Alike w) (hnode : v.heap.node? activation.holder = some node)
    (hcontext : activation.context = ⟨v.heap.nextId, receiver, node.dynamicParent⟩)
    (bindings : List (Symbol × Value κ)) :
    v.Activated note receiver arguments [activation]
      { w.enter activation.holder bindings with
        host := activation.noted note arguments v.host } := by
  have hheap : v.heap = w.heap := World.Affinity.heap_eq hvw
  have hentered := (World.Ran.enter w activation.holder bindings).trans
    (.withRest _ (w.supply + 2 + bindings.length) w.log (activation.noted note arguments v.host))
  have hran := (World.Ran.of_alike hvw).trans hentered
  have hframe := (hsound.of_alike hvw).node?_enter activation.holder bindings
  rw [← hheap] at hframe
  refine ⟨hran, rfl, fun other hmem => ?_, List.nodup_singleton _⟩
  obtain rfl := List.mem_singleton.mp hmem
  have hnode' := hran.keeps hsound _ node hnode
  constructor
  · rw [hcontext]
  · rw [hcontext]
    exact hsound.free.node?_nextId
  · rw [hcontext]
    exact ⟨_, hframe, rfl⟩
  · rw [hcontext]
    exact ⟨node, hnode', rfl⟩

theorem Activated.append {more : List (Activation κ)}
    (h : u.Activated note receiver arguments running v)
    (h' : v.Activated note receiver arguments more w) (hsound : u.Sound) :
    u.Activated note receiver arguments (running ++ more) w := by
  have hkeeps := h.ran.keeps hsound
  have hkeeps' := h'.ran.keeps (h.ran.sound hsound)
  refine ⟨?_, ?_, fun activation hmem => ?_, ?_⟩
  · rw [List.map_append]
    exact h.ran.trans h'.ran
  · rw [h'.host, h.host, List.foldl_append]
  · rcases List.mem_append.mp hmem with hmem | hmem
    · obtain ⟨hreceiver, hfresh, ⟨frame, hframe, hparent⟩, node, hnode, hview⟩ := h.nested _ hmem
      exact ⟨hreceiver, hfresh, ⟨frame, hkeeps' _ _ hframe, hparent⟩, node, hkeeps' _ _ hnode, hview⟩
    · obtain ⟨hreceiver, hfresh, hframe, hview⟩ := h'.nested _ hmem
      exact ⟨hreceiver, hkeeps.node?_eq_none hfresh, hframe, hview⟩
  · -- a frame that is there already is not fresh
    rw [List.map_append]
    refine h.scopes.append h'.scopes fun scope hmem hmem' => ?_
    obtain ⟨first, hfirst, rfl⟩ := List.mem_map.mp hmem
    obtain ⟨second, hsecond, hsame⟩ := List.mem_map.mp hmem'
    obtain ⟨frame, hframe, -⟩ := (h.nested _ hfirst).frame
    have hfresh := (h'.nested _ hsecond).fresh
    rw [hsame, hframe] at hfresh
    cases hfresh

end World

/-- Where the nearest slot is a method that sends on, it starts, and sends on to its super view. -/
theorem Runtime.send_starts {world : World κ σ} (hsound : world.Sound) {value : Value κ}
    {ids : List ObjectId} (hchain : world.heap.Chain value ids)
    (hplainlike : ∀ id ∈ ids, world.Plainlike [.invoke] id) {selector : Symbol} {holder : ObjectId}
    {method : Method κ} (hnearest : world.heap.nearest selector ids = .found holder (.method method))
    {node : Node κ} (hnode : world.heap.node? holder = some node)
    (hmethod : method.SendsOn host note next selector) {arguments : List (Value κ)}
    (haccepts : method.Accepts arguments.length) {steps : Nat} (hsteps : ids.length ≤ steps + 1)
    (receiver : Value κ) :
    ∃ activation started, activation.holder = holder ∧ activation.method = method ∧
      world.Activated note receiver arguments [activation] started ∧
      (ofFuel host (steps + 2)).send value (.invoke receiver selector arguments) world =
        ((ofFuel host steps).send node.dynamicParent (.invoke receiver selector arguments) >>=
          activation.resume next (ofFuel host steps) arguments) started := by
  let activation : Activation κ := ⟨holder, method, ⟨world.heap.nextId, receiver, node.dynamicParent⟩⟩
  let bindings := Method.pair ⟨world.supply⟩ method.parameters arguments
  obtain ⟨found, hfound, hsend⟩ :=
    send_nearest host hsound hchain hplainlike steps hsteps hnearest hnode receiver haccepts
  have hsendsOn : activation.method.SendsOn host note next selector := hmethod
  have hrun := hsendsOn.runMethod (ofFuel host steps) arguments (found.enter holder bindings)
  have hmemory : (found.enter holder bindings).host = world.host := (World.Affinity.host_eq hfound).symm
  rw [hmemory] at hrun
  exact ⟨activation, _, rfl, rfl, .start hsound hfound hnode rfl bindings, hsend.trans hrun⟩

/--
Where all slots that a selector names along a chain are methods that send it on, they run one
inside the other, the nearest first, and then it is not found.
-/
theorem Runtime.send_activates {world : World κ σ} (hsound : world.Sound) {value : Value κ}
    {ids : List ObjectId} (hchain : world.heap.Chain value ids)
    (hplainlike : ∀ id ∈ ids, world.Plainlike [.invoke] id) {selector : Symbol}
    {arguments : List (Value κ)}
    (hmethods : ∀ holder slot, (holder, slot) ∈ world.heap.held selector ids → ∃ method,
      slot = .method method ∧ method.SendsOn host note next selector ∧ method.Accepts arguments.length)
    {steps : Nat} (hsteps : ids.length ≤ steps) (receiver : Value κ) :
    ∃ running after,
      (running.map fun activation => (activation.holder, Slot.method activation.method)) =
        world.heap.held selector ids ∧
      world.Activated note receiver arguments running after ∧
      (ofFuel host (steps + 2 * running.length + 1)).send value
          (.invoke receiver selector arguments) world =
        ((ofFuel host steps).invokeFallback receiver selector arguments >>=
          Activation.resumeAll host next arguments steps running) after := by
  generalize hheld : world.heap.held selector ids = held at hmethods
  induction held generalizing world value ids with
  | nil =>
    obtain ⟨last, after, hafter, hsend⟩ :=
      send_along host hchain hplainlike hsteps receiver selector arguments
    refine ⟨[], after, rfl, .of_alike hafter, ?_⟩
    rw [Heap.nearest_eq_absent hheld] at hsend
    exact hsend.trans (congrFun (bind_pure _).symm after)
  | cons first rest ih =>
    obtain ⟨holder, slot⟩ := first
    obtain ⟨method, rfl, hmethod, haccepts⟩ := hmethods holder slot (List.mem_cons_self ..)
    obtain ⟨node, behind, hnode, hbehind, hsuffix, hrest⟩ := hchain.exists_behind hheld
    have hmore : ids.length ≤ steps + 2 * rest.length + 1 + 1 := by omega
    obtain ⟨activation, started, rfl, rfl, hstart, hsend⟩ := send_starts hsound hchain hplainlike
      (Heap.nearest_eq_of_held hheld) hnode hmethod haccepts hmore receiver
    -- what the method sends on goes to the rest of the chain
    have hkeeps := hstart.ran.keeps hsound
    obtain ⟨running, after, hmap, hactivated, hinner⟩ := ih (hstart.ran.sound hsound)
      (hbehind.of_keeps hkeeps)
      (fun id hmem => (hplainlike id (hsuffix.subset hmem)).of_ran hsound hstart.ran)
      (hsuffix.length_le.trans hsteps) ((hbehind.held_of_keeps hkeeps selector).trans hrest)
      fun other slot hmem => hmethods other slot (List.mem_cons_of_mem _ hmem)
    have hlength : running.length = rest.length := by rw [← hmap, List.length_map]
    have hsteps' : steps + 2 * (running.length + 1) + 1 = steps + 2 * running.length + 1 + 2 := by omega
    refine ⟨activation :: running, after, by rw [List.map_cons, hmap],
      hstart.append hactivated hsound, ?_⟩
    rw [← hlength] at hsend
    rw [List.length_cons, hsteps', hsend, Run.bind_eq_of_eq hinner, bind_assoc]
    rfl

/-! ## The end -/

/-- Asked for its handler, the receiver answers the default one. -/
def World.HandlesByDefault (world : World κ σ) (receiver : Value κ) : Prop :=
  ∀ id, receiver = .object id → world.Plainlike [.doesNotUnderstand] id

/-- What is no primitive either is a matter for the receiver's handler. -/
theorem Runtime.invokeFallback_eq (rt : Runtime κ σ) {selector : Symbol}
    (hselector : Primitive.ofSelector? selector = none) (receiver : Value κ)
    (arguments : List (Value κ)) :
    rt.invokeFallback receiver selector arguments =
      rt.send receiver (.doesNotUnderstand selector) >>= fun handler =>
        rt.applyValue handler arguments := by
  unfold invokeFallback
  rw [hselector]

/-- With the default handler a message that is found nowhere fails for want of the selector. -/
theorem Runtime.invokeFallback_default (host : Host κ σ) (steps : Nat) {world : World κ σ}
    (hsound : world.Sound) {receiver : Value κ} (hreceiver : world.HandlesByDefault receiver)
    {selector : Symbol} (hselector : Primitive.ofSelector? selector = none)
    (arguments : List (Value κ)) :
    ∃ after, (ofFuel host (steps + 1)).invokeFallback receiver selector arguments world =
      .error (.raised (notFound selector receiver)) after := by
  obtain ⟨asked, hasked, hsend⟩ : ∃ asked, world.Alike asked ∧
      (ofFuel host (steps + 1)).send receiver (.doesNotUnderstand selector) world =
        Run.defaultHandler receiver selector asked := by
    cases receiver with
    | object id => exact send_doesNotUnderstand host steps (hreceiver id rfl) selector
    | _ => exact ⟨world, .refl world, rfl⟩
  have hhandled :=
    applyValue_defaultHandler host steps (hsound.of_alike hasked) receiver selector arguments
  rw [invokeFallback_eq _ hselector]
  exact ⟨_, (Run.bind_eq_of_eq hsend _).trans hhandled⟩

/--
A message sent for a receiver along a chain of plain objects and mirages whose mirrors do the
default thing is late-bound.  If the nearest slot is a method, the method runs for the receiver
in a fresh frame nested in its holder, the parent of which is the super view.  And if all slots
that the selector names along the chain are methods that send it on, these methods and no
others run one inside the other, the nearest first and each once, all of them for the receiver;
after the last the receiver is asked for its handler, and if that is the default one the
message fails for want of the selector.
-/
theorem Runtime.late_bound (host : Host κ σ) (note : κ → Context κ → List (Value κ) → σ → σ)
    (next : κ → Context κ → List (Value κ) → Value κ → Program κ σ (Value κ)) {world : World κ σ}
    (hsound : world.Sound) {bottom : ObjectId} {ids : List ObjectId}
    (hchain : world.heap.Chain (.object bottom) ids)
    (hplainlike : ∀ id ∈ ids, world.Plainlike [.invoke] id) (receiver : Value κ) {selector : Symbol}
    (hselector : Primitive.ofSelector? selector = none) (arguments : List (Value κ)) {steps : Nat}
    (hsteps : ids.length ≤ steps) :
    (∀ holder method, world.heap.nearest selector ids = .found holder (.method method) →
      method.Accepts arguments.length →
      ∃ after node frame, world.Alike after ∧ world.heap.node? holder = some node ∧
        let bindings := Method.pair ⟨world.supply⟩ method.parameters arguments
        world.heap.node? world.heap.nextId = none ∧
        (after.enter holder bindings).heap.node? world.heap.nextId = some (.frame frame) ∧
        frame.lexicalParent = holder ∧
        (ofFuel host (steps + 2)).send (.object bottom) (.invoke receiver selector arguments) world =
          (ofFuel host steps).runMethod host method
            ⟨world.heap.nextId, receiver, node.dynamicParent⟩ arguments
            (after.enter holder bindings)) ∧
    ((∀ id ∈ ids, ∀ slot, world.heap.slot? selector id = some slot → ∃ method,
        slot = .method method ∧ method.SendsOn host note next selector ∧
          method.Accepts arguments.length) →
      ∃ running after,
        (running.map fun activation => (activation.holder, Slot.method activation.method)) =
          world.heap.held selector ids ∧
        (running.map Activation.holder).Nodup ∧
        world.Activated note receiver arguments running after ∧
        (ofFuel host (steps + 2 * running.length + 1)).send (.object bottom)
            (.invoke receiver selector arguments) world =
          (do
            let handler ← (ofFuel host steps).send receiver (.doesNotUnderstand selector)
            let answer ← (ofFuel host steps).applyValue handler arguments
            Activation.resumeAll host next arguments steps running answer) after ∧
        (world.HandlesByDefault receiver →
          ∃ left, (ofFuel host (steps + 2 * running.length + 1)).send (.object bottom)
              (.invoke receiver selector arguments) world =
            .error (.raised (notFound selector receiver)) left)) := by
  refine ⟨fun holder method hnearest haccepts => ?_, fun hmethods => ?_⟩
  · obtain ⟨node, hnode, -⟩ := Option.bind_eq_some_iff.mp (Heap.slot?_of_nearest hnearest)
    obtain ⟨after, hafter, hsend⟩ := send_nearest host hsound hchain hplainlike steps
      (hsteps.trans (Nat.le_succ steps)) hnearest hnode receiver haccepts
    have hframe := (hsound.of_alike hafter).node?_enter holder
      (Method.pair ⟨world.supply⟩ method.parameters arguments)
    rw [← show world.heap = after.heap from World.Affinity.heap_eq hafter] at hframe
    exact ⟨after, node, _, hafter, hnode, hsound.free.node?_nextId, hframe, rfl, hsend⟩
  · obtain ⟨running, after, hmap, hactivated, hsend⟩ := send_activates hsound hchain hplainlike
      (fun holder slot hmem => by
        obtain ⟨hmem, hslot⟩ := Heap.mem_held_iff.mp hmem
        exact hmethods holder hmem slot hslot) hsteps receiver
    refine ⟨running, after, hmap, ?_, hactivated, ?_, fun hreceiver => ?_⟩
    · have hholders : running.map Activation.holder = (world.heap.held selector ids).map Prod.fst := by
        rw [← hmap, List.map_map]
        rfl
      rw [hholders]
      exact hchain.nodup.sublist (world.heap.map_fst_held_sublist selector ids)
    · rw [hsend, invokeFallback_eq _ hselector, bind_assoc]
    · have hpositive := List.length_pos_iff.mpr (List.ne_nil_of_mem hchain.mem_self)
      obtain ⟨steps, rfl⟩ : ∃ k, steps = k + 1 := ⟨steps - 1, by omega⟩
      have hhandles : after.HandlesByDefault receiver := fun id hid =>
        (hreceiver id hid).of_ran hsound hactivated.ran
      obtain ⟨left, hfails⟩ := invokeFallback_default host steps (hactivated.ran.sound hsound) hhandles
        hselector arguments
      exact ⟨left, hsend.trans (Run.bind_of_error hfails _)⟩

end

/-- Host code that keeps a list of the receivers it runs for, sends `x` on, and answers nil. -/
private def relaying : Host Unit (List (Value Unit)) where
  program _ context arguments :=
    .remember (fun receivers => receivers ++ [context.receiver])
      ((Program.superSend context ⟨"x"⟩ arguments).bind fun _ => .done .nil)

/--
A chain from a plain object at index 5 by way of a mirage at index 3 to the object at index 2;
the first and the last have a method `x`.  At index 4 the mirage's mirror, which overrides nothing.
-/
private def relayed : World Unit (List (Value Unit)) :=
  let world : World Unit (List (Value Unit)) := World.new default []
  let method : Method Unit := { identity := ⟨103⟩, name := ⟨"x"⟩, parameters := [], body := .host () }
  let plain : PrototypeObject Unit :=
    { slots := { Storage.empty ⟨100⟩ with methods := [method] }
      dynamicParent := .object ⟨3⟩
      lexicalParent := none
      link := .isA
      typeTags := []
      family := ⟨3⟩
      flags := .none }
  let mirror : PrototypeObject Unit :=
    { plain with
      slots :=
        { Storage.empty ⟨102⟩ with
          fields := [{ name := Selector.base, writable := false, value := .object ⟨3⟩ }] }
      dynamicParent := .object world.mirrorRoot }
  let nodes : List (Node Unit) :=
    [.object { plain with dynamicParent := .nil },
      .mirage ⟨{ plain with slots := Storage.empty ⟨101⟩, dynamicParent := .object ⟨2⟩ }, some ⟨4⟩⟩,
      .object mirror, .object plain]
  { world with heap := nodes.foldl (fun heap node => (heap.allocate node).2) world.heap }

private theorem sound_relayed : relayed.Sound where
  free := ((((World.sound_new default []).free.allocate _).allocate _).allocate _).allocate _
  defaults := ⟨3, rfl⟩

private theorem chain_relayed : relayed.heap.Chain (.object ⟨5⟩) [⟨5⟩, ⟨3⟩, ⟨2⟩] :=
  .cons rfl rfl (.cons rfl rfl (.cons rfl rfl .nil))

private theorem plainlike_relayed : ∀ id ∈ [⟨5⟩, ⟨3⟩, ⟨2⟩], relayed.Plainlike [.invoke] id := by
  intro id hmem
  simp only [List.mem_cons, List.not_mem_nil, or_false] at hmem
  rcases hmem with rfl | rfl | rfl
  · exact .inl ⟨_, rfl⟩
  · refine .inr ⟨⟨4⟩, fun op hop => ?_, ⟨_, rfl⟩, ⟨_, rfl⟩, ⟨4⟩, _, 0, false, rfl, rfl, rfl⟩
    obtain rfl := List.mem_singleton.mp hop
    exact ⟨⟨_, rfl⟩, ⟨_, rfl⟩, _, rfl, rfl⟩
  · exact .inl ⟨_, rfl⟩

private theorem sendsOn_relayed : ∀ id ∈ [⟨5⟩, ⟨3⟩, ⟨2⟩], ∀ slot,
    relayed.heap.slot? ⟨"x"⟩ id = some slot → ∃ method, slot = .method method ∧
      method.SendsOn relaying (fun _ context _ receivers => receivers ++ [context.receiver])
        (fun _ _ _ _ => .done .nil) ⟨"x"⟩ ∧ method.Accepts 0 := by
  intro id hmem slot hslot
  simp only [List.mem_cons, List.not_mem_nil, or_false] at hmem
  rcases hmem with rfl | rfl | rfl <;> cases hslot <;>
    exact ⟨_, rfl, .code rfl fun _ _ _ => rfl, rfl, rfl⟩

/-- Both methods run for the object at the bottom, which does not understand what they send on. -/
theorem Runtime.late_bound_relayed :
    relayed.Sound ∧ relayed.heap.Chain (.object ⟨5⟩) [⟨5⟩, ⟨3⟩, ⟨2⟩] ∧
      (∀ id ∈ [⟨5⟩, ⟨3⟩, ⟨2⟩], relayed.Plainlike [.invoke] id) ∧
      Primitive.ofSelector? ⟨"x"⟩ = none ∧
      ∃ running after,
        relayed.Activated (fun _ context _ receivers => receivers ++ [context.receiver])
          (.object ⟨5⟩) [] running after ∧
        running.map Activation.holder = [⟨5⟩, ⟨2⟩] ∧
        after.host = [.object ⟨5⟩, .object ⟨5⟩] ∧
        ∃ left, (ofFuel relaying 8).send (.object ⟨5⟩) (.invoke (.object ⟨5⟩) ⟨"x"⟩ []) relayed =
          .error (.raised (notFound ⟨"x"⟩ (.object ⟨5⟩ : Value Unit))) left := by
  have hselector : Primitive.ofSelector? ⟨"x"⟩ = none := by decide
  have hlate := late_bound relaying (fun _ context _ receivers => receivers ++ [context.receiver])
    (fun _ _ _ _ => .done .nil) sound_relayed chain_relayed plainlike_relayed (.object ⟨5⟩)
    hselector [] (Nat.le_refl 3)
  obtain ⟨running, after, hmap, -, hactivated, -, hfails⟩ := hlate.2 sendsOn_relayed
  have hheld : running.map (fun activation => (activation.holder, Slot.method activation.method)) =
      [(⟨5⟩, .method ⟨⟨103⟩, ⟨"x"⟩, [], .host ()⟩), (⟨2⟩, .method ⟨⟨103⟩, ⟨"x"⟩, [], .host ()⟩)] := hmap
  obtain ⟨⟨_, _, first⟩, rest, rfl, hfirst, hrest⟩ := List.map_eq_cons_iff.mp hheld
  obtain ⟨⟨_, _, second⟩, more, rfl, hsecond, hnone⟩ := List.map_eq_cons_iff.mp hrest
  obtain rfl := List.map_eq_nil_iff.mp hnone
  cases hfirst
  cases hsecond
  have hreceiver : first.receiver = .object ⟨5⟩ :=
    (hactivated.nested _ (List.mem_cons_self ..)).receiver
  have hreceiver' : second.receiver = .object ⟨5⟩ :=
    (hactivated.nested _ (List.mem_cons_of_mem _ (List.mem_cons_self ..))).receiver
  refine ⟨sound_relayed, chain_relayed, plainlike_relayed, hselector, _, after, hactivated, rfl, ?_,
    hfails fun id hid => ?_⟩
  · rw [hactivated.host, ← hreceiver]
    show [first.receiver, second.receiver] = _
    rw [hreceiver, hreceiver']
  · cases hid
    exact .inl ⟨_, rfl⟩

end Prototypes
