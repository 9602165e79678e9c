import Prototypes.Proofs.Mirrors.Lines

/-!
# Interceptions along a chain

A walk for a selector along a chain of plain objects and mirages, whose mirrors
pass on what they override, ends at the slot that is nearest by the chain
alone.  On its way it comes past every mirage up to the holder of the slot, and
the mirror of each is asked once or passed over; no mirror behind the holder is
asked anything.

There are three ways by which a walk gets from one node to the next: a search
passes a plain object, a loop goes on inside a mirage whose mirror inherits the
operation, and a mirror that is asked performs the operation on its base at the
end of its line.  The second is a dispatch at the mirage as far as outcomes go,
so what is left of it and the third is one fact, `World.Reflects.send`.

What has run is told by the call frames that are left, one for each run of a
method in the object that holds it, and by what the host has noted.

## Main results

* `World.Reflects.send` — a message to a mirage runs what its mirror overrides,
  and then does by default what it asks for.
* `Walk.Performs.inPlace_along` — a walk by the nodes ahead of it, by induction
  on these.
* `Walk.interception_exactly_once` — the four operations at the bottom of a
  chain.
-/

namespace Prototypes

variable {κ σ α : Type}

/-! ## A message to a mirage -/

/--
The mirror of a mirage has the mirage as its base and is the first object of a
line, or the mirror root itself.
-/
structure World.Reflects (host : Host κ σ) (note : κ → Value κ → σ → σ) (op : MetaOp)
    (world : World κ σ) (mirage mirror : ObjectId) (line : List ObjectId) : Prop where
  bound : ∃ body, world.heap.node? mirage = some (.mirage ⟨body, some mirror⟩)
  line : world.Line host note op (.object mirror) line
  base : ∃ holder node index writable,
    world.heap.searchDynamic mirror Selector.base = .ok (.found holder (.field index writable)) ∧
      world.heap.node? holder = some node ∧ node.slots.read? index = some (.object mirage)

namespace World.Reflects

variable {host : Host κ σ} {note : κ → Value κ → σ → σ} {op : MetaOp} {v w : World κ σ}
  {mirage mirror : ObjectId} {line scopes : List ObjectId}

theorem plain (h : v.Reflects host note op mirage mirror line) :
    ∃ body, v.heap.node? mirror = some (.object body) := by
  obtain ⟨id, ids, body, hid, _, hbody⟩ := h.line.exists_first
  cases hid
  exact ⟨body, hbody⟩

/-- A mirror reflects one mirage only. -/
theorem unique {mirage' : ObjectId} {line' : List ObjectId}
    (h : v.Reflects host note op mirage mirror line)
    (h' : v.Reflects host note op mirage' mirror line') : mirage = mirage' := by
  obtain ⟨holder, node, index, _, hsearch, hnode, hread⟩ := h.base
  obtain ⟨holder', node', index', _, hsearch', hnode', hread'⟩ := h'.base
  cases hsearch.symm.trans hsearch'
  cases hnode.symm.trans hnode'
  cases hread.symm.trans hread'
  rfl

theorem of_ran (h : v.Reflects host note op mirage mirror line) (hsound : v.Sound)
    (hran : v.Ran scopes w) : w.Reflects host note op mirage mirror line where
  bound := by
    obtain ⟨body, hbody⟩ := h.bound
    exact ⟨body, hran.keeps hsound mirage _ hbody⟩
  line := h.line.of_ran hsound hran
  base := by
    obtain ⟨holder, node, index, writable, hsearch, hnode, hread⟩ := h.base
    exact ⟨holder, node, index, writable, hran.searchDynamic_of_found hsound hsearch,
      hran.keeps hsound holder node hnode, hread⟩

theorem mirrorBase_bind (h : v.Reflects host note op mirage mirror line) (rt : Runtime κ σ)
    (next : ObjectId → Run κ σ α) : (rt.mirrorBase (.object mirror) >>= next) v = next mirage v := by
  obtain ⟨body, hbody⟩ := h.plain
  obtain ⟨reflected, hreflected⟩ := h.bound
  obtain ⟨holder, node, index, writable, hsearch, hnode, hread⟩ := h.base
  exact Runtime.mirrorBase_bind_of_found hbody hreflected hsearch hnode hread rt next

/-- The mirror root's method does on the mirage by default what the mirage was asked for. -/
theorem performOnBase_eq {message : Message κ} (h : v.Reflects host note message.op mirage mirror line)
    (rt : Runtime κ σ) (table : Identity) :
    rt.performOnBase message.op (.object mirror) (message.arguments table) v =
      rt.performDefault mirage message
        (v.traced (.performedDefault (Value.object (κ := κ) mirror).display message.op mirage)) := by
  unfold Runtime.performOnBase Runtime.performWith
  rw [h.mirrorBase_bind, Run.trace_bind, Message.read_arguments]
  rfl

/-- A mirror that overrides the operation has to be asked. -/
theorem defaultTarget?_eq_none (h : v.Reflects host note op mirage mirror line) (hsound : v.Sound)
    {holder : ObjectId} {method : Method κ} (hpasses : method.PassesOn host note op)
    (hsearch : v.heap.searchDynamic mirror op.selector = .ok (.found holder (.method method)))
    (rt : Runtime κ σ) : rt.defaultTarget? mirage op v = .ok none v := by
  obtain ⟨body, hbody⟩ := h.plain
  obtain ⟨reflected, hreflected⟩ := h.bound
  -- the search has ended in front of the mirror root, whatever the method's identity
  have hholder : holder ≠ v.mirrorRoot :=
    h.line.ne_mirrorRoot_of_passesOn hsound (Heap.slot?_of_searchDynamic hsearch) hpasses
  have hinherits := Runtime.inheritsDefault_eq hsearch
  rw [decide_eq_false hholder, Bool.false_and] at hinherits
  rw [Runtime.defaultTarget?_eq hreflected hbody hinherits]
  rfl

end World.Reflects

/-- The frames that interceptions leave; where there are none, the mirror is not asked at all. -/
def World.scopes (world : World κ σ) (ran : List (Interception κ)) : List ObjectId :=
  if ran.isEmpty then [] else ran.map Interception.holder ++ [world.mirrorRoot]

/-- Reports are no part of what the host remembers. -/
theorem World.host_traced (world : World κ σ) (event : Event) :
    (world.traced event).host = world.host :=
  (World.Affinity.host_eq (World.Alike.traced world event)).symm

namespace World.Reflects

variable {host : Host κ σ} {note : κ → Value κ → σ → σ} {world : World κ σ}
  {mirage mirror : ObjectId} {line : List ObjectId} {message : Message κ}

/--
A mirror that is asked runs its overriding methods, each once and the nearest
first, then the mirror root's, and what that answers is what was promised.
-/
theorem ask (h : world.Reflects host note message.op mirage mirror line) (hsound : world.Sound) :
    ∃ extra after,
      world.Ran ((world.heap.interceptions message.op mirror line).map Interception.holder ++
        [world.mirrorRoot]) after ∧
      after.host = (world.heap.interceptions message.op mirror line).foldl
        (Interception.noted note) world.host ∧
      ∀ steps, (Runtime.ofFuel host (steps + extra)).askMirror mirror message world =
        (Runtime.ofFuel host steps).performDefault mirage message after := by
  let table : Identity := ⟨world.supply⟩
  let asked := { world with supply := world.supply + 1 }
  let performed : Event := .performedDefault (Value.object (κ := κ) mirror).display message.op mirage
  have hasked : world.Ran [] asked := .withRest world (world.supply + 1) world.log world.host
  obtain ⟨extra, after, hran, hhost, hsend⟩ :=
    (h.line.of_ran hsound hasked).send (hasked.sound hsound) mirror (message.length_arguments table)
  rw [h.line.interceptions_of_ran hsound hasked] at hran hhost
  have hafter := hasked.trans hran
  refine ⟨extra, after.traced performed, ?_, ?_, fun steps => ?_⟩
  · have htraced := hafter.trans (.traced after performed)
    rwa [List.append_nil] at htraced
  · rw [World.host_traced, hhost]
  · have hreflects := h.of_ran hsound hafter
    rw [← hreflects.performOnBase_eq _ table, ← Runtime.performOnBase_promised]
    unfold Runtime.askMirror
    rw [Run.fresh_bind]
    exact Run.bind_eq_of_eq (hsend steps) _

/--
A message to a mirage runs the overriding methods of its mirror, each once and
the nearest first, and then does on the mirage by default what it asks for.
-/
theorem send (h : world.Reflects host note message.op mirage mirror line) (hsound : world.Sound) :
    ∃ extra after,
      world.Ran (world.scopes (world.heap.interceptions message.op mirror line)) after ∧
      after.host = (world.heap.interceptions message.op mirror line).foldl
        (Interception.noted note) world.host ∧
      ∀ steps, (Runtime.ofFuel host (steps + extra)).send (.object mirage) message world =
        (Runtime.ofFuel host steps).performDefault mirage message after := by
  obtain ⟨body, hbound⟩ := h.bound
  let forwarded := world.traced (.forwarding message.op mirage)
  have hforwarded : world.Ran [] forwarded := .traced world _
  have hreflects := h.of_ran hsound hforwarded
  rcases h.line.search mirror with ⟨hnone, hroot⟩ | ⟨hsome, holder, method, hpasses, hsearch⟩
  · -- the mirror inherits the operation and is passed over
    let performed : Event := .performedDefault (Value.object (κ := κ) mirror).display message.op mirage
    rw [hnone]
    refine ⟨1, forwarded.traced performed, hforwarded.trans (.traced forwarded performed), ?_, ?_⟩
    · rw [World.host_traced, World.host_traced, List.foldl_nil]
    · intro steps
      have hinherits : world.Inherits message.op mirage mirror := ⟨h.bound, h.plain, hroot⟩
      rw [Runtime.send_mirage host steps hbound, Runtime.forward_eq_performOnBase hinherits _ ⟨0⟩,
        hreflects.performOnBase_eq]
  · -- the mirror overrides the operation and is asked
    obtain ⟨extra, after, hran, hhost, hask⟩ := hreflects.ask (hforwarded.sound hsound)
    rw [h.line.interceptions_of_ran hsound hforwarded] at hran hhost
    rw [hforwarded.mirrorRoot] at hran
    refine ⟨extra + 1, after, ?_, ?_, fun steps => ?_⟩
    · rw [World.scopes, if_neg (by rwa [List.isEmpty_iff])]
      exact hforwarded.trans hran
    · rw [hhost, World.host_traced]
    · have hheap : world.heap = forwarded.heap :=
        World.Affinity.heap_eq (World.Alike.traced world (.forwarding message.op mirage))
      rw [hheap] at hsearch
      have hnone := hreflects.defaultTarget?_eq_none (hforwarded.sound hsound) hpasses hsearch
        (Runtime.ofFuel host (steps + extra))
      rw [← Nat.add_assoc, Runtime.send_mirage host _ hbound, ← hask steps]
      unfold Runtime.forward
      rw [Run.mirrorOf_bind (Heap.get_eq_ok_iff.mpr hbound), Run.trace_bind, Run.bind_of_ok hnone]

end World.Reflects

/-! ## Chains of plain objects and mirages -/

/-- The runs of overriding methods to which a message to a node leads. -/
def World.interceptionsAt (world : World κ σ) (op : MetaOp) (lines : ObjectId → List ObjectId)
    (id : ObjectId) : List (Interception κ) :=
  match world.heap.node? id with
  | some (.mirage ⟨_, some mirror⟩) => world.heap.interceptions op mirror (lines id)
  | _ => []

/-- Each node is a plain object, or a mirage whose mirror is at the start of a line. -/
def World.Mirrored (host : Host κ σ) (note : κ → Value κ → σ → σ) (op : MetaOp) (world : World κ σ)
    (lines : ObjectId → List ObjectId) (ids : List ObjectId) : Prop :=
  ∀ id ∈ ids, (∃ body, world.heap.node? id = some (.object body)) ∨
    ∃ mirror, world.Reflects host note op id mirror (lines id)

/-- At each node in turn all interceptions have run, and nothing else. -/
structure World.Intercepted (note : κ → Value κ → σ → σ) (op : MetaOp) (before : World κ σ)
    (lines : ObjectId → List ObjectId) (ids : List ObjectId) (after : World κ σ) : Prop where
  ran : before.Ran (ids.flatMap fun id => before.scopes (before.interceptionsAt op lines id)) after
  host : after.host = (ids.flatMap (before.interceptionsAt op lines)).foldl
    (Interception.noted note) before.host

section

variable {host : Host κ σ} {note : κ → Value κ → σ → σ} {op : MetaOp} {u v w : World κ σ}
  {lines : ObjectId → List ObjectId} {id : ObjectId} {ids scopes : List ObjectId}

theorem World.interceptionsAt_of_object {body : PrototypeObject κ}
    (h : v.heap.node? id = some (.object body)) : v.interceptionsAt op lines id = [] := by
  rw [interceptionsAt, h]

theorem World.Reflects.interceptionsAt {mirror : ObjectId}
    (h : v.Reflects host note op id mirror (lines id)) :
    v.interceptionsAt op lines id = v.heap.interceptions op mirror (lines id) := by
  obtain ⟨body, hbody⟩ := h.bound
  rw [World.interceptionsAt, hbody]

namespace World.Mirrored

/-- Of the interceptions at distinct nodes, no two are the same. -/
theorem nodup_interceptions (h : v.Mirrored host note op lines ids) (hids : ids.Nodup) :
    (ids.flatMap (v.interceptionsAt op lines)).Nodup := by
  refine List.nodup_flatMap.mpr ⟨fun id hmem => ?_, hids.imp_of_mem ?_⟩
  · rcases h id hmem with ⟨body, hbody⟩ | ⟨mirror, hreflects⟩
    · rw [World.interceptionsAt_of_object hbody]
      exact List.nodup_nil
    · rw [hreflects.interceptionsAt]
      exact Heap.nodup_interceptions _ _ _ hreflects.line.chain.nodup.of_append_left
  · intro id other hid hother hdistinct
    rw [Function.onFun, List.disjoint_left]
    intro ran hran hran'
    rcases h id hid with ⟨body, hbody⟩ | ⟨mirror, hreflects⟩
    · rw [World.interceptionsAt_of_object hbody] at hran
      cases hran
    · rcases h other hother with ⟨body, hbody⟩ | ⟨mirror', hreflects'⟩
      · rw [World.interceptionsAt_of_object hbody] at hran'
        cases hran'
      · -- one mirror has one base
        rw [hreflects.interceptionsAt] at hran
        rw [hreflects'.interceptionsAt] at hran'
        obtain rfl := Heap.mirror_of_mem_interceptions hran
        have hmirror := Heap.mirror_of_mem_interceptions hran'
        rw [← hmirror] at hreflects'
        exact hdistinct (hreflects.unique hreflects')

theorem of_ran (h : v.Mirrored host note op lines ids) (hsound : v.Sound) (hran : v.Ran scopes w) :
    w.Mirrored host note op lines ids := by
  intro id hmem
  rcases h id hmem with ⟨body, hbody⟩ | ⟨mirror, hreflects⟩
  · exact .inl ⟨body, hran.keeps hsound id _ hbody⟩
  · exact .inr ⟨mirror, hreflects.of_ran hsound hran⟩

theorem interceptionsAt_of_ran (h : v.Mirrored host note op lines ids) (hsound : v.Sound)
    (hran : v.Ran scopes w) (hmem : id ∈ ids) :
    w.interceptionsAt op lines id = v.interceptionsAt op lines id := by
  rcases h id hmem with ⟨body, hbody⟩ | ⟨mirror, hreflects⟩
  · rw [World.interceptionsAt_of_object hbody,
      World.interceptionsAt_of_object (hran.keeps hsound id _ hbody)]
  · rw [hreflects.interceptionsAt, (hreflects.of_ran hsound hran).interceptionsAt,
      hreflects.line.interceptions_of_ran hsound hran]

end World.Mirrored

namespace World.Intercepted

theorem nil (v : World κ σ) : v.Intercepted note op lines [] v where
  ran := .withRest v v.supply v.log v.host
  host := rfl

/-- There are no interceptions at a plain object. -/
theorem of_object {body : PrototypeObject κ} (h : v.heap.node? id = some (.object body)) :
    v.Intercepted note op lines [id] v where
  ran := by
    rw [List.flatMap_singleton, interceptionsAt_of_object h]
    exact .withRest v v.supply v.log v.host
  host := by
    rw [List.flatMap_singleton, interceptionsAt_of_object h]
    rfl

/-- The interceptions at one node, and then those at others. -/
theorem cons (h : u.Intercepted note op lines [id] v) (h' : v.Intercepted note op lines ids w)
    (hsound : u.Sound) (hids : u.Mirrored host note op lines ids) :
    u.Intercepted note op lines (id :: ids) w := by
  have hsame : ∀ id ∈ ids, v.interceptionsAt op lines id = u.interceptionsAt op lines id :=
    fun id hmem => hids.interceptionsAt_of_ran hsound h.ran hmem
  have hscopes : (ids.flatMap fun id => v.scopes (v.interceptionsAt op lines id)) =
      ids.flatMap fun id => u.scopes (u.interceptionsAt op lines id) := by
    apply List.flatMap_congr
    intro id hmem
    rw [hsame id hmem, World.scopes, World.scopes, h.ran.mirrorRoot]
  have hran := h.ran.trans h'.ran
  rw [hscopes, ← List.flatMap_append] at hran
  constructor
  · exact hran
  · rw [h'.host, h.host, ← List.foldl_append, List.flatMap_congr hsame, ← List.flatMap_append]
    rfl

end World.Intercepted

/-- A message to a mirage: its interceptions run, and then what is done by default. -/
theorem World.Reflects.send_intercepted {mirror : ObjectId} {message : Message κ}
    (h : v.Reflects host note message.op id mirror (lines id)) (hsound : v.Sound) :
    ∃ extra after, v.Intercepted note message.op lines [id] after ∧
      ∀ steps, (Runtime.ofFuel host (steps + extra)).send (.object id) message v =
        (Runtime.ofFuel host steps).performDefault id message after := by
  obtain ⟨extra, after, hran, hhost, hsend⟩ := h.send hsound
  refine ⟨extra, after, ⟨?_, ?_⟩, hsend⟩
  · rwa [List.flatMap_singleton, h.interceptionsAt]
  · rwa [List.flatMap_singleton, h.interceptionsAt]

/-- The same for any node of the chain. -/
theorem World.Mirrored.send {message : Message κ}
    (h : v.Mirrored host note message.op lines [id]) (hsound : v.Sound) :
    ∃ extra after, v.Intercepted note message.op lines [id] after ∧
      ∀ steps, (Runtime.ofFuel host (steps + extra)).send (.object id) message v =
        (Runtime.ofFuel host steps).performDefault id message after := by
  rcases h id (List.mem_singleton_self id) with ⟨body, hbody⟩ | ⟨mirror, hreflects⟩
  · exact ⟨1, v, .of_object hbody, fun steps => Runtime.send_plain host steps hbody message⟩
  · exact hreflects.send_intercepted hsound

end

/-! ## Walks along such chains -/

namespace Walk.Performs

variable {host : Host κ σ} {note : κ → Value κ → σ → σ} {walk : Walk κ σ α} {world : World κ σ}
  {lines : ObjectId → List ObjectId} {id next holder : ObjectId} {slot : Slot κ}
  {ahead ids : List ObjectId}

/-- A walk at a node before a plain object does what it does at that object. -/
theorem redispatched_of_plain (walk : Walk κ σ α) {body : PrototypeObject κ}
    (hchain : world.heap.Chain (.object id) (id :: next :: ids))
    (hrest : world.heap.Chain (.object next) (next :: ids))
    (hnext : world.heap.node? next = some (.object body))
    (hslot : world.heap.slot? walk.selector id = none)
    (hnearest : world.heap.Nearest walk.selector next ahead holder slot) (rt : Runtime κ σ) :
    walk.redispatched rt id world = walk.redispatched rt next world := by
  have hpresent := hnearest.searchDynamic_ne_absent hrest
  unfold Walk.redispatched
  rw [Run.searchDynamic_bind, Run.searchDynamic_bind, hchain.searchDynamic_of_plain hnext hslot]
  cases hsearch : world.heap.searchDynamic next walk.selector with
  | error reason => rfl
  | ok resolution =>
    cases resolution with
    | found holder slot => rfl
    | delegate parent => rfl
    | absent => exact absurd hsearch hpresent

/-- A walk at a node before a mirage sends the mirage its message. -/
theorem redispatched_of_mirage (hwalk : walk.Performs) {mirage : Mirage κ} {middle : World κ σ}
    (hchain : world.heap.Chain (.object id) (id :: next :: ids))
    (hnext : world.heap.node? next = some (.mirage mirage))
    (hslot : world.heap.slot? walk.selector id = none) {rt rt' : Runtime κ σ}
    (hsend : rt.send (.object next) walk.message world =
      rt'.performDefault next walk.message middle) :
    walk.redispatched rt id world = walk.inPlace rt' next middle := by
  rw [← hwalk.inPlace_receive]
  unfold Walk.redispatched
  rw [Run.searchDynamic_bind, hchain.searchDynamic_of_mirage hnext hslot]
  show (rt.send (.object next) walk.message >>= walk.receive) world = _
  exact Run.bind_eq_of_eq hsend walk.receive

/--
A walk from a node of a chain does at the nearest slot what it does at a slot
it finds, after the interceptions at the nodes ahead of the first one.
-/
theorem inPlace_along (hwalk : walk.Performs) (hsound : world.Sound)
    (hchain : world.heap.Chain (.object id) ids)
    (hnearest : world.heap.Nearest walk.selector id ahead holder slot)
    (hmirrored : world.Mirrored host note walk.message.op lines ahead) :
    ∃ after, world.Intercepted note walk.message.op lines ahead after ∧
      Run.SameOutcome (fun n => walk.inPlace (.ofFuel host n) id) world
        (fun n => walk.found (.ofFuel host n) holder slot) after := by
  induction ahead generalizing id world ids with
  | nil =>
    cases hnearest with
    | here hslot =>
      have hloop := hwalk.inPlace_same_redispatched host world holder
      refine ⟨world, .nil world, hloop.trans (.of_eq fun n => ?_)⟩
      unfold Walk.redispatched
      rw [Run.searchDynamic_bind, Heap.searchDynamic_of_slot hslot]
      rfl
  | cons next ahead ih =>
    cases hnearest with
    | further hnode hslot hparent hnearest =>
      have hloop := hwalk.inPlace_same_redispatched host world
      obtain ⟨more, rfl, hrest⟩ := hchain.next hnode hparent
      have hahead : world.Mirrored host note walk.message.op lines ahead :=
        fun later hmem => hmirrored later (List.mem_cons_of_mem next hmem)
      rcases hmirrored next (List.mem_cons_self ..) with ⟨body, hbody⟩ | ⟨mirror, hreflects⟩
      · -- the search comes past a plain object
        obtain ⟨after, hintercepted, hsame⟩ := ih hsound hrest hnearest hahead
        refine ⟨after, (World.Intercepted.of_object hbody).cons hintercepted hsound hahead, ?_⟩
        have hplain : Run.SameOutcome (fun n => walk.redispatched (.ofFuel host n) id) world
            (fun n => walk.redispatched (.ofFuel host n) next) world :=
          .of_eq fun n => redispatched_of_plain walk hchain hrest hbody hslot hnearest _
        exact (hloop id).trans (hplain.trans ((hloop next).symm.trans hsame))
      · -- the search stops at a mirage, which is sent the message
        obtain ⟨extra, middle, hat, hsend⟩ := hreflects.send_intercepted hsound
        obtain ⟨mirage, hmirage⟩ := hreflects.bound
        have hkeeps := hat.ran.keeps hsound
        obtain ⟨after, hintercepted, hsame⟩ := ih (hat.ran.sound hsound) (hrest.of_keeps hkeeps)
          (hnearest.of_keeps hkeeps) (hahead.of_ran hsound hat.ran)
        refine ⟨after, hat.cons hintercepted hsound hahead, ?_⟩
        have hmono : ∀ n m, n ≤ m → Run.Below World.Alike (walk.redispatched (.ofFuel host n) id)
            (walk.redispatched (.ofFuel host m) id) :=
          fun n m hle => walk.redispatched_below (Runtime.ofFuel_below host hle) id
        have hasked : Run.SameOutcome (fun n => walk.redispatched (.ofFuel host n) id) world
            (fun n => walk.inPlace (.ofFuel host n) next) middle :=
          .of_eq_shift hmono extra fun n =>
            hwalk.redispatched_of_mirage hchain hmirage hslot (hsend n)
        exact (hloop id).trans (hasked.trans hsame)

end Walk.Performs

/-- The four operations that walk along dynamic parents. -/
inductive Walk.Operation : {α : Type} → Walk κ σ α → Prop
  | invoke (receiver : Value κ) (selector : Symbol) (arguments : List (Value κ)) :
      Operation (.invoke receiver selector arguments)
  | select (receiver : Value κ) (selector : Symbol) : Operation (.select receiver selector)
  | assignField (selector : Symbol) (value : Value κ) : Operation (.assignField selector value)
  | respondsTo (selector : Symbol) : Operation (.respondsTo selector)

theorem Walk.Operation.performs {walk : Walk κ σ α} (h : walk.Operation) : walk.Performs := by
  cases h with
  | invoke receiver selector arguments => exact performs_invoke receiver selector arguments
  | select receiver selector => exact performs_select receiver selector
  | assignField selector value => exact performs_assignField selector value
  | respondsTo selector => exact performs_respondsTo selector

/--
An operation at the bottom of a chain of plain objects and mirages does, at the
slot that is nearest by the chain alone, what it does at a slot it finds, after
all overriding methods for the mirages up to the holder of the slot have run,
each once, and no other method.
-/
theorem Walk.interception_exactly_once (host : Host κ σ) (note : κ → Value κ → σ → σ)
    {walk : Walk κ σ α} (hwalk : walk.Operation) {world : World κ σ} (hsound : world.Sound)
    {bottom : ObjectId} {ids : List ObjectId} (hchain : world.heap.Chain (.object bottom) ids)
    {lines : ObjectId → List ObjectId}
    (hmirrored : world.Mirrored host note walk.message.op lines ids)
    (hheld : ∃ id ∈ ids, world.heap.slot? walk.selector id ≠ none) :
    ∃ ahead holder slot after, bottom :: ahead <+: ids ∧
      world.heap.Nearest walk.selector bottom ahead holder slot ∧
      world.Intercepted note walk.message.op lines (bottom :: ahead) after ∧
      ((bottom :: ahead).flatMap (world.interceptionsAt walk.message.op lines)).Nodup ∧
      Run.SameOutcome (fun n => (Runtime.ofFuel host n).send (.object bottom) walk.message) world
        (fun n => walk.answer <$> walk.found (.ofFuel host n) holder slot) after := by
  obtain ⟨ahead, holder, slot, hnearest, hfront⟩ := hchain.exists_nearest hheld
  have hreached : world.Mirrored host note walk.message.op lines (bottom :: ahead) :=
    fun id hmem => hmirrored id (hfront.subset hmem)
  have hahead : world.Mirrored host note walk.message.op lines ahead :=
    fun id hmem => hreached id (List.mem_cons_of_mem bottom hmem)
  have hbottom : world.Mirrored host note walk.message.op lines [bottom] := by
    intro id hmem
    obtain rfl := List.mem_singleton.mp hmem
    exact hreached id (List.mem_cons_self ..)
  obtain ⟨extra, middle, hat, hsend⟩ := hbottom.send hsound
  have hkeeps := hat.ran.keeps hsound
  obtain ⟨after, hintercepted, hsame⟩ := hwalk.performs.inPlace_along (hat.ran.sound hsound)
    (hchain.of_keeps hkeeps) (hnearest.of_keeps hkeeps) (hahead.of_ran hsound hat.ran)
  refine ⟨ahead, holder, slot, after, hfront, hnearest, hat.cons hintercepted hsound hahead,
    hreached.nodup_interceptions (hchain.nodup.sublist hfront.sublist), ?_⟩
  have hsent : Run.SameOutcome
      (fun n => (Runtime.ofFuel host n).send (.object bottom) walk.message) world
      (fun n => walk.answer <$> walk.inPlace (.ofFuel host n) bottom) middle := by
    apply Run.SameOutcome.of_eq_shift _ extra
    · intro n
      rw [hsend, hwalk.performs.inPlace]
    · intro n m hle
      exact (Runtime.ofFuel_below host hle).send (.object bottom) walk.message
  exact hsent.trans (hsame.map walk.answer)

/-- Host code that counts and sends selections on. -/
private def counting : Host Unit Nat where
  program _ context arguments :=
    .remember (· + 1) (.superSend context MetaOp.select.selector arguments)

/--
A chain from a plain object at index 5 by way of a mirage at index 3 to the
object at index 2, which has a field `x`; at index 4 the mirage's mirror.
-/
private def counted : World Unit Nat :=
  let world : World Unit Nat := World.new default 0
  let plain : PrototypeObject Unit :=
    { slots := Storage.empty ⟨100⟩
      dynamicParent := .object ⟨3⟩
      lexicalParent := none
      link := .isA
      typeTags := []
      family := ⟨3⟩
      flags := .none }
  let holder : PrototypeObject Unit :=
    { plain with
      slots :=
        { Storage.empty ⟨101⟩ with
          fields := [{ name := ⟨"x"⟩, writable := true, value := .nil }] }
      dynamicParent := .nil }
  let mirror : PrototypeObject Unit :=
    { plain with
      slots :=
        { Storage.empty ⟨102⟩ with
          fields := [{ name := Selector.base, writable := false, value := .object ⟨3⟩ }]
          methods :=
            [{ identity := ⟨103⟩
               name := MetaOp.select.selector
               parameters := [.rest ⟨"arguments"⟩]
               body := .host () }] }
      dynamicParent := .object world.mirrorRoot }
  let nodes : List (Node Unit) :=
    [.object holder, .mirage ⟨{ plain with dynamicParent := .object ⟨2⟩ }, some ⟨4⟩⟩,
      .object mirror, .object plain]
  { world with heap := nodes.foldl (fun heap node => (heap.allocate node).2) world.heap }

private theorem sound_counted : counted.Sound where
  free := ((((World.sound_new default 0).free.allocate _).allocate _).allocate _).allocate _
  defaults := ⟨3, rfl⟩

private theorem chain_counted : counted.heap.Chain (.object ⟨5⟩) [⟨5⟩, ⟨3⟩, ⟨2⟩] :=
  .cons rfl rfl (.cons rfl rfl (.cons rfl rfl .nil))

private theorem reflects_counted :
    counted.Reflects counting (fun _ _ => (· + 1)) .select ⟨3⟩ ⟨4⟩ [⟨4⟩] where
  bound := ⟨_, rfl⟩
  line :=
    { chain := .cons rfl rfl (.cons rfl rfl .nil)
      plain := by
        intro id hmem
        rcases List.mem_cons.mp hmem with rfl | hmem
        · exact ⟨_, rfl⟩
        · obtain rfl := List.mem_singleton.mp hmem
          exact ⟨_, rfl⟩
      overriding := by
        intro id hmem slot hslot
        obtain rfl := List.mem_singleton.mp hmem
        cases hslot
        exact ⟨_, rfl, .noting rfl fun _ _ => rfl, rfl, rfl⟩
      inherited := ⟨_, rfl, rfl⟩ }
  base := ⟨⟨4⟩, _, 0, false, rfl, rfl, rfl⟩

private theorem mirrored_counted :
    counted.Mirrored counting (fun _ _ => (· + 1)) .select (fun _ => [⟨4⟩]) [⟨5⟩, ⟨3⟩, ⟨2⟩] := by
  intro id hmem
  rcases List.mem_cons.mp hmem with rfl | hmem
  · exact .inl ⟨_, rfl⟩
  · rcases List.mem_cons.mp hmem with rfl | hmem
    · exact .inr ⟨⟨4⟩, reflects_counted⟩
    · obtain rfl := List.mem_singleton.mp hmem
      exact .inl ⟨_, rfl⟩

private theorem nearest_counted :
    counted.heap.Nearest ⟨"x"⟩ ⟨5⟩ [⟨3⟩, ⟨2⟩] ⟨2⟩ (.field 0 true) :=
  .further rfl rfl rfl (.further rfl rfl rfl (.here rfl))

/-- To select `x` at the bottom is to be counted once, and then to select the field at its holder. -/
theorem Walk.interception_exactly_once_select :
    counted.Sound ∧ counted.heap.Chain (.object ⟨5⟩) [⟨5⟩, ⟨3⟩, ⟨2⟩] ∧
      counted.Mirrored counting (fun _ _ => (· + 1)) .select (fun _ => [⟨4⟩]) [⟨5⟩, ⟨3⟩, ⟨2⟩] ∧
      (∃ id ∈ [⟨5⟩, ⟨3⟩, ⟨2⟩], counted.heap.slot? ⟨"x"⟩ id ≠ none) ∧
      ∃ after, after.host = counted.host + 1 ∧
        Run.SameOutcome
          (fun n => (Runtime.ofFuel counting n).send (.object ⟨5⟩) (.select (.object ⟨5⟩) ⟨"x"⟩))
          counted
          (fun _ => Runtime.selectSlot ⟨2⟩ (.field 0 true) (.object ⟨5⟩) ⟨"x"⟩) after := by
  have hheld : ∃ id ∈ [⟨5⟩, ⟨3⟩, ⟨2⟩], counted.heap.slot? ⟨"x"⟩ id ≠ none :=
    ⟨⟨2⟩, by decide, fun hnone => nomatch hnone⟩
  refine ⟨sound_counted, chain_counted, mirrored_counted, hheld, ?_⟩
  obtain ⟨ahead, holder, slot, after, _, hnearest, hintercepted, _, hsame⟩ :=
    interception_exactly_once counting (fun _ _ => (· + 1)) (.select (.object ⟨5⟩) ⟨"x"⟩)
      sound_counted chain_counted mirrored_counted hheld
  obtain ⟨rfl, rfl, rfl⟩ := hnearest.unique nearest_counted
  refine ⟨after, hintercepted.host, ?_⟩
  simpa only [Walk.select, id_map'] using hsame

end Prototypes
