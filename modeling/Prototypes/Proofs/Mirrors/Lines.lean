import Prototypes.Proofs.Delegation.Redispatch
import Prototypes.Proofs.Mirrors.MetaSend

/-!
# Mirrors that pass operations on

A mirror may override an operation by methods that do nothing but send the
operation's message on to the super view, the host taking note of each.  The
dynamic chain of such a mirror is a line of plain objects that ends in the
mirror root, each of which either has such a method or none (`World.Line`);
the methods it has are its interceptions (`Heap.interceptions`).

A message sent to the first object of a line runs the methods of the line, each
once and the nearest first, and then the mirror root's own; what remains of
them are their frames.  So a mirror that is asked does in the end what a mirror
does that is passed over.

## Main results

* `Method.PassesOn`, `World.Line` — methods that pass on, and chains of them.
* `World.Line.send` — a message sent along a line, by induction on the line.
-/

namespace Prototypes

variable {κ σ α : Type}

/-! ## Methods that pass on -/

/--
A method for `op` that only sends the operation's message on with the arguments
it received: as host code, of which the host may take note, or as a built-in
body.
-/
inductive Method.PassesOn (host : Host κ σ) (note : κ → Value κ → σ → σ) (op : MetaOp)
    (method : Method κ) : Prop
  | silent {code : κ} : method.body = .host code →
      (∀ receiver memory, note code receiver memory = memory) →
      (∀ context arguments, host.program code context arguments =
        .superSend context op.selector arguments) → PassesOn host note op method
  | noting {code : κ} : method.body = .host code →
      (∀ context arguments, host.program code context arguments =
        .remember (note code context.receiver) (.superSend context op.selector arguments)) →
      PassesOn host note op method
  | resend : method.body = .builtin (.resend op.selector) → PassesOn host note op method

/-- What the host remembers after a run of the method for a receiver. -/
def Method.noted (note : κ → Value κ → σ → σ) (receiver : Value κ) (memory : σ)
    (method : Method κ) : σ :=
  match method.body with
  | .host code => note code receiver memory
  | _ => memory

/-- No default answer passes on. -/
theorem MetaOp.not_passesOn_defaultMethod (host : Host κ σ) (note : κ → Value κ → σ → σ)
    (op : MetaOp) (identity : Identity) : ¬ (op.defaultMethod identity).PassesOn host note op := by
  rintro (⟨hbody, -, -⟩ | ⟨hbody, -⟩ | hbody) <;> cases hbody

/-- A program that sends on to the super view does what the message does. -/
theorem Program.run_superSend (rt : Runtime κ σ) (context : Context κ) (selector : Symbol)
    (arguments : List (Value κ)) :
    (superSend context selector arguments).run rt =
      rt.send context.superView (.invoke context.receiver selector arguments) := by
  funext world
  simp only [superSend, send, ask, run, Request.run]
  cases rt.send context.superView (.invoke context.receiver selector arguments) world with
  | ok answer after => rfl
  | error reason after => cases reason <;> rfl

/-- Running a method that passes on takes note of it and sends the message on. -/
theorem Method.PassesOn.runMethod {host : Host κ σ} {note : κ → Value κ → σ → σ} {op : MetaOp}
    {method : Method κ} (h : method.PassesOn host note op) (rt : Runtime κ σ) (context : Context κ)
    (arguments : List (Value κ)) (world : World κ σ) :
    rt.runMethod host method context arguments world =
      rt.send context.superView (.invoke context.receiver op.selector arguments)
        { world with host := method.noted note context.receiver world.host } := by
  unfold Runtime.runMethod Method.noted
  cases h with
  | silent hbody hnote hprogram =>
    rw [hbody]
    dsimp only
    rw [hprogram, hnote, Program.run_superSend]
  | noting hbody hprogram =>
    rw [hbody]
    dsimp only
    rw [hprogram, ← Program.run_superSend]
    rfl
  | resend hbody =>
    rw [hbody]
    rfl

/-! ## Lines of overriding mirrors -/

/-- A run of an overriding method: for which mirror, and the object that holds the method. -/
structure Interception (κ : Type) where
  mirror : ObjectId
  holder : ObjectId
  method : Method κ

/-- What the host remembers after the run. -/
def Interception.noted (note : κ → Value κ → σ → σ) (memory : σ) (ran : Interception κ) : σ :=
  ran.method.noted note (.object ran.mirror) memory

/-- The methods that override an operation for a mirror in a line, the nearest first. -/
def Heap.interceptions (heap : Heap κ) (op : MetaOp) (mirror : ObjectId) (line : List ObjectId) :
    List (Interception κ) :=
  line.filterMap fun id =>
    match heap.slot? op.selector id with
    | some (.method method) => some ⟨mirror, id, method⟩
    | _ => none

theorem Heap.interceptions_cons_method {heap : Heap κ} {op : MetaOp} {mirror id : ObjectId}
    {method : Method κ} (h : heap.slot? op.selector id = some (.method method))
    (line : List ObjectId) : heap.interceptions op mirror (id :: line) =
      ⟨mirror, id, method⟩ :: heap.interceptions op mirror line :=
  List.filterMap_cons_some (by rw [h])

theorem Heap.interceptions_cons_none {heap : Heap κ} {op : MetaOp} {mirror id : ObjectId}
    (h : heap.slot? op.selector id = none) (line : List ObjectId) :
    heap.interceptions op mirror (id :: line) = heap.interceptions op mirror line :=
  List.filterMap_cons_none (by rw [h])

theorem Heap.mirror_of_mem_interceptions {heap : Heap κ} {op : MetaOp} {mirror : ObjectId}
    {line : List ObjectId} {ran : Interception κ} (h : ran ∈ heap.interceptions op mirror line) :
    ran.mirror = mirror := by
  obtain ⟨id, _, hran⟩ := List.mem_filterMap.mp h
  split at hran
  · cases hran
    rfl
  · cases hran

/-- In a line without repetition no method is met twice. -/
theorem Heap.nodup_interceptions (heap : Heap κ) (op : MetaOp) (mirror : ObjectId)
    {line : List ObjectId} (h : line.Nodup) : (heap.interceptions op mirror line).Nodup := by
  apply h.filterMap
  intro id other ran hid hother
  split at hid
  · split at hother
    · cases hid
      cases hother
      rfl
    · cases hother
  · cases hid

/--
The chain of a value consists of plain objects, first `line`, each of which
passes the operation on or lacks it, and at its end the mirror root, which has
its own method for the operation.
-/
structure World.Line (host : Host κ σ) (note : κ → Value κ → σ → σ) (op : MetaOp)
    (world : World κ σ) (value : Value κ) (line : List ObjectId) : Prop where
  chain : world.heap.Chain value (line ++ [world.mirrorRoot])
  plain : ∀ id ∈ line ++ [world.mirrorRoot], ∃ body, world.heap.node? id = some (.object body)
  overriding : ∀ id ∈ line, ∀ slot, world.heap.slot? op.selector id = some slot →
    ∃ method, slot = .method method ∧ method.PassesOn host note op ∧
      method.Accepts op.parameters.length
  inherited : ∃ method, world.mirrorDefaults[op.index]? = some method ∧
    world.heap.slot? op.selector world.mirrorRoot = some (.method method)

namespace World.Line

variable {host : Host κ σ} {note : κ → Value κ → σ → σ} {op : MetaOp} {v w : World κ σ}
  {value : Value κ} {id : ObjectId} {line scopes : List ObjectId}

theorem of_ran (h : v.Line host note op value line) (hsound : v.Sound) (hran : v.Ran scopes w) :
    w.Line host note op value line := by
  have hkeeps := hran.keeps hsound
  have hslot : ∀ id ∈ line ++ [v.mirrorRoot],
      w.heap.slot? op.selector id = v.heap.slot? op.selector id :=
    fun id hmem => h.chain.slot?_of_keeps hkeeps op.selector hmem
  constructor
  · rw [hran.mirrorRoot]
    exact h.chain.of_keeps hkeeps
  · rw [hran.mirrorRoot]
    intro id hmem
    obtain ⟨body, hbody⟩ := h.plain id hmem
    exact ⟨body, hkeeps id _ hbody⟩
  · intro id hmem slot hid
    rw [hslot id (List.mem_append_left _ hmem)] at hid
    exact h.overriding id hmem slot hid
  · rw [hran.mirrorRoot, hran.mirrorDefaults,
      hslot v.mirrorRoot (List.mem_append_right _ (List.mem_singleton_self _))]
    exact h.inherited

theorem interceptions_of_ran (h : v.Line host note op value line) (hsound : v.Sound)
    (hran : v.Ran scopes w) (mirror : ObjectId) :
    w.heap.interceptions op mirror line = v.heap.interceptions op mirror line := by
  unfold Heap.interceptions
  apply List.filterMap_congr
  intro id hmem
  rw [h.chain.slot?_of_keeps (hran.keeps hsound) op.selector (List.mem_append_left _ hmem)]

/-- The method at the end of a line is the mirror root's own and does not pass on. -/
theorem ne_mirrorRoot_of_passesOn (h : v.Line host note op value line) (hsound : v.Sound)
    {method : Method κ} (hslot : v.heap.slot? op.selector id = some (.method method))
    (hpasses : method.PassesOn host note op) : id ≠ v.mirrorRoot := by
  rintro rfl
  obtain ⟨inherited, hdefault, hroot⟩ := h.inherited
  cases hslot.symm.trans hroot
  obtain ⟨identity, rfl⟩ := hsound.eq_defaultMethod hdefault
  exact op.not_passesOn_defaultMethod host note identity hpasses

/-- A line of one object more is an object whose parent starts a line. -/
theorem tail (h : v.Line host note op value (id :: line)) :
    ∃ body, value = .object id ∧ v.heap.node? id = some (.object body) ∧
      v.Line host note op body.dynamicParent line := by
  obtain ⟨body, hbody⟩ := h.plain id (List.mem_cons_self ..)
  have hchain := h.chain
  rw [List.cons_append] at hchain
  cases hchain with
  | cons hnode _ hrest =>
    obtain rfl := Option.some.inj (hbody.symm.trans hnode)
    exact ⟨body, rfl, hbody, hrest, fun other hmem => h.plain other (List.mem_cons_of_mem _ hmem),
      fun other hmem => h.overriding other (List.mem_cons_of_mem _ hmem), h.inherited⟩

/-- A line starts with a plain object. -/
theorem exists_first (h : v.Line host note op value line) :
    ∃ id ids body, value = .object id ∧ line ++ [v.mirrorRoot] = id :: ids ∧
      v.heap.node? id = some (.object body) := by
  cases line with
  | nil =>
    obtain ⟨body, hbody⟩ := h.plain v.mirrorRoot (List.mem_cons_self ..)
    have hchain := h.chain
    cases hchain with
    | cons _ _ _ => exact ⟨v.mirrorRoot, [], body, rfl, rfl, hbody⟩
  | cons id line =>
    obtain ⟨body, hvalue, hbody, _⟩ := h.tail
    exact ⟨id, line ++ [v.mirrorRoot], body, hvalue, rfl, hbody⟩

/-- An object of the line without a method of its own is passed by searches. -/
theorem exists_next (h : v.Line host note op value (id :: line))
    (hslot : v.heap.slot? op.selector id = none) :
    ∃ body next nextBody, value = .object id ∧ v.heap.node? id = some (.object body) ∧
      v.heap.node? next = some (.object nextBody) ∧ v.Line host note op (.object next) line ∧
      v.heap.searchDynamic id op.selector = v.heap.searchDynamic next op.selector := by
  obtain ⟨body, rfl, hbody, hrest⟩ := h.tail
  obtain ⟨next, ids, nextBody, hnext, hids, hnextBody⟩ := hrest.exists_first
  have hchain := h.chain
  rw [List.cons_append, hids] at hchain
  rw [hnext] at hrest
  exact ⟨body, next, nextBody, rfl, hbody, hnextBody, hrest,
    hchain.searchDynamic_of_plain hnextBody hslot⟩

/-- A search along a line ends at a method that passes on, or if there is none at the mirror root. -/
theorem search (h : v.Line host note op (.object id) line) (mirror : ObjectId) :
    (v.heap.interceptions op mirror line = [] ∧ ∃ method, v.mirrorDefaults[op.index]? = some method ∧
      v.heap.searchDynamic id op.selector = .ok (.found v.mirrorRoot (.method method))) ∨
    v.heap.interceptions op mirror line ≠ [] ∧ ∃ holder method, method.PassesOn host note op ∧
      v.heap.searchDynamic id op.selector = .ok (.found holder (.method method)) := by
  induction line generalizing id with
  | nil =>
    obtain ⟨method, hmethod, hslot⟩ := h.inherited
    have hchain := h.chain
    cases hchain with
    | cons _ _ _ => exact .inl ⟨rfl, method, hmethod, Heap.searchDynamic_of_slot hslot⟩
  | cons first line ih =>
    cases hslot : v.heap.slot? op.selector first with
    | some slot =>
      obtain ⟨method, rfl, hpasses, _⟩ := h.overriding first (List.mem_cons_self ..) slot hslot
      obtain ⟨body, hvalue, _⟩ := h.tail
      cases hvalue
      refine .inr ⟨?_, first, method, hpasses, Heap.searchDynamic_of_slot hslot⟩
      rw [Heap.interceptions_cons_method hslot]
      exact List.cons_ne_nil _ _
    | none =>
      obtain ⟨body, next, nextBody, hvalue, _, _, hrest, hsearch⟩ := h.exists_next hslot
      cases hvalue
      rw [hsearch, Heap.interceptions_cons_none hslot]
      exact ih hrest

end World.Line

/-! ## Messages along a line -/

namespace Runtime

/-- Plain objects from which a search ends alike do the same with a message. -/
theorem send_congr_search (host : Host κ σ) (steps : Nat) {world : World κ σ} {id next : ObjectId}
    {body nextBody : PrototypeObject κ} {selector : Symbol}
    (hid : world.heap.node? id = some (.object body))
    (hnext : world.heap.node? next = some (.object nextBody))
    (hsearch : world.heap.searchDynamic id selector = world.heap.searchDynamic next selector)
    (receiver : Value κ) (arguments : List (Value κ)) :
    (ofFuel host steps).send (.object id) (.invoke receiver selector arguments) world =
      (ofFuel host steps).send (.object next) (.invoke receiver selector arguments) world := by
  cases steps with
  | zero => rfl
  | succ steps =>
    rw [send_plain host steps hid, send_plain host steps hnext]
    show (ofFuel host steps).defaultInvoke id receiver selector arguments world =
      (ofFuel host steps).defaultInvoke next receiver selector arguments world
    rw [Walk.defaultInvoke_eq, Walk.defaultInvoke_eq]
    unfold Walk.inPlace resolve
    rw [fuel_ofFuel]
    cases steps with
    | zero => rfl
    | succ steps =>
      rw [Walk.resolveFrom_succ, Walk.resolveFrom_succ, Run.searchDynamic_bind,
        Run.searchDynamic_bind]
      dsimp only [Walk.invoke]
      rw [hsearch]
      cases world.heap.searchDynamic next selector with
      | error reason => rfl
      | ok resolution => cases resolution <;> rfl

end Runtime

section

variable {host : Host κ σ} {note : κ → Value κ → σ → σ} {op : MetaOp} {world : World κ σ}

/--
A message sent along a line for a mirror runs its overriding methods, each once
and the nearest first, and ends with the mirror root's method, which performs
the operation on the mirror's base.
-/
theorem World.Line.send {value : Value κ} {line : List ObjectId}
    (h : world.Line host note op value line) (hsound : world.Sound) (mirror : ObjectId)
    {arguments : List (Value κ)} (hcount : arguments.length = op.parameters.length) :
    ∃ extra after,
      world.Ran ((world.heap.interceptions op mirror line).map Interception.holder ++
        [world.mirrorRoot]) after ∧
      after.host = (world.heap.interceptions op mirror line).foldl (Interception.noted note)
        world.host ∧
      ∀ steps, (Runtime.ofFuel host (steps + extra)).send value
          (.invoke (.object mirror) op.selector arguments) world =
        (Runtime.ofFuel host steps).performOnBase op (.object mirror) arguments after := by
  induction line generalizing world value with
  | nil =>
    obtain ⟨method, hmethod, hslot⟩ := h.inherited
    obtain ⟨identity, rfl⟩ := hsound.eq_defaultMethod hmethod
    obtain ⟨body, hbody⟩ := h.plain world.mirrorRoot (List.mem_cons_self ..)
    have hchain := h.chain
    cases hchain with
    | cons _ _ _ =>
      let bindings := Method.pair ⟨world.supply⟩ (op.defaultMethod identity : Method κ).parameters
        arguments
      refine ⟨2, world.enter world.mirrorRoot bindings, .enter world _ bindings, rfl, ?_⟩
      intro steps
      exact Runtime.send_method host steps hsound (.object mirror) hbody
        (Heap.searchDynamic_of_slot hslot) hbody (op.accepts_defaultMethod identity hcount)
  | cons id line ih =>
    cases hslot : world.heap.slot? op.selector id with
    | some slot =>
      -- the object overrides the operation: its method runs, and sends on to the rest of the line
      obtain ⟨method, rfl, hpasses, haccepts⟩ := h.overriding id (List.mem_cons_self ..) slot hslot
      obtain ⟨body, rfl, hbody, hrest⟩ := h.tail
      rw [← hcount] at haccepts
      let entered := world.enter id (Method.pair ⟨world.supply⟩ method.parameters arguments)
      let noted :=
        { entered with host := method.noted note (.object mirror) entered.host }
      have hnoted : world.Ran [id] noted :=
        (World.Ran.enter world id _).trans (.withRest entered entered.supply entered.log _)
      obtain ⟨extra, after, hran, hhost, hsend⟩ :=
        ih (hrest.of_ran hsound hnoted) (hnoted.sound hsound)
      rw [hrest.interceptions_of_ran hsound hnoted] at hran hhost
      refine ⟨extra + 2, after, ?_, ?_, fun steps => ?_⟩
      · rw [Heap.interceptions_cons_method hslot]
        exact hnoted.trans hran
      · rw [Heap.interceptions_cons_method hslot, List.foldl_cons, hhost]
        rfl
      · rw [← hsend steps]
        have hstep := Runtime.send_method host (steps + extra) hsound (.object mirror) hbody
          (Heap.searchDynamic_of_slot hslot) hbody haccepts
        rw [hpasses.runMethod] at hstep
        exact hstep
    | none =>
      obtain ⟨body, next, nextBody, rfl, hbody, hnext, hrest, hsearch⟩ := h.exists_next hslot
      obtain ⟨extra, after, hran, hhost, hsend⟩ := ih hrest hsound
      rw [Heap.interceptions_cons_none hslot]
      refine ⟨extra, after, hran, hhost, fun steps => ?_⟩
      rw [← hsend steps]
      exact Runtime.send_congr_search host _ hbody hnext hsearch (.object mirror) arguments

end

end Prototypes
