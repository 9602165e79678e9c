import Prototypes.Proofs.Delegation.Selecting
import Prototypes.Proofs.Scopes.Lookups

/-!
# Applying binds exactly the arguments

The parameters of a method have been checked when it was made: their names are distinct, and
only the last of them may collect the rest.  So once the number of arguments is accepted there
is an argument for every parameter and none is left over, and no name is bound twice.  What
the body then finds in its frame are the arguments, and behind them whatever can be seen from
the scope that the closure has captured.

## Main results

* `Method.given?` — the arguments, read off bindings.
* `Method.pair_of_accepts` — a method that accepts its arguments binds exactly these.
* `World.Opens` — the heap has one new frame.
* `Runtime.apply_binds_exactly` — all of it, for every closure over a method that was made.
-/

namespace Prototypes

variable {κ σ : Type}

/-! ## Parameters and arguments -/

theorem Arity.accepts_exact_iff {required count : Nat} :
    (exact required).accepts count = true ↔ count = required :=
  decide_eq_true_iff

theorem Arity.accepts_atLeast_iff {required count : Nat} :
    (atLeast required).accepts count = true ↔ required ≤ count :=
  decide_eq_true_iff

/-- A required parameter takes one argument more. -/
theorem Parameter.accepts_required_iff (name : Symbol) (more : List Parameter) (count : Nat) :
    (listArity (.required name :: more)).accepts count = true ↔
      ∃ behind, count = behind + 1 ∧ (listArity more).accepts behind = true := by
  have hexact (required : Nat) : count = required + 1 ↔
      ∃ behind, count = behind + 1 ∧ behind = required := by simp
  cases more with
  | nil => simpa only [listArity, List.getLast?_nil, List.getLast?_singleton, List.length_cons,
      List.length_nil, Arity.accepts_exact_iff] using hexact 0
  | cons parameter more =>
    simp only [listArity, List.getLast?_cons_cons, List.length_cons, Nat.add_sub_cancel]
    match (parameter :: more).getLast? with
    | none => simpa only [Arity.accepts_exact_iff] using hexact (more.length + 1)
    | some (.required _) => simpa only [Arity.accepts_exact_iff] using hexact (more.length + 1)
    | some (.rest _) =>
      simp only [Arity.accepts_atLeast_iff]
      exact ⟨fun h => ⟨count - 1, by omega, by omega⟩, fun ⟨behind, hcount, h⟩ => by omega⟩

namespace Method

/--
The values bound to required parameters, and then the members of a collecting one's table.  They
are read off only if each parameter has a binding, a collecting one to a table, and nothing else
is bound.
-/
def given? : List Parameter → List (Symbol × Value κ) → Option (List (Value κ))
  | [], [] => some []
  | .required _ :: more, (_, value) :: bindings => (value :: ·) <$> given? more bindings
  | .rest _ :: more, (_, .table _ items) :: bindings => (items ++ ·) <$> given? more bindings
  | _, _ => none

/-- Checked parameters that accept arguments are all bound, and to nothing else. -/
theorem pair_of_accepts (rest : Identity) {method : Symbol} {seen : List Symbol}
    {parameters : List Parameter} (hchecked : Parameter.checkList method seen parameters = .ok ())
    {arguments : List (Value κ)}
    (haccepts : (Parameter.listArity parameters).accepts arguments.length = true) :
    (pair rest parameters arguments).map Prod.fst = parameters.map Parameter.name ∧
      given? parameters (pair rest parameters arguments) = some arguments := by
  induction parameters generalizing seen arguments with
  | nil =>
    obtain rfl := List.eq_nil_of_length_eq_zero (Arity.accepts_exact_iff.mp haccepts)
    exact ⟨rfl, rfl⟩
  | cons parameter more ih =>
    cases parameter with
    | required name =>
      obtain ⟨behind, hlength, hbehind⟩ := (Parameter.accepts_required_iff name more _).mp haccepts
      obtain ⟨argument, arguments, rfl⟩ := List.exists_cons_of_length_eq_add_one hlength
      obtain rfl : behind = arguments.length := by simpa using hlength.symm
      have hmore : ∃ seen, Parameter.checkList method seen more = .ok () := by
        rw [Parameter.checkList] at hchecked
        split at hchecked
        · cases hchecked
        · split at hchecked
          · cases hchecked
          · exact ⟨_, hchecked⟩
      obtain ⟨seen, hmore⟩ := hmore
      obtain ⟨hnames, hgiven⟩ := ih hmore hbehind
      exact ⟨congrArg (name :: ·) hnames, congrArg ((argument :: ·) <$> ·) hgiven⟩
    | rest name =>
      -- nothing follows, and the table has all arguments
      obtain rfl : more = [] := by
        cases more with
        | nil => rfl
        | cons next more => cases hchecked
      exact ⟨rfl, congrArg some (List.append_nil arguments)⟩

end Method

/-! ## What a frame binds -/

namespace CallFrame

variable {layoutIdentity : Identity} {scope : ObjectId} {bindings : List (Symbol × Value κ)}

/-- A name that is bound is the name of a field that has the value. -/
theorem exists_field_of_mem (hnodup : (bindings.map Prod.fst).Nodup) {name : Symbol} {value : Value κ}
    (hmem : (name, value) ∈ bindings) :
    ∃ index, (binding layoutIdentity scope bindings).slots.find name = some (.field index true) ∧
      (binding layoutIdentity scope bindings).slots.read? index = some value := by
  obtain ⟨index, hindex⟩ : ∃ index, bindings.findIdx? (fun binding => binding.1 == name) = some index := by
    rw [← Option.isSome_iff_exists, List.findIdx?_isSome, List.any_eq_true]
    exact ⟨_, hmem, beq_self_eq_true name⟩
  obtain ⟨hlt, hname, -⟩ := List.findIdx?_eq_some_iff_getElem.mp hindex
  have hsame : bindings[index] = (name, value) :=
    List.inj_on_of_nodup_map hnodup (List.getElem_mem hlt) hmem (by simpa using hname)
  have hfield : (binding layoutIdentity scope bindings).slots.fieldIndex? name = some index := by
    simpa [binding, Storage.fieldIndex?, List.findIdx?_map, Function.comp_def] using hindex
  refine ⟨index, Storage.find_eq_field_iff.mpr (Storage.fieldSlot?_eq_some_iff.mpr
    ⟨hfield, ⟨⟨name, true⟩, value⟩, ?_, rfl⟩), ?_⟩
  · simp [binding, hlt, hsame]
  · simp [binding, Storage.read?, hlt, hsame]

/-- Selectors that are neither bound nor assignments to what is bound name nothing. -/
theorem find_eq_none {selector : Symbol}
    (hother : ∀ name ∈ bindings.map Prod.fst, selector ≠ name ∧ selector ≠ name.assignment) :
    (binding layoutIdentity scope bindings).slots.find selector = none := by
  have hfield {name : Symbol} (hname : name ∉ bindings.map Prod.fst) :
      (binding layoutIdentity scope bindings).slots.fieldSlot? name = none := by
    have hindex : (binding layoutIdentity scope bindings).slots.fieldIndex? name = none := by
      refine Storage.fieldIndex?_of_not_hasSlot (Bool.eq_false_iff.mpr fun hslot => hname ?_)
      rwa [Storage.hasSlot_iff, names_binding] at hslot
    rw [Storage.fieldSlot?, hindex]
  cases hfind : (binding layoutIdentity scope bindings).slots.find selector with
  | none => rfl
  | some slot =>
    cases Storage.names_of_find hfind with
    | field hslot =>
      cases (hfield fun hmem => (hother _ hmem).1 rfl).symm.trans hslot
    | mutator htarget hslot =>
      obtain ⟨-, rfl⟩ := Symbol.assignmentTarget?_eq_some_iff.mp htarget
      cases (hfield fun hmem => (hother _ hmem).2 rfl).symm.trans hslot
    | method hmethod => cases hmethod
    | custom _ hcustom => cases hcustom
    | customMutator _ _ hcustom => cases hcustom

end CallFrame

/-! ## Applying -/

theorem Method.make_eq_ok_iff {identity : Identity} {name : Symbol} {parameters : List Parameter}
    {body : Body κ} {method : Method κ} :
    make identity name parameters body = .ok method ↔
      Parameter.checkList name [] parameters = .ok () ∧
        method = { identity, name, parameters, body } := by
  unfold make
  cases Parameter.checkList name [] parameters with
  | ok u => simp [eq_comm]
  | error e => simp

/--
The one world has, besides what the other has, a frame in a scope: its slots are fields that
hold the values of bindings in their order.
-/
structure World.Opens (before : World κ σ) (scope frame : ObjectId) (bindings : List (Symbol × Value κ))
    (after : World κ σ) : Prop where
  new : before.heap.node? frame = none
  opened : ∃ layoutIdentity,
    after.heap.node? frame = some (.frame (.binding layoutIdentity scope bindings))
  others : ∀ id, id ≠ frame → after.heap.node? id = before.heap.node? id
  rest : after = { before with heap := after.heap, supply := after.supply }

theorem World.Sound.opens {world : World κ σ} (h : world.Sound) (scope : ObjectId)
    (bindings : List (Symbol × Value κ)) :
    world.Opens scope world.heap.nextId bindings (world.enter scope bindings) where
  new := h.free.node?_nextId
  opened := ⟨_, h.node?_enter scope bindings⟩
  others id hid := by
    show (world.heap.allocate _).2.node? id = _
    rw [h.free.node?_allocate, if_neg hid]
  rest := rfl

namespace World.Opens

variable {before after : World κ σ} {scope frame : ObjectId} {bindings : List (Symbol × Value κ)}

/-- What is bound is found in the frame. -/
theorem lookup_of_mem (h : before.Opens scope frame bindings after)
    (hnodup : (bindings.map Prod.fst).Nodup) {name : Symbol} {value : Value κ}
    (hmem : (name, value) ∈ bindings) (host : Host κ σ) (steps : Nat) :
    (Runtime.ofFuel host (steps + 1)).send (.object frame) (.lookup name) after = .ok value after := by
  obtain ⟨layoutIdentity, hframe⟩ := h.opened
  obtain ⟨index, hfind, hread⟩ := CallFrame.exists_field_of_mem hnodup hmem
  have hsearch : after.heap.searchLexical frame name = .ok (.found frame (.field index true)) := by
    rw [Heap.searchLexical, Heap.searchLexicalFrom_eq]
    exact Heap.searchAlong_of_slot ((Heap.slot?_of_node? hframe name).trans hfind) _
  rw [Runtime.lookup_of_scope host steps hframe rfl, Runtime.defaultLookup,
    Run.searchLexical_bind_of_ok hsearch]
  exact Runtime.readIndex_of_read hframe hread

/-- Anything else is looked up in the scope. -/
theorem looksUpAlike (h : before.Opens scope frame bindings after)
    (hlive : before.heap.contains scope = true) {selector : Symbol}
    (hother : ∀ name ∈ bindings.map Prod.fst, selector ≠ name ∧ selector ≠ name.assignment)
    (host : Host κ σ) : Runtime.LooksUpAlike host after selector frame scope := by
  obtain ⟨layoutIdentity, hframe⟩ := h.opened
  have hscope : after.heap.contains scope = true := by
    have hne : scope ≠ frame := by
      rintro rfl
      simp [Heap.contains, h.new] at hlive
    rw [Heap.contains, h.others scope hne]
    exact hlive
  exact Runtime.lookup_nested host hframe hscope (CallFrame.find_eq_none hother)

end World.Opens

namespace Runtime

/--
A closure over a method that was made, applied in a scope that is there.  It fails for the
number of its arguments, whatever its body does and before anything is changed, just when its
arity does not accept it.  Otherwise the body is run in a new frame of the scope: the names in
the frame are those of the parameters in order, and what is bound to them are just the
arguments.  From there every parameter is looked up as what it is bound to, and every other
selector, unless it is an assignment to a parameter, as from the scope.
-/
theorem apply_binds_exactly (host : Host κ σ) {world : World κ σ} (hsound : world.Sound)
    {identity : Identity} {name : Symbol} {parameters : List Parameter} {body : Body κ}
    {method : Method κ} (hmade : Method.make identity name parameters body = .ok method)
    {context : Context κ} (hlive : world.heap.contains context.scope = true)
    (arguments : List (Value κ)) :
    ((∀ rt : Runtime κ σ, ∃ after, rt.apply ⟨method, context⟩ arguments world =
          .error (.raised (.arityMismatch name method.arity arguments.length)) after ∧
        after.heap = world.heap) ↔ method.arity.accepts arguments.length = false) ∧
    (method.arity.accepts arguments.length = true → ∃ frame bindings entered,
      (∀ rt : Runtime κ σ, rt.apply ⟨method, context⟩ arguments world =
        rt.run method (context.withScope frame) arguments entered) ∧
      bindings.map Prod.fst = parameters.map Parameter.name ∧
      Method.given? parameters bindings = some arguments ∧
      world.Opens context.scope frame bindings entered ∧
      (∀ name value, (name, value) ∈ bindings → ∀ steps,
        (ofFuel host (steps + 1)).send (.object frame) (.lookup name) entered = .ok value entered) ∧
      ∀ selector, (∀ name ∈ parameters.map Parameter.name,
          selector ≠ name ∧ selector ≠ name.assignment) →
        LooksUpAlike host entered selector frame context.scope) := by
  obtain ⟨hchecked, rfl⟩ := Method.make_eq_ok_iff.mp hmade
  have hruns (haccepts : (Parameter.listArity parameters).accepts arguments.length = true)
      (rt : Runtime κ σ) :=
    rt.apply_eq ⟨{ identity, name, parameters, body }, context⟩ hsound ⟨hchecked, haccepts⟩
  refine ⟨⟨fun hfails => ?_, fun hrefuses rt => ⟨_, rt.apply_refused _ _ hrefuses world, rfl⟩⟩,
    fun haccepts => ?_⟩
  · -- a body that halts for another reason is not run
    refine Bool.eq_false_iff.mpr fun haccepts => ?_
    obtain ⟨after, hfailed, -⟩ := hfails idle
    cases (hruns haccepts idle).symm.trans hfailed
  · obtain ⟨hnames, hgiven⟩ := Method.pair_of_accepts ⟨world.supply⟩ hchecked haccepts
    have hopens := hsound.opens context.scope (Method.pair ⟨world.supply⟩ parameters arguments)
    have hnodup := hnames ▸ (Parameter.nodup_of_checkList hchecked).1
    exact ⟨_, _, _, hruns haccepts, hnames, hgiven, hopens,
      fun _ _ hmem => hopens.lookup_of_mem hnodup hmem host,
      fun _ hother => hopens.looksUpAlike hlive (hnames ▸ hother) host⟩

/-- A method of one argument and any number of others. -/
private def collecting : Method Empty :=
  ⟨⟨100⟩, ⟨"f"⟩, [.required ⟨"x"⟩, .rest ⟨"more"⟩], .fragment .selfReference⟩

/-- Applied in the outermost scope it refuses no arguments at all and binds three. -/
theorem apply_binds_exactly_collecting :
    let world : World Empty Unit := World.new default ()
    let context : Context Empty := ⟨⟨0⟩, .nil, .nil⟩
    world.Sound ∧
      Method.make ⟨100⟩ ⟨"f"⟩ collecting.parameters collecting.body = .ok collecting ∧
      world.heap.contains context.scope = true ∧
      (∀ rt : Runtime Empty Unit, ∃ after, rt.apply ⟨collecting, context⟩ [] world =
          .error (.raised (.arityMismatch ⟨"f"⟩ (.atLeast 1) 0)) after ∧
        after.heap = world.heap) ∧
      ∃ frame bindings entered, world.Opens context.scope frame bindings entered ∧
        bindings.map Prod.fst = [⟨"x"⟩, ⟨"more"⟩] ∧
        Method.given? collecting.parameters bindings = some [.bool true, .nil, .bool false] ∧
        LooksUpAlike Host.none entered ⟨"defaultMirror"⟩ frame ⟨0⟩ := by
  intro world context
  have hmade : Method.make ⟨100⟩ ⟨"f"⟩ collecting.parameters collecting.body = .ok collecting := rfl
  have hlive : world.heap.contains context.scope = true := rfl
  have happly := apply_binds_exactly Host.none (World.sound_new default ()) hmade hlive
  obtain ⟨frame, bindings, entered, -, hnames, hgiven, hopens, -, hothers⟩ :=
    (happly [.bool true, .nil, .bool false]).2 rfl
  exact ⟨World.sound_new default (), hmade, hlive, (happly []).1.mpr rfl, frame, bindings, entered, hopens,
    hnames, hgiven, hothers _ (by decide)⟩

end Runtime

end Prototypes
