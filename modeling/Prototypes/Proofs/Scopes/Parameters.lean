import Prototypes.Proofs.Binding.Tying
import Prototypes.Proofs.Scopes.Application

/-!
# Parameters defined in a scope that is there

Code that builds an object has no frame of its own: its parameters become fields of the scope
it is run in, one after the other.  That scope may hold a parameter's name already.  The number
of arguments is looked at before anything is changed; a name that is taken is found out when its
turn comes, and what has been defined by then stays.  So a call that fails before its body runs
leaves the parameters in front of the first one that is taken, and only where that is the first
of all is the heap what it was.

## Main results

* `Storage.defining` — slots, with names defined behind them.
* `World.Defines` — the worlds along the definitions.
* `Runtime.defineAll_of_new`, `Runtime.defineAll_of_taken` — how far they get.
* `Runtime.applyInScope_defines` — the three ends of a call, for every closure, scope and arguments.
-/

namespace Prototypes

variable {κ σ : Type}

/-! ## Slots and what is defined behind them -/

theorem Node.isMirage_withSlots (node : Node κ) (slots : Storage κ) :
    (node.withSlots slots).isMirage = node.isMirage := by
  cases node <;> rfl

theorem Node.withSlots_withSlots (node : Node κ) (first second : Storage κ) :
    (node.withSlots first).withSlots second = node.withSlots second := by
  cases node <;> rfl

namespace Storage

/-- The slots, and behind the fields one that can be assigned for each binding. -/
def defining (storage : Storage κ) (layoutIdentity : Identity) (bindings : List (Symbol × Value κ)) :
    Storage κ :=
  { storage with
    layoutIdentity
    fields := storage.fields ++ bindings.map fun binding =>
      { name := binding.1, writable := true, value := binding.2 } }

theorem defining_defining (storage : Storage κ) (first second : Identity)
    (bindings more : List (Symbol × Value κ)) :
    (storage.defining first bindings).defining second more =
      storage.defining second (bindings ++ more) := by
  simp [defining]

/-- Besides the names that were taken it is those of the bindings that are. -/
theorem hasSlot_defining (storage : Storage κ) (layoutIdentity : Identity)
    (bindings : List (Symbol × Value κ)) (name : Symbol) :
    (storage.defining layoutIdentity bindings).hasSlot name = true ↔
      storage.hasSlot name = true ∨ name ∈ bindings.map Prod.fst := by
  have hnames : (storage.defining layoutIdentity bindings).names =
      storage.fields.map (fun field => field.name) ++ bindings.map Prod.fst ++
        storage.methods.map Method.name ++ storage.custom.map CustomField.name := by
    simp [names, defining, Function.comp_def]
  rw [hasSlot_iff, hasSlot_iff, hnames, names]
  simp only [List.mem_append]
  tauto

variable {storage : Storage κ} {layoutIdentity : Identity} {bindings : List (Symbol × Value κ)}
  {name : Symbol}

/-- A name that is new is defined behind the others. -/
theorem putField_defining_of_new (hnew : storage.hasSlot name = false)
    (hother : name ∉ bindings.map Prod.fst) (identity : Identity) (value : Value κ) :
    (storage.defining layoutIdentity bindings).putField identity { name, writable := true, value } =
      .ok (storage.defining identity (bindings ++ [(name, value)])) := by
  have hslot : ¬ (storage.defining layoutIdentity bindings).hasSlot name = true := by
    rw [hasSlot_defining, hnew]
    simpa using hother
  rw [putField, if_neg hslot, ← defining_defining storage layoutIdentity]
  rfl

/-- One that was taken before is refused. -/
theorem putField_defining_of_taken (htaken : storage.hasSlot name = true) (identity : Identity)
    (value : Value κ) :
    (storage.defining layoutIdentity bindings).putField identity { name, writable := true, value } =
      .error (.duplicateSlot name) :=
  if_pos ((hasSlot_defining storage layoutIdentity bindings name).mpr (.inl htaken))

end Storage

/-! ## Worlds along the definitions -/

/--
The second world is the first, but that a node has fields for bindings behind its own.  Only
identities have been taken besides, and where there are no bindings the heap is the same.
-/
structure World.Defines (before : World κ σ) (scope : ObjectId) (node : Node κ)
    (bindings : List (Symbol × Value κ)) (after : World κ σ) : Prop where
  defined : ∃ layoutIdentity, after.heap.node? scope =
    some (node.withSlots (node.slots.defining layoutIdentity bindings))
  others : ∀ id, id ≠ scope → after.heap.node? id = before.heap.node? id
  nothing : bindings = [] → after.heap = before.heap
  rest : after = { before with heap := after.heap, supply := after.supply }

namespace World.Defines

variable {start world : World κ σ} {scope : ObjectId} {node : Node κ}
  {bindings : List (Symbol × Value κ)} {name : Symbol}

/-- Nothing but identities has been taken yet. -/
theorem nil (hnode : start.heap.node? scope = some node) (supply : Nat) :
    start.Defines scope node [] { start with supply } where
  defined := ⟨node.slots.layoutIdentity, by
    rw [hnode]
    cases node <;> simp [Node.withSlots, Node.slots, Storage.defining]⟩
  others _ _ := rfl
  nothing _ := rfl
  rest := rfl

theorem withSupply (h : start.Defines scope node bindings world) (supply : Nat) :
    start.Defines scope node bindings { world with supply } where
  defined := h.defined
  others := h.others
  nothing := h.nothing
  rest := by rw [h.rest]

/-- The heap is what it was just when nothing has been defined. -/
theorem heap_eq_iff (h : start.Defines scope node bindings world)
    (hnode : start.heap.node? scope = some node)
    (hnew : ∀ name ∈ bindings.map Prod.fst, node.slots.hasSlot name = false) :
    world.heap = start.heap ↔ bindings = [] := by
  refine ⟨fun heq => ?_, h.nothing⟩
  obtain ⟨layoutIdentity, hdefined⟩ := h.defined
  rw [heq, hnode, Option.some.injEq] at hdefined
  by_contra hne
  obtain ⟨name, hname⟩ := List.exists_mem_of_ne_nil _ (mt List.map_eq_nil_iff.mp hne)
  have hslot : node.slots.hasSlot name = true := by
    rw [hdefined, Node.slots_withSlots]
    exact (Storage.hasSlot_defining _ _ _ _).mpr (.inr hname)
  cases (hnew name hname).symm.trans hslot

variable (host : Host κ σ) (steps : Nat)

/-- A name that is new is defined behind those that have been. -/
theorem send_of_new (h : start.Defines scope node bindings world) (hkind : node.isMirage = false)
    (hnew : node.slots.hasSlot name = false) (hother : name ∉ bindings.map Prod.fst) (value : Value κ) :
    ∃ after, (Runtime.ofFuel host (steps + 1)).send (.object scope) (.defineField name value) world =
        .ok .nil after ∧ start.Defines scope node (bindings ++ [(name, value)]) after := by
  obtain ⟨layoutIdentity, hnode⟩ := h.defined
  have hput := Run.putField_of_node hnode ⟨⟨name, true⟩, value⟩
  rw [Node.slots_withSlots, Storage.putField_defining_of_new hnew hother] at hput
  have hread := Heap.node?_replace_of_contains (Heap.contains_of_node? hnode)
    ((node.withSlots (node.slots.defining layoutIdentity bindings)).withSlots
      (node.slots.defining ⟨world.supply⟩ (bindings ++ [(name, value)])))
  rw [Runtime.send_scope host steps hnode ((node.isMirage_withSlots _).trans hkind) rfl]
  refine ⟨_, Run.bind_of_ok hput _, ⟨⟨world.supply⟩, ?_⟩, fun id hid => ?_, by simp, ?_⟩
  · exact (hread scope).trans (by rw [if_pos rfl, Node.withSlots_withSlots])
  · exact (hread id).trans (by rw [if_neg hid, h.others id hid])
  · dsimp only
    rw [h.rest]

/-- One that is taken is not defined again. -/
theorem send_of_taken (h : start.Defines scope node bindings world) (hkind : node.isMirage = false)
    (htaken : node.slots.hasSlot name = true) (value : Value κ) :
    ∃ after, (Runtime.ofFuel host (steps + 1)).send (.object scope) (.defineField name value) world =
        .error (.raised (.duplicateSlot name)) after ∧ start.Defines scope node bindings after := by
  obtain ⟨layoutIdentity, hnode⟩ := h.defined
  have hput := Run.putField_of_node hnode ⟨⟨name, true⟩, value⟩
  rw [Node.slots_withSlots, Storage.putField_defining_of_taken htaken] at hput
  rw [Runtime.send_scope host steps hnode ((node.isMirage_withSlots _).trans hkind) rfl]
  exact ⟨_, Run.bind_of_error hput _, h.withSupply _⟩

end World.Defines

/-! ## Defining one name after the other -/

namespace Runtime

variable {start world : World κ σ} {scope : ObjectId} {node : Node κ}
  {bindings more : List (Symbol × Value κ)}

/-- Tells a scope to define names, from the left. -/
def defineAll (rt : Runtime κ σ) (scope : ObjectId) (bindings : List (Symbol × Value κ)) :
    Run κ σ PUnit :=
  bindings.forM fun binding => discard <| rt.send (.object scope) (.defineField binding.1 binding.2)

/-- Names that are new are all defined. -/
theorem defineAll_of_new (host : Host κ σ) (steps : Nat) (h : start.Defines scope node bindings world)
    (hkind : node.isMirage = false)
    (hnew : ∀ name ∈ more.map Prod.fst, node.slots.hasSlot name = false)
    (hnodup : ((bindings ++ more).map Prod.fst).Nodup) :
    ∃ after, (ofFuel host (steps + 1)).defineAll scope more world = .ok ⟨⟩ after ∧
      start.Defines scope node (bindings ++ more) after := by
  refine Run.exists_forM Prod.fst (fun {done binding v} hdone hbinding hother => ?_) h hnodup
  obtain ⟨next, hsent, hnext⟩ :=
    hdone.send_of_new host steps hkind (hnew _ (List.mem_map_of_mem hbinding)) hother binding.2
  exact ⟨next, Run.discard_of_ok hsent, hnext⟩

/-- The first that is taken is the one for which the definitions fail. -/
theorem defineAll_of_taken (host : Host κ σ) (steps : Nat) (hnode : start.heap.node? scope = some node)
    (hkind : node.isMirage = false) {earlier later : List (Symbol × Value κ)} {taken : Symbol × Value κ}
    (hnew : ∀ name ∈ earlier.map Prod.fst, node.slots.hasSlot name = false)
    (hnodup : (earlier.map Prod.fst).Nodup) (htaken : node.slots.hasSlot taken.1 = true) (supply : Nat) :
    ∃ after, (ofFuel host (steps + 1)).defineAll scope (earlier ++ taken :: later) { start with supply } =
        .error (.raised (.duplicateSlot taken.1)) after ∧
      start.Defines scope node earlier after := by
  obtain ⟨next, hearlier, hnext⟩ :=
    defineAll_of_new host steps (.nil hnode supply) hkind hnew hnodup
  obtain ⟨after, hfailed, hafter⟩ := hnext.send_of_taken host steps hkind htaken taken.2
  exact ⟨after, Run.forM_of_error hearlier (Run.discard_of_error hfailed), hafter⟩

/-! ## Applying in a scope -/

/-- Arguments that are refused are refused before anything is defined. -/
theorem applyInScope_refused (rt : Runtime κ σ) {closure : Closure κ} {arguments : List (Value κ)}
    (hrefuses : closure.method.arity.accepts arguments.length = false) (context : Context κ)
    (world : World κ σ) :
    rt.applyInScope closure arguments context world =
      .error (.raised (.arityMismatch closure.method.name closure.method.arity arguments.length))
        { world with supply := world.supply + 1 } := by
  have hbind : closure.method.bindArguments ⟨world.supply⟩ arguments =
      .error (.arityMismatch closure.method.name closure.method.arity arguments.length) :=
    if_neg (Bool.eq_false_iff.mp hrefuses)
  unfold applyInScope
  rw [Run.fresh_bind, hbind]
  rfl

/-- Arguments that are accepted are defined one after the other, and then the body is run. -/
theorem applyInScope_accepted (rt : Runtime κ σ) {closure : Closure κ} {arguments : List (Value κ)}
    (haccepts : closure.method.arity.accepts arguments.length = true) (context : Context κ)
    (world : World κ σ) :
    rt.applyInScope closure arguments context world =
      (rt.defineAll context.scope (Method.pair ⟨world.supply⟩ closure.method.parameters arguments) >>=
        fun _ => rt.run closure.method context arguments) { world with supply := world.supply + 1 } := by
  have hbind : closure.method.bindArguments ⟨world.supply⟩ arguments =
      .ok (Method.pair ⟨world.supply⟩ closure.method.parameters arguments) := if_pos haccepts
  unfold applyInScope
  rw [Run.fresh_bind, hbind]
  rfl

/--
A closure over a method with checked parameters, applied in a scope that is an object or a frame.
If its arity does not accept the number of arguments, the call fails for that and the heap is what
it was.  Otherwise every parameter has its argument.  If the scope has a slot of none of their
names, all become fields behind its slots, and the body is run.  If it has, the call fails for the
first of these names before the body is run.  Then the heap is what it was, but that the scope has
got the parameters in front of that one; so it is the same just when there are none.
-/
theorem applyInScope_defines (host : Host κ σ) (steps : Nat) {world : World κ σ} {closure : Closure κ}
    (hchecked : Parameter.checkList closure.method.name [] closure.method.parameters = .ok ())
    {context : Context κ} {node : Node κ} (hnode : world.heap.node? context.scope = some node)
    (hkind : node.isMirage = false) (arguments : List (Value κ)) :
    (closure.method.arity.accepts arguments.length = false → ∃ after,
      (ofFuel host (steps + 1)).applyInScope closure arguments context world =
        .error (.raised (.arityMismatch closure.method.name closure.method.arity arguments.length)) after ∧
      after.heap = world.heap) ∧
    (closure.method.arity.accepts arguments.length = true → ∃ bindings,
      bindings.map Prod.fst = closure.method.parameters.map Parameter.name ∧
      Method.given? closure.method.parameters bindings = some arguments ∧
      ((∀ name ∈ bindings.map Prod.fst, node.slots.hasSlot name = false) → ∃ defined,
        world.Defines context.scope node bindings defined ∧
        (ofFuel host (steps + 1)).applyInScope closure arguments context world =
          (ofFuel host (steps + 1)).run closure.method context arguments defined) ∧
      ((∃ name ∈ bindings.map Prod.fst, node.slots.hasSlot name = true) →
        ∃ earlier taken later, bindings = earlier ++ taken :: later ∧
          (∀ name ∈ earlier.map Prod.fst, node.slots.hasSlot name = false) ∧
          node.slots.hasSlot taken.1 = true ∧
          ∃ after, (ofFuel host (steps + 1)).applyInScope closure arguments context world =
              .error (.raised (.duplicateSlot taken.1)) after ∧
            world.Defines context.scope node earlier after ∧
            (after.heap = world.heap ↔ earlier = []))) := by
  refine ⟨fun hrefuses => ⟨_, applyInScope_refused _ hrefuses context world, rfl⟩, fun haccepts => ?_⟩
  obtain ⟨hnames, hgiven⟩ := Method.pair_of_accepts ⟨world.supply⟩ hchecked haccepts
  have happlied := (ofFuel host (steps + 1)).applyInScope_accepted haccepts context world
  have hnodup := hnames ▸ (Parameter.nodup_of_checkList hchecked).1
  refine ⟨_, hnames, hgiven, fun hnew => ?_, fun htaken => ?_⟩
  · obtain ⟨defined, hdefined, hdefines⟩ :=
      defineAll_of_new host steps (.nil hnode (world.supply + 1)) hkind hnew hnodup
    exact ⟨defined, hdefines, happlied.trans (Run.bind_of_ok hdefined _)⟩
  · rw [← List.find?_isSome, Option.isSome_iff_exists] at htaken
    obtain ⟨name, hname⟩ := htaken
    obtain ⟨htaken, names, others, hsplit, hearlier⟩ := List.find?_eq_some_iff_append.mp hname
    obtain ⟨earlier, rest, hbindings, rfl, hrest⟩ := List.map_eq_append_iff.mp hsplit
    obtain ⟨taken, later, rfl, rfl, rfl⟩ := List.map_eq_cons_iff.mp hrest
    have hnew (name : Symbol) (hmem : name ∈ earlier.map Prod.fst) : node.slots.hasSlot name = false := by
      simpa using hearlier name hmem
    rw [hbindings] at happlied hnodup ⊢
    rw [List.map_append, List.nodup_append] at hnodup
    obtain ⟨after, hfailed, hdefines⟩ := defineAll_of_taken host steps hnode hkind hnew hnodup.1 htaken
      (world.supply + 1)
    exact ⟨earlier, taken, later, rfl, hnew, htaken, after, happlied.trans (Run.bind_of_error hfailed _),
      hdefines, hdefines.heap_eq_iff hnode hnew⟩

/-- A closure with two parameters. -/
private def pairing : Closure Empty :=
  ⟨⟨⟨100⟩, ⟨"c"⟩, [.required ⟨"x"⟩, .required ⟨"y"⟩], .fragment .selfReference⟩, ⟨⟨2⟩, .nil, .nil⟩⟩

/-- A world with an object that has a field of a name. -/
private def holdingSlot (name : Symbol) : World Empty Unit :=
  let world : World Empty Unit := World.new default ()
  let slots := (Storage.empty ⟨100⟩).defining ⟨101⟩ [(name, .nil)]
  { world with heap := (world.heap.allocate (.object { world.newBody .nil .isA none [] with slots })).2 }

/-- Where the scope has neither name the body is run; where it has the second it is not. -/
theorem applyInScope_defines_two :
    let call (name : Symbol) (arguments : List (Value Empty)) :=
      (ofFuel Host.none 1).applyInScope pairing arguments pairing.context (holdingSlot name)
    Parameter.checkList pairing.method.name [] pairing.method.parameters = .ok () ∧
      (∀ name, ∃ node, (holdingSlot name).heap.node? pairing.context.scope = some node ∧
        node.isMirage = false) ∧
      (∃ after, call ⟨"z"⟩ [] = .error (.raised (.arityMismatch ⟨"c"⟩ (.exact 2) 0)) after ∧
        after.heap = (holdingSlot ⟨"z"⟩).heap) ∧
      (∃ node bindings defined, bindings.map Prod.fst = [⟨"x"⟩, ⟨"y"⟩] ∧
        (holdingSlot ⟨"z"⟩).Defines ⟨2⟩ node bindings defined ∧
        call ⟨"z"⟩ [.bool true, .nil] =
          (ofFuel Host.none 1).run pairing.method pairing.context [.bool true, .nil] defined) ∧
      ∃ node earlier taken later after, (earlier ++ taken :: later).map Prod.fst = [⟨"x"⟩, ⟨"y"⟩] ∧
        call ⟨"y"⟩ [.bool true, .nil] = .error (.raised (.duplicateSlot taken.1)) after ∧
        (holdingSlot ⟨"y"⟩).Defines ⟨2⟩ node earlier after := by
  intro call
  have hchecked : Parameter.checkList pairing.method.name [] pairing.method.parameters = .ok () := rfl
  have hscope (name : Symbol) : ∃ node, (holdingSlot name).heap.node? pairing.context.scope = some node ∧
      node.isMirage = false := ⟨_, rfl, rfl⟩
  obtain ⟨scope, hnode, hkind⟩ := hscope ⟨"z"⟩
  have happly := applyInScope_defines Host.none 0 hchecked hnode hkind
  obtain ⟨bindings, hnames, -, hnew, -⟩ := (happly [.bool true, .nil]).2 rfl
  obtain ⟨defined, hdefines, hruns⟩ := hnew (hnames ▸ by cases hnode; decide)
  obtain ⟨holder, hheld, hobject⟩ := hscope ⟨"y"⟩
  obtain ⟨taking, htaking, -, -, htaken⟩ :=
    (applyInScope_defines Host.none 0 hchecked hheld hobject [.bool true, .nil]).2 rfl
  obtain ⟨earlier, taken, later, rfl, -, -, after, hfailed, hafter, -⟩ :=
    htaken (htaking ▸ by cases hheld; decide)
  exact ⟨hchecked, hscope, (happly []).1 rfl, ⟨_, bindings, defined, hnames, hdefines, hruns⟩,
    _, earlier, taken, later, after, htaking, hfailed, hafter⟩

/--
A call that fails before its body is run may leave a parameter behind: the scope has the second
name, and then it has the first as well.
-/
theorem applyInScope_leaves_parameter :
    ∃ after, (ofFuel Host.none 1).applyInScope pairing [.bool true, .nil] pairing.context
        (holdingSlot ⟨"y"⟩) = .error (.raised (.duplicateSlot ⟨"y"⟩)) after ∧
      ((holdingSlot ⟨"y"⟩).heap.node? ⟨2⟩).map (fun node => node.slots.hasSlot ⟨"x"⟩) = some false ∧
      (after.heap.node? ⟨2⟩).map (fun node => node.slots.hasSlot ⟨"x"⟩) = some true ∧
      after.heap ≠ (holdingSlot ⟨"y"⟩).heap := by
  refine ⟨_, rfl, rfl, rfl, fun hsame => ?_⟩
  have hread := congrArg (fun heap => (heap.node? ⟨2⟩).map fun node => node.slots.hasSlot ⟨"x"⟩) hsame
  exact absurd hread (by decide)

end Runtime

end Prototypes
