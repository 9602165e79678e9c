import Prototypes.Proofs.Families.Counting
import Prototypes.Proofs.Mirrors.Frames

/-!
# Code that declares slots

Code that builds an object runs with the object as its scope.  A definition of a literal adds a
field there, and a method definition adds a method.  Fields and methods of an object share
one space of names, in which the names of its parents do not count.  So code that only declares
slots fails at the first name it declares again; if it declares none again, the object has just
the slots that are declared, in their order.

## Main results

* `Storage.declaring` — the slots that declarations make.
* `World.Declared` — the worlds along a run of declarations: one object, and more and more slots.
* `Fragment.evalLast_declared`, `Fragment.evalLast_repeated` — how such code runs, by induction on
  the declarations.
* `Runtime.extension_builds` — the object it builds, on whatever parent, or the name it fails for.
-/

namespace Prototypes

variable {κ σ : Type}

/-! ## Declarations -/

/-- A statement that declares a slot. -/
inductive Declaration (κ : Type) where
  | field (name : Symbol) (value : Value κ)
  | method (method : Method κ)

namespace Declaration

def name : Declaration κ → Symbol
  | field name _ => name
  | method declared => declared.name

/-- As code. -/
def fragment : Declaration κ → Fragment κ
  | field name value => .definition name (.literal value)
  | method declared => .methodDefinition declared

/-- What the code evaluates to. -/
def value : Declaration κ → Value κ
  | field _ value => value
  | method declared => .method declared

/-- What the code sends to its scope. -/
def message : Declaration κ → Message κ
  | field name value => .defineField name value
  | method declared => .addMethod (.method declared)

def field? : Declaration κ → Option (Field κ)
  | field name value => some { name, writable := true, value }
  | method _ => none

def method? : Declaration κ → Option (Method κ)
  | field _ _ => none
  | method declared => some declared

/-- Where a name is declared for the second time at first. -/
theorem exists_repeated {declarations : List (Declaration κ)} (h : ¬ (declarations.map name).Nodup) :
    ∃ earlier declaration later, declarations = earlier ++ declaration :: later ∧
      (earlier.map name).Nodup ∧ declaration.name ∈ earlier.map name := by
  induction declarations using List.reverseRecOn with
  | nil => exact absurd List.nodup_nil h
  | append_singleton declarations last ih =>
    by_cases hnodup : (declarations.map name).Nodup
    · refine ⟨declarations, last, [], rfl, hnodup, ?_⟩
      by_contra hnew
      refine h ?_
      rw [List.map_append, List.map_singleton, ← List.concat_eq_append]
      exact hnodup.concat hnew
    · obtain ⟨earlier, declaration, later, rfl, hearlier, hrepeated⟩ := ih hnodup
      exact ⟨earlier, declaration, later ++ [last], by simp, hearlier, hrepeated⟩

end Declaration

/-- All that the code of a method does is declare slots. -/
structure Method.Declares (method : Method κ) (declarations : List (Declaration κ)) : Prop where
  parameters : method.parameters = []
  body : method.body = .fragment (.sequence (declarations.map Declaration.fragment))

namespace Storage

/-- The declared slots, fields and methods each in their order. -/
def declaring (layoutIdentity : Identity) (declarations : List (Declaration κ)) : Storage κ :=
  { empty layoutIdentity with
    fields := declarations.filterMap Declaration.field?
    methods := declarations.filterMap Declaration.method? }

theorem hasSlot_declaring (layoutIdentity : Identity) (declarations : List (Declaration κ))
    (name : Symbol) :
    (declaring layoutIdentity declarations).hasSlot name = true ↔
      name ∈ declarations.map Declaration.name := by
  have hnames : (declaring layoutIdentity declarations).names =
      (declarations.filterMap Declaration.field?).map (fun field => field.name) ++
        (declarations.filterMap Declaration.method?).map Method.name := by
    simp [names, declaring, empty]
  rw [hasSlot_iff, hnames, List.mem_append]
  clear hnames
  induction declarations with
  | nil => simp
  | cons declaration declarations ih =>
    refine Iff.trans ?_ ((or_congr_right ih).trans List.mem_cons.symm)
    cases declaration with
    | field declared value =>
      simp only [List.filterMap_cons, Declaration.field?, Declaration.method?, Declaration.name,
        List.map_cons, List.mem_cons, or_assoc]
    | method declared =>
      simp only [List.filterMap_cons, Declaration.field?, Declaration.method?, Declaration.name,
        List.map_cons, List.mem_cons, or_left_comm]

/-- One more declaration, with `fresh` as the identity of a layout that has to be made. -/
def declare (storage : Storage κ) (fresh : Identity) : Declaration κ → Except RuntimeError (Storage κ)
  | .field name value => storage.putField fresh { name, writable := true, value }
  | .method method => storage.addMethod method

variable {layoutIdentity : Identity} {declarations : List (Declaration κ)}
  {declaration : Declaration κ}

/-- A name that has not been declared may be. -/
theorem declare_of_new (fresh : Identity)
    (hnew : declaration.name ∉ declarations.map Declaration.name) :
    ∃ identity, (declaring layoutIdentity declarations).declare fresh declaration =
      .ok (declaring identity (declarations ++ [declaration])) := by
  rw [← hasSlot_declaring layoutIdentity] at hnew
  cases declaration with
  | field name value =>
    refine ⟨fresh, (if_neg hnew).trans ?_⟩
    simp [declaring, empty, Declaration.field?, Declaration.method?]
  | method method =>
    refine ⟨layoutIdentity, (if_neg hnew).trans ?_⟩
    simp [declaring, empty, Declaration.field?, Declaration.method?]

/-- One that has been may not. -/
theorem declare_of_taken (fresh : Identity)
    (htaken : declaration.name ∈ declarations.map Declaration.name) :
    (declaring layoutIdentity declarations).declare fresh declaration =
      .error (.duplicateSlot declaration.name) := by
  rw [← hasSlot_declaring layoutIdentity] at htaken
  cases declaration with
  | field name value => exact if_pos htaken
  | method method => exact if_pos htaken

end Storage

/-! ## Running declarations -/

namespace World

/-- The world with a new object that has the declared slots. -/
def declaring (world : World κ σ) (body : PrototypeObject κ) (layoutIdentity : Identity)
    (declarations : List (Declaration κ)) (supply : Nat) : World κ σ :=
  { world with
    heap := (world.heap.allocate
      (.object { body with slots := Storage.declaring layoutIdentity declarations })).2
    supply }

theorem node?_declaring {world : World κ σ} (hfree : world.heap.FreeListExact)
    (body : PrototypeObject κ) (layoutIdentity : Identity) (declarations : List (Declaration κ))
    (supply : Nat) :
    (world.declaring body layoutIdentity declarations supply).heap.node? world.heap.nextId =
      some (.object { body with slots := Storage.declaring layoutIdentity declarations }) :=
  (hfree.node?_allocate _ _).trans (if_pos rfl)

/--
The world from `start` on in which an object has been made last and has the declared slots; only
identities have been taken besides.
-/
def Declared (start : World κ σ) (body : PrototypeObject κ) (declarations : List (Declaration κ))
    (w : World κ σ) : Prop :=
  ∃ layoutIdentity supply, w = start.declaring body layoutIdentity declarations supply

end World

namespace Declaration

variable (host : Host κ σ) (steps : Nat) {start world : World κ σ} {body : PrototypeObject κ}
  {declarations : List (Declaration κ)} {context : Context κ}

/-- The code of a declaration tells its scope about it. -/
theorem eval_fragment (rt : Runtime κ σ) (context : Context κ) (declaration : Declaration κ) :
    declaration.fragment.eval rt context =
      (rt.send (.object context.scope) declaration.message >>= fun _ => pure declaration.value) := by
  cases declaration <;> exact Run.discard_bind _ _

/-- An object that is told of a declaration adds the slot, unless its name is taken. -/
theorem send_message {id : ObjectId} (hnode : world.heap.node? id = some (.object body))
    {declaration : Declaration κ} {added : Except RuntimeError (Storage κ)}
    (hadded : body.slots.declare ⟨world.supply⟩ declaration = added) :
    ∃ supply, (Runtime.ofFuel host (steps + 1)).send (.object id) declaration.message world =
      match added with
      | .ok slots =>
        .ok .nil { world with heap := world.heap.replace id (.object { body with slots }), supply }
      | .error e => .error (.raised e) { world with supply } := by
  rw [Runtime.send_plain host steps hnode]
  cases declaration with
  | field name value =>
    refine ⟨world.supply + 1, ?_⟩
    show (Run.putField id ⟨⟨name, true⟩, value⟩ >>= fun _ => pure Value.nil) world = _
    have hslots : (Node.object body).slots.putField ⟨world.supply⟩ ⟨⟨name, true⟩, value⟩ = added :=
      hadded
    have hput := Run.putField_of_node hnode ⟨⟨name, true⟩, value⟩
    rw [hslots] at hput
    cases added with
    | ok slots => exact Run.bind_of_ok hput _
    | error e => exact Run.bind_of_error hput _
  | method method =>
    refine ⟨world.supply, ?_⟩
    show ((Run.slots id >>= fun slots => Run.check (slots.addMethod method) >>= Run.setSlots id) >>=
      fun _ => pure Value.nil) world = _
    have hslots : (Node.object body).slots.addMethod method = added := hadded
    rw [bind_assoc, Run.slots_bind hnode, bind_assoc, hslots]
    cases added with
    | ok slots => exact Run.bind_of_ok (Run.setSlots_of_node hnode slots) _
    | error e => rfl

end Declaration

namespace World.Declared

variable {start world : World κ σ} {body : PrototypeObject κ} {declarations : List (Declaration κ)}
  {declaration : Declaration κ} {context : Context κ}

/-- A declaration of another name adds its slot. -/
theorem eval_of_new (h : start.Declared body declarations world) (hfree : start.heap.FreeListExact)
    (host : Host κ σ) (steps : Nat) (hscope : context.scope = start.heap.nextId)
    (hnew : declaration.name ∉ declarations.map Declaration.name) :
    ∃ after, declaration.fragment.eval (Runtime.ofFuel host (steps + 1)) context world =
        .ok declaration.value after ∧
      start.Declared body (declarations ++ [declaration]) after := by
  obtain ⟨layoutIdentity, supply, rfl⟩ := h
  obtain ⟨identity, hdeclared⟩ := Storage.declare_of_new ⟨supply⟩ hnew
  obtain ⟨later, hsent⟩ := Declaration.send_message host steps
    (World.node?_declaring hfree body layoutIdentity declarations supply) hdeclared
  rw [Declaration.eval_fragment, hscope]
  refine ⟨_, Run.bind_of_ok hsent _, identity, later, ?_⟩
  simp only [World.declaring, Heap.replace_allocate]

/-- A declaration of the same name fails. -/
theorem eval_of_taken (h : start.Declared body declarations world) (hfree : start.heap.FreeListExact)
    (host : Host κ σ) (steps : Nat) (hscope : context.scope = start.heap.nextId)
    (htaken : declaration.name ∈ declarations.map Declaration.name) :
    ∃ after, declaration.fragment.eval (Runtime.ofFuel host (steps + 1)) context world =
        .error (.raised (.duplicateSlot declaration.name)) after ∧
      start.Declared body declarations after := by
  obtain ⟨layoutIdentity, supply, rfl⟩ := h
  obtain ⟨later, hsent⟩ := Declaration.send_message host steps
    (World.node?_declaring hfree body layoutIdentity declarations supply)
    (Storage.declare_of_taken ⟨supply⟩ htaken)
  rw [Declaration.eval_fragment, hscope]
  exact ⟨_, Run.bind_of_error hsent _, layoutIdentity, later, rfl⟩

end World.Declared

namespace Fragment

/-- Statements run in two parts. -/
theorem evalLast_append (rt : Runtime κ σ) (context : Context κ) (last : Value κ)
    (statements more : List (Fragment κ)) :
    evalLast rt context last (statements ++ more) =
      (evalLast rt context last statements >>= fun last => evalLast rt context last more) := by
  induction statements generalizing last with
  | nil => rfl
  | cons statement statements ih =>
    simp only [List.cons_append, evalLast, bind_assoc, ih]

variable {start world : World κ σ} {body : PrototypeObject κ} {declarations : List (Declaration κ)}

/-- Declarations of names that are all different add their slots one by one. -/
theorem evalLast_declared (hfree : start.heap.FreeListExact) (host : Host κ σ) (steps : Nat)
    (context : Context κ) (hscope : context.scope = start.heap.nextId)
    (h : start.Declared body declarations world) (more : List (Declaration κ))
    (hnodup : ((declarations ++ more).map Declaration.name).Nodup) (last : Value κ) :
    ∃ answer after, evalLast (Runtime.ofFuel host (steps + 1)) context last
        (more.map Declaration.fragment) world = .ok answer after ∧
      start.Declared body (declarations ++ more) after := by
  -- the object with the slots made so far is what the induction carries
  induction more generalizing declarations world last with
  | nil => exact ⟨last, world, rfl, by rwa [List.append_nil]⟩
  | cons declaration more ih =>
    have hnew : declaration.name ∉ declarations.map Declaration.name := by
      intro hmem
      rw [List.map_append, List.nodup_append] at hnodup
      exact hnodup.2.2 _ hmem _ (List.mem_cons_self ..) rfl
    obtain ⟨next, hevaluated, hnext⟩ := h.eval_of_new hfree host steps hscope hnew
    rw [List.append_cons] at hnodup ⊢
    obtain ⟨answer, after, hmore, hafter⟩ := ih hnext hnodup declaration.value
    exact ⟨answer, after, (Run.bind_of_ok hevaluated _).trans hmore, hafter⟩

/-- The first name that is declared again is the one for which they fail. -/
theorem evalLast_repeated (hfree : start.heap.FreeListExact) (host : Host κ σ) (steps : Nat)
    (context : Context κ) (hscope : context.scope = start.heap.nextId) (h : start.Declared body [] world)
    {earlier later : List (Declaration κ)} {declaration : Declaration κ}
    (hnodup : (earlier.map Declaration.name).Nodup)
    (hrepeated : declaration.name ∈ earlier.map Declaration.name) (last : Value κ) :
    ∃ after, evalLast (Runtime.ofFuel host (steps + 1)) context last
        ((earlier ++ declaration :: later).map Declaration.fragment) world =
          .error (.raised (.duplicateSlot declaration.name)) after ∧
      start.Declared body earlier after := by
  obtain ⟨answer, next, hearlier, hnext⟩ :=
    evalLast_declared hfree host steps context hscope h earlier hnodup last
  obtain ⟨after, hfailed, hafter⟩ := hnext.eval_of_taken hfree host steps hscope hrepeated
  refine ⟨after, ?_, hafter⟩
  rw [List.map_append, evalLast_append, Run.bind_of_ok hearlier]
  exact Run.bind_of_error hfailed _

end Fragment

/-! ## The object that is built -/

/--
The second world has, besides what the first has, an object on a parent, with a link and tags, in
a scope.  It has just the declared slots, and is of a family that no other node is of.
-/
structure World.Builds (before : World κ σ) (parent : Value κ) (link : ParentLink) (scope : ObjectId)
    (tags : List TypeTag) (declarations : List (Declaration κ)) (id : ObjectId) (after : World κ σ) :
    Prop where
  new : before.heap.node? id = none
  made : ∃ layoutIdentity family,
    after.heap.node? id = some (.object {
      slots := .declaring layoutIdentity declarations
      dynamicParent := parent
      lexicalParent := some scope
      link
      typeTags := tags
      family
      flags := .none }) ∧
    ∀ other node, other ≠ id → after.heap.node? other = some node → node.family? ≠ some family
  others : ∀ other, other ≠ id → after.heap.node? other = before.heap.node? other
  rest : after = { before with heap := after.heap, supply := after.supply, log := after.log }

namespace World

variable {world after : World κ σ} {parent : Value κ} {link : ParentLink} {scope : ObjectId}
  {tags : List TypeTag} {declarations : List (Declaration κ)}

/-- The world in which code starts to build an object, but for the object. -/
def founding (world : World κ σ) (event : Event) : World κ σ :=
  { world with heap := world.heap.newFamily.2, log := world.log.push event }

theorem Counted.free_founding (h : world.Counted) (event : Event) :
    (world.founding event).heap.FreeListExact := h.free.follows .newFamily

theorem Declared.builds (hcounted : world.Counted) {event : Event}
    (h : (world.founding event).Declared (world.newBody parent link (some scope) tags) declarations after) :
    world.Builds parent link scope tags declarations world.heap.nextId after := by
  obtain ⟨layoutIdentity, supply, rfl⟩ := h
  have hfree := hcounted.free_founding event
  have hothers (other : ObjectId) (hother : other ≠ world.heap.nextId) :
      ((world.founding event).declaring (world.newBody parent link (some scope) tags) layoutIdentity
        declarations supply).heap.node? other = world.heap.node? other :=
    (hfree.node?_allocate _ _).trans (if_neg hother)
  refine ⟨hcounted.free.node?_nextId, ⟨layoutIdentity, _, node?_declaring hfree _ _ _ _, ?_⟩, hothers,
    rfl⟩
  intro other node hother hnode
  exact hcounted.family?_ne ((hothers other hother).symm.trans hnode)

end World

namespace Runtime

/-- The calls that make an object on a parent, with a link and tags, and have code build it. -/
inductive Extends (rt : Runtime κ σ) (world : World κ σ) (code : Value κ) :
    Value κ → ParentLink → List TypeTag → Run κ σ (Value κ) → Prop
  /-- on whatever parent, which is not asked; a literal has none -/
  | direct (parent : Value κ) (link : ParentLink) (tags : List TypeTag) :
    Extends rt world code parent link tags (rt.extendWith parent link code tags)
  | extend {parent : ObjectId} {body : PrototypeObject κ} :
    world.heap.node? parent = some (.object body) →
      Extends rt world code (.object parent) .isA [] (rt.send (.object parent) (.extend code))
  | share {parent : ObjectId} {body : PrototypeObject κ} :
    world.heap.node? parent = some (.object body) →
      Extends rt world code (.object parent) .sharesA [] (rt.send (.object parent) (.share code))

/-- Code without parameters is run in a new object. -/
theorem extendWith_eq (rt : Runtime κ σ) {method : Method κ} (hparameters : method.parameters = [])
    (identity : Identity) (context : Context κ) (parent : Value κ) (link : ParentLink)
    (tags : List TypeTag) (world : World κ σ) :
    rt.extendWith parent link (.closure identity ⟨method, context⟩) tags world =
      (rt.run method ⟨world.heap.nextId, .object world.heap.nextId, parent⟩ [] >>= fun _ =>
          pure (.object world.heap.nextId))
        ((world.founding (.extended parent.display world.heap.nextId link)).declaring
          (world.newBody parent link (some context.scope) tags) ⟨world.supply⟩ [] (world.supply + 2)) := by
  have hbind : method.bindArguments ⟨world.supply + 1⟩ [] = .ok [] := by
    obtain ⟨_, _, _, _⟩ := method
    subst hparameters
    rfl
  have hcode : (Value.closure identity ⟨method, context⟩).expectClosure "extension code" =
      .ok ⟨method, context⟩ := rfl
  unfold extendWith applyInScope
  rw [hcode, Run.check_ok_bind, Run.newBody_allocate_bind]
  show (discard (Run.fresh >>= _) >>= _) _ = _
  rw [Run.discard_bind, bind_assoc, Run.fresh_bind]
  show ((Run.check (method.bindArguments ⟨world.supply + 1⟩ []) >>= _) >>= _) _ = _
  rw [hbind]
  rfl

variable {host : Host κ σ} {world : World κ σ} {method : Method κ} {declarations : List (Declaration κ)}
  {identity : Identity} {context : Context κ} {parent : Value κ} {link : ParentLink} {tags : List TypeTag}
  {call : Run κ σ (Value κ)}

/-- Each of the calls has a step left to run the code in. -/
theorem Extends.exists_steps {code : Value κ} {steps : Nat}
    (hcall : (ofFuel host (steps + 3)).Extends world code parent link tags call) :
    ∃ left, call world = (ofFuel host (left + 2)).extendWith parent link code tags world := by
  cases hcall with
  | direct parent link tags => exact ⟨steps + 1, rfl⟩
  | extend hparent => exact ⟨steps, send_plain host (steps + 2) hparent _⟩
  | share hparent => exact ⟨steps, send_plain host (steps + 2) hparent _⟩

/-- Code that declares slots runs its declarations one by one in a new object without slots. -/
theorem extendWith_declares (host : Host κ σ) (world : World κ σ) (hmethod : method.Declares declarations)
    (identity : Identity) (context : Context κ) (parent : Value κ) (link : ParentLink)
    (tags : List TypeTag) (steps : Nat) :
    ∃ event started, (world.founding event).Declared
        (world.newBody parent link (some context.scope) tags) [] started ∧
      (ofFuel host (steps + 2)).extendWith parent link (.closure identity ⟨method, context⟩) tags world =
        (Fragment.evalLast (ofFuel host (steps + 1))
            ⟨world.heap.nextId, .object world.heap.nextId, parent⟩ .nil
            (declarations.map Declaration.fragment) >>= fun _ => pure (.object world.heap.nextId))
          started := by
  have hrun (inside : Context κ) : (ofFuel host (steps + 2)).run method inside [] =
      Fragment.evalLast (ofFuel host (steps + 1)) inside .nil
        (declarations.map Declaration.fragment) := by
    show (ofFuel host (steps + 1)).runMethod host method inside [] = _
    rw [runMethod, hmethod.body]
    rfl
  have hstarts := (ofFuel host (steps + 2)).extendWith_eq hmethod.parameters identity context parent link
    tags world
  rw [hrun] at hstarts
  exact ⟨.extended parent.display world.heap.nextId link, _, ⟨⟨world.supply⟩, world.supply + 2, rfl⟩,
    hstarts⟩

/-- Names that are all different are all declared. -/
theorem extendWith_declared (hcounted : world.Counted) (hmethod : method.Declares declarations)
    (steps : Nat) (hnodup : (declarations.map Declaration.name).Nodup) :
    ∃ after, (ofFuel host (steps + 2)).extendWith parent link (.closure identity ⟨method, context⟩) tags
        world = .ok (.object world.heap.nextId) after ∧
      world.Builds parent link context.scope tags declarations world.heap.nextId after := by
  obtain ⟨event, started, hstarted, hruns⟩ := extendWith_declares host world hmethod identity context
    parent link tags steps
  obtain ⟨_, after, hdeclared, hafter⟩ := Fragment.evalLast_declared
    (hcounted.free_founding event) host steps ⟨world.heap.nextId, .object world.heap.nextId, parent⟩
    rfl hstarted declarations hnodup .nil
  rw [hruns]
  exact ⟨after, Run.bind_of_ok hdeclared _, hafter.builds hcounted⟩

/-- The code fails for the first name that is declared again, and with what it has made so far. -/
theorem extendWith_repeated (hcounted : world.Counted) {earlier later : List (Declaration κ)}
    {declaration : Declaration κ} (hmethod : method.Declares (earlier ++ declaration :: later))
    (steps : Nat) (hnodup : (earlier.map Declaration.name).Nodup)
    (hrepeated : declaration.name ∈ earlier.map Declaration.name) :
    ∃ after, (ofFuel host (steps + 2)).extendWith parent link (.closure identity ⟨method, context⟩) tags
        world = .error (.raised (.duplicateSlot declaration.name)) after ∧
      world.Builds parent link context.scope tags earlier world.heap.nextId after := by
  obtain ⟨event, started, hstarted, hruns⟩ := extendWith_declares host world hmethod identity context
    parent link tags steps
  obtain ⟨after, hfailed, hafter⟩ := Fragment.evalLast_repeated
    (hcounted.free_founding event) host steps ⟨world.heap.nextId, .object world.heap.nextId, parent⟩
    rfl hstarted hnodup hrepeated .nil
  rw [hruns]
  exact ⟨after, Run.bind_of_error hfailed _, hafter.builds hcounted⟩

/--
Code without parameters that only declares slots, run by a call that makes an object.  The call
answers just when all declared names are different.  Then there is one object more: it has the
parent, link and tags of the call, the scope of the code, just the declared fields and methods, in
their order, and a family that no other node is of.  Otherwise the call fails for the first name
that is declared again.  Either way all nodes that were there are what they were, the parent among
them, whatever slots it has.  Every world that programs lead to is counted.
-/
theorem extension_builds (host : Host κ σ) {world : World κ σ} (hcounted : world.Counted)
    {method : Method κ} {declarations : List (Declaration κ)} (hmethod : method.Declares declarations)
    (identity : Identity) (context : Context κ) (steps : Nat) {parent : Value κ} {link : ParentLink}
    {tags : List TypeTag} {call : Run κ σ (Value κ)}
    (hcall : (ofFuel host (steps + 3)).Extends world (.closure identity ⟨method, context⟩) parent link tags
      call) :
    ((∃ answer after, call world = .ok answer after) ↔ (declarations.map Declaration.name).Nodup) ∧
    ((declarations.map Declaration.name).Nodup → ∃ id after, call world = .ok (.object id) after ∧
      world.Builds parent link context.scope tags declarations id after) ∧
    (¬ (declarations.map Declaration.name).Nodup → ∃ earlier declaration later,
      declarations = earlier ++ declaration :: later ∧ (earlier.map Declaration.name).Nodup ∧
      declaration.name ∈ earlier.map Declaration.name ∧
      ∃ id after, call world = .error (.raised (.duplicateSlot declaration.name)) after ∧
        world.Builds parent link context.scope tags earlier id after) := by
  obtain ⟨left, hleft⟩ := hcall.exists_steps
  have hdeclared (hnodup : (declarations.map Declaration.name).Nodup) :
      ∃ id after, call world = .ok (.object id) after ∧
        world.Builds parent link context.scope tags declarations id after := by
    rw [hleft]
    exact ⟨_, extendWith_declared hcounted hmethod left hnodup⟩
  have hrepeated (hrepeats : ¬ (declarations.map Declaration.name).Nodup) :
      ∃ earlier declaration later,
        declarations = earlier ++ declaration :: later ∧ (earlier.map Declaration.name).Nodup ∧
        declaration.name ∈ earlier.map Declaration.name ∧
        ∃ id after, call world = .error (.raised (.duplicateSlot declaration.name)) after ∧
          world.Builds parent link context.scope tags earlier id after := by
    obtain ⟨earlier, declaration, later, rfl, hnodup, hmem⟩ := Declaration.exists_repeated hrepeats
    refine ⟨earlier, declaration, later, rfl, hnodup, hmem, ?_⟩
    rw [hleft]
    exact ⟨_, extendWith_repeated hcounted hmethod left hnodup hmem⟩
  refine ⟨⟨fun ⟨answer, after, hanswered⟩ => ?_, fun hnodup => ?_⟩, hdeclared, hrepeated⟩
  · by_contra hrepeats
    obtain ⟨_, _, _, _, _, _, _, _, hfailed, _⟩ := hrepeated hrepeats
    cases hanswered.symm.trans hfailed
  · obtain ⟨id, after, hanswered, -⟩ := hdeclared hnodup
    exact ⟨_, after, hanswered⟩

/-- Code in the outermost scope that only declares slots. -/
private def declaringCode (declarations : List (Declaration Empty)) : Method Empty :=
  ⟨⟨100⟩, ⟨"code"⟩, [], .fragment (.sequence (declarations.map Declaration.fragment))⟩

/-- A field and a method with the names of two slots that the mirror root has. -/
private def overridden : List (Declaration Empty) :=
  [.field Selector.base (.bool true), .method ⟨⟨101⟩, MetaOp.clone.selector, [], .fragment .selfReference⟩]

/-- A child of the mirror root may have slots with the names of its parent's, but each only once. -/
theorem extension_builds_overridden :
    let world : World Empty Unit := World.new default ()
    let context : Context Empty := ⟨⟨0⟩, .nil, .nil⟩
    world.Counted ∧ (∀ declarations, (declaringCode declarations).Declares declarations) ∧
      (∃ root, world.heap.node? ⟨1⟩ = some (.object root) ∧
        ∀ declaration ∈ overridden, root.slots.hasSlot declaration.name = true) ∧
      (∃ id after, (ofFuel Host.none 3).send (.object ⟨1⟩)
          (.share (.closure ⟨102⟩ ⟨declaringCode overridden, context⟩)) world = .ok (.object id) after ∧
        world.Builds (.object ⟨1⟩) .sharesA ⟨0⟩ [] overridden id after) ∧
      ∃ id after, (ofFuel Host.none 3).send (.object ⟨1⟩)
          (.extend (.closure ⟨102⟩ ⟨declaringCode (overridden ++ [.field Selector.base .nil]), context⟩))
          world = .error (.raised (.duplicateSlot Selector.base)) after ∧
        world.Builds (.object ⟨1⟩) .isA ⟨0⟩ [] overridden id after := by
  intro world context
  have hcounted : world.Counted := World.counted_new default ()
  have hdeclares (declarations : List (Declaration Empty)) :
      (declaringCode declarations).Declares declarations := ⟨rfl, rfl⟩
  have hshare (code : Value Empty) : (ofFuel Host.none 3).Extends world code (.object ⟨1⟩) .sharesA []
      ((ofFuel Host.none 3).send (.object ⟨1⟩) (.share code)) := .share rfl
  have hextend (code : Value Empty) : (ofFuel Host.none 3).Extends world code (.object ⟨1⟩) .isA []
      ((ofFuel Host.none 3).send (.object ⟨1⟩) (.extend code)) := .extend rfl
  have hshared := extension_builds Host.none hcounted (hdeclares overridden) ⟨102⟩ context 0 (hshare _)
  have hextended := extension_builds Host.none hcounted
    (hdeclares (overridden ++ [.field Selector.base .nil])) ⟨102⟩ context 0 (hextend _)
  refine ⟨hcounted, hdeclares, ⟨_, rfl, by decide⟩, hshared.2.1 (by decide), ?_⟩
  obtain ⟨earlier, declaration, later, hsplit, hnodup, hmem, hfailed⟩ := hextended.2.2 (by decide)
  -- nothing but the third declaration repeats a name
  match earlier with
  | [] => cases hmem
  | [first] =>
    cases hsplit
    exact absurd hmem (by decide)
  | [first, second] =>
    cases hsplit
    exact hfailed
  | first :: second :: third :: more => simp [overridden] at hsplit

end Runtime

end Prototypes
