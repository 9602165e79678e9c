import Prototypes.Proofs.Approximation.Run

/-!
# Operations below others: slots, mirrors and delegation

An operation re-enters the object model only through the calls of its runtime.
So if the calls of one runtime are below those of another
(`Runtime.Below`), every operation over the first is below the same operation
over the second.  There is one lemma for each operation, named after it, and
each follows the operation's own sequence of steps.
-/

namespace Prototypes

variable {κ σ : Type}

open Run (Steady)

namespace Runtime

variable {R : World κ σ → World κ σ → Prop}

/-- The calls of `rt'` answer what those of `rt` answer, and `rt'` grants no fewer steps. -/
structure Below (R : World κ σ → World κ σ → Prop) (rt rt' : Runtime κ σ) : Prop where
  fuel : rt.fuel ≤ rt'.fuel
  send : ∀ target message, Run.Below R (rt.send target message) (rt'.send target message)
  run : ∀ method context arguments,
    Run.Below R (rt.run method context arguments) (rt'.run method context arguments)

theorem Below.trans {rt rt' rt'' : Runtime κ σ} (h : Below World.Alike rt rt')
    (h' : Below World.Alike rt' rt'') : Below World.Alike rt rt'' where
  fuel := Nat.le_trans h.fuel h'.fuel
  send target message := (h.send target message).trans (h'.send target message)
  run method context arguments := (h.run method context arguments).trans (h'.run method context arguments)

/-! ## Steps that do not re-enter -/

namespace Steady

open Run.Below

theorem assignmentTarget (selector : Symbol) :
    Steady R (Runtime.assignmentTarget selector : Run κ σ Symbol) := by
  unfold Runtime.assignmentTarget
  cases selector.assignmentTarget? with
  | some name => exact pure name
  | none => exact raise _

theorem checkWritable (holder : ObjectId) (selector : Symbol) (writable : Bool) :
    Steady R (Runtime.checkWritable holder selector writable : Run κ σ Unit) := by
  cases writable with
  | true => exact pure ()
  | false => exact raise _

variable [World.Affinity R]

theorem bindAll (frame : ObjectId) (bindings : List (Symbol × Value κ)) :
    Steady R (Runtime.bindAll frame bindings : Run κ σ Unit) :=
  forM fun _ => putField frame _

theorem readIndex (holder : ObjectId) (index : Nat) :
    Steady R (Runtime.readIndex holder index : Run κ σ (Value κ)) := by
  refine (slots holder).bind fun storage => ?_
  cases storage.read? index with
  | some value => exact pure value
  | none => exact halt .outOfBounds

theorem slotOwner (context : Context κ) :
    Steady R (Runtime.slotOwner context : Run κ σ ObjectId) := by
  refine (node context.scope).bind fun found => ?_
  cases found <;> exact pure _

theorem accessor (holder : ObjectId) (receiver : Value κ) (name : Symbol) :
    Steady R (Runtime.accessor holder receiver name : Run κ σ (Value κ)) :=
  fresh.bind fun _ => newClosure _

theorem mutator (holder : ObjectId) (receiver : Value κ) (selector : Symbol) :
    Steady R (Runtime.mutator holder receiver selector : Run κ σ (Value κ)) := by
  refine (assignmentTarget selector).bind fun name => ?_
  exact fresh.bind fun _ => newClosure _

theorem methodClosure (holder : ObjectId) (method : Method κ) (receiver : Value κ) :
    Steady R (Runtime.methodClosure holder method receiver : Run κ σ (Closure κ)) :=
  (node holder).bind fun _ => pure _

theorem selectSlot (holder : ObjectId) (slot : Slot κ) (receiver : Value κ) (selector : Symbol) :
    Steady R (Runtime.selectSlot holder slot receiver selector : Run κ σ (Value κ)) := by
  cases slot with
  | field index writable => exact accessor holder receiver selector
  | custom field => exact accessor holder receiver selector
  | mutator index writable =>
    exact (checkWritable holder selector writable).bind fun _ => mutator holder receiver selector
  | customMutator field => exact mutator holder receiver selector
  | method method => exact (methodClosure holder method receiver).bind fun _ => newClosure _

theorem storedBase? (mirror : Value κ) :
    Steady R (Runtime.storedBase? mirror : Run κ σ (Option (Value κ))) := by
  cases mirror with
  | object id =>
    refine (node id).bind fun found => ?_
    split
    · refine (searchDynamic id Selector.base).bind fun resolution => ?_
      cases resolution with
      | found holder slot =>
        cases slot with
        | field index writable =>
          refine (slots holder).bind fun storage => ?_
          cases storage.read? index with
          | some value => exact pure _
          | none => exact halt .outOfBounds
        | _ => exact pure none
      | _ => exact pure none
    · exact pure none
  | _ => exact pure none

theorem inheritsDefault (mirror : ObjectId) (op : MetaOp) :
    Steady R (Runtime.inheritsDefault mirror op : Run κ σ Bool) := by
  refine (searchDynamic mirror op.selector).bind fun resolution => ?_
  cases resolution with
  | found holder slot =>
    cases slot with
    | method method =>
      refine get fun v w hvw => ?_
      rw [World.Affinity.mirrorRoot_eq hvw, World.Affinity.isMirrorDefault_eq hvw]
      exact pure _
    | _ => exact pure false
  | _ => exact pure false

theorem checkUnbound (id : ObjectId) (mirage : Value κ) :
    Steady R (Run.checkUnbound id mirage : Run κ σ Unit) := by
  refine (node id).bind fun found => ?_
  match found with
  | .mirage ⟨_, none⟩ => exact pure ()
  | .mirage ⟨_, some _⟩ => exact raise _
  | .object _ => exact raise _
  | .frame _ => exact raise _

section Kinship

omit [World.Affinity R]

variable [World.Kinship R]

theorem newBody (parent : Value κ) (link : ParentLink) (scope : Option ObjectId)
    (tags : List TypeTag) :
    Steady R (Run.newBody parent link scope tags : Run κ σ (PrototypeObject κ)) :=
  newFamily.bind fun _ => fresh.bind fun _ => pure _

theorem newMirage (parent : Value κ) (link : ParentLink) (scope : Option ObjectId)
    (tags : List TypeTag) :
    Steady R (Run.newMirage parent link scope tags : Run κ σ ObjectId) :=
  (newBody parent link scope tags).bind fun _ => allocate rfl

end Kinship

theorem freshMirror : Steady R (Run.freshMirror : Run κ σ (Value κ)) := by
  refine get fun v w hvw => ?_
  rw [World.Affinity.mirrorRoot_eq hvw, World.Affinity.lexicalRoot_eq hvw]
  exact found_bind _ _ _ _ fun _ => pure _

/-- Binding keeps a relation, if giving a mirage its mirror does. -/
theorem bindMirror_of
    (hset : ∀ mirage mirror, Steady R (Run.setMirror mirage mirror : Run κ σ Unit))
    (mirror mirage : Value κ) : Steady R (Run.bindMirror mirror mirage : Run κ σ Unit) := by
  refine (check _).bind fun mirrorId => (check _).bind fun mirageId => ?_
  refine (checkUnbound mirageId mirage).bind fun _ => ?_
  have htie : Steady R (do
      Run.putField mirrorId { name := Selector.base, writable := false, value := mirage }
      Run.setMirror mirageId mirrorId
      Run.report (.bound mirrorId mirageId) : Run κ σ Unit) :=
    (putField mirrorId _).bind fun _ => (hset mirageId mirrorId).bind fun _ => report _
  refine get fun v w hvw => ?_
  rw [World.Affinity.mirrorRoot_eq hvw]
  exact guard _ ((slots mirrorId).bind fun storage => guard _ htie)

omit [World.Affinity R] in
theorem setMirror [World.Likeness R] (mirage mirror : ObjectId) :
    Steady R (Run.setMirror mirage mirror : Run κ σ Unit) :=
  change mirage fun node => node.withMirror (some mirror)

omit [World.Affinity R] in
theorem bindMirror [World.Likeness R] (mirror mirage : Value κ) :
    Steady R (Run.bindMirror mirror mirage : Run κ σ Unit) :=
  bindMirror_of setMirror mirror mirage

end Steady

/-! ## Calls, and closures applied -/

variable {rt rt' : Runtime κ σ}

namespace Below

open Run.Below

theorem invoke (h : Below R rt rt') (receiver : Value κ) (selector : Symbol)
    (arguments : List (Value κ)) :
    Run.Below R (rt.invoke receiver selector arguments) (rt'.invoke receiver selector arguments) :=
  h.send receiver _

variable [World.Affinity R]

theorem apply (h : Below R rt rt') (closure : Closure κ) (arguments : List (Value κ)) :
    Run.Below R (rt.apply closure arguments) (rt'.apply closure arguments) := by
  refine fresh.bind fun identity => (check _).bind fun bindings => fresh.bind fun layout => ?_
  refine (enter layout _).bind fun frame => (Steady.bindAll frame bindings).bind fun _ => ?_
  exact h.run closure.method _ arguments

theorem applyInScope (h : Below R rt rt') (closure : Closure κ) (arguments : List (Value κ))
    (context : Context κ) :
    Run.Below R (rt.applyInScope closure arguments context)
      (rt'.applyInScope closure arguments context) := by
  refine fresh.bind fun identity => (check _).bind fun bindings => ?_
  refine (forM fun binding => (h.send _ _).ignore).bind fun _ => ?_
  exact h.run closure.method context arguments

theorem applyValue (h : Below R rt rt') (callee : Value κ) (arguments : List (Value κ)) :
    Run.Below R (rt.applyValue callee arguments) (rt'.applyValue callee arguments) := by
  cases callee with
  | closure identity closure => exact h.apply closure arguments
  | _ => exact (newTable arguments).bind fun _ => h.invoke _ _ _

/-! ## Using a slot -/

theorem readSlot (h : Below R rt rt') (holder : ObjectId) (name : Symbol) :
    Run.Below R (rt.readSlot holder name) (rt'.readSlot holder name) := by
  refine (slots holder).bind fun storage => ?_
  cases storage.fieldIndex? name with
  | some index => exact Steady.readIndex holder index
  | none =>
    cases storage.custom? name with
    | some field => exact h.invoke field _ _
    | none => exact raise _

theorem writeSlot (h : Below R rt rt') (holder : ObjectId) (name : Symbol) (value : Value κ) :
    Run.Below R (rt.writeSlot holder name value) (rt'.writeSlot holder name value) := by
  refine fun v w hvw => agrees_slots_bind hvw fun node hnode => ?_
  cases hslot : node.slots.fieldSlot? name with
  | some found =>
    obtain ⟨index, writable⟩ := found
    cases writable with
    | true =>
      cases hwrite : node.slots.write? index value with
      | some written =>
        simpa only [hwrite, if_true] using
          agrees_setSlots hvw hnode (World.Affinity.editFields hnode (.write hslot hwrite)
            (Storage.altersOnlyFields_write hwrite) hvw)
      | none => simpa only [hwrite, if_true] using .error .outOfBounds hvw
    | false => exact .error _ hvw
  | none =>
    cases node.slots.custom? name with
    | some field => exact (h.invoke field _ _).ignore v w hvw
    | none => exact .error _ hvw

theorem applyFieldValue (h : Below R rt rt') (selector : Symbol) (value : Value κ)
    (arguments : List (Value κ)) :
    Run.Below R (rt.applyFieldValue selector value arguments)
      (rt'.applyFieldValue selector value arguments) := by
  cases value with
  | closure identity closure => exact h.apply closure arguments
  | _ =>
    cases arguments with
    | nil => exact pure _
    | cons argument arguments => exact raise _

theorem invokeSlot (h : Below R rt rt') (holder : ObjectId) (slot : Slot κ) (receiver : Value κ)
    (selector : Symbol) (arguments : List (Value κ)) :
    Run.Below R (rt.invokeSlot holder slot receiver selector arguments)
      (rt'.invokeSlot holder slot receiver selector arguments) := by
  have hassign : Run.Below R
      (do rt.writeSlot holder (← assignmentTarget selector) (arguments.headD .nil)
          return arguments.headD .nil)
      (do rt'.writeSlot holder (← assignmentTarget selector) (arguments.headD .nil)
          return arguments.headD .nil) :=
    (Steady.assignmentTarget selector).bind fun name =>
      (h.writeSlot holder name _).bind fun _ => pure _
  cases slot with
  | field index writable =>
    exact (Steady.readIndex holder index).bind fun value => h.applyFieldValue selector value arguments
  | custom field =>
    exact (h.invoke field _ _).bind fun value => h.applyFieldValue selector value arguments
  | mutator index writable =>
    match arguments with
    | [] => exact raise _
    | [value] => exact hassign
    | _ :: _ :: _ => exact raise _
  | customMutator field =>
    match arguments with
    | [] => exact raise _
    | [value] => exact hassign
    | _ :: _ :: _ => exact raise _
  | method method =>
    exact (Steady.methodClosure holder method receiver).bind fun closure => h.apply closure arguments

/-! ## Mirrors -/

theorem mirrorBase (h : Below R rt rt') (mirror : Value κ) :
    Run.Below R (rt.mirrorBase mirror) (rt'.mirrorBase mirror) := by
  refine (Steady.storedBase? mirror).bind fun stored => ?_
  cases stored
  case' some stored => refine (pure stored).bind fun base => ?_
  case' none => refine (h.invoke mirror _ _).bind fun base => ?_
  -- what answers for the base, stored or asked for, is checked alike
  all_goals
    cases base with
    | object id =>
      refine (node id).bind fun found => ?_
      cases found <;> first | exact pure id | exact raise _
    | _ => exact raise _

theorem defaultTarget? (h : Below R rt rt') (mirage : ObjectId) (op : MetaOp) :
    Run.Below R (rt.defaultTarget? mirage op) (rt'.defaultTarget? mirage op) := by
  refine (node mirage).bind fun found => ?_
  match found with
  | .mirage ⟨_, some mirror⟩ =>
    refine (node mirror).bind fun mirrorNode => ?_
    split
    · refine (Steady.inheritsDefault mirror op).bind fun inherits => ?_
      cases inherits with
      | true =>
        exact (h.mirrorBase (.object mirror)).bind fun base => (trace _).bind fun _ => pure (some base)
      | false => exact pure none
    · exact pure none
  | .mirage ⟨_, none⟩ => exact pure none
  | .object _ => exact pure none
  | .frame _ => exact pure none

/-! ## Delegation -/

theorem delegatedDefault? (h : Below R rt rt') (parent : Value κ) (op : MetaOp) :
    Run.Below R (rt.delegatedDefault? parent op) (rt'.delegatedDefault? parent op) := by
  cases parent with
  | object id =>
    refine (node id).bind fun found => ?_
    split
    · exact h.defaultTarget? id op
    · exact pure none
  | _ => exact pure none

theorem resolveFrom (h : Below R rt rt') (op : MetaOp) (selector : Symbol) {fuel fuel' : Nat}
    (hfuel : fuel ≤ fuel') (target : ObjectId) :
    Run.Below R (rt.resolveFrom op selector fuel target)
      (rt'.resolveFrom op selector fuel' target) := by
  induction fuel generalizing fuel' target with
  | zero => exact exhausted _
  | succ fuel ih =>
    obtain ⟨fuel', rfl⟩ : ∃ n, fuel' = n + 1 := ⟨fuel' - 1, by omega⟩
    refine (searchDynamic target selector).bind fun resolution => ?_
    cases resolution with
    | delegate parent =>
      refine (h.delegatedDefault? parent op).bind fun continued => ?_
      cases continued with
      | some base => exact ih (by omega) base
      | none => exact pure _
    | found holder slot => exact pure _
    | absent => exact pure _

theorem resolve (h : Below R rt rt') (op : MetaOp) (selector : Symbol) (target : ObjectId) :
    Run.Below R (rt.resolve op selector target) (rt'.resolve op selector target) :=
  h.resolveFrom op selector h.fuel target

omit [World.Affinity R] in
theorem callPrimitive (h : Below R rt rt') (primitive : Primitive) (receiver : Value κ)
    (selector : Symbol) (arguments : List (Value κ)) :
    Run.Below R (rt.callPrimitive primitive receiver selector arguments)
      (rt'.callPrimitive primitive receiver selector arguments) := by
  refine guard _ ?_
  match primitive, arguments with
  | .identical, [] => exact halt .outOfBounds
  | .identical, _ :: _ => exact pure _
  | .notIdentical, [] => exact halt .outOfBounds
  | .notIdentical, _ :: _ => exact pure _
  | .new, arguments => exact h.send receiver _
  | .init, _ => exact pure _

theorem invokeFallback (h : Below R rt rt') (receiver : Value κ) (selector : Symbol)
    (arguments : List (Value κ)) :
    Run.Below R (rt.invokeFallback receiver selector arguments)
      (rt'.invokeFallback receiver selector arguments) := by
  unfold Runtime.invokeFallback
  cases Primitive.ofSelector? selector with
  | some primitive => exact h.callPrimitive primitive receiver selector arguments
  | none => exact (h.send receiver _).bind fun handler => h.applyValue handler arguments

theorem selectFallback (h : Below R rt rt') (receiver : Value κ) (selector : Symbol) :
    Run.Below R (rt.selectFallback receiver selector) (rt'.selectFallback receiver selector) := by
  unfold Runtime.selectFallback
  cases Primitive.ofSelector? selector with
  | some primitive =>
    refine fresh.bind fun identity => get fun v w hvw => ?_
    rw [World.Affinity.lexicalRoot_eq hvw]
    exact newClosure _
  | none => exact h.send receiver _

theorem defaultInvoke (h : Below R rt rt') (target : ObjectId) (receiver : Value κ)
    (selector : Symbol) (arguments : List (Value κ)) :
    Run.Below R (rt.defaultInvoke target receiver selector arguments)
      (rt'.defaultInvoke target receiver selector arguments) := by
  refine (h.resolve .invoke selector target).bind fun ended => ?_
  match ended with
  | (_, .found holder slot) => exact h.invokeSlot holder slot receiver selector arguments
  | (_, .delegate parent) => exact h.send parent _
  | (_, .absent) => exact h.invokeFallback receiver selector arguments

theorem defaultSelect (h : Below R rt rt') (target : ObjectId) (receiver : Value κ)
    (selector : Symbol) :
    Run.Below R (rt.defaultSelect target receiver selector)
      (rt'.defaultSelect target receiver selector) := by
  refine (h.resolve .select selector target).bind fun ended => ?_
  match ended with
  | (_, .found holder slot) => exact Steady.selectSlot holder slot receiver selector
  | (_, .delegate parent) => exact h.send parent _
  | (_, .absent) => exact h.selectFallback receiver selector

theorem defaultAssignField (h : Below R rt rt') (target : ObjectId) (selector : Symbol)
    (value : Value κ) :
    Run.Below R (rt.defaultAssignField target selector value)
      (rt'.defaultAssignField target selector value) := by
  refine (h.resolve .assignField selector target).bind fun ended => ?_
  match ended with
  | (_, .found holder (.field ..)) => exact h.writeSlot holder selector value
  | (_, .found holder (.custom _)) => exact h.writeSlot holder selector value
  | (_, .found holder (.mutator ..)) => exact raise _
  | (_, .found holder (.customMutator _)) => exact raise _
  | (_, .found holder (.method _)) => exact raise _
  | (_, .delegate parent) => exact (h.send parent _).ignore
  | (last, .absent) => exact raise _

omit [World.Affinity R] in
theorem respondsTo (h : Below R rt rt') (value : Value κ) (selector : Symbol) :
    Run.Below R (rt.respondsTo value selector) (rt'.respondsTo value selector) :=
  (h.send value _).bind fun _ => check _

theorem defaultRespondsTo (h : Below R rt rt') (target : ObjectId) (selector : Symbol) :
    Run.Below R (rt.defaultRespondsTo target selector) (rt'.defaultRespondsTo target selector) := by
  refine (h.resolve .respondsTo selector target).bind fun ended => ?_
  match ended with
  | (_, .found _ (.mutator ..)) => exact pure _
  | (_, .found _ (.field ..)) => exact pure _
  | (_, .found _ (.custom _)) => exact pure _
  | (_, .found _ (.customMutator _)) => exact pure _
  | (_, .found _ (.method _)) => exact pure _
  | (_, .delegate parent) => exact h.respondsTo parent selector
  | (_, .absent) => exact pure _

end Below

end Runtime

end Prototypes
