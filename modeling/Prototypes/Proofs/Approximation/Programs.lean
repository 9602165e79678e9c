import Prototypes.Proofs.Approximation.Defaults
import Prototypes.Semantics.Dispatch

/-!
# Operations below others: values and host programs

Completes the list of operations with those on values outside the heap,
fragments of code among them, and goes through what the host can do.  A host
program sees the world only without its log, and its runtime only through
requests, so that programs too are below themselves over a runtime that is
above.  `Program.runBy` leaves open how requests are answered and collections made,
for machines that differ from the actual one in that.

Where an operation ties mirrors, the lemmas with `_of` in their names take as hypotheses
that it does so in a way that keeps the relation.
-/

namespace Prototypes

variable {κ σ α : Type}

open Run (Steady)

/-! ## Fragments -/

section Fragments

variable {R : World κ σ → World κ σ → Prop} {rt rt' : Runtime κ σ}

open Run.Below

theorem Quoted.steady_toValue [World.Affinity R] (quoted : Quoted κ) :
    Steady R (quoted.toValue : Run κ σ (Value κ)) := by
  cases quoted with
  | code fragment => exact fresh.bind fun _ => pure _
  | value value => exact pure value

namespace Fragment

mutual

theorem eval_below [World.Affinity R] (h : Runtime.Below R rt rt') (context : Context κ) :
    (fragment : Fragment κ) → Run.Below R (fragment.eval rt context) (fragment.eval rt' context)
  | .literal _ => pure _
  | .selfReference => pure _
  | .variableReference _ => h.send _ _
  | .definition _ fragment =>
    (eval_below h context fragment).bind fun _ => (h.send _ _).ignore.bind fun _ => pure _
  | .assignment _ fragment =>
    (eval_below h context fragment).bind fun _ => (h.send _ _).ignore.bind fun _ => pure _
  | .methodDefinition _ => (h.send _ _).ignore.bind fun _ => pure _
  | .messageSend receiver _ arguments =>
    (eval_below h context receiver).bind fun _ =>
      (evalAll_below h context arguments).bind fun _ => h.invoke _ _ _
  | .sequence statements => evalLast_below h context .nil statements
  | .quotation body => (quote_below h context body).bind fun quoted => quoted.steady_toValue
  | .unquotation _ => raise _

theorem evalAll_below [World.Affinity R] (h : Runtime.Below R rt rt') (context : Context κ) :
    (fragments : List (Fragment κ)) →
      Run.Below R (evalAll rt context fragments) (evalAll rt' context fragments)
  | [] => pure []
  | fragment :: more =>
    (eval_below h context fragment).bind fun _ =>
      (evalAll_below h context more).bind fun _ => pure _

theorem evalLast_below [World.Affinity R] (h : Runtime.Below R rt rt') (context : Context κ)
    (last : Value κ) :
    (fragments : List (Fragment κ)) →
      Run.Below R (evalLast rt context last fragments) (evalLast rt' context last fragments)
  | [] => pure last
  | fragment :: more =>
    (eval_below h context fragment).bind fun value => evalLast_below h context value more

theorem quote_below [World.Affinity R] (h : Runtime.Below R rt rt') (context : Context κ) :
    (fragment : Fragment κ) → Run.Below R (fragment.quote rt context) (fragment.quote rt' context)
  | .literal _ => pure _
  | .selfReference => pure _
  | .variableReference _ => pure _
  | .definition _ fragment => (quote_below h context fragment).bind fun _ => pure _
  | .assignment _ fragment => (quote_below h context fragment).bind fun _ => pure _
  | .methodDefinition _ => pure _
  | .messageSend receiver _ arguments =>
    (quote_below h context receiver).bind fun _ =>
      (quoteAll_below h context arguments).bind fun _ => pure _
  | .sequence statements => (quoteAll_below h context statements).bind fun _ => pure _
  | .quotation body => (quote_below h context body).bind fun _ => pure _
  | .unquotation body => (eval_below h context body).map _

theorem quoteAll_below [World.Affinity R] (h : Runtime.Below R rt rt') (context : Context κ) :
    (fragments : List (Fragment κ)) →
      Run.Below R (quoteAll rt context fragments) (quoteAll rt' context fragments)
  | [] => pure []
  | fragment :: more =>
    (quote_below h context fragment).bind fun _ =>
      (quoteAll_below h context more).bind fun _ => pure _

end

end Fragment

end Fragments

/-! ## Host programs -/

namespace Program

/-- Runs a program whose requests are answered, and whose collections made, in given ways. -/
def runBy (answer : Request κ → Run κ σ (Value κ)) (collection : List (Value κ) → Run κ σ Collected) :
    Program κ σ α → Run κ σ α
  | done answered => pure answered
  | stop reason => Run.halt reason
  | observe next => fun world => (next world.visible).runBy answer collection world
  | remember update next => fun world =>
    next.runBy answer collection { world with host := update world.host }
  | fresh next => fun world =>
    (next ⟨world.supply⟩).runBy answer collection { world with supply := world.supply + 1 }
  | request r next => fun world =>
    match answer r world with
    | .ok answered world => (next (.ok answered)).runBy answer collection world
    | .error (.raised e) world => (next (.error e)).runBy answer collection world
    | .error reason world => .error reason world
  | collect roots next => fun world =>
    match collection roots world with
    | .ok collected world => (next collected).runBy answer collection world
    | .error reason world => .error reason world

theorem run_eq_runBy (rt : Runtime κ σ) (program : Program κ σ α) :
    program.run rt = program.runBy (fun request => request.run rt) Run.collect := by
  induction program with
  | done answer => rfl
  | stop reason => rfl
  | observe next ih =>
    funext world
    exact congrFun (ih world.visible) world
  | remember update next ih =>
    funext world
    exact congrFun ih { world with host := update world.host }
  | fresh next ih =>
    funext world
    exact congrFun (ih ⟨world.supply⟩) { world with supply := world.supply + 1 }
  | request asked next ih =>
    funext world
    unfold run runBy
    cases asked.run rt world with
    | ok answered after => exact congrFun (ih (.ok answered)) after
    | error reason after =>
      cases reason with
      | raised error => exact congrFun (ih (.error error)) after
      | _ => rfl
  | collect roots next ih =>
    funext world
    unfold run runBy
    cases Run.collect roots world with
    | ok collected after => exact congrFun (ih collected) after
    | error reason after => rfl

/-- What holds of all requests and collections holds of programs. -/
theorem runBy_below {R : World κ σ → World κ σ → Prop} [World.Affinity R]
    {answer answer' : Request κ → Run κ σ (Value κ)}
    {collection collection' : List (Value κ) → Run κ σ Collected}
    (hanswer : ∀ request, Run.Below R (answer request) (answer' request))
    (hcollection : ∀ roots, Run.Below R (collection roots) (collection' roots))
    (program : Program κ σ α) :
    Run.Below R (program.runBy answer collection) (program.runBy answer' collection') := by
  induction program with
  | done answered => exact .pure answered
  | stop reason => exact .halt reason
  | observe next ih =>
    intro v w hvw
    have hnext := ih v.visible v w hvw
    show Run.Agrees R ((next v.visible).runBy answer collection v)
      ((next w.visible).runBy answer' collection' w)
    rwa [← World.Affinity.visible hvw]
  | remember update next ih =>
    intro v w hvw
    have hnext := ih _ _ (World.Affinity.setHost (update v.host) hvw)
    show Run.Agrees R (next.runBy answer collection { v with host := update v.host })
      (next.runBy answer' collection' { w with host := update w.host })
    rwa [← World.Affinity.host_eq hvw]
  | fresh next ih =>
    intro v w hvw
    have hnext := ih ⟨v.supply⟩ _ _ (World.Affinity.setSupply (v.supply + 1) hvw)
    show Run.Agrees R ((next ⟨v.supply⟩).runBy answer collection { v with supply := v.supply + 1 })
      ((next ⟨w.supply⟩).runBy answer' collection' { w with supply := w.supply + 1 })
    rwa [← World.Affinity.supply_eq hvw]
  | request asked next ih =>
    intro v w hvw
    have hasked := hanswer asked v w hvw
    unfold runBy
    generalize answer asked v = first at hasked
    generalize answer' asked w = second at hasked
    cases hasked with
    | exhausted v _ => exact .exhausted v _
    | ok answered hvw => exact ih (.ok answered) _ _ hvw
    | error reason hvw =>
      cases reason with
      | raised error => exact ih (.error error) _ _ hvw
      | _ => exact .error _ hvw
  | collect roots next ih =>
    intro v w hvw
    have hcollected := hcollection roots v w hvw
    unfold runBy
    generalize collection roots v = first at hcollected
    generalize collection' roots w = second at hcollected
    cases hcollected with
    | exhausted v _ => exact .exhausted v _
    | ok collected hvw => exact ih collected _ _ hvw
    | error reason hvw => exact .error reason hvw

end Program

/-- Whether a request makes a mirage or ties one to a mirror. -/
def Request.touchesMirages : Request κ → Bool
  | newMirage .. | bindMirror .. | createMirage .. => true
  | _ => false

namespace Runtime

variable {R : World κ σ → World κ σ → Prop} [World.Affinity R]

/-! ## Values outside the heap -/

namespace Steady

open Run.Below

theorem valueSelect (value receiver : Value κ) (selector : Symbol) :
    Steady R (Runtime.valueSelect value receiver selector : Run κ σ (Value κ)) := by
  refine fresh.bind fun identity => get fun v w hvw => ?_
  rw [World.Affinity.lexicalRoot_eq hvw]
  exact newClosure _

theorem resolveReference (value : Value κ) :
    Steady R (Runtime.resolveReference value : Run κ σ (Value κ)) := by
  cases value with
  | farReference reference =>
    refine get fun v w hvw => ?_
    rw [World.Affinity.actor_eq hvw]
    split
    · exact pure _
    · exact pure _
  | _ => exact pure _

end Steady

variable {rt rt' : Runtime κ σ}

namespace Below

open Run.Below

theorem performOnField (h : Below R rt rt') (field : NativeField) (selector : Symbol)
    (arguments : List (Value κ)) :
    Run.Below R (rt.performOnField field selector arguments)
      (rt'.performOnField field selector arguments) := by
  unfold Runtime.performOnField
  split
  · exact pure _
  · split
    · exact h.readSlot field.host field.name
    · cases arguments with
      | nil => exact halt .outOfBounds
      | cons argument arguments =>
        dsimp only
        split
        · exact (h.writeSlot field.host field.name argument).bind fun _ => pure _
        · exact (check _).bind fun _ => pure _

theorem valueProtocol (h : Below R rt rt') (value : Value κ) (selector : Symbol)
    (arguments : List (Value κ)) :
    Run.Below R (rt.valueProtocol value selector arguments)
      (rt'.valueProtocol value selector arguments) := by
  unfold Runtime.valueProtocol
  split
  · exact pure none
  · refine guard _ ?_
    split
    · exact (check _).bind fun _ => (h.apply _ _).map some
    · exact (h.performOnField _ selector _).map some
    · exact pure none

theorem performOnValue (h : Below R rt rt') (value : Value κ) (message : Message κ) :
    Run.Below R (rt.performOnValue value message) (rt'.performOnValue value message) := by
  cases message with
  | invoke receiver selector arguments =>
    refine (h.valueProtocol value selector arguments).bind fun answer => ?_
    cases answer with
    | some answer => exact pure answer
    | none => exact h.invokeFallback receiver selector arguments
  | select receiver selector =>
    unfold Runtime.performOnValue
    dsimp only
    split
    · exact Steady.valueSelect value receiver selector
    · exact h.selectFallback receiver selector
  | newInstance arguments => exact (h.invoke value _ arguments).ignore.bind fun _ => pure value
  | extend code => exact h.extendWith value _ code []
  | share code => exact h.extendWith value _ code []
  | doesNotUnderstand selector => exact Steady.defaultHandler value selector
  | eval context =>
    refine (check _).bind fun context => ?_
    cases value with
    | fragment identity fragment => exact fragment.eval_below h context
    | _ => exact pure _
  | quote context =>
    refine (check _).bind fun context => ?_
    cases value with
    | fragment identity fragment =>
      exact (fragment.quote_below h context).bind fun quoted => quoted.steady_toValue
    | _ => exact pure _
  | resolve => exact Steady.resolveReference value
  | typeTags => exact newTable []
  | clone | pass | isCloneOf | isRelatedTo | respondsTo | print | isTaggedAs => exact pure _
  | lookup | call | assignField | assignVariable | defineField | addField | grabField
  | listFields | addMethod | grabMethod | listMethods | addSlot | grabSlot | removeSlot
  | listSlots => exact raise _

/-! ## Requests -/

/-- In a new world nothing is asked to find out what a value stands for. -/
theorem dispatch_resolve_new (rt rt' : Runtime κ σ) (settings : WorldSettings) (host : σ)
    (value : Value κ) :
    rt.dispatch value .resolve (World.new settings host) =
      rt'.dispatch value .resolve (World.new settings host) := by
  cases value with
  | object id =>
    obtain ⟨index⟩ := id
    match index with
    | 0 => rfl
    | 1 => rfl
    | index + 2 => rfl
  | _ => rfl

theorem resolveElsewhere (rt rt' : Runtime κ σ) (actor : ActorId) (value : Value κ) :
    Run.Below R (Request.resolveElsewhere rt actor value)
      (Request.resolveElsewhere rt' actor value) := by
  intro v w hvw
  have happend := World.Affinity.append (World.new (κ := κ)
    { (default : WorldSettings) with actor } v.host).log hvw
  simp only [Request.resolveElsewhere, ← World.Affinity.host_eq hvw] at happend ⊢
  rw [dispatch_resolve_new rt rt']
  cases rt'.dispatch value .resolve
      (World.new { (default : WorldSettings) with actor } v.host) with
  | ok answer _ => exact .ok answer happend
  | error reason _ => exact .error reason happend

/-- A request answered, if mirages are made and mirrors tied in a way that keeps the relation. -/
theorem request_of_mirages (h : Below R rt rt') (request : Request κ)
    (hmirages : request.touchesMirages = true → Run.Below R (request.run rt) (request.run rt')) :
    Run.Below R (request.run rt) (request.run rt') := by
  cases request with
  | send target message => exact h.send target message
  | apply closure arguments => exact h.apply closure arguments
  | applyInScope closure arguments context => exact h.applyInScope closure arguments context
  | newObject => exact Steady.newObject
  | extendWith parent link code tags => exact h.extendWith parent link code tags
  | newMirage | bindMirror | createMirage => exact hmirages rfl
  | freshMirror => exact Steady.freshMirror
  | mirrorBase mirror => exact (h.mirrorBase mirror).map _
  | resolveIn actor value => exact resolveElsewhere rt rt' actor value

omit [World.Affinity R] in
/-- A request answered, if mirrors are tied in a way that keeps the relation. -/
theorem request_of [World.Kinship R] (h : Below R rt rt') (request : Request κ)
    (hfresh : ∀ mirage : Value κ, Steady R (Run.freshMirror >>= fun mirror => Run.bindMirror mirror mirage))
    (hbind : ∀ mirror mirage, request = .bindMirror mirror mirage →
      Steady R (Run.bindMirror mirror mirage : Run κ σ Unit)) :
    Run.Below R (request.run rt) (request.run rt') := by
  refine h.request_of_mirages request fun hmirages => ?_
  cases request with
  | newMirage parent link scope tags => exact (Steady.newMirage parent link scope tags).map _
  | bindMirror mirror mirage => exact (hbind mirror mirage rfl).bind fun _ => pure _
  | createMirage code mirror tags => exact h.createMirage hfresh code mirror tags
  | _ => cases hmirages

omit [World.Affinity R] in
/-- It is enough that giving a mirage its mirror does. -/
theorem request_of_setMirror [World.Kinship R] (h : Below R rt rt') (request : Request κ)
    (hset : ∀ mirage mirror, Steady R (Run.setMirror mirage mirror : Run κ σ Unit)) :
    Run.Below R (request.run rt) (request.run rt') :=
  h.request_of request
    (fun mirage => Steady.freshMirror.bind fun mirror => Steady.bindMirror_of hset mirror mirage)
    fun mirror mirage _ => Steady.bindMirror_of hset mirror mirage

section Likeness

omit [World.Affinity R]

variable [World.Likeness R]

theorem request (h : Below R rt rt') (request : Request κ) :
    Run.Below R (request.run rt) (request.run rt') :=
  h.request_of_setMirror request Steady.setMirror

/-- Host code sees the world without its log, and nothing of how many steps there are. -/
theorem program (h : Below R rt rt') (program : Program κ σ α) :
    Run.Below R (program.run rt) (program.run rt') := by
  rw [Program.run_eq_runBy, Program.run_eq_runBy]
  exact program.runBy_below h.request Run.Below.collect

end Likeness

end Below

end Runtime

end Prototypes
