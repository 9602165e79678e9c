import Prototypes.Proofs.Approximation.Programs
import Prototypes.Semantics.Machine

/-!
# Machines below others

Ties the knot: every call of the machine is below the same call of the machine
with more steps.

The machine is a fixed point of its operations, and one of them is what nodes
do by default.  The definitions with `By` in their names leave that one open, so
that machines whose nodes do something else can be compared with the actual
one.  At `Runtime.performDefault` they are the actual ones.

## Main results

* `Runtime.Below.dispatchBy`, `Runtime.Below.runMethodBy` — the two calls of a
  machine, over runtimes and default meanings that are below others.
* `Runtime.machineBy_performDefault` — the actual machine is an instance.
* `Runtime.machineBy_below` — more steps change no answer.
* `Runtime.machineWith_below` — machines that run host programs in ways of their own too.
-/

namespace Prototypes

variable {κ σ α : Type}

namespace Runtime

/-! ## Machines with other default meanings -/

section Definitions

variable (rt : Runtime κ σ) (perform : ObjectId → Message κ → Run κ σ (Value κ))

/-- Hands a mirage's message over to its mirror, or performs it on the mirror's base. -/
def forwardBy (mirage : ObjectId) (message : Message κ) : Run κ σ (Value κ) := do
  let mirror ← Run.mirrorOf mirage
  Run.trace (.forwarding message.op mirage)
  match ← rt.defaultTarget? mirage message.op with
  | some base => perform base message
  | none => rt.askMirror mirror message

/-- What a value answers to a message. -/
def dispatchBy (target : Value κ) (message : Message κ) : Run κ σ (Value κ) := do
  match target with
  | .object id =>
    match ← Run.node id with
    | .object _ => perform id message
    | .mirage _ => rt.forwardBy perform id message
    | .frame _ =>
      if message.op.appliesToFrames then perform id message
      else Run.raise (.illegalOperation (.onCallFrame message.op id))
  | value => rt.performOnValue value message

/-- A mirror's default answer to an operation. -/
def performOnBaseBy (op : MetaOp) (mirror : Value κ) (arguments : List (Value κ)) :
    Run κ σ (Value κ) := do
  let base ← rt.mirrorBase mirror
  Run.trace (.performedDefault mirror.display op base)
  perform base (← Run.check (Message.read op arguments))

/-- Runs a method's body. -/
def runMethodBy (host : Host κ σ) (method : Method κ) (context : Context κ)
    (arguments : List (Value κ)) : Run κ σ (Value κ) :=
  match method.body with
  | .builtin (.performDefault op) => rt.performOnBaseBy perform op context.receiver arguments
  | _ => rt.runMethod host method context arguments

end Definitions

/-- The runtime with a number of steps, in which nodes do by default what `perform` says. -/
def machineBy (host : Host κ σ)
    (perform : Runtime κ σ → ObjectId → Message κ → Run κ σ (Value κ)) : Nat → Runtime κ σ
  | 0 => idle
  | fuel + 1 =>
    let rt := machineBy host perform fuel
    { fuel := fuel + 1
      send := rt.dispatchBy (perform rt)
      run := rt.runMethodBy (perform rt) host }

/-- A plain object performs what it is sent. -/
theorem dispatchBy_plain (rt : Runtime κ σ) (perform : ObjectId → Message κ → Run κ σ (Value κ))
    {id : ObjectId} {body : PrototypeObject κ} {w : World κ σ}
    (hnode : w.heap.node? id = some (.object body)) (message : Message κ) :
    rt.dispatchBy perform (.object id) message w = perform id message w := by
  rw [dispatchBy, Run.node_bind, Heap.get_eq_ok_iff.mpr hnode]

theorem fuel_machineBy (host : Host κ σ)
    (perform : Runtime κ σ → ObjectId → Message κ → Run κ σ (Value κ)) (fuel : Nat) :
    (machineBy host perform fuel).fuel = fuel := by
  cases fuel <;> rfl

/-! ## The actual machine -/

theorem dispatchBy_performDefault (rt : Runtime κ σ) :
    rt.dispatchBy rt.performDefault = rt.dispatch := rfl

theorem runMethodBy_performDefault (rt : Runtime κ σ) (host : Host κ σ) :
    rt.runMethodBy rt.performDefault host = rt.runMethod host := by
  funext method context arguments
  unfold runMethodBy
  split
  · rename_i op hbody
    rw [runMethod, hbody]
    rfl
  · rfl

theorem machineBy_performDefault (host : Host κ σ) (fuel : Nat) :
    machineBy host performDefault fuel = ofFuel host fuel := by
  induction fuel with
  | zero => rfl
  | succ fuel ih =>
    simp only [machineBy, ih, dispatchBy_performDefault, runMethodBy_performDefault]
    rfl

/-! ## Below -/

variable {R : World κ σ → World κ σ → Prop} [World.Affinity R] {rt rt' : Runtime κ σ}
  {perform perform' : ObjectId → Message κ → Run κ σ (Value κ)}

omit [World.Affinity R] in
theorem Steady.firstArgument (arguments : List (Value κ)) :
    Run.Steady R (Runtime.firstArgument arguments : Run κ σ (Value κ)) := by
  cases arguments with
  | nil => exact .halt .outOfBounds
  | cons argument arguments => exact .pure argument

namespace Below

open Run.Below

theorem askMirror (h : Below R rt rt') (mirror : ObjectId) (message : Message κ) :
    Run.Below R (rt.askMirror mirror message) (rt'.askMirror mirror message) := by
  refine fresh.bind fun table => ?_
  exact (h.invoke _ _ _).bind fun answer => check _

theorem forwardBy (h : Below R rt rt')
    (hperform : ∀ id message, Run.Below R (perform id message) (perform' id message))
    (mirage : ObjectId) (message : Message κ) :
    Run.Below R (rt.forwardBy perform mirage message) (rt'.forwardBy perform' mirage message) := by
  refine (mirrorOf mirage).bind fun mirror => (trace _).bind fun _ => ?_
  refine (h.defaultTarget? mirage message.op).bind fun base => ?_
  cases base with
  | some base => exact hperform base message
  | none => exact h.askMirror mirror message

theorem dispatchBy (h : Below R rt rt')
    (hperform : ∀ id message, Run.Below R (perform id message) (perform' id message))
    (target : Value κ) (message : Message κ) :
    Run.Below R (rt.dispatchBy perform target message) (rt'.dispatchBy perform' target message) := by
  cases target with
  | object id =>
    refine (node id).bind fun found => ?_
    cases found with
    | object body => exact hperform id message
    | mirage mirage => exact h.forwardBy hperform id message
    | frame frame =>
      dsimp only
      split
      · exact hperform id message
      · exact raise _
  | _ => exact h.performOnValue _ message

theorem performOnBaseBy (h : Below R rt rt')
    (hperform : ∀ id message, Run.Below R (perform id message) (perform' id message))
    (op : MetaOp) (mirror : Value κ) (arguments : List (Value κ)) :
    Run.Below R (rt.performOnBaseBy perform op mirror arguments)
      (rt'.performOnBaseBy perform' op mirror arguments) := by
  refine (h.mirrorBase mirror).bind fun base => (trace _).bind fun _ => ?_
  exact (check _).bind fun message => hperform base message

/-- A method run, if mirrors are tied and host code is run in a way that keeps the relation. -/
theorem runMethodBy_of (h : Below R rt rt')
    (hperform : ∀ id message, Run.Below R (perform id message) (perform' id message))
    (host : Host κ σ) (method : Method κ) (context : Context κ) (arguments : List (Value κ))
    (hbind : method.body = .builtin .bindBase → ∀ mirage : Value κ,
      Run.Steady R (Run.bindMirror context.receiver mirage : Run κ σ Unit))
    (hprogram : ∀ code, method.body = .host code →
      Run.Below R ((host.program code context arguments).run rt)
        ((host.program code context arguments).run rt')) :
    Run.Below R (rt.runMethodBy perform host method context arguments)
      (rt'.runMethodBy perform' host method context arguments) := by
  obtain ⟨identity, name, parameters, body⟩ := method
  match body with
  | .builtin (.performDefault op) => exact h.performOnBaseBy hperform op context.receiver arguments
  | .builtin (.accessor name) =>
    exact (Steady.slotOwner context).bind fun owner => h.readSlot owner name
  | .builtin (.mutator name) =>
    refine (Steady.slotOwner context).bind fun owner => ?_
    refine (Steady.firstArgument arguments).bind fun value => ?_
    exact (h.writeSlot owner name value).bind fun _ => pure value
  | .builtin (.notUnderstood selector) => exact raise _
  | .builtin (.primitive primitive selector) => exact h.callPrimitive primitive _ selector arguments
  | .builtin (.resend selector) => exact h.send _ _
  | .builtin .bindBase =>
    refine (Steady.firstArgument arguments).bind fun value => ?_
    exact (hbind rfl value).bind fun _ => pure _
  | .host code => exact hprogram code rfl
  | .fragment fragment => exact fragment.eval_below h context

omit [World.Affinity R] in
theorem runMethodBy [World.Likeness R] (h : Below R rt rt')
    (hperform : ∀ id message, Run.Below R (perform id message) (perform' id message))
    (host : Host κ σ) (method : Method κ) (context : Context κ) (arguments : List (Value κ)) :
    Run.Below R (rt.runMethodBy perform host method context arguments)
      (rt'.runMethodBy perform' host method context arguments) :=
  h.runMethodBy_of hperform host method context arguments
    (fun _ mirage => Steady.bindMirror context.receiver mirage) fun _ _ => h.program _

end Below

omit [World.Affinity R] in
theorem Below.idle (rt : Runtime κ σ) : Below R Runtime.idle rt where
  fuel := Nat.zero_le rt.fuel
  send _ _ := .exhausted _
  run _ _ _ := .exhausted _

section Likeness

omit [World.Affinity R]

variable [World.Likeness R]

/-- More steps change no answer, if what nodes do by default is not changed by them. -/
theorem machineBy_below (host : Host κ σ)
    {perform : Runtime κ σ → ObjectId → Message κ → Run κ σ (Value κ)}
    (hperform : ∀ {rt rt'}, Below R rt rt' →
      ∀ id message, Run.Below R (perform rt id message) (perform rt' id message))
    {n m : Nat} (hle : n ≤ m) : Below R (machineBy host perform n) (machineBy host perform m) := by
  induction n generalizing m with
  | zero => exact .idle _
  | succ n ih =>
    obtain ⟨m, rfl⟩ : ∃ k, m = k + 1 := ⟨m - 1, by omega⟩
    have h := ih (Nat.le_of_succ_le_succ hle)
    exact { fuel := hle, send := h.dispatchBy (hperform h), run := h.runMethodBy (hperform h) host }

theorem ofFuel_below (host : Host κ σ) {n m : Nat} (hle : n ≤ m) :
    Below R (ofFuel host n) (ofFuel host m) := by
  rw [← machineBy_performDefault, ← machineBy_performDefault]
  exact machineBy_below host Below.performDefault hle

end Likeness

/-! ## Machines with other host programs -/

/-- Runs a method's body; `perform` says what nodes do, `program` how host programs are run. -/
def runMethodWith (rt : Runtime κ σ) (perform : ObjectId → Message κ → Run κ σ (Value κ))
    (program : Program κ σ (Value κ) → Run κ σ (Value κ)) (host : Host κ σ) (method : Method κ)
    (context : Context κ) (arguments : List (Value κ)) : Run κ σ (Value κ) :=
  match method.body with
  | .host code => program (host.program code context arguments)
  | _ => rt.runMethodBy perform host method context arguments

/-- The runtime with a number of steps, in which nodes and host programs do what is given. -/
def machineWith (host : Host κ σ)
    (perform : Runtime κ σ → ObjectId → Message κ → Run κ σ (Value κ))
    (program : Runtime κ σ → Program κ σ (Value κ) → Run κ σ (Value κ)) : Nat → Runtime κ σ
  | 0 => idle
  | fuel + 1 =>
    let rt := machineWith host perform program fuel
    { fuel := fuel + 1
      send := rt.dispatchBy (perform rt)
      run := rt.runMethodWith (perform rt) (program rt) host }

theorem machineWith_actual (host : Host κ σ) (fuel : Nat) :
    machineWith host performDefault (fun rt program => program.run rt) fuel = ofFuel host fuel := by
  induction fuel with
  | zero => rfl
  | succ fuel ih =>
    have hrun (rt : Runtime κ σ) : rt.runMethodWith rt.performDefault (fun program => program.run rt)
        host = rt.runMethod host := by
      funext method context arguments
      obtain ⟨identity, name, parameters, body⟩ := method
      rw [← runMethodBy_performDefault]
      cases body <;> rfl
    simp only [machineWith, ih, dispatchBy_performDefault, hrun]
    rfl

theorem Below.runMethodWith (h : Below R rt rt')
    (hperform : ∀ id message, Run.Below R (perform id message) (perform' id message))
    {program program' : Program κ σ (Value κ) → Run κ σ (Value κ)}
    (hprogram : ∀ code, Run.Below R (program code) (program' code))
    (hbind : ∀ mirror mirage : Value κ, Run.Steady R (Run.bindMirror mirror mirage : Run κ σ Unit))
    (host : Host κ σ) (method : Method κ) (context : Context κ) (arguments : List (Value κ)) :
    Run.Below R (rt.runMethodWith perform program host method context arguments)
      (rt'.runMethodWith perform' program' host method context arguments) := by
  have hother := h.runMethodBy_of hperform host method context arguments fun _ => hbind _
  obtain ⟨identity, name, parameters, body⟩ := method
  cases body with
  | host code => exact hprogram (host.program code context arguments)
  | builtin body => exact hother fun _ hcode => nomatch hcode
  | fragment fragment => exact hother fun _ hcode => nomatch hcode

/-- Machines are below each other if what their nodes and host programs do is. -/
theorem machineWith_below (host : Host κ σ)
    {perform perform' : Runtime κ σ → ObjectId → Message κ → Run κ σ (Value κ)}
    {program program' : Runtime κ σ → Program κ σ (Value κ) → Run κ σ (Value κ)}
    (hperform : ∀ {rt rt'}, Below R rt rt' →
      ∀ id message, Run.Below R (perform rt id message) (perform' rt' id message))
    (hprogram : ∀ {rt rt'}, Below R rt rt' →
      ∀ code, Run.Below R (program rt code) (program' rt' code))
    (hbind : ∀ mirror mirage : Value κ, Run.Steady R (Run.bindMirror mirror mirage : Run κ σ Unit))
    (fuel : Nat) :
    Below R (machineWith host perform program fuel) (machineWith host perform' program' fuel) := by
  induction fuel with
  | zero => exact .idle _
  | succ fuel ih =>
    exact
      { fuel := Nat.le_refl _
        send := ih.dispatchBy (hperform ih)
        run := ih.runMethodWith (hperform ih) (hprogram ih) hbind host }

end Runtime

end Prototypes
