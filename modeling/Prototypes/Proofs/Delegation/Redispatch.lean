import Prototypes.Proofs.Delegation.Walks

/-!
# Going on in place is dispatching again

The four operations that look along dynamic parents go on inside the base of a
mirage parent they pass over, in a loop.  The versions here have no loop: they
search once, and wherever the search stops at a parent they send it the
operation's message, be it a mirage with a mirror of any kind, an unbound one,
or no object at all.  A machine whose nodes do this by default
(`Runtime.redispatching`) has the same outcomes as the actual one.

Neither machine does in one step what the other does in one.  A loop that
passes over many mirages is one operation, whereas every one of them costs a
dispatch to the other machine; so the two are compared by showing that each is
below the other with a number of steps that grows with the run.

## Main results

* `Walk.inPlace_below_redispatched`, `Walk.redispatched_below_inPlace` — in the
  actual machine, one dispatch more or less.
* `Runtime.ofFuel_below_redispatching`, `Runtime.redispatching_below_ofFuel` —
  each machine is below the other.
* `Runtime.inPlace_same_as_redispatching` — the four loops have the outcomes of
  their versions without.
-/

namespace Prototypes

variable {κ σ α : Type}

/-! ## The operations without loops -/

namespace Runtime

variable (rt : Runtime κ σ)

/-- Sends a message; a parent at which the search stops is sent the message. -/
def redispatchInvoke (target : ObjectId) (receiver : Value κ) (selector : Symbol)
    (arguments : List (Value κ)) : Run κ σ (Value κ) := do
  match ← Run.searchDynamic target selector with
  | .found holder slot => rt.invokeSlot holder slot receiver selector arguments
  | .delegate parent => rt.send parent (.invoke receiver selector arguments)
  | .absent => rt.invokeFallback receiver selector arguments

/-- Selects a slot; a parent at which the search stops is asked to. -/
def redispatchSelect (target : ObjectId) (receiver : Value κ) (selector : Symbol) :
    Run κ σ (Value κ) := do
  match ← Run.searchDynamic target selector with
  | .found holder slot => selectSlot holder slot receiver selector
  | .delegate parent => rt.send parent (.select receiver selector)
  | .absent => rt.selectFallback receiver selector

/-- Assigns a field; a parent at which the search stops is asked to. -/
def redispatchAssignField (target : ObjectId) (selector : Symbol) (value : Value κ) :
    Run κ σ Unit := do
  match ← Run.searchDynamic target selector with
  | .found holder (.field ..) | .found holder (.custom _) => rt.writeSlot holder selector value
  | .found holder _ => Run.raise (.illegalOperation (.notField selector holder))
  | .delegate parent => discard <| rt.send parent (.assignField selector value)
  | .absent => Run.raise (notFoundFrom selector target)

/-- Whether a message is understood; a parent at which the search stops is asked. -/
def redispatchRespondsTo (target : ObjectId) (selector : Symbol) : Run κ σ Bool := do
  match ← Run.searchDynamic target selector with
  | .found _ (.mutator _ writable) => return writable
  | .found _ _ => return true
  | .delegate parent => rt.respondsTo parent selector
  | .absent => return (Primitive.ofSelector? selector).isSome

/-- What nodes do by default when nothing is passed over. -/
def performRedispatching (id : ObjectId) : Message κ → Run κ σ (Value κ)
  | .invoke receiver selector arguments => rt.redispatchInvoke id receiver selector arguments
  | .select receiver selector => rt.redispatchSelect id receiver selector
  | .assignField selector value => do
    rt.redispatchAssignField id selector value
    return .nil
  | .respondsTo selector => .bool <$> rt.redispatchRespondsTo id selector
  | message => rt.performDefault id message

/-- The machine in which nothing is passed over. -/
def redispatching (host : Host κ σ) : Nat → Runtime κ σ := machineBy host performRedispatching

end Runtime

namespace Walk

/-- A walk is what nodes do by default, with its loop and without. -/
structure Performs (walk : Walk κ σ α) : Prop where
  inPlace : ∀ (rt : Runtime κ σ) id,
    rt.performDefault id walk.message = walk.answer <$> walk.inPlace rt id
  redispatched : ∀ (rt : Runtime κ σ) id,
    rt.performRedispatching id walk.message = walk.answer <$> walk.redispatched rt id

variable (rt : Runtime κ σ) (target : ObjectId)

theorem defaultInvoke_eq (receiver : Value κ) (selector : Symbol) (arguments : List (Value κ)) :
    rt.defaultInvoke target receiver selector arguments =
      (invoke receiver selector arguments).inPlace rt target := by
  apply bind_congr
  intro ended
  match ended with
  | (_, .found holder slot) => rfl
  | (_, .delegate parent) => exact (bind_pure _).symm
  | (_, .absent) => rfl

theorem defaultSelect_eq (receiver : Value κ) (selector : Symbol) :
    rt.defaultSelect target receiver selector = (select receiver selector).inPlace rt target := by
  apply bind_congr
  intro ended
  match ended with
  | (_, .found holder slot) => rfl
  | (_, .delegate parent) => exact (bind_pure _).symm
  | (_, .absent) => rfl

theorem defaultAssignField_eq (selector : Symbol) (value : Value κ) :
    rt.defaultAssignField target selector value =
      (assignField selector value).inPlace rt target := by
  apply bind_congr
  intro ended
  match ended with
  | (_, .found holder slot) => cases slot <;> rfl
  | (_, .delegate parent) => rfl
  | (_, .absent) => rfl

theorem defaultRespondsTo_eq (selector : Symbol) :
    rt.defaultRespondsTo target selector = (respondsTo selector).inPlace rt target := by
  apply bind_congr
  intro ended
  match ended with
  | (_, .found holder slot) => cases slot <;> rfl
  | (_, .delegate parent) => rfl
  | (_, .absent) => rfl

theorem redispatchInvoke_eq (receiver : Value κ) (selector : Symbol) (arguments : List (Value κ)) :
    rt.redispatchInvoke target receiver selector arguments =
      (invoke receiver selector arguments).redispatched rt target := by
  apply bind_congr
  intro resolution
  match resolution with
  | .found holder slot => rfl
  | .delegate parent => exact (bind_pure _).symm
  | .absent => rfl

theorem redispatchSelect_eq (receiver : Value κ) (selector : Symbol) :
    rt.redispatchSelect target receiver selector =
      (select receiver selector).redispatched rt target := by
  apply bind_congr
  intro resolution
  match resolution with
  | .found holder slot => rfl
  | .delegate parent => exact (bind_pure _).symm
  | .absent => rfl

theorem redispatchAssignField_eq (selector : Symbol) (value : Value κ) :
    rt.redispatchAssignField target selector value =
      (assignField selector value).redispatched rt target := by
  apply bind_congr
  intro resolution
  match resolution with
  | .found holder slot => cases slot <;> rfl
  | .delegate parent => rfl
  | .absent => rfl

theorem redispatchRespondsTo_eq (selector : Symbol) :
    rt.redispatchRespondsTo target selector = (respondsTo selector).redispatched rt target := by
  apply bind_congr
  intro resolution
  match resolution with
  | .found holder slot => cases slot <;> rfl
  | .delegate parent => rfl
  | .absent => rfl

theorem performs_invoke (receiver : Value κ) (selector : Symbol) (arguments : List (Value κ)) :
    (invoke receiver selector arguments : Walk κ σ _).Performs where
  inPlace rt id := by
    rw [← defaultInvoke_eq]
    exact (id_map _).symm
  redispatched rt id := by
    rw [← redispatchInvoke_eq]
    exact (id_map _).symm

theorem performs_select (receiver : Value κ) (selector : Symbol) :
    (select receiver selector : Walk κ σ _).Performs where
  inPlace rt id := by
    rw [← defaultSelect_eq]
    exact (id_map _).symm
  redispatched rt id := by
    rw [← redispatchSelect_eq]
    exact (id_map _).symm

theorem performs_assignField (selector : Symbol) (value : Value κ) :
    (assignField selector value : Walk κ σ _).Performs where
  inPlace rt id := by
    rw [← defaultAssignField_eq]
    exact bind_pure_comp _ _
  redispatched rt id := by
    rw [← redispatchAssignField_eq]
    exact bind_pure_comp _ _

theorem performs_respondsTo (selector : Symbol) :
    (respondsTo selector : Walk κ σ _).Performs where
  inPlace rt id := by
    rw [← defaultRespondsTo_eq]
    rfl
  redispatched rt id := by
    rw [← redispatchRespondsTo_eq]
    rfl

namespace Performs

variable {walk : Walk κ σ α} (hwalk : walk.Performs)
include hwalk

/-- What is made of the answer of a node that performs the walk by default is what the walk answers. -/
theorem inPlace_receive (rt : Runtime κ σ) (id : ObjectId) :
    rt.performDefault id walk.message >>= walk.receive = walk.inPlace rt id := by
  rw [hwalk.inPlace, bind_map_left]
  simp only [walk.receive_answer, bind_pure]

theorem redispatched_receive (rt : Runtime κ σ) (id : ObjectId) :
    rt.performRedispatching id walk.message >>= walk.receive = walk.redispatched rt id := by
  rw [hwalk.redispatched, bind_map_left]
  simp only [walk.receive_answer, bind_pure]

end Performs

end Walk

/-- A message is performed by a walk, or else the same way in both machines. -/
theorem Message.walk_or_same (message : Message κ) :
    (∃ (α : Type) (walk : Walk κ σ α), walk.Performs ∧ walk.message = message) ∨
      ∀ (rt : Runtime κ σ) id, rt.performRedispatching id message = rt.performDefault id message := by
  cases message with
  | invoke receiver selector arguments =>
    exact .inl ⟨_, _, Walk.performs_invoke receiver selector arguments, rfl⟩
  | select receiver selector => exact .inl ⟨_, _, Walk.performs_select receiver selector, rfl⟩
  | assignField selector value => exact .inl ⟨_, _, Walk.performs_assignField selector value, rfl⟩
  | respondsTo selector => exact .inl ⟨_, _, Walk.performs_respondsTo selector, rfl⟩
  | _ => exact .inr fun _ _ => rfl

/-! ## One dispatch more or less -/

namespace Runtime

variable (host : Host κ σ)

theorem Below.performRedispatching {rt rt' : Runtime κ σ} (h : Below World.Alike rt rt')
    (id : ObjectId) (message : Message κ) :
    Run.Below World.Alike (rt.performRedispatching id message)
      (rt'.performRedispatching id message) := by
  rcases @Message.walk_or_same κ σ message with ⟨α, walk, hwalk, rfl⟩ | hsame
  · rw [hwalk.redispatched, hwalk.redispatched]
    exact (walk.redispatched_below h id).map walk.answer
  · rw [hsame, hsame]
    exact h.performDefault id message

theorem redispatching_below (host : Host κ σ) {n m : Nat} (hle : n ≤ m) :
    Below World.Alike (redispatching host n) (redispatching host m) :=
  machineBy_below host Below.performRedispatching hle

end Runtime

namespace Walk.Performs

variable {walk : Walk κ σ α} (hwalk : walk.Performs) (host : Host κ σ)
include hwalk

/-- To go on in place is below dispatching again with one step more. -/
theorem inPlace_below_redispatched (fuel : Nat) (target : ObjectId) :
    Run.Below World.Alike (walk.inPlace (.ofFuel host fuel) target)
      (walk.redispatched (.ofFuel host (fuel + 1)) target) := by
  have hstep := Runtime.ofFuel_below (R := World.Alike) host (Nat.le_succ fuel)
  unfold Walk.inPlace Runtime.resolve
  rw [Runtime.fuel_ofFuel]
  cases fuel with
  | zero => exact Run.Below.exhausted _
  | succ fuel =>
    rw [walk.resolveFrom_succ]
    refine (Run.Below.searchDynamic target walk.selector).bind fun resolution => ?_
    cases resolution with
    | delegate parent =>
      have hsame := Runtime.ofFuel_below (R := World.Alike) host (Nat.le_refl (fuel + 1))
      refine hsame.passing_dispatchBy parent walk.message (fun base => ?_)
        (walk.conclude_below hstep target (.delegate parent))
      rw [hwalk.inPlace_receive]
      refine (hsame.resolveFrom _ walk.selector ?_ base).bind fun ended =>
        walk.conclude_below hsame ended.1 ended.2
      rw [Runtime.fuel_ofFuel]
      omega
    | found holder slot => exact walk.conclude_below hstep target (.found holder slot)
    | absent => exact walk.conclude_below hstep target .absent

/-- To dispatch again is below going on in place with one step more. -/
theorem redispatched_below_inPlace (fuel : Nat) (target : ObjectId) :
    Run.Below World.Alike (walk.redispatched (.ofFuel host fuel) target)
      (walk.inPlace (.ofFuel host (fuel + 1)) target) := by
  have hstep := Runtime.ofFuel_below (R := World.Alike) host (Nat.le_succ fuel)
  unfold Walk.inPlace Runtime.resolve
  rw [Runtime.fuel_ofFuel, walk.resolveFrom_succ]
  refine (Run.Below.searchDynamic target walk.selector).bind fun resolution => ?_
  cases resolution with
  | delegate parent =>
    cases fuel with
    | zero => exact Run.Below.exhausted _
    | succ fuel =>
      have hmore := Runtime.ofFuel_below (R := World.Alike) host (show fuel ≤ fuel + 2 by omega)
      refine hmore.dispatchBy_passing parent walk.message (fun base => ?_)
        (walk.conclude_below hstep target (.delegate parent))
      rw [hwalk.inPlace_receive]
      refine (hmore.resolveFrom _ walk.selector ?_ base).bind fun ended =>
        walk.conclude_below hmore ended.1 ended.2
      rw [Runtime.fuel_ofFuel]
      omega
  | found holder slot => exact walk.conclude_below hstep target (.found holder slot)
  | absent => exact walk.conclude_below hstep target .absent

/-- Where the loop goes on, the actual machine might as well have dispatched again. -/
theorem inPlace_same_redispatched (world : World κ σ) (target : ObjectId) :
    Run.SameOutcome (fun n => walk.inPlace (.ofFuel host n) target) world
      (fun n => walk.redispatched (.ofFuel host n) target) world :=
  .of_below (fun n => ⟨n + 1, hwalk.inPlace_below_redispatched host n target⟩)
    (fun n => ⟨n + 1, hwalk.redispatched_below_inPlace host n target⟩) (.refl world)

/-- A loop of a number of rounds is below as many dispatches. -/
theorem resolveFrom_below_redispatched {rt : Runtime κ σ} {base : Nat}
    (h : rt.Below World.Alike (.redispatching host base)) (rounds : Nat) (target : ObjectId) :
    Run.Below World.Alike
      (rt.resolveFrom walk.message.op walk.selector rounds target >>= fun ended =>
        walk.conclude rt ended.1 ended.2)
      (walk.redispatched (.redispatching host (base + rounds)) target) := by
  induction rounds generalizing target with
  | zero => exact Run.Below.exhausted _
  | succ rounds ih =>
    have hmore : ∀ more, rt.Below World.Alike (.redispatching host (base + more)) := fun more =>
      h.trans (Runtime.redispatching_below host (Nat.le_add_right base more))
    rw [walk.resolveFrom_succ]
    refine (Run.Below.searchDynamic target walk.selector).bind fun resolution => ?_
    cases resolution with
    | delegate parent =>
      refine (hmore rounds).passing_dispatchBy parent walk.message (fun next => ?_)
        (walk.conclude_below (hmore (rounds + 1)) target (.delegate parent))
      have hnext := ih next
      rwa [← hwalk.redispatched_receive] at hnext
    | found holder slot =>
      exact walk.conclude_below (hmore (rounds + 1)) target (.found holder slot)
    | absent => exact walk.conclude_below (hmore (rounds + 1)) target .absent

end Walk.Performs

/-! ## Each machine is below the other -/

namespace Runtime

variable (host : Host κ σ)

/-- The actual machine is below the other one with steps enough for its loops. -/
theorem ofFuel_below_redispatching (fuel : Nat) :
    ∃ more, Below World.Alike (ofFuel host fuel) (redispatching host more) := by
  simp only [← machineBy_performDefault]
  induction fuel with
  | zero => exact ⟨0, .idle _⟩
  | succ fuel ih =>
    obtain ⟨base, h⟩ := ih
    have hmore := h.trans (redispatching_below host (Nat.le_add_right base fuel))
    have hperform : ∀ id message,
        Run.Below World.Alike ((machineBy host performDefault fuel).performDefault id message)
          ((redispatching host (base + fuel)).performRedispatching id message) := by
      intro id message
      rcases @Message.walk_or_same κ σ message with ⟨α, walk, hwalk, hmessage⟩ | hsame
      · subst hmessage
        have hloop := hwalk.resolveFrom_below_redispatched host h fuel id
        rw [hwalk.inPlace, hwalk.redispatched, Walk.inPlace, resolve, fuel_machineBy]
        exact hloop.map walk.answer
      · rw [hsame]
        exact hmore.performDefault id message
    refine ⟨base + fuel + 1, ?_, hmore.dispatchBy hperform, hmore.runMethodBy hperform host⟩
    show fuel + 1 ≤ base + fuel + 1
    omega

/-- The other machine is below the actual one with twice as many steps. -/
theorem redispatching_below_ofFuel (fuel : Nat) :
    Below World.Alike (redispatching host fuel) (ofFuel host (2 * fuel)) := by
  simp only [← machineBy_performDefault]
  induction fuel with
  | zero => exact .idle _
  | succ fuel ih =>
    have hmore : Below World.Alike (redispatching host fuel)
        (machineBy host performDefault (2 * fuel + 1)) :=
      ih.trans (machineBy_below host Below.performDefault (Nat.le_succ _))
    have hperform : ∀ id message,
        Run.Below World.Alike ((redispatching host fuel).performRedispatching id message)
          ((machineBy host performDefault (2 * fuel + 1)).performDefault id message) := by
      intro id message
      rcases @Message.walk_or_same κ σ message with ⟨α, walk, hwalk, hmessage⟩ | hsame
      · subst hmessage
        have hloop := hwalk.redispatched_below_inPlace host (2 * fuel) id
        rw [hwalk.inPlace, hwalk.redispatched]
        simp only [← machineBy_performDefault] at hloop
        exact ((walk.redispatched_below ih id).trans hloop).map walk.answer
      · rw [hsame]
        exact hmore.performDefault id message
    refine ⟨?_, hmore.dispatchBy hperform, hmore.runMethodBy hperform host⟩
    show fuel + 1 ≤ 2 * (fuel + 1)
    omega

end Runtime

/-- A walk in the actual machine has the outcomes of the walk without its loop in the other. -/
theorem Walk.Performs.same_as_redispatching {walk : Walk κ σ α} (hwalk : walk.Performs)
    (host : Host κ σ) (world : World κ σ) (target : ObjectId) :
    Run.SameOutcome (fun n => walk.inPlace (.ofFuel host n) target) world
      (fun n => walk.redispatched (.redispatching host n) target) world := by
  refine .of_below (fun n => ?_) (fun n => ?_) (.refl world)
  · obtain ⟨more, h⟩ := Runtime.ofFuel_below_redispatching host n
    refine ⟨more + n, ?_⟩
    have hloop := hwalk.resolveFrom_below_redispatched host h n target
    rwa [Walk.inPlace, Runtime.resolve, Runtime.fuel_ofFuel]
  · refine ⟨2 * n + 1, ?_⟩
    exact (walk.redispatched_below (Runtime.redispatching_below_ofFuel host n) target).trans
      (hwalk.redispatched_below_inPlace host (2 * n) target)

/--
The loops of the four operations and the versions that send the operation on
to every parent at which a search stops have the same outcomes, from every
world and target, with every host.
-/
theorem Runtime.inPlace_same_as_redispatching (host : Host κ σ) (world : World κ σ)
    (target : ObjectId) (receiver : Value κ) (selector : Symbol) (arguments : List (Value κ))
    (value : Value κ) :
    Run.SameOutcome
      (fun n => (ofFuel host n).defaultInvoke target receiver selector arguments) world
      (fun n => (redispatching host n).redispatchInvoke target receiver selector arguments) world ∧
    Run.SameOutcome
      (fun n => (ofFuel host n).defaultSelect target receiver selector) world
      (fun n => (redispatching host n).redispatchSelect target receiver selector) world ∧
    Run.SameOutcome
      (fun n => (ofFuel host n).defaultAssignField target selector value) world
      (fun n => (redispatching host n).redispatchAssignField target selector value) world ∧
    Run.SameOutcome
      (fun n => (ofFuel host n).defaultRespondsTo target selector) world
      (fun n => (redispatching host n).redispatchRespondsTo target selector) world := by
  simp only [Walk.defaultInvoke_eq, Walk.defaultSelect_eq, Walk.defaultAssignField_eq,
    Walk.defaultRespondsTo_eq, Walk.redispatchInvoke_eq, Walk.redispatchSelect_eq,
    Walk.redispatchAssignField_eq, Walk.redispatchRespondsTo_eq]
  exact ⟨(Walk.performs_invoke receiver selector arguments).same_as_redispatching host world target,
    (Walk.performs_select receiver selector).same_as_redispatching host world target,
    (Walk.performs_assignField selector value).same_as_redispatching host world target,
    (Walk.performs_respondsTo selector).same_as_redispatching host world target⟩

end Prototypes
