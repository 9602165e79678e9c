import Prototypes.Proofs.Mirrors.MetaSend

/-!
# New instances are initialised clones

A new instance is a clone that has been sent `init`.  Which clone depends on who answers: a
plain object is copied, a value outside the heap is its own clone, and a mirage whose mirror
inherits the operation is copied together with its mirror.  That copy is the default one, made
with the mirror left out of account, so a mirror that has a method of its own for cloning, but
none for new instances, is not asked for a clone.

The two ways take different numbers of steps and report different things, so it is their
outcomes that are the same.

## Main results

* `Runtime.cloneThenInit` — a clone, initialised.
* `World.ClonesPlainly` — the values whose clone is not up to a mirror.
* `Runtime.newInstance_eq_initialised` — what a new instance is, for each kind of value.
* `Runtime.newInstance_ne_cloneThenInit` — a mirror that overrides cloning tells the two apart.
-/

namespace Prototypes

variable {κ σ : Type}

namespace Runtime

/-- Initialises a copy and answers it. -/
def initialise (rt : Runtime κ σ) (arguments : List (Value κ)) (copy : Value κ) :
    Run κ σ (Value κ) := do
  discard <| rt.invoke copy Selector.init arguments
  return copy

/-- Clones a value, initialises the clone and answers it. -/
def cloneThenInit (rt : Runtime κ σ) (value : Value κ) (arguments : List (Value κ)) :
    Run κ σ (Value κ) := do
  rt.initialise arguments (← rt.send value .clone)

/-- A mirror's own default clone of what it reflects on, initialised. -/
def defaultCloneThenInit (rt : Runtime κ σ) (mirror : ObjectId) (arguments : List (Value κ)) :
    Run κ σ (Value κ) := do
  rt.initialise arguments (← rt.performOnBase .clone (.object mirror) [])

/-! ## Steps do not matter -/

variable {rt rt' : Runtime κ σ}

theorem Below.initialise (h : Below World.Alike rt rt') (arguments : List (Value κ)) (copy : Value κ) :
    Run.Below World.Alike (rt.initialise arguments copy) (rt'.initialise arguments copy) :=
  (h.invoke _ _ _).ignore.bind fun _ => .pure copy

theorem Below.cloneThenInit (h : Below World.Alike rt rt') (value : Value κ)
    (arguments : List (Value κ)) :
    Run.Below World.Alike (rt.cloneThenInit value arguments) (rt'.cloneThenInit value arguments) :=
  (h.send value .clone).bind fun copy => h.initialise arguments copy

/-- A copy may be initialised with more steps than it was made with. -/
theorem sameOutcome_initialise (host : Host κ σ) {copy copy' : Runtime κ σ → Run κ σ (Value κ)}
    (hcopy : ∀ {rt rt'}, Below World.Alike rt rt' → Run.Below World.Alike (copy rt) (copy' rt'))
    (hcopy' : ∀ {rt rt'}, Below World.Alike rt rt' → Run.Below World.Alike (copy' rt) (copy rt'))
    (arguments : List (Value κ)) (later : Nat) {v w : World κ σ} (hvw : v.Alike w) :
    Run.SameOutcome
      (fun steps => copy (ofFuel host steps) >>= (ofFuel host (steps + later)).initialise arguments) v
      (fun steps => copy' (ofFuel host steps) >>= (ofFuel host steps).initialise arguments) w := by
  have hlater (steps : Nat) : Below World.Alike (ofFuel host steps) (ofFuel host (steps + later)) :=
    ofFuel_below host (Nat.le_add_right steps later)
  refine .of_below (fun steps => ⟨steps + later, ?_⟩) (fun steps => ⟨steps, ?_⟩) hvw
  · exact (hcopy (hlater steps)).bind fun copy =>
      (ofFuel_below host (Nat.le_refl _)).initialise arguments copy
  · exact (hcopy' (ofFuel_below host (Nat.le_refl steps))).bind fun copy =>
      (hlater steps).initialise arguments copy

end Runtime

/-- No mirror has a say of its own in how the value is cloned, or a new instance of it made. -/
inductive World.ClonesPlainly (world : World κ σ) : Value κ → Prop
  | immediate {value : Value κ} : (∀ id, value ≠ .object id) → ClonesPlainly world value
  | gone {id : ObjectId} : world.heap.node? id = none → ClonesPlainly world (.object id)
  | plain {id : ObjectId} {body : PrototypeObject κ} :
      world.heap.node? id = some (.object body) → ClonesPlainly world (.object id)
  | unbound {id : ObjectId} {body : PrototypeObject κ} :
      world.heap.node? id = some (.mirage ⟨body, none⟩) → ClonesPlainly world (.object id)
  | mirage {id mirror : ObjectId} : world.Inherits .newInstance id mirror →
      world.Inherits .clone id mirror → ClonesPlainly world (.object id)

namespace Runtime

variable (host : Host κ σ) {world : World κ σ} (arguments : List (Value κ))

/-- By default a new instance is a default clone, initialised. -/
theorem performDefault_newInstance (rt : Runtime κ σ) (id : ObjectId) :
    rt.performDefault id (.newInstance arguments) =
      rt.performDefault id .clone >>= rt.initialise arguments := by
  simp only [performDefault, defaultNewInstance, initialise, bind_map_left]

/-- A value that answers for itself clones and initialises in one way. -/
private theorem newInstance_of_copy {value : Value κ} (copy : Runtime κ σ → Run κ σ (Value κ))
    (hcopy : ∀ {rt rt'}, Below World.Alike rt rt' → Run.Below World.Alike (copy rt) (copy rt'))
    (hinstance : ∀ steps, (ofFuel host (steps + 1)).send value (.newInstance arguments) world =
      (copy (ofFuel host steps) >>= (ofFuel host steps).initialise arguments) world)
    (hclone : ∀ steps, (ofFuel host (steps + 1)).send value .clone world =
      copy (ofFuel host steps) world) :
    Run.SameOutcome (fun steps => (ofFuel host steps).send value (.newInstance arguments)) world
      (fun steps => (ofFuel host steps).cloneThenInit value arguments) world := by
  have hfirst : Run.SameOutcome
      (fun steps => (ofFuel host steps).send value (.newInstance arguments)) world
      (fun steps => copy (ofFuel host steps) >>= (ofFuel host steps).initialise arguments) world :=
    .of_eq_shift (fun n m hle => (ofFuel_below host hle).send _ _) 1 hinstance
  have hsecond : Run.SameOutcome
      (fun steps => (ofFuel host steps).cloneThenInit value arguments) world
      (fun steps => copy (ofFuel host steps) >>= (ofFuel host (steps + 1)).initialise arguments) world :=
    .of_eq_shift (fun n m hle => (ofFuel_below host hle).cloneThenInit _ _) 1 fun steps =>
      Run.bind_eq_of_eq (hclone steps) _
  exact hfirst.trans (hsecond.trans (sameOutcome_initialise host hcopy hcopy arguments 1 (.refl world))).symm

/-- What fails before anything is cloned fails alike. -/
private theorem newInstance_of_error {value : Value κ} {reason : Halt}
    (hinstance : ∀ steps, (ofFuel host (steps + 1)).send value (.newInstance arguments) world =
      .error reason world)
    (hclone : ∀ steps, (ofFuel host (steps + 1)).send value .clone world = .error reason world) :
    Run.SameOutcome (fun steps => (ofFuel host steps).send value (.newInstance arguments)) world
      (fun steps => (ofFuel host steps).cloneThenInit value arguments) world := by
  refine .of_eq fun steps => ?_
  cases steps with
  | zero => rfl
  | succ steps => rw [hinstance, cloneThenInit, Run.bind_of_error (hclone steps)]

/-- A mirage whose mirror inherits new instances makes one by the mirror's default clone. -/
theorem newInstance_of_inherits {mirage mirror : ObjectId} (h : world.Inherits .newInstance mirage mirror) :
    Run.SameOutcome (fun steps => (ofFuel host steps).send (.object mirage) (.newInstance arguments)) world
      (fun steps => (ofFuel host steps).defaultCloneThenInit mirror arguments) world := by
  obtain ⟨body, hmirage⟩ := h.bound
  let copy (op : MetaOp) (rt : Runtime κ σ) : Run κ σ (Value κ) := do
    let base ← rt.mirrorBase (.object mirror)
    Run.trace (.performedDefault (Value.object (κ := κ) mirror).display op base)
    rt.performDefault base .clone
  have hcopy (op op' : MetaOp) {rt rt' : Runtime κ σ} (hrt : Below World.Alike rt rt') :
      Run.Below World.Alike (copy op rt) (copy op' rt') :=
    (hrt.mirrorBase _).bind fun base => (Run.trace_below _ _).bind fun _ => hrt.performDefault base .clone
  have hinstance : Run.SameOutcome
      (fun steps => (ofFuel host steps).send (.object mirage) (.newInstance arguments)) world
      (fun steps => copy .newInstance (ofFuel host steps) >>= (ofFuel host steps).initialise arguments)
        (world.traced (.forwarding .newInstance mirage)) := by
    refine .of_eq_shift (fun n m hle => (ofFuel_below host hle).send _ _) 1 fun steps => ?_
    have hinherits : world.Inherits (Message.newInstance arguments).op mirage mirror := h
    rw [send_mirage host steps hmirage, forward_eq_performOnBase hinherits _ ⟨0⟩]
    simp only [performOnBase, performWith, Message.read_arguments, copy, bind_assoc, Run.check_ok_bind,
      performDefault_newInstance]
    rfl
  exact hinstance.trans (sameOutcome_initialise host (hcopy .newInstance .clone)
    (hcopy .clone .newInstance) arguments 0 (World.Alike.traced world _).symm)

/-- If it inherits cloning too, its own clone is that one. -/
theorem cloneThenInit_of_inherits {mirage mirror : ObjectId} (h : world.Inherits .clone mirage mirror) :
    Run.SameOutcome (fun steps => (ofFuel host steps).cloneThenInit (.object mirage) arguments) world
      (fun steps => (ofFuel host steps).defaultCloneThenInit mirror arguments) world := by
  obtain ⟨body, hmirage⟩ := h.bound
  let copy (rt : Runtime κ σ) : Run κ σ (Value κ) := rt.performOnBase .clone (.object mirror) []
  have hcopy {rt rt' : Runtime κ σ} (hrt : Below World.Alike rt rt') :
      Run.Below World.Alike (copy rt) (copy rt') :=
    (hrt.mirrorBase _).bind fun base => (Run.Below.trace _).bind fun _ =>
      (Run.Below.check _).bind fun message => hrt.performDefault base message
  have hclone : Run.SameOutcome
      (fun steps => (ofFuel host steps).cloneThenInit (.object mirage) arguments) world
      (fun steps => copy (ofFuel host steps) >>= (ofFuel host (steps + 1)).initialise arguments)
        (world.traced (.forwarding .clone mirage)) := by
    refine .of_eq_shift (fun n m hle => (ofFuel_below host hle).cloneThenInit _ _) 1 fun steps => ?_
    have hinherits : world.Inherits (Message.clone : Message κ).op mirage mirror := h
    refine Run.bind_eq_of_eq ?_ _
    rw [send_mirage host steps hmirage]
    exact forward_eq_performOnBase hinherits _ ⟨0⟩
  exact hclone.trans (sameOutcome_initialise host hcopy hcopy arguments 1
    (World.Alike.traced world _).symm)

/--
A new instance of a value that is no call frame.  If no mirror has a say in it, it has the same
outcome as cloning the value, initialising the clone, and answering it.  If a mirror inherits
the operation, whatever else it overrides, then it is the mirror's default clone that is
initialised and answered.
-/
theorem newInstance_eq_initialised :
    (∀ value, world.ClonesPlainly value →
      Run.SameOutcome (fun steps => (ofFuel host steps).send value (.newInstance arguments)) world
        (fun steps => (ofFuel host steps).cloneThenInit value arguments) world) ∧
    ∀ mirage mirror, world.Inherits .newInstance mirage mirror →
      Run.SameOutcome
        (fun steps => (ofFuel host steps).send (.object mirage) (.newInstance arguments)) world
        (fun steps => (ofFuel host steps).defaultCloneThenInit mirror arguments) world := by
  refine ⟨fun value hvalue => ?_, fun mirage mirror h => newInstance_of_inherits host arguments h⟩
  cases hvalue with
  | immediate hvalue =>
    -- it is its own clone
    refine newInstance_of_copy host arguments (fun _ => pure value)
      (fun _ => .pure value) (fun steps => ?_) fun steps => ?_ <;>
    · cases value with
      | object id => exact absurd rfl (hvalue id)
      | _ => rfl
  | @gone id hnode =>
    have hsend (message : Message κ) (steps : Nat) :
        (ofFuel host (steps + 1)).send (.object id) message world = .error (.dangling id) world := by
      show (Run.node id >>= _) world = _
      rw [Run.node_bind, Heap.get_eq_error_iff.mpr ⟨hnode, rfl⟩]
    exact newInstance_of_error host arguments (hsend _) (hsend _)
  | @unbound id body hnode =>
    have hsend (message : Message κ) (steps : Nat) :
        (ofFuel host (steps + 1)).send (.object id) message world =
          .error (.raised (.illegalOperation (.mirageUnbound id))) world := by
      rw [send_mirage host steps hnode, forward]
      refine Run.bind_of_error ?_ _
      simp only [Run.mirrorOf, Run.observe, World.mirrorOf, bind, Except.bind,
        Heap.get_eq_ok_iff.mpr hnode]
    exact newInstance_of_error host arguments (hsend _) (hsend _)
  | @plain id body hnode =>
    refine newInstance_of_copy host arguments (fun rt => rt.performDefault id .clone)
      (fun hrt => hrt.performDefault id .clone) (fun steps => ?_) fun steps => ?_
    · rw [send_plain host steps hnode, performDefault_newInstance]
    · rw [send_plain host steps hnode]
  | @mirage id mirror hinstance hclone =>
    exact (newInstance_of_inherits host arguments hinstance).trans
      (cloneThenInit_of_inherits host arguments hclone).symm

/-! ### A mirror that overrides cloning -/

/-- A mirage at index 2 and its mirror, a child of the mirror root with these methods, at index 3. -/
private def mirroredBy (methods : List (Method Empty)) : World Empty Unit :=
  let world : World Empty Unit := World.new default ()
  let mirage : PrototypeObject Empty :=
    { slots := Storage.empty ⟨100⟩
      dynamicParent := .nil
      lexicalParent := none
      link := .isA
      typeTags := []
      family := ⟨3⟩
      flags := .none }
  let mirror : PrototypeObject Empty :=
    { mirage with
      slots :=
        { Storage.empty ⟨101⟩ with
          fields := [{ name := Selector.base, writable := false, value := .object ⟨2⟩ }]
          methods }
      dynamicParent := .object world.mirrorRoot }
  { world with
    heap := ((world.heap.allocate (.mirage ⟨mirage, some ⟨3⟩⟩)).2.allocate (.object mirror)).2 }

/-- A method for cloning that clones nothing. -/
private def answering : Method Empty :=
  ⟨⟨102⟩, MetaOp.clone.selector, [], .fragment (.literal (.bool true))⟩

private theorem sound_mirroredBy (methods : List (Method Empty)) : (mirroredBy methods).Sound where
  free := ((World.sound_new default ()).free.allocate _).allocate _
  defaults := ⟨3, rfl⟩

/-- An inherited clone, and a clone that only new instances are made from. -/
theorem newInstance_eq_initialised_mirages :
    ((mirroredBy []).Sound ∧ (mirroredBy []).ClonesPlainly (.object ⟨2⟩) ∧
      Run.SameOutcome
        (fun steps => (ofFuel Host.none steps).send (.object ⟨2⟩) (.newInstance [])) (mirroredBy [])
        (fun steps => (ofFuel Host.none steps).cloneThenInit (.object ⟨2⟩) []) (mirroredBy [])) ∧
    (mirroredBy [answering]).Sound ∧ (mirroredBy [answering]).Inherits .newInstance ⟨2⟩ ⟨3⟩ ∧
      Run.SameOutcome
        (fun steps => (ofFuel Host.none steps).send (.object ⟨2⟩) (.newInstance []))
        (mirroredBy [answering])
        (fun steps => (ofFuel Host.none steps).defaultCloneThenInit ⟨3⟩ []) (mirroredBy [answering]) := by
  have hplainly : (mirroredBy []).ClonesPlainly (.object ⟨2⟩) :=
    .mirage ⟨⟨_, rfl⟩, ⟨_, rfl⟩, _, rfl, rfl⟩ ⟨⟨_, rfl⟩, ⟨_, rfl⟩, _, rfl, rfl⟩
  have hinherits : (mirroredBy [answering]).Inherits .newInstance ⟨2⟩ ⟨3⟩ :=
    ⟨⟨_, rfl⟩, ⟨_, rfl⟩, _, rfl, rfl⟩
  exact ⟨⟨sound_mirroredBy [], hplainly, (newInstance_eq_initialised Host.none []).1 _ hplainly⟩,
    sound_mirroredBy _, hinherits, (newInstance_eq_initialised Host.none []).2 _ _ hinherits⟩

/-- The object or the truth value that a run has answered. -/
private def answered : EStateM.Result Halt (World Empty Unit) (Value Empty) → Option (ObjectId ⊕ Bool)
  | .ok (.object id) _ => some (.inl id)
  | .ok (.bool b) _ => some (.inr b)
  | _ => none

private theorem exists_of_answered {result : EStateM.Result Halt (World Empty Unit) (Value Empty)}
    {answer : ObjectId ⊕ Bool} (h : answered result = some answer) :
    ∃ after, result = .ok (answer.elim .object .bool) after := by
  unfold answered at h
  split at h
  · cases h
    exact ⟨_, rfl⟩
  · cases h
    exact ⟨_, rfl⟩
  · cases h

/-- A mirror that overrides cloning is not asked for the clone that becomes a new instance. -/
theorem newInstance_ne_cloneThenInit :
    (mirroredBy [answering]).Inherits .newInstance ⟨2⟩ ⟨3⟩ ∧
      (∃ after, (ofFuel Host.none 10).send (.object ⟨2⟩) (.newInstance []) (mirroredBy [answering]) =
        .ok (.object ⟨4⟩) after) ∧
      (∃ after, (ofFuel Host.none 10).cloneThenInit (.object ⟨2⟩) [] (mirroredBy [answering]) =
        .ok (.bool true) after) ∧
      ¬ Run.SameOutcome
        (fun steps => (ofFuel Host.none steps).send (.object ⟨2⟩) (.newInstance []))
        (mirroredBy [answering])
        (fun steps => (ofFuel Host.none steps).cloneThenInit (.object ⟨2⟩) []) (mirroredBy [answering]) := by
  obtain ⟨copied, hcopied⟩ := exists_of_answered (show answered ((ofFuel Host.none 10).send
    (.object ⟨2⟩) (.newInstance []) (mirroredBy [answering])) = some (.inl ⟨4⟩) by decide +kernel)
  obtain ⟨told, htold⟩ := exists_of_answered (show answered ((ofFuel Host.none 10).cloneThenInit
    (.object ⟨2⟩) [] (mirroredBy [answering])) = some (.inr true) by decide +kernel)
  refine ⟨⟨⟨_, rfl⟩, ⟨_, rfl⟩, _, rfl, rfl⟩, ⟨copied, hcopied⟩, ⟨told, htold⟩, fun hsame => ?_⟩
  have hother := (hsame _).mpr ⟨10, congrArg Run.outcomeOf htold, nofun⟩
  have hfirst : Run.Settles (fun steps => (ofFuel Host.none steps).send (.object ⟨2⟩) (.newInstance []))
      (mirroredBy [answering]) _ := ⟨10, congrArg Run.outcomeOf hcopied, nofun⟩
  have hunique := hfirst.unique (fun n m hle => (ofFuel_below Host.none hle).send _ _) hother
  cases congrArg Prod.fst hunique

end Runtime

end Prototypes
