import Prototypes.Proofs.Approximation.Outcomes

/-!
# Walks along dynamic parents

Sending a message, selecting a slot, assigning a field and asking whether a
message is understood are one walk (`Walk`): each looks for a selector along
dynamic parents, does something at the slot it finds, something else when there
is none, and where a parent answers for itself sends it the operation's message
and takes over the answer.

Where a mirage parent would only do by default what is asked of it, the walk
goes on inside its base.  `Walk.inPlace` is the walk as the object model does
it, a loop; `Walk.redispatched` is the walk that sends the message to every
parent at which its first search stops.

What makes the two agree is `Runtime.dispatchBy_eq_passing`: a dispatch at a
parent does at its base what the loop goes on with, if the parent is passed over,
and nothing else but to report that it is forwarding.
-/

namespace Prototypes

variable {κ σ α β : Type}

open Run (Steady)

/-! ## Passing over a mirage -/

namespace Runtime

variable (rt : Runtime κ σ)

/-- Goes on with `inside` at the base of a parent that is passed over, else with `outside`. -/
def passing (parent : Value κ) (op : MetaOp) (inside : ObjectId → Run κ σ α)
    (outside : Run κ σ α) : Run κ σ α := do
  match ← rt.delegatedDefault? parent op with
  | some base => inside base
  | none => outside

theorem passing_bind (parent : Value κ) (op : MetaOp) (inside : ObjectId → Run κ σ α)
    (outside : Run κ σ α) (next : α → Run κ σ β) :
    rt.passing parent op inside outside >>= next =
      rt.passing parent op (fun base => inside base >>= next) (outside >>= next) := by
  unfold passing
  rw [bind_assoc]
  congr 1
  funext continued
  cases continued <;> rfl

theorem Below.passing {R : World κ σ → World κ σ → Prop} [World.Likeness R] {rt rt' : Runtime κ σ}
    (h : Below R rt rt') (parent : Value κ) (op : MetaOp) {inside inside' : ObjectId → Run κ σ α}
    {outside outside' : Run κ σ α} (hinside : ∀ base, Run.Below R (inside base) (inside' base))
    (houtside : Run.Below R outside outside') :
    Run.Below R (rt.passing parent op inside outside) (rt'.passing parent op inside' outside') := by
  refine (h.delegatedDefault? parent op).bind fun continued => ?_
  cases continued with
  | some base => exact hinside base
  | none => exact houtside

/-- To find that a mirror has overridden an operation, one looks at the heap only. -/
theorem inheritsDefault_eq_ok {mirror : ObjectId} {op : MetaOp} {inherits : Bool} {v u w : World κ σ}
    (h : inheritsDefault mirror op v = .ok inherits u) (hvw : v.Alike w) :
    u = v ∧ inheritsDefault mirror op w = .ok inherits w := by
  obtain ⟨log, rfl⟩ : ∃ log, w = { v with log } := ⟨_, hvw.eq_with_log⟩
  unfold inheritsDefault at h ⊢
  rw [Run.searchDynamic_bind] at h ⊢
  dsimp only at h ⊢
  cases hsearch : v.heap.searchDynamic mirror op.selector with
  | error reason =>
    rw [hsearch] at h
    cases h
  | ok resolution =>
    rw [hsearch] at h
    match resolution with
    | .found holder (.method method) => cases h; exact ⟨rfl, rfl⟩
    | .found holder (.field ..) => cases h; exact ⟨rfl, rfl⟩
    | .found holder (.mutator ..) => cases h; exact ⟨rfl, rfl⟩
    | .found holder (.custom _) => cases h; exact ⟨rfl, rfl⟩
    | .found holder (.customMutator _) => cases h; exact ⟨rfl, rfl⟩
    | .delegate parent => cases h; exact ⟨rfl, rfl⟩
    | .absent => cases h; exact ⟨rfl, rfl⟩

/-- To find that a mirage has to be asked, one looks at the heap only. -/
theorem defaultTarget?_of_none {mirage : ObjectId} {op : MetaOp} {v u w : World κ σ}
    (h : rt.defaultTarget? mirage op v = .ok none u) (hvw : v.Alike w) :
    rt.defaultTarget? mirage op w = .ok none w := by
  obtain ⟨log, rfl⟩ : ∃ log, w = { v with log } := ⟨_, hvw.eq_with_log⟩
  unfold defaultTarget? at h ⊢
  rw [Run.node_bind] at h ⊢
  dsimp only at h ⊢
  cases hmirage : v.heap.get mirage with
  | error reason =>
    rw [hmirage] at h
    cases h
  | ok found =>
    rw [hmirage] at h
    match found with
    | .object _ => rfl
    | .frame _ => rfl
    | .mirage ⟨_, none⟩ => rfl
    | .mirage ⟨_, some mirror⟩ =>
      dsimp only at h ⊢
      rw [Run.node_bind] at h ⊢
      dsimp only at h ⊢
      cases hmirror : v.heap.get mirror with
      | error reason =>
        rw [hmirror] at h
        cases h
      | ok mirrorNode =>
        rw [hmirror] at h
        dsimp only at h ⊢
        split at h
        · rename_i hplain
          rw [if_pos hplain]
          obtain ⟨inherits, u₁, hinherits, h⟩ := Run.eq_ok_of_bind h
          obtain ⟨rfl, hinherits'⟩ := inheritsDefault_eq_ok hinherits hvw
          cases inherits with
          | true =>
            obtain ⟨base, u₂, _, h⟩ := Run.eq_ok_of_bind h
            obtain ⟨_, u₃, _, h⟩ := Run.eq_ok_of_bind h
            cases h
          | false =>
            rw [Run.bind_of_ok hinherits']
            rfl
        · rename_i hplain
          rw [if_neg hplain]
          rfl

/-- A mirage that has to be asked is not passed over. -/
theorem passing_of_none {mirage : ObjectId} {body : Mirage κ} {op : MetaOp} {v u : World κ σ}
    (hmirage : v.heap.get mirage = .ok (.mirage body))
    (h : rt.defaultTarget? mirage op v = .ok none u) (inside : ObjectId → Run κ σ α)
    (outside : Run κ σ α) : rt.passing (.object mirage) op inside outside v = outside v := by
  have hnone : rt.delegatedDefault? (.object mirage) op v = .ok none v := by
    simp only [delegatedDefault?]
    rw [Run.node_bind, hmirage]
    exact rt.defaultTarget?_of_none h (.refl v)
  unfold passing
  rw [Run.bind_of_ok hnone]

/--
At a parent that is passed over, a dispatch does at its base what is done
inside it, and reports besides that it is forwarding.
-/
theorem dispatchBy_eq_passing (perform : ObjectId → Message κ → Run κ σ (Value κ))
    (parent : Value κ) (message : Message κ) (v : World κ σ) :
    ∃ w : World κ σ, v.Alike w ∧ rt.dispatchBy perform parent message v =
      rt.passing parent message.op (fun base => perform base message)
        (rt.dispatchBy perform parent message) w := by
  cases parent with
  | object id =>
    cases hid : v.heap.get id with
    | error reason =>
      refine ⟨v, .refl v, ?_⟩
      simp only [dispatchBy, passing, delegatedDefault?, bind_assoc]
      rw [Run.node_bind, Run.node_bind, hid]
    | ok found =>
      cases found with
      | object _ =>
        refine ⟨v, .refl v, ?_⟩
        simp only [passing, delegatedDefault?, bind_assoc]
        rw [Run.node_bind, hid]
        rfl
      | frame _ =>
        refine ⟨v, .refl v, ?_⟩
        simp only [passing, delegatedDefault?, bind_assoc]
        rw [Run.node_bind, hid]
        rfl
      | mirage mirage =>
        obtain ⟨body, bound⟩ := mirage
        cases bound with
        | none =>
          refine ⟨v, .refl v, (rt.passing_of_none hid (u := v) ?_ _ _).symm⟩
          unfold defaultTarget?
          rw [Run.node_bind, hid]
          rfl
        | some mirror =>
          by_cases hnone : ∃ u, rt.defaultTarget? id message.op v = .ok none u
          · obtain ⟨u, hnone⟩ := hnone
            exact ⟨v, .refl v, (rt.passing_of_none hid hnone _ _).symm⟩
          · have htraced : (v.traced (.forwarding message.op id)).Alike v :=
              (World.Alike.traced v _).symm
            refine ⟨v.traced (.forwarding message.op id), htraced.symm, ?_⟩
            have hid' : (v.traced (.forwarding message.op id)).heap.get id =
                .ok (.mirage ⟨body, some mirror⟩) := by rw [World.Affinity.heap_eq htraced, hid]
            simp only [dispatchBy, forwardBy, passing, delegatedDefault?, bind_assoc]
            rw [Run.node_bind, hid, Run.node_bind, hid']
            dsimp only [Node.isMirage]
            rw [Run.mirrorOf_bind hid, Run.trace_bind]
            simp only [reduceIte, bind, EStateM.bind]
            cases htarget : rt.defaultTarget? id message.op (v.traced (.forwarding message.op id)) with
            | error reason u => rfl
            | ok base u =>
              cases base with
              | some base => rfl
              | none => exact absurd ⟨v, rt.defaultTarget?_of_none htarget htraced⟩ hnone
  | _ => exact ⟨v, .refl v, rfl⟩

section Comparison

variable {rt rt' : Runtime κ σ} {perform : ObjectId → Message κ → Run κ σ (Value κ)}
  {inside : ObjectId → Run κ σ α} {outside : Run κ σ α} {receive : Value κ → Run κ σ α}

/-- Going on inside is below a dispatch that performs there what is above. -/
theorem Below.passing_dispatchBy (h : Below World.Alike rt rt') (parent : Value κ)
    (message : Message κ)
    (hinside : ∀ base, Run.Below World.Alike (inside base) (perform base message >>= receive))
    (houtside : Run.Below World.Alike outside (rt'.dispatchBy perform parent message >>= receive)) :
    Run.Below World.Alike (rt.passing parent message.op inside outside)
      (rt'.dispatchBy perform parent message >>= receive) := by
  intro v w hvw
  obtain ⟨u, hwu, hdispatch⟩ := rt'.dispatchBy_eq_passing perform parent message w
  have hstep := h.passing parent message.op hinside houtside v u (hvw.trans hwu)
  rw [← passing_bind] at hstep
  rwa [Run.bind_eq_of_eq hdispatch]

/-- A dispatch that performs at the base what is below is below going on inside. -/
theorem Below.dispatchBy_passing (h : Below World.Alike rt rt') (parent : Value κ)
    (message : Message κ)
    (hinside : ∀ base, Run.Below World.Alike (perform base message >>= receive) (inside base))
    (houtside : Run.Below World.Alike (rt.dispatchBy perform parent message >>= receive) outside) :
    Run.Below World.Alike (rt.dispatchBy perform parent message >>= receive)
      (rt'.passing parent message.op inside outside) := by
  intro v w hvw
  obtain ⟨u, hvu, hdispatch⟩ := rt.dispatchBy_eq_passing perform parent message v
  have hstep := h.passing parent message.op hinside houtside u w (hvu.symm.trans hvw)
  rw [← passing_bind] at hstep
  rwa [Run.bind_eq_of_eq hdispatch]

end Comparison

end Runtime

/-! ## The four operations as walks -/

/-- An operation that looks for a selector along dynamic parents. -/
structure Walk (κ σ α : Type) where
  /-- what a parent is sent that answers for itself -/
  message : Message κ
  selector : Symbol
  /-- what is done at the slot that is found -/
  found : Runtime κ σ → ObjectId → Slot κ → Run κ σ α
  /-- what is done when there is none, the last search having started at a node -/
  absent : Runtime κ σ → ObjectId → Run κ σ α
  /-- the answer of a node to the message -/
  answer : α → Value κ
  /-- what is made of the answer of a parent -/
  receive : Value κ → Run κ σ α
  receive_answer : ∀ a, receive (answer a) = pure a
  found_below : ∀ {rt rt' : Runtime κ σ}, rt.Below World.Alike rt' → ∀ holder slot,
    Run.Below World.Alike (found rt holder slot) (found rt' holder slot)
  absent_below : ∀ {rt rt' : Runtime κ σ}, rt.Below World.Alike rt' → ∀ last,
    Run.Below World.Alike (absent rt last) (absent rt' last)
  receive_steady : ∀ value, Steady World.Alike (receive value)

namespace Walk

/-- Sending a message. -/
def invoke (receiver : Value κ) (selector : Symbol) (arguments : List (Value κ)) :
    Walk κ σ (Value κ) where
  message := .invoke receiver selector arguments
  selector
  found rt holder slot := rt.invokeSlot holder slot receiver selector arguments
  absent rt _ := rt.invokeFallback receiver selector arguments
  answer value := value
  receive := pure
  receive_answer _ := rfl
  found_below h holder slot := h.invokeSlot holder slot receiver selector arguments
  absent_below h _ := h.invokeFallback receiver selector arguments
  receive_steady := Run.Below.pure

/-- Selecting a slot. -/
def select (receiver : Value κ) (selector : Symbol) : Walk κ σ (Value κ) where
  message := .select receiver selector
  selector
  found _ holder slot := Runtime.selectSlot holder slot receiver selector
  absent rt _ := rt.selectFallback receiver selector
  answer value := value
  receive := pure
  receive_answer _ := rfl
  found_below _ holder slot := Runtime.Steady.selectSlot holder slot receiver selector
  absent_below h _ := h.selectFallback receiver selector
  receive_steady := Run.Below.pure

/-- Assigning to a slot: only fields can be assigned to. -/
def assignSlot (rt : Runtime κ σ) (selector : Symbol) (value : Value κ) (holder : ObjectId)
    (slot : Slot κ) : Run κ σ Unit :=
  match slot with
  | .field .. | .custom _ => rt.writeSlot holder selector value
  | _ => Run.raise (.illegalOperation (.notField selector holder))

theorem assignSlot_below {rt rt' : Runtime κ σ} (h : rt.Below World.Alike rt') (selector : Symbol)
    (value : Value κ) (holder : ObjectId) (slot : Slot κ) :
    Run.Below World.Alike (assignSlot rt selector value holder slot)
      (assignSlot rt' selector value holder slot) := by
  cases slot with
  | field index writable => exact h.writeSlot holder selector value
  | custom field => exact h.writeSlot holder selector value
  | _ => exact Run.Below.raise _

/-- Assigning a field. -/
def assignField (selector : Symbol) (value : Value κ) : Walk κ σ Unit where
  message := .assignField selector value
  selector
  found rt holder slot := assignSlot rt selector value holder slot
  absent _ last := Run.raise (notFoundFrom selector last)
  answer _ := .nil
  receive _ := pure ()
  receive_answer _ := rfl
  found_below h holder slot := assignSlot_below h selector value holder slot
  absent_below _ last := Run.Below.raise (notFoundFrom selector last)
  receive_steady _ := Run.Below.pure ()

/-- Asking whether a message is understood. -/
def respondsTo (selector : Symbol) : Walk κ σ Bool where
  message := .respondsTo selector
  selector
  found _ _ slot :=
    match slot with
    | .mutator _ writable => pure writable
    | _ => pure true
  absent _ _ := pure (Primitive.ofSelector? selector).isSome
  answer := .bool
  receive value := Run.check (value.expectBool "respondsTo result")
  receive_answer _ := rfl
  found_below _ _ slot := by cases slot <;> exact Run.Below.pure _
  absent_below _ _ := Run.Below.pure _
  receive_steady _ := Run.Below.check _

variable (walk : Walk κ σ α)

/-- What a walk comes to, once a search has ended. -/
def conclude (rt : Runtime κ σ) (last : ObjectId) : Resolution κ → Run κ σ α
  | .found holder slot => walk.found rt holder slot
  | .delegate parent => rt.send parent walk.message >>= walk.receive
  | .absent => walk.absent rt last

/-- The walk that goes on inside the bases of mirages it passes over, as a loop. -/
def inPlace (rt : Runtime κ σ) (target : ObjectId) : Run κ σ α :=
  rt.resolve walk.message.op walk.selector target >>= fun ended => walk.conclude rt ended.1 ended.2

/-- The walk that sends its message to every parent at which its search stops. -/
def redispatched (rt : Runtime κ σ) (target : ObjectId) : Run κ σ α :=
  Run.searchDynamic target walk.selector >>= walk.conclude rt target

theorem conclude_below {rt rt' : Runtime κ σ} (h : rt.Below World.Alike rt') (last : ObjectId)
    (resolution : Resolution κ) :
    Run.Below World.Alike (walk.conclude rt last resolution) (walk.conclude rt' last resolution) := by
  cases resolution with
  | found holder slot => exact walk.found_below h holder slot
  | delegate parent => exact (h.send parent walk.message).bind walk.receive_steady
  | absent => exact walk.absent_below h last

theorem redispatched_below {rt rt' : Runtime κ σ} (h : rt.Below World.Alike rt')
    (target : ObjectId) :
    Run.Below World.Alike (walk.redispatched rt target) (walk.redispatched rt' target) :=
  (Run.Below.searchDynamic target walk.selector).bind (walk.conclude_below h target)

/-- One search of the loop, and how it goes on. -/
theorem resolveFrom_succ (rt : Runtime κ σ) (fuel : Nat) (target : ObjectId) :
    (rt.resolveFrom walk.message.op walk.selector (fuel + 1) target >>= fun ended =>
        walk.conclude rt ended.1 ended.2) =
      Run.searchDynamic target walk.selector >>= fun resolution =>
        match resolution with
        | .delegate parent =>
          rt.passing parent walk.message.op
            (fun base => rt.resolveFrom walk.message.op walk.selector fuel base >>= fun ended =>
              walk.conclude rt ended.1 ended.2)
            (rt.send parent walk.message >>= walk.receive)
        | ended => walk.conclude rt target ended := by
  rw [Runtime.resolveFrom, bind_assoc]
  congr 1
  funext resolution
  cases resolution with
  | delegate parent =>
    dsimp only
    unfold Runtime.passing
    rw [bind_assoc]
    congr 1
    funext continued
    cases continued <;> rfl
  | found holder slot => rfl
  | absent => rfl

end Walk

end Prototypes
