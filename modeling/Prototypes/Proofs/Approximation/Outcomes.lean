import Prototypes.Proofs.Approximation.Machine

/-!
# Outcomes of runs

A run over a machine is given for every number of steps.  It *settles* on an
outcome if some number of steps is enough to reach it: an answer or a reason to
halt, together with the world that is left, its log excepted.  Being out of
steps is not an outcome, so a run that never ends settles on nothing.

Two runs have the same outcomes if each settles on what the other settles on.
This is how operations are compared that take different numbers of steps.

Last comes what no run breaks (`World.Sound`): the free list of the heap is
exact, and the mirror root's default methods are those it was made with.

## Main results

* `Run.SameOutcome.of_below` — runs that are below each other have the same
  outcomes.
* `Run.SameOutcome.of_shift` — so have runs of which one needs a fixed number of
  steps more.
* `Runtime.sound_of_send`, `Program.sound_of_runFor` — soundness is kept.
-/

namespace Prototypes

variable {κ σ α β γ : Type}

namespace Run

/-! ## Outcomes -/

/-- How a run ended: its answer or why it halted, and the world it left but for the log. -/
def outcomeOf : EStateM.Result Halt (World κ σ) α → Except Halt α × World κ σ
  | .ok answer world => (.ok answer, world.visible)
  | .error reason world => (.error reason, world.visible)

/-- Some number of steps is enough for the run to end this way. -/
def Settles (x : Nat → Run κ σ α) (world : World κ σ) (outcome : Except Halt α × World κ σ) :
    Prop :=
  ∃ steps, outcomeOf (x steps world) = outcome ∧ outcome.1 ≠ .error .exhausted

/-- Each run settles on what the other settles on. -/
def SameOutcome (x : Nat → Run κ σ α) (v : World κ σ) (y : Nat → Run κ σ α) (w : World κ σ) :
    Prop :=
  ∀ outcome, Settles x v outcome ↔ Settles y w outcome

/-- Ends that agree have the same outcome, unless the first is out of steps. -/
theorem Agrees.outcomeOf_eq {first second : EStateM.Result Halt (World κ σ) α}
    (h : Agrees World.Alike first second) (hended : (outcomeOf first).1 ≠ .error .exhausted) :
    outcomeOf first = outcomeOf second := by
  cases h with
  | exhausted => exact absurd rfl hended
  | ok answer hvw => exact congrArg (Prod.mk _) hvw
  | error reason hvw => exact congrArg (Prod.mk _) hvw

/-- What a run settles on, every run above it settles on. -/
theorem Settles.of_below {x y : Nat → Run κ σ α} {v w : World κ σ}
    {outcome : Except Halt α × World κ σ} (h : Settles x v outcome)
    (hbelow : ∀ n, ∃ m, Below World.Alike (x n) (y m)) (hvw : v.Alike w) :
    Settles y w outcome := by
  obtain ⟨n, rfl, hended⟩ := h
  obtain ⟨m, hnm⟩ := hbelow n
  exact ⟨m, ((hnm v w hvw).outcomeOf_eq hended).symm, hended⟩

/-- A run with more and more steps settles on one outcome. -/
theorem Settles.unique {x : Nat → Run κ σ α} {v : World κ σ}
    {outcome other : Except Halt α × World κ σ} (h : Settles x v outcome)
    (hmono : ∀ n m, n ≤ m → Below World.Alike (x n) (x m)) (h' : Settles x v other) :
    outcome = other := by
  obtain ⟨n, rfl, hended⟩ := h
  obtain ⟨m, rfl, hended'⟩ := h'
  have hfirst := hmono n (max n m) (Nat.le_max_left n m) v v (.refl v)
  have hsecond := hmono m (max n m) (Nat.le_max_right n m) v v (.refl v)
  rw [hfirst.outcomeOf_eq hended, hsecond.outcomeOf_eq hended']

namespace SameOutcome

variable {x y z : Nat → Run κ σ α} {u v w : World κ σ}

theorem refl (x : Nat → Run κ σ α) (v : World κ σ) : SameOutcome x v x v := fun _ => Iff.rfl

theorem symm (h : SameOutcome x v y w) : SameOutcome y w x v := fun outcome => (h outcome).symm

theorem trans (h : SameOutcome x u y v) (h' : SameOutcome y v z w) : SameOutcome x u z w :=
  fun outcome => (h outcome).trans (h' outcome)

/-- Runs that are below each other have the same outcomes. -/
theorem of_below (hxy : ∀ n, ∃ m, Below World.Alike (x n) (y m))
    (hyx : ∀ n, ∃ m, Below World.Alike (y n) (x m)) (hvw : v.Alike w) : SameOutcome x v y w :=
  fun _ => ⟨fun h => h.of_below hxy hvw, fun h => h.of_below hyx hvw.symm⟩

/-- A run that needs a fixed number of steps more has the same outcomes. -/
theorem of_shift (hmono : ∀ n m, n ≤ m → Below World.Alike (x n) (x m)) (extra : Nat)
    (h : ∀ n, outcomeOf (x (n + extra) v) = outcomeOf (y n w)) : SameOutcome x v y w := by
  intro outcome
  constructor
  · rintro ⟨n, rfl, hended⟩
    have hmore := hmono n (n + extra) (Nat.le_add_right n extra) v v (.refl v)
    exact ⟨n, by rw [← h n, hmore.outcomeOf_eq hended], hended⟩
  · rintro ⟨n, rfl, hended⟩
    exact ⟨n + extra, h n, hended⟩

/-- A run that needs a fixed number of steps to get to another one. -/
theorem of_eq_shift (hmono : ∀ n m, n ≤ m → Below World.Alike (x n) (x m)) (extra : Nat)
    (h : ∀ n, x (n + extra) v = y n w) : SameOutcome x v y w :=
  of_shift hmono extra fun n => congrArg outcomeOf (h n)

/-- Runs that do the same have the same outcomes. -/
theorem of_eq (h : ∀ n, x n v = y n w) : SameOutcome x v y w :=
  fun _ => ⟨fun ⟨n, hn, hended⟩ => ⟨n, by rw [← h n, hn], hended⟩,
    fun ⟨n, hn, hended⟩ => ⟨n, by rw [h n, hn], hended⟩⟩

private theorem outcomeOf_map (f : α → β) (x : Run κ σ α) (v : World κ σ) :
    outcomeOf ((f <$> x) v) = ((outcomeOf (x v)).1.map f, (outcomeOf (x v)).2) := by
  show outcomeOf (EStateM.map f x v) = _
  unfold EStateM.map
  cases x v <;> rfl

private theorem settles_map_iff (f : α → β) (outcome : Except Halt β × World κ σ) :
    Settles (fun n => f <$> x n) v outcome ↔
      ∃ before, Settles x v before ∧ outcome = (before.1.map f, before.2) := by
  constructor
  · rintro ⟨n, hn, hended⟩
    rw [outcomeOf_map] at hn
    refine ⟨outcomeOf (x n v), ⟨n, rfl, fun hexhausted => hended ?_⟩, hn.symm⟩
    rw [← hn, hexhausted]
    rfl
  · rintro ⟨before, ⟨n, rfl, hended⟩, rfl⟩
    refine ⟨n, outcomeOf_map f (x n) v, fun hexhausted => hended ?_⟩
    revert hexhausted
    generalize (outcomeOf (x n v)).1 = answer
    cases answer with
    | ok answer => exact fun h => nomatch h
    | error reason =>
      intro hexhausted
      have hreason : reason = .exhausted := Except.error.inj hexhausted
      rw [hreason]

/-- The same is done to the answers of both. -/
theorem map (f : α → β) (h : SameOutcome x v y w) :
    SameOutcome (fun n => f <$> x n) v (fun n => f <$> y n) w := by
  intro outcome
  rw [settles_map_iff, settles_map_iff]
  exact exists_congr fun before => and_congr_left fun _ => h before

end SameOutcome

end Run

/-! ## What no run breaks -/

/-- The free list is exact, and the mirror root has the default methods it was made with. -/
structure World.Sound (world : World κ σ) : Prop where
  free : world.heap.FreeListExact
  defaults : ∃ first, world.mirrorDefaults = World.rootMethods first

theorem World.Sound.of_alike {v w : World κ σ} (h : v.Sound) (hvw : v.Alike w) : w.Sound := by
  rw [hvw.eq_with_log]
  exact ⟨h.free, h.defaults⟩

theorem World.sound_new (settings : WorldSettings) (host : σ) :
    (World.new settings host : World κ σ).Sound where
  free := by
    refine ⟨List.nodup_nil, fun index => ?_⟩
    match index with
    | 0 => simp [World.new, Heap.contains, Heap.node?]
    | 1 => simp [World.new, Heap.contains, Heap.node?]
    | index + 2 => simp [World.new]
  defaults := ⟨3, rfl⟩

/-- Being the same world and sound: kept by the steps of runs. -/
private def SameSound (v w : World κ σ) : Prop := v = w ∧ v.Sound

private instance : World.Likeness (SameSound (κ := κ) (σ := σ)) where
  visible h := congrArg World.visible h.1
  setHeap := by
    rintro v w heap hfollows ⟨rfl, hsound⟩
    exact ⟨rfl, hsound.free.follows hfollows, hsound.defaults⟩
  setSupply _ := by
    rintro ⟨rfl, hsound⟩
    exact ⟨rfl, hsound.free, hsound.defaults⟩
  setHost _ := by
    rintro ⟨rfl, hsound⟩
    exact ⟨rfl, hsound.free, hsound.defaults⟩
  append _ := by
    rintro ⟨rfl, hsound⟩
    exact ⟨rfl, hsound.free, hsound.defaults⟩

private theorem Run.Below.sound {x : Run κ σ α} (h : Run.Steady SameSound x) {v w : World κ σ}
    {answer : α} (hv : v.Sound) (hx : x v = .ok answer w) : w.Sound := by
  have hagrees := h v v ⟨rfl, hv⟩
  rw [hx] at hagrees
  cases hagrees with
  | ok _ hsame => exact hsame.2

private theorem Run.Below.sound_of_error {x : Run κ σ α} (h : Run.Steady SameSound x) {v w : World κ σ}
    {reason : Halt} (hv : v.Sound) (hx : x v = .error reason w) (hreason : reason ≠ .exhausted) :
    w.Sound := by
  have hagrees := h v v ⟨rfl, hv⟩
  rw [hx] at hagrees
  cases hagrees with
  | exhausted => exact absurd rfl hreason
  | error _ hsame => exact hsame.2

namespace Runtime

/-- A message that is answered leaves a sound world behind. -/
theorem sound_of_send {host : Host κ σ} {fuel : Nat} {target : Value κ} {message : Message κ}
    {v w : World κ σ} {answer : Value κ} (hv : v.Sound)
    (h : (ofFuel host fuel).send target message v = .ok answer w) : w.Sound :=
  ((ofFuel_below host (Nat.le_refl fuel)).send target message).sound hv h

end Runtime

/-- A host program that is answered leaves a sound world behind. -/
theorem Program.sound_of_runFor {host : Host κ σ} {fuel : Nat} {program : Program κ σ α}
    {v w : World κ σ} {answer : α} (hv : v.Sound)
    (h : program.runFor fuel host v = .ok answer w) : w.Sound :=
  ((Runtime.ofFuel_below host (Nat.le_refl fuel)).program program).sound hv h

/-- So does one that halts before it is out of steps. -/
theorem Program.sound_of_halted {host : Host κ σ} {fuel : Nat} {program : Program κ σ α}
    {v w : World κ σ} {reason : Halt} (hv : v.Sound)
    (h : program.runFor fuel host v = .error reason w) (hreason : reason ≠ .exhausted) : w.Sound :=
  ((Runtime.ofFuel_below host (Nat.le_refl fuel)).program program).sound_of_error hv h hreason

end Prototypes
