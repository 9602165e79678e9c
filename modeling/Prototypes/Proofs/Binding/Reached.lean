import Prototypes.Proofs.Binding.Abiding

/-!
# Mirrors and mirages stay bound to each other

A world is *reached* if it comes from a new one by programs that keep to the rules, one
after the other, whether they end with an answer or with an error.  Programs make requests
to the machine, in the course of which code of any host runs, and may collect garbage in
between.

In a reached world a mirage with a mirror and that mirror belong to each other alone.

## Main results

* `World.Reached.bonded` — reached worlds are bonded.
* `World.Reached.bound_to_each_other` — what follows for a mirage and its mirror: where the
  mirror points, who else has it, what binding and cloning do to the two of them, and
  what a collection does.
-/

namespace Prototypes

variable {κ σ α : Type}

open Run (Steady Ends)

/-! ## Programs that keep to the rules -/

/-- The run answers or halts before it is out of steps. -/
def Run.Ended (x : Run κ σ α) (world : World κ σ) : Prop := ∀ after, x world ≠ .error .exhausted after

/-- The world a run leaves behind. -/
def Run.after (x : Run κ σ α) (world : World κ σ) : World κ σ :=
  match x world with
  | .ok _ after => after
  | .error _ after => after

/-- A run that has steps enough leaves the same world as one above it, its log excepted. -/
theorem Run.Below.after_alike {x y : Run κ σ α} (h : Run.Below World.Alike x y) {v : World κ σ}
    (hended : Run.Ended x v) : (x.after v).Alike (y.after v) := by
  have hagrees := h v v (.refl v)
  unfold Run.Ended at hended
  unfold Run.after
  generalize x v = careful at hagrees hended
  generalize y v = actual at hagrees
  cases hagrees with
  | exhausted w => exact absurd rfl (hended w)
  | ok _ halike => exact halike
  | error _ halike => exact halike

/-- A run above one that has steps enough has steps enough. -/
theorem Run.Below.ended {x y : Run κ σ α} (h : Run.Below World.Alike x y) {v : World κ σ}
    (hended : Run.Ended x v) : Run.Ended y v := by
  have hagrees := h v v (.refl v)
  unfold Run.Ended at hended ⊢
  generalize x v = first at hagrees hended
  generalize y v = second at hagrees
  cases hagrees with
  | exhausted w => exact absurd rfl (hended w)
  | ok answer _ => exact fun after hafter => nomatch hafter
  | error reason _ =>
    intro after hafter
    cases hafter
    exact hended _ rfl

/-- What a run above one that has steps enough answers, that one answers too. -/
theorem Run.Below.exists_ok {x y : Run κ σ α} (h : Run.Below World.Alike x y) {v w : World κ σ}
    {answer : α} (hended : Run.Ended x v) (hanswer : y v = .ok answer w) :
    ∃ u, x v = .ok answer u ∧ u.Alike w := by
  have hagrees := h v v (.refl v)
  unfold Run.Ended at hended
  rw [hanswer] at hagrees
  generalize x v = result at hended hagrees ⊢
  cases hagrees with
  | exhausted u => exact absurd rfl (hended u)
  | @ok _ u _ halike => exact ⟨u, rfl, halike⟩

/-- A run that is steady and has steps enough keeps what it is steady in. -/
theorem Run.Below.after_of_ended {R : World κ σ → World κ σ → Prop} {x : Run κ σ α}
    (hx : Steady R x) {v : World κ σ} (hv : R v v) (hended : Run.Ended x v) :
    R (x.after v) (x.after v) := by
  have hagrees := hx v v hv
  unfold Run.Ended at hended
  unfold Run.after
  generalize x v = result at hended hagrees
  cases hagrees with
  | exhausted w => exact absurd rfl (hended w)
  | ok answer hw => exact hw
  | error reason hw => exact hw

/-- A collection leaves what it leaves when it succeeds, or the world as it was. -/
theorem Run.after_collect {P : World κ σ → Prop} {roots : List (Value κ)} {v : World κ σ} (hv : P v)
    (hcollect : ∀ collected w, Run.collect roots v = .ok collected w → P w) :
    P (Run.after (Run.collect roots) v) := by
  unfold Run.after
  cases hresult : Run.collect roots v with
  | ok collected w => exact hcollect collected w hresult
  | error reason w =>
    obtain ⟨-, rfl⟩ := Run.collect_eq_error_iff.mp hresult
    exact hv

/-- The program ends with a number of steps, and keeps to the rules until then. -/
def Program.Abides (host : Host κ σ) (steps : Nat) (program : Program κ σ α) (world : World κ σ) :
    Prop :=
  Run.Ended (program.runAbiding (Runtime.abiding host steps) Run.collect) world

/-- The same world, and bonded. -/
private def SameBonded (v w : World κ σ) : Prop := v = w ∧ v.Bonded

private theorem SameBonded.bonds {v w : World κ σ} (h : SameBonded v w) : World.Bonds v v w :=
  ⟨h.1, h.2, .refl v⟩

private theorem sameBonded_of_bonds {start v w : World κ σ} (h : World.Bonds start v w) :
    SameBonded v w :=
  ⟨h.1, h.2.1⟩

private instance : World.Kinship (SameBonded (κ := κ) (σ := σ)) where
  visible h := congrArg World.visible h.1
  newFamily h := sameBonded_of_bonds (World.Kinship.newFamily h.bonds)
  allocate hnode h := sameBonded_of_bonds (World.Kinship.allocate hnode h.bonds)
  edit hnode hedit h := sameBonded_of_bonds (World.Kinship.edit hnode hedit h.bonds)
  setSupply supply h := sameBonded_of_bonds (World.Affinity.setSupply supply h.bonds)
  setHost host h := sameBonded_of_bonds (World.Affinity.setHost host h.bonds)
  append events h := sameBonded_of_bonds (World.Affinity.append events h.bonds)

private theorem steady_collect (extra : List (Value κ)) :
    Steady SameBonded (Run.collect extra : Run κ σ Collected) := by
  rintro v _ ⟨rfl, hv⟩
  cases hcollect : Run.collect extra v with
  | ok collected w => exact .ok collected ⟨rfl, hv.collect hcollect⟩
  | error reason w =>
    obtain ⟨-, rfl⟩ := Run.collect_eq_error_iff.mp hcollect
    exact .error reason ⟨rfl, hv⟩

/-- A program that keeps to the rules leaves a bonded world. -/
theorem Program.Abides.bonded {host : Host κ σ} {steps : Nat} {program : Program κ σ α}
    {v : World κ σ} (h : program.Abides host steps v) (hv : v.Bonded) :
    (Run.after (program.runFor steps host) v).Bonded := by
  obtain ⟨hrt, -⟩ := Runtime.abiding_bonding host steps
  have hkept : Steady SameBonded (program.runAbiding (Runtime.abiding host steps) Run.collect) :=
    program.runBy_below
      (fun request v w hvw => by
        have hrequest := request.runAbiding_steady hrt v v w hvw.bonds
        exact hrequest.mono fun _ _ => sameBonded_of_bonds)
      steady_collect
  have hbelow := program.runAbiding_below (Runtime.abiding_below host steps) Run.Below.collect
  obtain ⟨-, hbonded⟩ := hkept.after_of_ended ⟨rfl, hv⟩ h
  exact hbonded.of_alike (hbelow.after_alike h)

/-! ## Reached worlds -/

/-- The worlds that programs lead to which keep to the rules. -/
inductive World.Reached (host : Host κ σ) : World κ σ → Prop
  | new (settings : WorldSettings) (memory : σ) : Reached host (World.new settings memory)
  | run {α : Type} {v : World κ σ} (program : Program κ σ α) (steps : Nat) : Reached host v →
      program.Abides host steps v → Reached host (Run.after (program.runFor steps host) v)

namespace World.Reached

variable {host : Host κ σ} {w : World κ σ}

theorem bonded (h : World.Reached host w) : w.Bonded := by
  induction h with
  | new settings memory => exact World.bonded_new settings memory
  | run program steps _ habides ih => exact habides.bonded ih

theorem sound (h : World.Reached host w) : w.Sound := by
  induction h with
  | new settings memory => exact World.sound_new settings memory
  | @run α v program steps _ habides ih =>
    have hbelow := program.runAbiding_below (Runtime.abiding_below host steps) Run.Below.collect
    have hended : Run.Ended (program.runFor steps host) v := hbelow.ended habides
    unfold Run.after
    cases hrun : program.runFor steps host v with
    | ok answer w => exact Program.sound_of_runFor ih hrun
    | error reason w =>
      refine Program.sound_of_halted ih hrun ?_
      rintro rfl
      exact hended w hrun

/-- A copy that cloning makes by the rules has another mirror than the mirage it is a copy of. -/
private theorem cloneMirage_apart (hw : w.Bonded) {mirage mirror copy : ObjectId} {steps : Nat}
    {u : World κ σ} (hmirror : w.HasMirror mirage mirror)
    (hended : Run.Ended ((Runtime.abiding host steps).cloneMirage mirage) w)
    (hcopy : (Runtime.ofFuel host steps).cloneMirage mirage w = .ok copy u) :
    u.HasMirror mirage mirror ∧ ∃ other, u.HasMirror copy other ∧ other ≠ mirror := by
  obtain ⟨hrt, hafresh⟩ := Runtime.abiding_bonding host steps
  have hends := hrt.cloneMirage hafresh hw mirage
  have hactual := (Runtime.abiding_below host steps).cloneMirage mirage w w (.refl w)
  rw [hcopy] at hactual
  unfold Run.Ended at hended
  generalize (Runtime.abiding host steps).cloneMirage mirage w = careful at hended hends hactual
  cases hactual with
  | exhausted v => exact absurd rfl (hended v)
  | @ok _ v _ halike =>
    cases hends with
    | ok hv hpost =>
      obtain ⟨hnew, other, hother⟩ := hpost
      have hkept := hv.2.2.hasMirror hmirror
      rw [halike.eq_with_log]
      refine ⟨hkept, other, hother, ?_⟩
      rintro rfl
      obtain rfl := hv.2.1.unique hkept hother
      obtain ⟨node, hnode, -⟩ := hmirror
      rw [Heap.contains_of_node? hnode] at hnew
      cases hnew

/--
In a reached world, a mirage with a mirror and that mirror belong to each other.  The
mirror is a plain object, not the mirror root, and its own, read-only `base` is the mirage;
no other mirage has it.  Neither of the two can be bound again.  Cloning the mirage by the
rules leaves it its mirror and gives the copy another one.  A collection keeps both as they
are or frees both.
-/
theorem bound_to_each_other (h : World.Reached host w) {mirage mirror : ObjectId}
    (hmirror : w.HasMirror mirage mirror) :
    (mirror ≠ w.mirrorRoot ∧ ∃ body, w.heap.node? mirror = some (.object body) ∧
      body.slots.field? Selector.base =
        some { name := Selector.base, writable := false, value := .object mirage }) ∧
    (∀ other, w.HasMirror other mirror → other = mirage) ∧
    (∀ value, ∃ reason, Run.bindMirror (.object mirror) value w = .error reason w) ∧
    (∀ value, ∃ reason, Run.bindMirror value (.object mirage) w = .error reason w) ∧
    (∀ steps copy u, Run.Ended ((Runtime.abiding host steps).cloneMirage mirage) w →
      (Runtime.ofFuel host steps).cloneMirage mirage w = .ok copy u →
        u.HasMirror mirage mirror ∧ ∃ other, u.HasMirror copy other ∧ other ≠ mirror) ∧
    (∀ extra collected u, Run.collect extra w = .ok collected u →
      (u.heap.node? mirage = w.heap.node? mirage ∧ u.heap.node? mirror = w.heap.node? mirror) ∨
        (u.heap.contains mirage = false ∧ u.heap.contains mirror = false)) := by
  have hw := h.bonded
  obtain ⟨hroot, held, hheld, hholds⟩ := hw.tied mirage mirror hmirror
  refine ⟨⟨hroot, ?_⟩, fun other hother => hw.unique hother hmirror, fun value => ?_, fun value => ?_,
    fun steps copy u => cloneMirage_apart hw hmirror,
    fun extra collected u hcollect => hw.collected_together hcollect hmirror⟩
  · cases held with
    | object body => exact ⟨body, hheld, hholds.base⟩
    | mirage m => cases hholds.plain
    | frame frame => cases hholds.plain
  · rcases Run.bindMirror_cases (.object mirror) value w with ⟨reason, hfailed, -⟩ |
      ⟨r, m, body, node, hr, -, -, -, hnode, hbase, -⟩
    · exact ⟨reason, hfailed⟩
    · cases hr
      cases hheld.symm.trans hnode
      obtain ⟨index, hindex, -⟩ := hholds.base.exists_index
      cases hindex.symm.trans hbase
  · rcases Run.bindMirror_cases value (.object mirage) w with ⟨reason, hfailed, -⟩ |
      ⟨r, m, body, node, -, hm, hnode, -, -, -, -⟩
    · exact ⟨reason, hfailed⟩
    · cases hm
      obtain ⟨node, hmirage, hmirror⟩ := hmirror
      cases hnode.symm.trans hmirage
      cases hmirror

/-- One request that keeps to the rules and is answered leads to a reached world. -/
theorem request {u v : World κ σ} {answer answer' : Value κ} (h : World.Reached host v)
    (request : Request κ) (hcareful : request.runAbiding Runtime.idle v = .ok answer u)
    (hrun : request.run Runtime.idle v = .ok answer' w) : World.Reached host w := by
  let program : Program κ σ Unit := .request request fun _ => .done ()
  have hended : program.runAbiding (Runtime.abiding host 0) Run.collect v = .ok () u := by
    show Program.runBy _ _ program v = _
    simp only [program, Program.runBy, Runtime.abiding, hcareful]
    rfl
  have hafter : Run.after (program.runFor 0 host) v = w := by
    simp only [Run.after, Program.runFor, program, Program.run, Runtime.ofFuel, hrun]
    rfl
  rw [← hafter]
  exact .run program 0 h fun after hexhausted => by cases hended.symm.trans hexhausted

/-- A new world with a mirage. -/
private def withMirage : World Empty Unit :=
  Run.after ((Request.newMirage .nil .isA none []).run Runtime.idle) (World.new default ())

/-- It has a new mirror besides. -/
private def withMirror : World Empty Unit := Run.after (Request.freshMirror.run Runtime.idle) withMirage

/-- The two are bound to each other. -/
private def withBoth : World Empty Unit :=
  Run.after ((Request.bindMirror (.object ⟨3⟩) (.object ⟨2⟩)).run Runtime.idle) withMirror

theorem bound_to_each_other_new : World.Reached Host.none withBoth ∧ withBoth.HasMirror ⟨2⟩ ⟨3⟩ ∧
    ∃ reason, Run.bindMirror (.object ⟨3⟩) (.object ⟨2⟩) withBoth = .error reason withBoth := by
  have hmirage : World.Reached Host.none withMirage :=
    (new default ()).request (.newMirage .nil .isA none []) rfl rfl
  have hmade : World.Reached Host.none withMirror := hmirage.request .freshMirror rfl rfl
  have hreached : World.Reached Host.none withBoth :=
    hmade.request (.bindMirror (.object ⟨3⟩) (.object ⟨2⟩)) rfl rfl
  have hmirror : withBoth.HasMirror ⟨2⟩ ⟨3⟩ := ⟨_, rfl, rfl⟩
  obtain ⟨-, -, hrefused, -⟩ := bound_to_each_other hreached hmirror
  exact ⟨hreached, hmirror, hrefused _⟩

end World.Reached

end Prototypes
