import Prototypes.Proofs.Binding.Reached
import Prototypes.Proofs.Safety.Programs

/-!
# Machines on live handles

Host code can do harm in one way only: it can pass on a handle whose node is gone.  The
machine here is the actual one but for stopping short of that, as though it had run out of
steps: when a request holds such a handle, when host code answers one, and when host code
collects garbage, which must not be done while an activation is in progress.

So this machine is below the actual one.  All its calls are safe, whatever host code does.

## Main results

* `Runtime.careful_below` — where handles are live, this machine does what the actual one
  does.
* `Runtime.careful_safe` — every call of it is safe.
* `Program.runBy_leads` — what requests and collections lead to, programs lead to.
-/

namespace Prototypes

variable {κ σ α : Type}

/-! ## Live handles -/

/-- All handles among the parts are those of nodes. -/
def World.allLive (parts : List (Part κ)) (w : World κ σ) : Bool :=
  parts.all fun part =>
    match part with
    | .handle id => w.heap.contains id
    | .native _ => true

theorem World.allLive_iff {parts : List (Part κ)} {w : World κ σ} :
    w.allLive parts = true ↔ w.Admits (Rules.lenient κ) parts := by
  rw [World.allLive, List.all_eq_true]
  refine forall₂_congr fun part _ => ?_
  cases part with
  | handle id => exact Iff.rfl
  | native method => exact iff_of_true rfl trivial

/-- What a request holds. -/
@[simp, grind =]
def Request.parts : Request κ → List (Part κ)
  | send target message => target.parts ++ message.parts
  | apply closure arguments => closure.parts ++ Value.partsOfAll arguments
  | applyInScope closure arguments context =>
    closure.parts ++ Value.partsOfAll arguments ++ context.parts
  | newObject | freshMirror => []
  | extendWith parent _ code _ => parent.parts ++ code.parts
  | newMirage parent _ scope _ => parent.parts ++ scope.toList.map .handle
  | bindMirror mirror mirage => mirror.parts ++ mirage.parts
  | createMirage code mirror _ => code.parts ++ mirror.parts
  | mirrorBase mirror => mirror.parts
  | resolveIn _ value => value.parts

/-! ## The machine -/

/-- Answers a request, if its handles are live. -/
def Request.runCareful (rt : Runtime κ σ) (request : Request κ) : Run κ σ (Value κ) :=
  Run.allowed (World.allLive request.parts) (request.run rt)

/-- Runs a program whose requests hold live handles, and which collects in a given way. -/
def Program.runCareful (rt : Runtime κ σ) (collection : List (Value κ) → Run κ σ Collected)
    (program : Program κ σ α) : Run κ σ α :=
  program.runBy (fun request => request.runCareful rt) collection

namespace Runtime

/--
Runs a method's body.  What host code answers has to be live, and it may not collect: the
activation that runs it is in progress, and holds handles that are not among the roots.
-/
def runMethodCareful (rt : Runtime κ σ) (host : Host κ σ) (method : Method κ) (context : Context κ)
    (arguments : List (Value κ)) : Run κ σ (Value κ) :=
  match method.body with
  | .host code => do
    let answer ← (host.program code context arguments).runCareful rt fun _ => Run.halt .exhausted
    Run.allowed (World.allLive answer.parts) (pure answer)
  | _ => rt.runMethod host method context arguments

/-- The runtime with a number of steps that takes care of handles. -/
def careful (host : Host κ σ) : Nat → Runtime κ σ
  | 0 => idle
  | steps + 1 =>
    let rt := careful host steps
    { fuel := steps + 1
      send := rt.dispatch
      run := rt.runMethodCareful host }

end Runtime

/-! ## Below the actual machine -/

section Actual

variable {rt rt' : Runtime κ σ}

theorem Request.runCareful_below (h : rt.Below World.Alike rt') (request : Request κ) :
    Run.Below World.Alike (request.runCareful rt) (request.run rt') :=
  (h.request request).allowed _

theorem Program.runCareful_below (h : rt.Below World.Alike rt')
    {collection : List (Value κ) → Run κ σ Collected}
    (hcollection : ∀ roots, Run.Below World.Alike (collection roots) (Run.collect roots))
    (program : Program κ σ α) :
    Run.Below World.Alike (program.runCareful rt collection) (program.run rt') := by
  rw [Program.run_eq_runBy]
  exact program.runBy_below (Request.runCareful_below h) hcollection

namespace Runtime

theorem runMethodCareful_below (h : rt.Below World.Alike rt') (host : Host κ σ) (method : Method κ)
    (context : Context κ) (arguments : List (Value κ)) :
    Run.Below World.Alike (rt.runMethodCareful host method context arguments)
      (rt'.runMethod host method context arguments) := by
  have hactual := h.runMethodBy h.performDefault host method context arguments
  rw [runMethodBy_performDefault, runMethodBy_performDefault] at hactual
  obtain ⟨identity, name, parameters, body⟩ := method
  cases body with
  | host code =>
    have hcollection (roots : List (Value κ)) : Run.Below World.Alike
        (Run.halt .exhausted : Run κ σ Collected) (Run.collect roots) := .exhausted _
    have hprogram := (host.program code context arguments).runCareful_below h hcollection
    have hanswer := hprogram.bind fun answer =>
      (Run.Below.pure (R := World.Alike) answer).allowed (World.allLive answer.parts)
    rw [bind_pure] at hanswer
    exact hanswer
  | builtin body => exact hactual
  | fragment fragment => exact hactual

theorem careful_below (host : Host κ σ) (steps : Nat) :
    (careful host steps).Below World.Alike (ofFuel host steps) := by
  induction steps with
  | zero => exact .idle _
  | succ steps ih =>
    exact { fuel := Nat.le_refl _
            send := ih.dispatchBy ih.performDefault
            run := runMethodCareful_below ih host }

end Runtime

end Actual

/-! ## Where programs lead -/

namespace World

/-- From a sane world the other one has grown, and is sane too. -/
def Leads (rules : Rules κ) (v w : World κ σ) : Prop := v.Sane rules → v.Grows w ∧ w.Sane rules

namespace Leads

variable {rules : Rules κ} {u v w : World κ σ}

theorem refl (w : World κ σ) : Leads rules w w := fun hw => ⟨.refl w, hw⟩

theorem trans (h : Leads rules u v) (h' : Leads rules v w) : Leads rules u w := fun hu =>
  have hv := h hu
  have hw := h' hv.2
  ⟨hv.1.trans hw.1, hw.2⟩

theorem of_sameNodes (h : v.SameNodes w) : Leads rules v w := fun hv => ⟨h.grows, h.sane hv⟩

end Leads

end World

/-- If all its requests and collections lead somewhere, so does a program. -/
theorem Program.runBy_leads {rules : Rules κ} {answer : Request κ → Run κ σ (Value κ)}
    (hanswer : ∀ request v, World.Leads rules v ((answer request).after v))
    (collection : List (Value κ) → Run κ σ Collected)
    (hcollection : ∀ roots v, World.Leads rules v ((collection roots).after v))
    (program : Program κ σ α) (v : World κ σ) :
    World.Leads rules v ((program.runBy answer collection).after v) := by
  induction program generalizing v with
  | done answered => exact .refl v
  | stop reason => exact .refl v
  | observe next ih => exact ih v.visible v
  | remember update next ih =>
    have hsame : v.SameNodes { v with host := update v.host } := ⟨rfl, rfl, rfl, rfl, rfl⟩
    exact (World.Leads.of_sameNodes hsame).trans (ih _)
  | fresh next ih =>
    have hsame : v.SameNodes { v with supply := v.supply + 1 } := ⟨rfl, rfl, rfl, rfl, rfl⟩
    exact (World.Leads.of_sameNodes hsame).trans (ih ⟨v.supply⟩ _)
  | request asked next ih =>
    have hasked := hanswer asked v
    unfold Run.after at hasked ⊢
    unfold runBy
    cases hresult : answer asked v with
    | ok answered w =>
      rw [hresult] at hasked
      exact hasked.trans (ih (.ok answered) w)
    | error reason w =>
      rw [hresult] at hasked
      cases reason with
      | raised error => exact hasked.trans (ih (.error error) w)
      | _ => exact hasked
  | collect roots next ih =>
    have hcollected := hcollection roots v
    unfold Run.after at hcollected ⊢
    unfold runBy
    cases hresult : collection roots v with
    | ok collected w =>
      rw [hresult] at hcollected
      exact hcollected.trans (ih collected w)
    | error reason w =>
      rw [hresult] at hcollected
      exact hcollected

/-! ## Safe calls -/

section Safe

variable {rt : Runtime κ σ} {needs : List (Part κ)}

open Run (EndsSafely)

open Run.Safe

theorem Run.after_eq (x : Run κ σ α) (v : World κ σ) : x.after v = stateOf (x v) := by
  unfold Run.after
  cases x v <;> rfl

theorem Run.EndsSafely.after [Answer κ α] {rules : Rules κ} {x : Run κ σ α} {v : World κ σ}
    (h : EndsSafely rules v (x v)) : v.Grows (x.after v) ∧ (x.after v).Sane rules := by
  rw [after_eq]
  exact h.leaves

/-- What a value stands for in a new world is held by it. -/
private theorem parts_of_resolve_new {settings : WorldSettings} {memory : σ} {value answer : Value κ}
    {w : World κ σ} (h : rt.dispatch value .resolve (World.new settings memory) = .ok answer w) :
    answer.parts ⊆ value.parts := by
  cases value with
  | object id =>
    obtain ⟨index⟩ := id
    match index with
    | 0 => cases h; exact List.Subset.refl _
    | 1 => cases h; exact List.Subset.refl _
    | index + 2 => cases h
  | farReference reference =>
    change (if reference.owner = settings.actor then pure (.object reference.target)
      else pure (.farReference reference) : Run κ σ (Value κ)) (World.new settings memory) = _ at h
    split at h <;> cases h <;> exact List.Subset.refl _
  | _ => cases h; exact List.Subset.refl _

theorem Request.safe_resolveElsewhere (rt : Runtime κ σ) (actor : ActorId) (value : Value κ) :
    Run.Safe (Rules.lenient κ) value.parts (Request.resolveElsewhere rt actor value) := by
  intro v hv hvalue
  have hsame (events : Array Event) : v.SameNodes { v with log := v.log ++ events } :=
    ⟨rfl, rfl, rfl, rfl, rfl⟩
  unfold Request.resolveElsewhere
  dsimp only
  split
  next answer _ hanswer =>
    exact .of_sameNodes hv (hsame _) (hvalue.mono (parts_of_resolve_new hanswer))
  next reason _ _ => exact .error (hsame _).grows ((hsame _).sane hv) trivial

theorem Request.safe (h : rt.Safe (Rules.lenient κ)) (request : Request κ) :
    Run.Safe (Rules.lenient κ) request.parts (request.run rt) := by
  cases request with
  | send target message => exact h.send target message
  | apply closure arguments => exact h.apply (by grind) (by grind)
  | applyInScope closure arguments context => exact h.applyInScope (by grind) (by grind) (by grind)
  | newObject => exact Runtime.Safe.newObject
  | extendWith parent link code tags => exact h.extendWith link tags (by simp) (by simp)
  | newMirage parent link scope tags =>
    refine (Runtime.Safe.newMirage link tags (by simp) fun id hid => ?_).map fun _ => by grind
    exact List.mem_append_right _ (List.mem_map_of_mem (Option.mem_toList.mpr hid))
  | bindMirror mirror mirage =>
    exact (Runtime.Safe.bindMirror (by simp) (by simp)).bind fun _ => pure (List.nil_subset _)
  | createMirage code mirror tags => exact h.createMirage tags (by simp) (by simp)
  | freshMirror => exact Runtime.Safe.freshMirror
  | mirrorBase mirror => exact (h.mirrorBase (List.Subset.refl _)).map fun _ => by grind
  | resolveIn actor value => exact safe_resolveElsewhere rt actor value

/-- The careful machine answers any request safely; one with dead handles stops it at once. -/
theorem Request.runCareful_safe (h : rt.Safe (Rules.lenient κ)) (request : Request κ) :
    Run.Safe (Rules.lenient κ) [] (request.runCareful rt) := by
  intro v hv _
  show EndsSafely _ v (if v.allLive request.parts then request.run rt v else .error .exhausted v)
  split
  next hlive => exact request.safe h v hv (World.allLive_iff.mp hlive)
  next => exact .stop hv trivial

namespace Runtime

theorem runMethodCareful_safe (h : rt.Safe (Rules.lenient κ)) {host : Host κ σ} {method : Method κ}
    {context : Context κ} {arguments : List (Value κ)}
    (haccepts : method.arity.accepts arguments.length = true) (hmethod : method.parts ⊆ needs)
    (hcontext : context.parts ⊆ needs) (harguments : Value.partsOfAll arguments ⊆ needs) :
    Run.Safe (Rules.lenient κ) needs (rt.runMethodCareful host method context arguments) := by
  obtain ⟨identity, name, parameters, body⟩ := method
  cases body with
  | host code =>
    intro v hv hneeds
    have hleads := (host.program code context arguments).runBy_leads
      (fun request v hv => (request.runCareful_safe h v hv (.nil v)).after)
      (fun _ => Run.halt .exhausted) (fun _ w => .refl w) v hv
    change EndsSafely _ v (((host.program code context arguments).runCareful rt (fun _ => Run.halt .exhausted)
      >>= fun answer => Run.allowed (World.allLive answer.parts) (Pure.pure answer)) v)
    simp only [Bind.bind, EStateM.bind, Program.runCareful]
    unfold Run.after at hleads
    generalize (host.program code context arguments).runBy _ _ v = result at hleads ⊢
    cases result with
    | error reason w => exact .error hleads.1 hleads.2 trivial
    | ok answer w =>
      simp only [Run.allowed]
      split
      next hlive => exact .ok hleads.1 hleads.2 (World.allLive_iff.mp hlive)
      next => exact .error hleads.1 hleads.2 trivial
  | builtin body =>
    exact h.runMethod_of host haccepts hmethod hcontext harguments fun code hbody => nomatch hbody
  | fragment fragment =>
    exact h.runMethod_of host haccepts hmethod hcontext harguments fun code hbody => nomatch hbody

theorem careful_safe (host : Host κ σ) (steps : Nat) : (careful host steps).Safe (Rules.lenient κ) := by
  induction steps with
  | zero => exact { send := fun _ _ => .exhausted, run := fun _ _ => .exhausted }
  | succ steps ih =>
    exact {
      send := fun target message =>
        ih.dispatch (List.subset_append_left _ _) (List.subset_append_right _ _)
      run := fun context haccepts =>
        runMethodCareful_safe ih haccepts (by grind) (by grind) (by grind) }

end Runtime

end Safe

end Prototypes
