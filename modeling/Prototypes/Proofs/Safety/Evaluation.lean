import Prototypes.Proofs.Safety.Programs
import Prototypes.Semantics.Machine

/-!
# Programs of fragments cannot go wrong

A world that host code has never come near can only be changed by fragments, and by the
methods that the object model makes by itself.  In such a world nothing that a fragment
does is the fault of the host: no handle dangles, no index is out of bounds, no internal
error is raised.  This holds with any number of steps, and whether the run ends with an
answer or with an error, it leaves a world of the same kind behind.

## Main results

* `Runtime.ofFuel_safe` — every call of the machine is safe where there is no host code.
* `Fragment.cannot_go_wrong` — evaluating and quoting go well.
-/

namespace Prototypes

variable {κ σ : Type}

/-! ## The machine without host code -/

/-- Every message is answered, and every body run, safely; the induction is on the steps. -/
theorem Runtime.ofFuel_safe (host : Host κ σ) (steps : Nat) :
    (ofFuel host steps).Safe (Rules.strict κ) := by
  induction steps with
  | zero => exact { send := fun _ _ => .exhausted, run := fun _ _ => .exhausted }
  | succ steps ih =>
    refine {
      send := fun target message => ih.dispatch (List.subset_append_left _ _) (List.subset_append_right _ _)
      run := fun {method arguments} context haccepts => ?_ }
    refine ih.runMethod_of host haccepts (by grind) (by grind) (by grind) fun code hbody v hv hneeds => ?_
    -- there is no host code to be run
    have hmethod : .native method ∈ method.parts := by
      obtain ⟨identity, name, parameters, _⟩ := method
      cases hbody
      exact List.mem_singleton_self _
    obtain ⟨made, hmade, -⟩ := hneeds _ (List.mem_append_left _ (List.mem_append_left _ hmethod))
    cases hbody.symm.trans hmade

/-! ## Runs that go well -/

/-- The only native methods are ones that the object model makes by itself. -/
def OnlyMade (parts : List (Part κ)) : Prop := ∀ method, .native method ∈ parts → method.IsMade

/-- The same of all that the nodes of a world hold. -/
def World.OnlyMade (w : World κ σ) : Prop :=
  ∀ id node, w.heap.node? id = some node → Prototypes.OnlyMade node.parts

/-- What can be said of a run from `v` that is not the host's fault, however it ends. -/
structure Run.GoesWell (v : World κ σ) (result : EStateM.Result Halt (World κ σ) (Value κ)) : Prop where
  faultless : ∀ reason after, result = .error reason after → reason.isFault = false
  /-- every node is there still, with its parents, its tags and its family -/
  keeps : ∀ id node, v.heap.node? id = some node →
    ∃ after, (stateOf result).heap.node? id = some after ∧ node.Stays after
  wellFormed : (stateOf result).WellFormed
  sound : (stateOf result).Sound
  onlyMade : (stateOf result).OnlyMade
  live : ∀ answer after, result = .ok answer after → ∀ id ∈ answer.edges, after.heap.contains id = true

theorem Run.EndsSafely.goesWell {v : World κ σ} {result : EStateM.Result Halt (World κ σ) (Value κ)}
    (h : EndsSafely (Rules.strict κ) v result) : GoesWell v result := by
  obtain ⟨hgrows, hsane⟩ := h.leaves
  refine {
    faultless := fun reason after hresult => ?_
    keeps := fun id node hnode => hgrows.nodes hnode
    wellFormed := hsane.toWellFormed
    sound := hsane.toSound
    onlyMade := hsane.natives
    live := fun answer after hresult id hid => ?_ }
  · cases hresult
    cases h with
    | error _ _ hends => exact hends
  · cases hresult
    cases h with
    | ok _ _ hanswer => exact hanswer.contains ((answer.handle_mem_parts id).mpr hid)

/-! ## Evaluating and quoting -/

namespace Fragment

/--
Evaluating a fragment in a context, and quoting it, go well in every well-formed world, with
any number of steps, if the fragment and the context hold live handles and host code is
nowhere.
-/
theorem cannot_go_wrong (host : Host κ σ) (steps : Nat) {w : World κ σ} (hsound : w.Sound)
    (hw : w.WellFormed) (hmade : w.OnlyMade) {fragment : Fragment κ} {context : Context κ}
    (hlive : ∀ id ∈ fragment.edges ++ context.edges, w.heap.contains id = true)
    (honly : OnlyMade (fragment.parts ++ context.parts)) :
    Run.GoesWell w (fragment.eval (Runtime.ofFuel host steps) context w) ∧
      Run.GoesWell w
        ((do (← fragment.quote (Runtime.ofFuel host steps) context).toValue : Run κ σ (Value κ)) w) := by
  have hsane : w.Sane (Rules.strict κ) := ⟨hw, hsound, hmade⟩
  have hadmits : w.Admits (Rules.strict κ) (fragment.parts ++ context.parts) := by
    intro part hpart
    cases part with
    | handle id =>
      refine hlive id (List.mem_append.mpr ((List.mem_append.mp hpart).imp ?_ ?_))
      exacts [(fragment.handle_mem_parts id).mp, (context.handle_mem_parts id).mp]
    | native method => exact honly method hpart
  have hmachine := Runtime.ofFuel_safe host steps
  have hcontext : context.parts ⊆ fragment.parts ++ context.parts := List.subset_append_right _ _
  have hfragment : fragment.parts ⊆ fragment.parts ++ context.parts := List.subset_append_left _ _
  have heval := fragment.safe_eval hmachine hcontext hfragment
  have hquote : Run.Safe (Rules.strict κ) (fragment.parts ++ context.parts)
      (do (← fragment.quote (Runtime.ofFuel host steps) context).toValue : Run κ σ (Value κ)) :=
    (fragment.safe_quote hmachine hcontext hfragment).bind fun quoted =>
      quoted.safe_toValue (List.subset_append_left _ _)
  exact ⟨(heval w hsane hadmits).goesWell, (hquote w hsane hadmits).goesWell⟩

/-- A field is defined in the outermost scope, and then asked for. -/
private def defineAndAsk : Fragment Empty :=
  .sequence [.definition ⟨"x"⟩ (.literal (.bool true)), .messageSend .selfReference ⟨"x"⟩ []]

theorem cannot_go_wrong_new :
    let w : World Empty Unit := World.new default ()
    w.Sound ∧ w.WellFormed ∧ w.OnlyMade ∧
      (∀ id ∈ defineAndAsk.edges ++ w.topContext.edges, w.heap.contains id = true) ∧
      OnlyMade (defineAndAsk.parts ++ w.topContext.parts) ∧
      ∃ after, defineAndAsk.eval (Runtime.ofFuel Host.none 3) w.topContext w = .ok (.bool true) after ∧
        after.WellFormed := by
  intro w
  have hsound : w.Sound := World.sound_new _ _
  have hw : w.WellFormed := World.wellFormed_new _ _
  have hmade : w.OnlyMade := (World.sane_new (Rules.strict Empty) _ _).natives
  have hlive : ∀ id ∈ defineAndAsk.edges ++ w.topContext.edges, w.heap.contains id = true := by decide
  have honly : OnlyMade (defineAndAsk.parts ++ w.topContext.parts) := by
    intro method hmethod
    simp [defineAndAsk, World.topContext] at hmethod
  obtain ⟨hwell, -⟩ := cannot_go_wrong Host.none 3 hsound hw hmade hlive honly
  exact ⟨hsound, hw, hmade, hlive, honly, _, rfl, hwell.wellFormed⟩

end Fragment

end Prototypes
