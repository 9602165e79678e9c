import Prototypes.Proofs.Cloning.Recursion
import Prototypes.Proofs.Mirrors.Frames

/-!
# No message tells list and recursion apart

`Runtime.recursing` is the machine in which everything that is cloned is cloned by
recursion, also by code that runs while something else is being cloned.  With one
step more, each of the two machines does what the other does, and all that can be
seen to differ is what is reported.

## Main results

* `Runtime.send_sameOutcome_recursing` — any message has the same outcome in both
  machines.
* `Runtime.defaultClone_sameOutcome_cloneBy` — cloning by the list satisfies the
  equation of the recursion.
* `Runtime.defaultClone_sameOutcome_recursion` — cloning a plain object.
-/

namespace Prototypes

variable {κ σ α : Type}

namespace Run.Below

/-! ## Reports -/

/-- Reporting what has been done changes nothing else. -/
theorem reported {x y : Run κ σ α} (h : Run.Below World.Alike x y) (event : α → Event) :
    Run.Below World.Alike x (y >>= fun a => Run.report (event a) >>= fun _ => Pure.pure a) := by
  intro v w hvw
  have hended := h v w hvw
  show Run.Agrees _ _ (EStateM.bind _ _ w)
  unfold EStateM.bind
  generalize x v = first at hended
  generalize y w = second at hended
  cases hended with
  | exhausted v _ => exact .exhausted v _
  | ok a hvw => exact .ok a (hvw.trans (.with_log _ _))
  | error reason hvw => exact .error reason hvw

theorem unreported {x y : Run κ σ α} (h : Run.Below World.Alike x y) (event : α → Event) :
    Run.Below World.Alike (x >>= fun a => Run.report (event a) >>= fun _ => Pure.pure a) y := by
  intro v w hvw
  have hended := h v w hvw
  show Run.Agrees _ (EStateM.bind _ _ v) _
  unfold EStateM.bind
  generalize x v = first at hended
  generalize y w = second at hended
  cases hended with
  | exhausted v _ => exact .exhausted v _
  | ok a hvw => exact .ok a ((World.Alike.with_log _ _).symm.trans hvw)
  | error reason hvw => exact .error reason hvw

end Run.Below

namespace Runtime

/-! ## Where cloning is by recursion -/

/-- What a node does by default where cloning is by recursion. -/
def performRecursing (rt : Runtime κ σ) (id : ObjectId) : Message κ → Run κ σ (Value κ)
  | .clone => .object <$> rt.recursiveClone id
  | .newInstance arguments => do
    let copy : Value κ := .object (← rt.recursiveClone id)
    discard <| rt.invoke copy Selector.init arguments
    return copy
  | message => rt.performDefault id message

/-- The machine in which cloning is by recursion. -/
def recursing (host : Host κ σ) : Nat → Runtime κ σ := machineBy host performRecursing

/-- Only cloning differs. -/
theorem performRecursing_cases (message : Message κ) :
    message = .clone ∨ (∃ arguments, message = .newInstance arguments) ∨
      ∀ (rt : Runtime κ σ) (id : ObjectId),
        rt.performRecursing id message = rt.performDefault id message := by
  cases message with
  | clone => exact .inl rfl
  | newInstance arguments => exact .inr (.inl ⟨arguments, rfl⟩)
  | _ => exact .inr (.inr fun _ _ => rfl)

/-! ## Below -/

section Below

variable {R : World κ σ → World κ σ → Prop} [World.Likeness R] {rt rt' : Runtime κ σ}

open Run.Below

namespace Below

theorem cloneBy (h : Below R rt rt') {cloneValue cloneValue' : Value κ → Run κ σ (Value κ)}
    (hvalue : ∀ value, Run.Below R (cloneValue value) (cloneValue' value)) (id : ObjectId) :
    Run.Below R (rt.cloneBy cloneValue id) (rt'.cloneBy cloneValue' id) := by
  refine (node id).bind fun found => ?_
  cases found with
  | mirage mirage => exact h.cloneMirage id
  | frame frame => exact raise _
  | object body =>
    obtain ⟨slots, parent, scope, link, tags, family, ⟨singleton, mirrorRoot⟩⟩ := body
    cases singleton with
    | true => exact pure id
    | false =>
      cases link with
      | isA => exact (hvalue parent).bind fun copied => h.cloneNode id copied fun _ => rfl
      | sharesA => exact h.cloneNode id parent fun _ => rfl

theorem cloneValueBy (h : Below R rt rt') {cloneObject cloneObject' : ObjectId → Run κ σ ObjectId}
    (hobject : ∀ id, Run.Below R (cloneObject id) (cloneObject' id)) (value : Value κ) :
    Run.Below R (rt.cloneValueBy cloneObject value) (rt'.cloneValueBy cloneObject' value) := by
  cases value with
  | object id =>
    refine (node id).bind fun found => ?_
    cases found with
    | object body => exact (hobject id).map _
    | _ => exact h.send _ _
  | _ => exact h.send _ _

theorem cloneWithin (h : Below R rt rt') (depth : Nat) (id : ObjectId) :
    Run.Below R (rt.cloneWithin depth id) (rt'.cloneWithin depth id) := by
  induction depth generalizing id with
  | zero => exact halt .exhausted
  | succ depth ih => exact h.cloneBy (h.cloneValueBy ih) id

theorem recursiveClone (h : Below R rt rt') (id : ObjectId) :
    Run.Below R (rt.recursiveClone id) (rt'.recursiveClone id) :=
  (ofHeap _).bind fun depth => h.cloneWithin depth id

/-- Mirages are cloned and singletons answer in the same way, whatever is done to other objects. -/
theorem unlessSingleton (h : Below R rt rt') {x y : Run κ σ ObjectId} (hxy : Run.Below R x y)
    (id : ObjectId) :
    Run.Below R
      (do
        match ← Run.node id with
        | .mirage _ => rt.cloneMirage id
        | node => if node.body?.any fun body => body.flags.singleton then return id else x)
      (do
        match ← Run.node id with
        | .mirage _ => rt'.cloneMirage id
        | node => if node.body?.any fun body => body.flags.singleton then return id else y) := by
  refine (node id).bind fun found => ?_
  cases found with
  | mirage mirage => exact h.cloneMirage id
  | frame frame => exact hxy
  | object body =>
    obtain ⟨slots, parent, scope, link, tags, family, ⟨singleton, mirrorRoot⟩⟩ := body
    cases singleton with
    | true => exact pure id
    | false => exact hxy

theorem defaultClone_cloneSilently {rt rt' : Runtime κ σ} (h : Below World.Alike rt rt')
    (id : ObjectId) : Run.Below World.Alike (rt.defaultClone id) (rt'.cloneSilently id) := by
  refine h.unlessSingleton ?_ id
  refine (ofHeap _).bind fun stretch => (h.clonedParent _).bind fun parent => ?_
  exact (Below.cloneStretch h.copies stretch.reverse id parent).unreported fun copy => .cloned id copy stretch.length

theorem cloneSilently_defaultClone {rt rt' : Runtime κ σ} (h : Below World.Alike rt rt')
    (id : ObjectId) : Run.Below World.Alike (rt.cloneSilently id) (rt'.defaultClone id) := by
  refine h.unlessSingleton ?_ id
  refine (ofHeap _).bind fun stretch => (h.clonedParent _).bind fun parent => ?_
  exact (Below.cloneStretch h.copies stretch.reverse id parent).reported fun copy => .cloned id copy stretch.length

end Below

end Below

/-! ## The two machines -/

variable {host : Host κ σ}

open Run.Below

/-- A plain object that is asked for its clone makes one by default. -/
theorem send_clone_of_object (host : Host κ σ) (n : Nat) {id : ObjectId} {body : PrototypeObject κ}
    {w : World κ σ} (hnode : w.heap.node? id = some (.object body)) :
    (ofFuel host (n + 1)).send (.object id) .clone w =
      (Value.object <$> (ofFuel host n).defaultClone id) w :=
  send_plain host n hnode .clone

theorem send_clone_of_error (host : Host κ σ) (n : Nat) {id : ObjectId} {reason : Halt}
    {w : World κ σ} (hget : w.heap.get id = .error reason) :
    (ofFuel host (n + 1)).send (.object id) .clone w = .error reason w := by
  show (ofFuel host n).dispatch (.object id) .clone w = _
  rw [dispatch, Run.node_bind, hget]

theorem prompt_ofFuel (host : Host κ σ) (n : Nat) : (ofFuel host (n + 1)).Prompt := by
  intro w id body hnode hsingleton
  rw [send_clone_of_object host n hnode, defaultClone, map_bind, Run.node_bind,
    Heap.get_eq_ok_iff.mpr hnode]
  simp only [Node.body?, Option.any, hsingleton]
  rfl

theorem prompt_recursing (host : Host κ σ) (n : Nat) : (recursing host (n + 1)).Prompt := by
  intro w id body hnode hsingleton
  show (recursing host n).dispatchBy (recursing host n).performRecursing (.object id) .clone w = _
  rw [dispatchBy_plain _ _ hnode]
  show EStateM.map _ _ w = _
  rw [EStateM.map, Runtime.recursiveClone_of_singleton _ hnode hsingleton]

section Comparison

variable {rt rt' : Runtime κ σ}

namespace Below

theorem defaultClone_recursiveClone (h : Below World.Alike rt rt') (hprompt : rt'.Prompt)
    (id : ObjectId) : Run.Below World.Alike (rt.defaultClone id) (rt'.recursiveClone id) := by
  rw [hprompt.recursiveClone_eq_cloneSilently id]
  exact h.defaultClone_cloneSilently id

theorem recursiveClone_defaultClone (h : Below World.Alike rt rt')
    (hsteady : Below World.Alike rt' rt') (hprompt : rt'.Prompt) (id : ObjectId) :
    Run.Below World.Alike (rt.recursiveClone id) (rt'.defaultClone id) := by
  refine (h.recursiveClone id).trans ?_
  rw [hprompt.recursiveClone_eq_cloneSilently id]
  exact hsteady.cloneSilently_defaultClone id

theorem performDefault_performRecursing (h : Below World.Alike rt rt') (hprompt : rt'.Prompt)
    (id : ObjectId) (message : Message κ) :
    Run.Below World.Alike (rt.performDefault id message) (rt'.performRecursing id message) := by
  have hclone := h.defaultClone_recursiveClone hprompt id
  rcases performRecursing_cases message with rfl | ⟨arguments, rfl⟩ | hsame
  · exact hclone.map _
  · exact hclone.bind fun _ => (h.invoke _ _ _).ignore.bind fun _ => pure _
  · rw [hsame]
    exact h.performDefault id message

theorem performRecursing_performDefault (h : Below World.Alike rt rt')
    (hsteady : Below World.Alike rt' rt') (hprompt : rt'.Prompt) (id : ObjectId)
    (message : Message κ) :
    Run.Below World.Alike (rt.performRecursing id message) (rt'.performDefault id message) := by
  have hclone := h.recursiveClone_defaultClone hsteady hprompt id
  rcases performRecursing_cases message with rfl | ⟨arguments, rfl⟩ | hsame
  · exact hclone.map _
  · exact hclone.bind fun _ => (h.invoke _ _ _).ignore.bind fun _ => pure _
  · rw [hsame]
    exact h.performDefault id message

end Below

end Comparison

/-- A step more is needed only for singletons that are asked for their clone. -/
theorem ofFuel_below_recursing (host : Host κ σ) (n : Nat) :
    Below World.Alike (ofFuel host n) (recursing host (n + 1)) := by
  rw [← machineBy_performDefault]
  induction n with
  | zero => exact .idle _
  | succ n ih =>
    have hperform := ih.performDefault_performRecursing (prompt_recursing host n)
    exact
      { fuel := Nat.le_succ _
        send := ih.dispatchBy hperform
        run := ih.runMethodBy hperform host }

theorem recursing_below_ofFuel (host : Host κ σ) (n : Nat) :
    Below World.Alike (recursing host n) (ofFuel host (n + 1)) := by
  induction n with
  | zero => exact .idle _
  | succ n ih =>
    have hsteady : Below World.Alike (ofFuel host (n + 1)) (ofFuel host (n + 1)) :=
      ofFuel_below host (Nat.le_refl _)
    have hperform := ih.performRecursing_performDefault hsteady (prompt_ofFuel host n)
    rw [← machineBy_performDefault] at ih hperform ⊢
    exact
      { fuel := Nat.le_succ _
        send := ih.dispatchBy hperform
        run := ih.runMethodBy hperform host }

/-- No message tells whether cloning is by a list or by recursion. -/
theorem send_sameOutcome_recursing (host : Host κ σ) (target : Value κ) (message : Message κ)
    (world : World κ σ) :
    Run.SameOutcome (fun n => (ofFuel host n).send target message) world
      (fun n => (recursing host n).send target message) world :=
  .of_below (fun n => ⟨n + 1, (ofFuel_below_recursing host n).send target message⟩)
    (fun n => ⟨n + 1, (recursing_below_ofFuel host n).send target message⟩) (.refl world)

/-! ## One step of the recursion in the actual machine -/

/-- Asked for its clone, a plain parent makes one by recursion. -/
theorem cloneValueBy_below_send (host : Host κ σ) (n : Nat) (value : Value κ) :
    Run.Below World.Alike
      ((ofFuel host (n + 1)).cloneValueBy (ofFuel host (n + 1)).recursiveClone value)
      ((ofFuel host (n + 2)).send value .clone) := by
  have hsteady : Below World.Alike (ofFuel host (n + 1)) (ofFuel host (n + 1)) :=
    ofFuel_below host (Nat.le_refl _)
  have hsend : Below World.Alike (ofFuel host (n + 1)) (ofFuel host (n + 2)) :=
    ofFuel_below host (Nat.le_succ _)
  cases value with
  | object id =>
    intro v w hvw
    rw [cloneValueBy, Run.node_bind]
    cases hget : v.heap.get id with
    | error reason =>
      rw [World.Affinity.heap_eq hvw] at hget
      rw [send_clone_of_error host (n + 1) hget]
      exact .error reason hvw
    | ok node =>
      cases node with
      | object body =>
        have hnode := Heap.get_eq_ok_iff.mp hget
        rw [World.Affinity.heap_eq hvw] at hnode
        rw [send_clone_of_object host (n + 1) hnode]
        exact (hsteady.recursiveClone_defaultClone hsteady (prompt_ofFuel host n) id).map _ v w hvw
      | _ => exact hsend.send (.object id) .clone v w hvw
  | _ => exact hsend.send _ .clone

theorem send_below_cloneValueBy (host : Host κ σ) (n : Nat) (value : Value κ) :
    Run.Below World.Alike ((ofFuel host n).send value .clone)
      ((ofFuel host (n + 1)).cloneValueBy (ofFuel host (n + 1)).recursiveClone value) := by
  have hsend : Below World.Alike (ofFuel host n) (ofFuel host (n + 1)) :=
    ofFuel_below host (Nat.le_succ _)
  cases value with
  | object id =>
    intro v w hvw
    rw [cloneValueBy, Run.node_bind, ← World.Affinity.heap_eq hvw]
    cases hget : v.heap.get id with
    | error reason =>
      have hsent := hsend.send (.object id) .clone v w hvw
      rwa [send_clone_of_error host n (World.Affinity.heap_eq hvw ▸ hget)] at hsent
    | ok node =>
      cases node with
      | object body =>
        have hnode := Heap.get_eq_ok_iff.mp hget
        cases n with
        | zero => exact .exhausted v _
        | succ n =>
          rw [send_clone_of_object host n hnode]
          have hless : Below World.Alike (ofFuel host n) (ofFuel host (n + 2)) :=
            ofFuel_below host (Nat.le_add_right n 2)
          exact (hless.defaultClone_recursiveClone (prompt_ofFuel host (n + 1)) id).map _ v w hvw
      | _ => exact hsend.send (.object id) .clone v w hvw
  | _ => exact hsend.send _ .clone

/--
Cloning satisfies its own recursion: the parent that is cloned along may as well be
sent the message.
-/
theorem defaultClone_sameOutcome_cloneBy (host : Host κ σ) (id : ObjectId) (world : World κ σ) :
    Run.SameOutcome (fun n => (ofFuel host n).defaultClone id) world
      (fun n => (ofFuel host n).cloneBy (fun value => (ofFuel host n).send value .clone) id)
      world := by
  refine .of_below (fun n => ⟨n + 2, ?_⟩) (fun n => ⟨n + 1, ?_⟩) (.refl world)
  · have hfirst : Below World.Alike (ofFuel host n) (ofFuel host (n + 1)) :=
      ofFuel_below host (Nat.le_succ _)
    have hsecond : Below World.Alike (ofFuel host (n + 1)) (ofFuel host (n + 2)) :=
      ofFuel_below host (Nat.le_succ _)
    refine (hfirst.defaultClone_recursiveClone (prompt_ofFuel host n) id).trans ?_
    rw [recursiveClone_eq]
    exact hsecond.cloneBy (cloneValueBy_below_send host n) id
  · have hfirst : Below World.Alike (ofFuel host n) (ofFuel host (n + 1)) :=
      ofFuel_below host (Nat.le_succ _)
    have hsteady : Below World.Alike (ofFuel host (n + 1)) (ofFuel host (n + 1)) :=
      ofFuel_below host (Nat.le_refl _)
    refine (hfirst.cloneBy (send_below_cloneValueBy host n) id).trans ?_
    rw [← recursiveClone_eq]
    exact hsteady.recursiveClone_defaultClone hsteady (prompt_ofFuel host n) id

/-! ## Cloning a plain object -/

/--
Cloning a plain object by the list has the outcome of the recursion: the same
answer or the same reason to halt, the same heap, and the same memory of the host,
whose code may run in between and may look at all there is.

Where no node is its own ancestor the list has steps enough to find the stretch.
The recursion is taken in two ways.  In the machine `recursing` every clone is made
by it.  In the actual machine one step of it is an equation: a singleton answers
itself; any other object is copied onto what its parent answers to the message, if
the link is is-a, or onto the parent.
-/
theorem defaultClone_sameOutcome_recursion (host : Host κ σ) {world : World κ σ}
    (hacyclic : world.heap.Acyclic) {id : ObjectId} {body : PrototypeObject κ}
    (hplain : world.heap.node? id = some (.object body)) :
    world.heap.stretch id ≠ .error .exhausted ∧
    Run.SameOutcome (fun n => (ofFuel host n).defaultClone id) world
      (fun n => (recursing host n).recursiveClone id) world ∧
    Run.SameOutcome (fun n => (ofFuel host n).defaultClone id) world
      (fun n =>
        if body.flags.singleton then return id
        else do
          let parent ← match body.link with
            | .isA => (ofFuel host n).send body.dynamicParent .clone
            | .sharesA => pure body.dynamicParent
          (ofFuel host n).cloneNode id parent .object)
      world := by
  refine ⟨hacyclic.stretch_ne_exhausted id, ?_, ?_⟩
  · refine .of_below (fun n => ⟨n + 1, ?_⟩) (fun n => ⟨n + 1, ?_⟩) (.refl world)
    · exact (ofFuel_below_recursing host n).defaultClone_recursiveClone
        (prompt_recursing host n) id
    · exact (recursing_below_ofFuel host n).recursiveClone_defaultClone
        (ofFuel_below host (Nat.le_refl _)) (prompt_ofFuel host n) id
  · refine (defaultClone_sameOutcome_cloneBy host id world).trans (.of_eq fun n => ?_)
    rw [cloneBy]
    exact Run.node_bind_of_some hplain _

/-- Host code that counts how often it runs. -/
private def making : Host Unit Nat where
  program _ _ _ := .remember (· + 1) (.done .nil)

/--
An is-a chain of the objects at indices 4, 3 and 2.  The object at index 3 has a
custom field for which the one at index 2 stands, whose method `new` is host code.
-/
private def layered : World Unit Nat :=
  let world : World Unit Nat := World.new default 0
  let top : PrototypeObject Unit :=
    { slots :=
        { Storage.empty ⟨100⟩ with
          methods :=
            [{ identity := ⟨101⟩
               name := Selector.new
               parameters := [.required ⟨"owner"⟩]
               body := .host () }] }
      dynamicParent := .nil
      lexicalParent := none
      link := .isA
      typeTags := []
      family := ⟨3⟩
      flags := .none }
  let middle : PrototypeObject Unit :=
    { top with
      slots := { Storage.empty ⟨102⟩ with custom := [⟨⟨"x"⟩, .object ⟨2⟩⟩] }
      dynamicParent := .object ⟨2⟩ }
  let bottom : PrototypeObject Unit :=
    { top with slots := Storage.empty ⟨103⟩, dynamicParent := .object ⟨3⟩ }
  let nodes : List (Node Unit) := [.object top, .object middle, .object bottom]
  { world with heap := nodes.foldl (fun heap node => (heap.allocate node).2) world.heap }

private theorem acyclic_layered : layered.heap.Acyclic := by
  refine Heap.acyclic_of_rank ObjectId.index ?_
  rintro ⟨index⟩ parent ⟨node, hnode, hparent⟩
  match index, hnode with
  | 0, hnode => cases hnode; cases hparent
  | 1, hnode => cases hnode; cases hparent
  | 2, hnode => cases hnode; cases hparent
  | 3, hnode => cases hnode; cases hparent; decide
  | 4, hnode => cases hnode; cases hparent; decide

/-- Cloning the bottom of the chain, whose custom field is made by host code on the way. -/
theorem defaultClone_sameOutcome_recursion_layered :
    layered.heap.Acyclic ∧ layered.heap.stretch ⟨4⟩ = .ok [⟨4⟩, ⟨3⟩, ⟨2⟩] ∧
      Run.SameOutcome (fun n => (ofFuel making n).defaultClone ⟨4⟩) layered
        (fun n => (recursing making n).recursiveClone ⟨4⟩) layered ∧
      Run.SameOutcome (fun n => (ofFuel making n).defaultClone ⟨4⟩) layered
        (fun n => do
          let parent ← (ofFuel making n).send (.object ⟨3⟩) .clone
          (ofFuel making n).cloneNode ⟨4⟩ parent .object)
        layered := by
  have hnode : ∃ body, layered.heap.node? ⟨4⟩ = some (.object body) ∧ body.link = .isA ∧
      body.flags.singleton = false ∧ body.dynamicParent = .object ⟨3⟩ :=
    ⟨_, rfl, rfl, rfl, rfl⟩
  obtain ⟨body, hnode, hlink, hsingleton, hparent⟩ := hnode
  obtain ⟨-, hrecursion, hstep⟩ := defaultClone_sameOutcome_recursion making acyclic_layered hnode
  simp only [hlink, hsingleton, hparent, Bool.false_eq_true, if_false] at hstep
  exact ⟨acyclic_layered, rfl, hrecursion, hstep⟩

end Runtime

end Prototypes
