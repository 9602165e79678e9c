import Mathlib.Data.List.Chain
import Mathlib.Logic.Relation
import Prototypes.Proofs.Heap.Chains
import Prototypes.Semantics.Cloning

/-!
# The plain stretch above an object

To clone an object one climbs from plain is-a parent to plain is-a parent.
`Heap.Climb` is that climb without a limit: the nodes that are passed, and
whether there was a top or a handle that leads nowhere.

A climb passes no node twice, so one that ends is no longer than the arena and
the limit on `Heap.stretch` is not felt.  One that does not end goes round in a
circle of parents.

## Main results

* `Climb.stretch_eq`, `stretchFrom_of_stretch_exhausted` — a stretch is found
  just when a climb ends.
* `Acyclic.exists_climb` — it does when no node is its own ancestor.
-/

namespace Prototypes.Heap

variable {κ : Type}

/-! ## One step up -/

/-- The plain is-a parent that is cloned along with a node, if it has one. -/
def clonedAlong? (heap : Heap κ) (id : ObjectId) : Except Halt (Option ObjectId) := do
  match (← heap.get id).body? with
  | some ⟨_, .object parent, _, .isA, _, _, _⟩ =>
    match ← heap.get parent with
    | .object body => return if body.flags.singleton then none else some parent
    | _ => return none
  | _ => return none

variable {heap : Heap κ} {id parent : ObjectId} {ids : List ObjectId}

theorem stretchFrom_succ (heap : Heap κ) (fuel : Nat) (id : ObjectId) :
    heap.stretchFrom (fuel + 1) id = (do
      match ← heap.clonedAlong? id with
      | some parent => return id :: (← heap.stretchFrom fuel parent)
      | none => return [id]) := by
  rw [stretchFrom, clonedAlong?]
  cases heap.get id with
  | error reason => rfl
  | ok node =>
    dsimp only [bind, Except.bind]
    rcases node.body? with _ | ⟨slots, parent, scope, link, tags, family, flags⟩
    · rfl
    · cases link with
      | sharesA => cases parent <;> rfl
      | isA =>
        cases parent with
        | object parent =>
          dsimp only
          cases heap.get parent with
          | error reason => rfl
          | ok parentNode =>
            cases parentNode with
            | object body =>
              dsimp only
              cases body.flags.singleton <;> rfl
            | _ => rfl
        | _ => rfl

theorem clonedAlong?_of_isA {node : Node κ} {body : PrototypeObject κ}
    (hnode : heap.node? id = some node) (hbody : node.body? = some body)
    (hlink : body.link = .isA) (habove : body.dynamicParent = .object parent) :
    heap.clonedAlong? id = (do
      match ← heap.get parent with
      | .object body => return if body.flags.singleton then none else some parent
      | _ => return none) := by
  obtain ⟨slots, _, scope, _, tags, family, flags⟩ := body
  cases hlink
  cases habove
  rw [clonedAlong?, get_eq_ok_iff.mpr hnode]
  simp only [bind, Except.bind, hbody]

/-- What it takes for a parent to be cloned along. -/
theorem clonedAlong?_eq_some_iff :
    heap.clonedAlong? id = .ok (some parent) ↔
      ∃ node body parentBody, heap.node? id = some node ∧ node.body? = some body ∧
        body.link = .isA ∧ body.dynamicParent = .object parent ∧
        heap.node? parent = some (.object parentBody) ∧ parentBody.flags.singleton = false := by
  constructor
  · intro h
    unfold clonedAlong? at h
    cases hget : heap.get id with
    | error reason =>
      rw [hget] at h
      cases h
    | ok node =>
      rw [hget] at h
      dsimp only [bind, Except.bind] at h
      split at h
      · rename_i slots above scope tags family flags hbody
        cases habove : heap.get above with
        | error reason =>
          rw [habove] at h
          cases h
        | ok aboveNode =>
          rw [habove] at h
          cases aboveNode with
          | object body =>
            cases hsingleton : body.flags.singleton with
            | true =>
              simp only [hsingleton] at h
              cases h
            | false =>
              simp only [hsingleton] at h
              cases h
              exact ⟨node, _, body, get_eq_ok_iff.mp hget, hbody, rfl, rfl,
                get_eq_ok_iff.mp habove, hsingleton⟩
          | _ => cases h
      · cases h
  · rintro ⟨node, body, parentBody, hnode, hbody, hlink, habove, hparent, hsingleton⟩
    rw [clonedAlong?_of_isA hnode hbody hlink habove, get_eq_ok_iff.mpr hparent]
    simp only [bind, Except.bind, hsingleton]
    rfl

/-- Nothing stops a climb but a handle that leads nowhere. -/
theorem clonedAlong?_ne_exhausted (heap : Heap κ) (id : ObjectId) :
    heap.clonedAlong? id ≠ .error .exhausted := by
  have hget : ∀ id, heap.get id ≠ .error .exhausted := fun id h => by
    cases (get_eq_error_iff.mp h).2
  intro h
  unfold clonedAlong? at h
  cases hnode : heap.get id with
  | error reason =>
    rw [hnode] at h
    cases h
    exact hget id hnode
  | ok node =>
    rw [hnode] at h
    dsimp only [bind, Except.bind] at h
    split at h
    · rename_i above _ _ _ _ _
      cases habove : heap.get above with
      | error reason =>
        rw [habove] at h
        cases h
        exact hget above habove
      | ok aboveNode =>
        rw [habove] at h
        cases aboveNode <;> cases h
    · cases h

/-- A climb from a node that is there is stopped by a parent that is not. -/
theorem exists_of_clonedAlong?_error {node : Node κ} {body : PrototypeObject κ} {reason : Halt}
    (h : heap.clonedAlong? id = .error reason) (hnode : heap.node? id = some node)
    (hbody : node.body? = some body) :
    body.link = .isA ∧ ∃ parent, body.dynamicParent = .object parent ∧
      heap.get parent = .error reason := by
  obtain ⟨slots, above, scope, link, tags, family, flags⟩ := body
  unfold clonedAlong? at h
  rw [get_eq_ok_iff.mpr hnode] at h
  dsimp only [bind, Except.bind] at h
  rw [hbody] at h
  cases link with
  | sharesA => cases above <;> cases h
  | isA =>
    cases above with
    | object parent =>
      dsimp only at h
      cases hget : heap.get parent with
      | error reason =>
        rw [hget] at h
        cases h
        exact ⟨rfl, parent, rfl, hget⟩
      | ok parentNode =>
        rw [hget] at h
        cases parentNode <;> cases h
    | _ => cases h

/-! ## Climbing -/

/-- The nodes that are passed on the way up, and whether the top is reached. -/
inductive Climb (heap : Heap κ) : ObjectId → List ObjectId → Except Halt Unit → Prop
  | top {id : ObjectId} : heap.clonedAlong? id = .ok none → heap.Climb id [id] (.ok ())
  | stop {id : ObjectId} {reason : Halt} :
      heap.clonedAlong? id = .error reason → heap.Climb id [id] (.error reason)
  | step {id parent : ObjectId} {ids : List ObjectId} {ending : Except Halt Unit} :
      heap.clonedAlong? id = .ok (some parent) → heap.Climb parent ids ending →
        heap.Climb id (id :: ids) ending

/-- The plain is-a stretch above an object: the nodes of a climb to the top. -/
abbrev Stretch (heap : Heap κ) (id : ObjectId) (ids : List ObjectId) : Prop :=
  heap.Climb id ids (.ok ())

namespace Climb

variable {ending : Except Halt Unit}

theorem unique {ids' : List ObjectId} {ending' : Except Halt Unit} (h : heap.Climb id ids ending)
    (h' : heap.Climb id ids' ending') : ids = ids' ∧ ending = ending' := by
  induction h generalizing ids' with
  | top hparent =>
    cases h' with
    | top => exact ⟨rfl, rfl⟩
    | stop hparent' => cases hparent.symm.trans hparent'
    | step hparent' => cases hparent.symm.trans hparent'
  | stop hparent =>
    cases h' with
    | top hparent' => cases hparent.symm.trans hparent'
    | stop hparent' =>
      cases hparent.symm.trans hparent'
      exact ⟨rfl, rfl⟩
    | step hparent' => cases hparent.symm.trans hparent'
  | step hparent _ ih =>
    cases h' with
    | top hparent' => cases hparent.symm.trans hparent'
    | stop hparent' => cases hparent.symm.trans hparent'
    | step hparent' hrest =>
      cases hparent.symm.trans hparent'
      obtain ⟨rfl, rfl⟩ := ih hrest
      exact ⟨rfl, rfl⟩

theorem ne_exhausted (h : heap.Climb id ids ending) : ending ≠ .error .exhausted := by
  induction h with
  | top => exact fun hreason => nomatch hreason
  | @stop id reason hparent =>
    intro hreason
    cases hreason
    exact heap.clonedAlong?_ne_exhausted id hparent
  | step _ _ ih => exact ih

/-- Every node of a climb starts a climb that is no longer. -/
theorem exists_of_mem {other : ObjectId} (h : heap.Climb id ids ending) (hmem : other ∈ ids) :
    ∃ ids', heap.Climb other ids' ending ∧ ids'.length ≤ ids.length := by
  induction h with
  | top hparent =>
    obtain rfl := List.mem_singleton.mp hmem
    exact ⟨_, .top hparent, Nat.le_refl _⟩
  | stop hparent =>
    obtain rfl := List.mem_singleton.mp hmem
    exact ⟨_, .stop hparent, Nat.le_refl _⟩
  | step hparent hrest ih =>
    rcases List.mem_cons.mp hmem with rfl | hmem
    · exact ⟨_, .step hparent hrest, Nat.le_refl _⟩
    · obtain ⟨ids', hclimb, hle⟩ := ih hmem
      exact ⟨ids', hclimb, Nat.le_succ_of_le hle⟩

theorem nodup (h : heap.Climb id ids ending) : ids.Nodup := by
  induction h with
  | top => exact List.nodup_singleton _
  | stop => exact List.nodup_singleton _
  | step hparent hrest ih =>
    refine List.nodup_cons.mpr ⟨fun hmem => ?_, ih⟩
    obtain ⟨ids', hclimb, hle⟩ := hrest.exists_of_mem hmem
    obtain ⟨rfl, -⟩ := hclimb.unique (.step hparent hrest)
    exact absurd hle (Nat.not_succ_le_self _)

/-- The nodes of a climb that starts at one that is there are all there. -/
theorem contains_of_mem {other : ObjectId} (h : heap.Climb id ids ending)
    (hlive : heap.contains id = true) (hmem : other ∈ ids) : heap.contains other = true := by
  induction h with
  | top => rwa [List.mem_singleton.mp hmem]
  | stop => rwa [List.mem_singleton.mp hmem]
  | step hparent _ ih =>
    rcases List.mem_cons.mp hmem with rfl | hmem
    · exact hlive
    · obtain ⟨_, _, _, -, -, -, -, hparentNode, -⟩ := clonedAlong?_eq_some_iff.mp hparent
      exact ih (contains_of_node? hparentNode) hmem

theorem length_le (h : heap.Climb id ids ending) (hlive : heap.contains id = true) :
    ids.length ≤ heap.entries.size :=
  length_le_of_nodup h.nodup fun _ hmem => h.contains_of_mem hlive hmem

/-- With steps enough, a stretch is what the climb has passed. -/
theorem stretchFrom_eq (h : heap.Climb id ids ending) {fuel : Nat} (hle : ids.length ≤ fuel) :
    heap.stretchFrom fuel id = ending.map fun _ => ids := by
  induction h generalizing fuel with
  | top hparent =>
    obtain ⟨fuel, rfl⟩ := Nat.exists_eq_add_of_le' hle
    rw [List.length_singleton, stretchFrom_succ, hparent]
    rfl
  | stop hparent =>
    obtain ⟨fuel, rfl⟩ := Nat.exists_eq_add_of_le' hle
    rw [List.length_singleton, stretchFrom_succ, hparent]
    rfl
  | @step _ _ _ ending hparent _ ih =>
    obtain ⟨fuel, rfl⟩ : ∃ k, fuel = k + 1 := Nat.exists_eq_succ_of_ne_zero (by
      rw [List.length_cons] at hle
      omega)
    rw [stretchFrom_succ, hparent]
    simp only [bind, Except.bind, ih (Nat.le_of_succ_le_succ hle)]
    cases ending <;> rfl

/-- The limit on a stretch is not felt on a climb that ends. -/
theorem stretch_eq (h : heap.Climb id ids ending) : heap.stretch id = ending.map fun _ => ids := by
  refine h.stretchFrom_eq ?_
  cases hlive : heap.contains id with
  | true => exact Nat.le_succ_of_le (h.length_le hlive)
  | false =>
    have hget : heap.get id = .error (.dangling id) :=
      get_eq_error_iff.mpr ⟨by simpa [contains] using hlive, rfl⟩
    have hstop : heap.clonedAlong? id = .error (.dangling id) := by
      unfold clonedAlong?
      rw [hget]
      rfl
    obtain ⟨rfl, -⟩ := h.unique (.stop hstop)
    exact Nat.succ_le_succ (Nat.zero_le _)

end Climb

/-- A stretch that is not limited has come to the end of a climb. -/
theorem exists_climb_of_stretchFrom {fuel : Nat}
    (h : heap.stretchFrom fuel id ≠ .error .exhausted) : ∃ ids ending, heap.Climb id ids ending := by
  induction fuel generalizing id with
  | zero => exact absurd rfl h
  | succ fuel ih =>
    rw [stretchFrom_succ] at h
    cases hparent : heap.clonedAlong? id with
    | error reason => exact ⟨[id], _, .stop hparent⟩
    | ok above =>
      cases above with
      | none => exact ⟨[id], _, .top hparent⟩
      | some parent =>
        rw [hparent] at h
        have hrest : heap.stretchFrom fuel parent ≠ .error .exhausted := fun hexhausted =>
          h (by simp only [bind, Except.bind, hexhausted])
        obtain ⟨ids, ending, hclimb⟩ := ih hrest
        exact ⟨_, ending, .step hparent hclimb⟩

/-- A stretch that is limited has no end whatever the limit. -/
theorem stretchFrom_of_stretch_exhausted (h : heap.stretch id = .error .exhausted) (fuel : Nat) :
    heap.stretchFrom fuel id = .error .exhausted := by
  by_contra hended
  obtain ⟨ids, ending, hclimb⟩ := exists_climb_of_stretchFrom hended
  rw [hclimb.stretch_eq] at h
  cases ending with
  | ok top => cases h
  | error reason =>
    cases h
    exact hclimb.ne_exhausted rfl

theorem stretch_eq_ok_iff : heap.stretch id = .ok ids ↔ heap.Stretch id ids := by
  constructor
  · intro h
    have hended : heap.stretchFrom heap.walkLimit id ≠ .error .exhausted := by
      intro hexhausted
      cases h.symm.trans hexhausted
    obtain ⟨ids', ending, hclimb⟩ := exists_climb_of_stretchFrom hended
    rw [hclimb.stretch_eq] at h
    cases ending with
    | ok top =>
      cases h
      exact hclimb
    | error reason => cases h
  · intro h
    rw [h.stretch_eq]
    rfl

/-- The node a stretch ends at is the one no parent is cloned along with. -/
theorem Climb.exists_top (h : heap.Stretch id ids) :
    ∃ top, ids.getLast? = some top ∧ heap.clonedAlong? top = .ok none := by
  unfold Stretch at h
  generalize htopped : (Except.ok () : Except Halt Unit) = ending at h
  induction h with
  | top htop => exact ⟨_, rfl, htop⟩
  | stop => cases htopped
  | step _ hrest ih =>
    obtain ⟨top, hlast, htop⟩ := ih htopped
    exact ⟨top, by rw [List.getLast?_cons, hlast]; rfl, htop⟩

/-! ## Without circles -/

/-- The one node is the dynamic parent of the other. -/
def HasParent (heap : Heap κ) (id parent : ObjectId) : Prop :=
  ∃ node, heap.node? id = some node ∧ node.dynamicParent = .object parent

/-- No node is its own ancestor. -/
def Acyclic (heap : Heap κ) : Prop := ∀ id, ¬ Relation.TransGen heap.HasParent id id

/-- No circle leads through nodes whose parents have lower rank. -/
theorem acyclic_of_rank (rank : ObjectId → Nat)
    (h : ∀ id parent, heap.HasParent id parent → rank parent < rank id) : heap.Acyclic := by
  have hlower : ∀ id ancestor, Relation.TransGen heap.HasParent id ancestor →
      rank ancestor < rank id := by
    intro id ancestor hancestor
    induction hancestor with
    | single hparent => exact h _ _ hparent
    | tail _ hparent ih => exact Nat.lt_trans (h _ _ hparent) ih
  exact fun id hcircle => Nat.lt_irrefl _ (hlower id id hcircle)

theorem hasParent_of_clonedAlong? (h : heap.clonedAlong? id = .ok (some parent)) :
    heap.HasParent id parent := by
  obtain ⟨node, body, -, hnode, hbody, -, hparent, -⟩ := clonedAlong?_eq_some_iff.mp h
  refine ⟨node, hnode, ?_⟩
  cases node with
  | frame frame => cases hbody
  | _ =>
    cases hbody
    exact hparent

/-- A limited stretch has passed as many nodes as the limit says, each the parent of the one before. -/
theorem exists_ancestors_of_exhausted {fuel : Nat}
    (h : heap.stretchFrom fuel id = .error .exhausted) (hlive : heap.contains id = true) :
    ∃ passed : List ObjectId, passed.length = fuel ∧ passed.IsChain heap.HasParent ∧
      (∀ other ∈ passed, heap.contains other = true) ∧ ∀ first ∈ passed.head?, first = id := by
  induction fuel generalizing id with
  | zero =>
    refine ⟨[], rfl, .nil, fun other hmem => ?_, fun first hmem => ?_⟩
    · cases hmem
    · cases hmem
  | succ fuel ih =>
    rw [stretchFrom_succ] at h
    cases hparent : heap.clonedAlong? id with
    | error reason =>
      rw [hparent] at h
      cases h
      exact absurd hparent (heap.clonedAlong?_ne_exhausted id)
    | ok above =>
      rw [hparent] at h
      cases above with
      | none => cases h
      | some parent =>
        obtain ⟨_, _, _, -, -, -, -, hparentNode, -⟩ := clonedAlong?_eq_some_iff.mp hparent
        have hexhausted : heap.stretchFrom fuel parent = .error .exhausted := by
          simp only [bind, Except.bind] at h
          cases hrest : heap.stretchFrom fuel parent with
          | ok rest =>
            rw [hrest] at h
            cases h
          | error reason =>
            rw [hrest] at h
            exact h
        obtain ⟨passed, rfl, hchain, hpassed, hfirst⟩ :=
          ih hexhausted (contains_of_node? hparentNode)
        refine ⟨id :: passed, rfl, List.isChain_cons.mpr ⟨fun first hmem => ?_, hchain⟩, ?_, ?_⟩
        · obtain rfl := hfirst first hmem
          exact hasParent_of_clonedAlong? hparent
        · intro other hmem
          rcases List.mem_cons.mp hmem with rfl | hmem
          · exact hlive
          · exact hpassed other hmem
        · intro first hmem
          exact (Option.some.inj hmem).symm

/-- Where no node is its own ancestor every climb ends. -/
theorem Acyclic.exists_climb (h : heap.Acyclic) (id : ObjectId) :
    ∃ ids ending, heap.Climb id ids ending := by
  suffices hended : heap.stretchFrom heap.walkLimit id ≠ .error .exhausted from
    exists_climb_of_stretchFrom hended
  intro hexhausted
  cases hlive : heap.contains id with
  | false =>
    have hget : heap.get id = .error (.dangling id) :=
      get_eq_error_iff.mpr ⟨by simpa [contains] using hlive, rfl⟩
    rw [walkLimit, stretchFrom, hget] at hexhausted
    cases hexhausted
  | true =>
    obtain ⟨passed, hlength, hchain, hpassed, -⟩ := exists_ancestors_of_exhausted hexhausted hlive
    have hancestors : passed.Pairwise (Relation.TransGen heap.HasParent) :=
      List.isChain_iff_pairwise.mp (hchain.imp fun _ _ => .single)
    have hnodup : passed.Nodup := by
      refine hancestors.imp fun {first second} hancestor hsame => ?_
      exact h first (hsame ▸ hancestor)
    have hle := length_le_of_nodup hnodup hpassed
    rw [hlength] at hle
    exact absurd hle (Nat.not_succ_le_self _)

/-- There a stretch is found, unless a handle leads nowhere. -/
theorem Acyclic.stretch_ne_exhausted (h : heap.Acyclic) (id : ObjectId) :
    heap.stretch id ≠ .error .exhausted := by
  obtain ⟨ids, ending, hclimb⟩ := h.exists_climb id
  rw [hclimb.stretch_eq]
  intro hexhausted
  cases ending with
  | ok top => cases hexhausted
  | error reason =>
    cases hexhausted
    exact hclimb.ne_exhausted rfl

end Prototypes.Heap
