import Prototypes.Proofs.Approximation.Machine
import Prototypes.Proofs.Cloning.Stretches

/-!
# Cloning by recursion

What cloning means is said best by recursion: a copy is made of a node and of
the answer its is-a parent gives when asked for its clone.  The object model
works through a list instead.  It first climbs to the top of the plain is-a
stretch, has the value above answer, and then copies the stretch from the top
down.

Copying a node runs the code that makes its custom fields, and that code may
change any object and clone others.  Both ways nevertheless do the same, step for
step: on its way up the recursion does nothing but look at nodes, and so it has
looked at the whole stretch before any code runs.

## Main results

* `Runtime.recursiveClone_eq` — the equation of the recursion; the bound on its
  depth is not felt.
* `Runtime.Prompt.recursiveClone_eq_cloneSilently` — list and recursion do the
  same in every world.
-/

namespace Prototypes

variable {κ σ α : Type}

namespace Runtime

/-! ## The recursion -/

section Definitions

variable (rt : Runtime κ σ)

/-- A copy of a node, whose is-a parent is answered by `cloneValue`. -/
def cloneBy (cloneValue : Value κ → Run κ σ (Value κ)) (id : ObjectId) : Run κ σ ObjectId := do
  match ← Run.node id with
  | .mirage _ => rt.cloneMirage id
  | .frame _ => Run.raise (.illegalOperation (.notCloneable id))
  | .object body =>
    if body.flags.singleton then return id
    else
      let parent ← match body.link with
        | .isA => cloneValue body.dynamicParent
        | .sharesA => pure body.dynamicParent
      rt.cloneNode id parent .object

/-- What a value answers when asked for its clone, plain objects being cloned by `cloneObject`. -/
def cloneValueBy (cloneObject : ObjectId → Run κ σ ObjectId) (value : Value κ) :
    Run κ σ (Value κ) := do
  match value with
  | .object id =>
    if (← Run.node id).isPlain then .object <$> cloneObject id
    else rt.send (.object id) .clone
  | value => rt.send value .clone

/-- A copy of a node, made by recursion over at most `depth` nodes. -/
def cloneWithin : (depth : Nat) → ObjectId → Run κ σ ObjectId
  | 0, _ => Run.halt .exhausted
  | depth + 1, id => rt.cloneBy (rt.cloneValueBy (cloneWithin depth)) id

/-- A copy of a node, made by recursion. -/
def recursiveClone (id : ObjectId) : Run κ σ ObjectId := do
  let depth ← Run.ofHeap fun heap => .ok heap.walkLimit
  rt.cloneWithin depth id

/-- A copy of an object, made by the list; `defaultClone` but for what is reported. -/
def cloneSilently (id : ObjectId) : Run κ σ ObjectId := do
  match ← Run.node id with
  | .mirage _ => rt.cloneMirage id
  | node =>
    if node.body?.any fun body => body.flags.singleton then return id
    else
      let stretch ← Run.ofHeap fun heap => heap.stretch id
      let parent ← rt.clonedParent (stretch.getLast?.getD id)
      rt.cloneStretch stretch.reverse id parent

end Definitions

/-! ## Steps of the recursion -/

section Steps

variable (rt : Runtime κ σ) {w : World κ σ} {id : ObjectId} {body : PrototypeObject κ}

theorem cloneBy_of_isA (hnode : w.heap.node? id = some (.object body))
    (hsingleton : body.flags.singleton = false) (hlink : body.link = .isA)
    (cloneValue : Value κ → Run κ σ (Value κ)) :
    rt.cloneBy cloneValue id w =
      (cloneValue body.dynamicParent >>= fun parent => rt.cloneNode id parent .object) w := by
  rw [cloneBy, Run.node_bind, Heap.get_eq_ok_iff.mpr hnode]
  simp only [hsingleton, hlink]
  rfl

theorem cloneBy_of_sharesA (hnode : w.heap.node? id = some (.object body))
    (hsingleton : body.flags.singleton = false) (hlink : body.link = .sharesA)
    (cloneValue : Value κ → Run κ σ (Value κ)) :
    rt.cloneBy cloneValue id w = rt.cloneNode id body.dynamicParent .object w := by
  rw [cloneBy, Run.node_bind, Heap.get_eq_ok_iff.mpr hnode]
  simp only [hsingleton, hlink]
  rfl

theorem cloneBy_of_singleton (hnode : w.heap.node? id = some (.object body))
    (hsingleton : body.flags.singleton = true) (cloneValue : Value κ → Run κ σ (Value κ)) :
    rt.cloneBy cloneValue id w = .ok id w := by
  rw [cloneBy, Run.node_bind, Heap.get_eq_ok_iff.mpr hnode]
  simp only [hsingleton]
  rfl

theorem cloneValueBy_of_object (hnode : w.heap.node? id = some (.object body))
    (cloneObject : ObjectId → Run κ σ ObjectId) :
    rt.cloneValueBy cloneObject (.object id) w = (Value.object <$> cloneObject id) w := by
  rw [cloneValueBy, Run.node_bind, Heap.get_eq_ok_iff.mpr hnode]
  rfl

/-- Ways to clone the parent are told apart only by what they do at the parent. -/
theorem cloneBy_congr {cloneValue cloneValue' : Value κ → Run κ σ (Value κ)}
    (h : ∀ body, w.heap.node? id = some (.object body) → body.flags.singleton = false →
      body.link = .isA → cloneValue body.dynamicParent w = cloneValue' body.dynamicParent w) :
    rt.cloneBy cloneValue id w = rt.cloneBy cloneValue' id w := by
  rw [cloneBy, cloneBy, Run.node_bind, Run.node_bind]
  cases hget : w.heap.get id with
  | error reason => rfl
  | ok node =>
    cases node with
    | object body =>
      dsimp only
      cases hsingleton : body.flags.singleton with
      | true => rfl
      | false =>
        cases hlink : body.link with
        | sharesA => rfl
        | isA => exact Run.bind_eq_of_eq (h body (Heap.get_eq_ok_iff.mp hget) hsingleton hlink) _
    | _ => rfl

theorem cloneValueBy_congr {cloneObject cloneObject' : ObjectId → Run κ σ ObjectId}
    {value : Value κ}
    (h : ∀ id body, value = .object id → w.heap.node? id = some (.object body) →
      cloneObject id w = cloneObject' id w) :
    rt.cloneValueBy cloneObject value w = rt.cloneValueBy cloneObject' value w := by
  cases value with
  | object id =>
    rw [cloneValueBy, cloneValueBy, Run.node_bind, Run.node_bind]
    cases hget : w.heap.get id with
    | error reason => rfl
    | ok node =>
      cases node with
      | object body =>
        show EStateM.map _ _ w = EStateM.map _ _ w
        unfold EStateM.map
        rw [h id body rfl (Heap.get_eq_ok_iff.mp hget)]
      | _ => rfl
  | _ => rfl

/-- Where a climb takes a step the recursion goes up one node. -/
theorem cloneBy_of_clonedAlong? {parent : ObjectId}
    (hnode : w.heap.node? id = some (.object body)) (hsingleton : body.flags.singleton = false)
    (hparent : w.heap.clonedAlong? id = .ok (some parent))
    (cloneObject : ObjectId → Run κ σ ObjectId) :
    rt.cloneBy (rt.cloneValueBy cloneObject) id w =
      (cloneObject parent >>= fun copy => rt.cloneNode id (.object copy) .object) w := by
  obtain ⟨node, body', parentBody, hnode', hbody, hlink, habove, hparentNode, -⟩ :=
    Heap.clonedAlong?_eq_some_iff.mp hparent
  obtain rfl := Option.some.inj (hnode.symm.trans hnode')
  obtain rfl := Option.some.inj hbody
  rw [rt.cloneBy_of_isA hnode hsingleton hlink, habove,
    Run.bind_eq_of_eq (rt.cloneValueBy_of_object hparentNode cloneObject), bind_map_left]

/-- Where a climb is stopped the recursion is. -/
theorem cloneBy_of_stop {reason : Halt} (hnode : w.heap.node? id = some (.object body))
    (hsingleton : body.flags.singleton = false) (hstop : w.heap.clonedAlong? id = .error reason)
    (cloneObject : ObjectId → Run κ σ ObjectId) :
    rt.cloneBy (rt.cloneValueBy cloneObject) id w = .error reason w := by
  obtain ⟨hlink, parent, habove, hget⟩ := Heap.exists_of_clonedAlong?_error hstop hnode rfl
  have hvalue : rt.cloneValueBy cloneObject (.object parent) w = .error reason w := by
    rw [cloneValueBy, Run.node_bind, hget]
  rw [rt.cloneBy_of_isA hnode hsingleton hlink, habove]
  show EStateM.bind _ _ w = _
  rw [EStateM.bind, hvalue]

end Steps

/-! ## The bound on the depth -/

section Depth

variable (rt : Runtime κ σ) {w : World κ σ} {id : ObjectId} {ids : List ObjectId}

theorem cloneWithin_of_singleton {body : PrototypeObject κ}
    (hnode : w.heap.node? id = some (.object body)) (hsingleton : body.flags.singleton = true)
    {depth : Nat} (hdepth : 0 < depth) : rt.cloneWithin depth id w = .ok id w := by
  obtain ⟨depth, rfl⟩ := Nat.exists_eq_succ_of_ne_zero hdepth.ne'
  exact rt.cloneBy_of_singleton hnode hsingleton _

theorem recursiveClone_of_singleton {body : PrototypeObject κ}
    (hnode : w.heap.node? id = some (.object body)) (hsingleton : body.flags.singleton = true) :
    rt.recursiveClone id w = .ok id w :=
  rt.cloneWithin_of_singleton hnode hsingleton (Nat.succ_pos _)

/-- A recursion that may go deeper than the climb is long does not feel its bound. -/
theorem cloneWithin_eq_of_climb {ending : Except Halt Unit} (h : w.heap.Climb id ids ending)
    {depth depth' : Nat} (hlt : ids.length < depth) (hlt' : ids.length < depth') :
    rt.cloneWithin depth id w = rt.cloneWithin depth' id w := by
  induction ids generalizing id depth depth' with
  | nil => cases h
  | cons first ids ih =>
    rw [List.length_cons] at hlt hlt'
    obtain ⟨depth, rfl⟩ : ∃ k, depth = k + 1 := ⟨depth - 1, by omega⟩
    obtain ⟨depth', rfl⟩ : ∃ k, depth' = k + 1 := ⟨depth' - 1, by omega⟩
    refine rt.cloneBy_congr fun body hnode hsingleton hlink => ?_
    refine rt.cloneValueBy_congr fun parent parentBody habove hparent => ?_
    cases hparentSingleton : parentBody.flags.singleton with
    | true =>
      rw [rt.cloneWithin_of_singleton hparent hparentSingleton (by omega),
        rt.cloneWithin_of_singleton hparent hparentSingleton (by omega)]
    | false =>
      have hstep := Heap.clonedAlong?_eq_some_iff.mpr
        ⟨_, body, parentBody, hnode, rfl, hlink, habove, hparent, hparentSingleton⟩
      cases h with
      | top htop => cases hstep.symm.trans htop
      | stop hstop => cases hstep.symm.trans hstop
      | step hstep' hrest =>
        cases hstep.symm.trans hstep'
        exact ih hrest (by omega) (by omega)

/-- A recursion without an end uses up every depth. -/
theorem cloneWithin_of_exhausted {body : PrototypeObject κ} {depth : Nat}
    (hnode : w.heap.node? id = some (.object body)) (hsingleton : body.flags.singleton = false)
    (h : w.heap.stretchFrom depth id = .error .exhausted) :
    rt.cloneWithin depth id w = .error .exhausted w := by
  induction depth generalizing id body with
  | zero => rfl
  | succ depth ih =>
    rw [Heap.stretchFrom_succ] at h
    cases hparent : w.heap.clonedAlong? id with
    | error reason =>
      rw [hparent] at h
      cases h
      exact absurd hparent (w.heap.clonedAlong?_ne_exhausted id)
    | ok above =>
      rw [hparent] at h
      cases above with
      | none => cases h
      | some parent =>
        obtain ⟨_, _, parentBody, -, -, -, -, hparentNode, hparentSingleton⟩ :=
          Heap.clonedAlong?_eq_some_iff.mp hparent
        have hrest : w.heap.stretchFrom depth parent = .error .exhausted := by
          cases hrest : w.heap.stretchFrom depth parent with
          | ok rest =>
            simp only [bind, Except.bind, hrest] at h
            cases h
          | error reason =>
            simpa only [bind, Except.bind, hrest] using h
        rw [cloneWithin, rt.cloneBy_of_clonedAlong? hnode hsingleton hparent]
        show EStateM.bind _ _ w = _
        rw [EStateM.bind, ih hparentNode hparentSingleton hrest]

theorem recursiveClone_apply (id : ObjectId) (w : World κ σ) :
    rt.recursiveClone id w = rt.cloneWithin w.heap.walkLimit id w := rfl

/--
The recursion: a mirage is cloned with its mirror, a singleton answers itself, and
any other object is copied onto the clone of its parent, or onto its parent.
-/
theorem recursiveClone_eq (id : ObjectId) :
    rt.recursiveClone id = rt.cloneBy (rt.cloneValueBy rt.recursiveClone) id := by
  funext w
  refine rt.cloneBy_congr fun body hnode hsingleton hlink => ?_
  refine rt.cloneValueBy_congr fun parent parentBody habove hparent => ?_
  have hsize : 0 < w.heap.entries.size :=
    Nat.zero_lt_of_lt (Heap.index_lt_of_contains (Heap.contains_of_node? hnode))
  rw [recursiveClone_apply, Heap.walkLimit]
  cases hparentSingleton : parentBody.flags.singleton with
  | true =>
    rw [rt.cloneWithin_of_singleton hparent hparentSingleton hsize,
      rt.cloneWithin_of_singleton hparent hparentSingleton (Nat.succ_pos _)]
  | false =>
    by_cases hexhausted : w.heap.stretch parent = .error .exhausted
    · rw [rt.cloneWithin_of_exhausted hparent hparentSingleton
          (Heap.stretchFrom_of_stretch_exhausted hexhausted _),
        rt.cloneWithin_of_exhausted hparent hparentSingleton
          (Heap.stretchFrom_of_stretch_exhausted hexhausted _)]
    · obtain ⟨ids, ending, hclimb⟩ := Heap.exists_climb_of_stretchFrom hexhausted
      have hstep := Heap.clonedAlong?_eq_some_iff.mpr
        ⟨_, body, parentBody, hnode, rfl, hlink, habove, hparent, hparentSingleton⟩
      have hlength := (Heap.Climb.step hstep hclimb).length_le (Heap.contains_of_node? hnode)
      rw [List.length_cons] at hlength
      exact rt.cloneWithin_eq_of_climb hclimb hlength (Nat.lt_succ_of_lt hlength)

end Depth

/-! ## The list does what the recursion does -/

/-- Singletons answer themselves when asked for their clone. -/
def Prompt (rt : Runtime κ σ) : Prop :=
  ∀ (w : World κ σ) (id : ObjectId) (body : PrototypeObject κ),
    w.heap.node? id = some (.object body) → body.flags.singleton = true →
      rt.send (.object id) .clone w = .ok (.object id) w

section Silently

variable {rt : Runtime κ σ} {w : World κ σ} {id : ObjectId} {ids : List ObjectId}

/-- The node that is copied last goes onto the copy that was made before. -/
theorem cloneStretch_concat (rt : Runtime κ σ) {sources : List ObjectId} (h : sources ≠ [])
    (source last last' : ObjectId) (parent : Value κ) :
    rt.cloneStretch (sources ++ [source]) last parent =
      rt.cloneStretch sources last' parent >>= fun copy =>
        rt.cloneNode source (.object copy) .object := by
  induction sources generalizing last last' parent with
  | nil => exact absurd rfl h
  | cons first sources ih =>
    rw [List.cons_append, cloneStretch, cloneStretch, bind_assoc]
    congr 1
    funext copy
    cases sources with
    | nil => simp only [List.nil_append, cloneStretch, bind_pure, pure_bind]
    | cons second sources => exact ih (List.cons_ne_nil _ _) copy copy (.object copy)

theorem clonedParent_of_isA (rt : Runtime κ σ) {body : PrototypeObject κ}
    (hnode : w.heap.node? id = some (.object body)) (hlink : body.link = .isA) :
    rt.clonedParent id w = rt.send body.dynamicParent .clone w := by
  rw [clonedParent, Run.node_bind, Heap.get_eq_ok_iff.mpr hnode]
  simp only [Node.body?, hlink]

theorem clonedParent_of_sharesA (rt : Runtime κ σ) {body : PrototypeObject κ}
    (hnode : w.heap.node? id = some (.object body)) (hlink : body.link = .sharesA) :
    rt.clonedParent id w = .ok body.dynamicParent w := by
  rw [clonedParent, Run.node_bind, Heap.get_eq_ok_iff.mpr hnode]
  simp only [Node.body?, hlink]
  rfl

/-- The parent a climb stops below is asked for its clone by the recursion too. -/
theorem Prompt.cloneValueBy_of_top (hprompt : rt.Prompt) {body : PrototypeObject κ}
    (hnode : w.heap.node? id = some (.object body)) (hlink : body.link = .isA)
    (htop : w.heap.clonedAlong? id = .ok none) :
    rt.cloneValueBy rt.recursiveClone body.dynamicParent w =
      rt.send body.dynamicParent .clone w := by
  cases habove : body.dynamicParent with
  | object parent =>
    rw [Heap.clonedAlong?_of_isA hnode rfl hlink habove] at htop
    rw [cloneValueBy, Run.node_bind]
    cases hget : w.heap.get parent with
    | error reason =>
      rw [hget] at htop
      cases htop
    | ok parentNode =>
      rw [hget] at htop
      cases parentNode with
      | object parentBody =>
        have hparent := Heap.get_eq_ok_iff.mp hget
        have hsingleton : parentBody.flags.singleton = true := by
          by_contra hplain
          simp only [bind, Except.bind, hplain] at htop
          cases htop
        rw [hprompt w parent parentBody hparent hsingleton]
        show EStateM.map _ _ w = _
        rw [EStateM.map, rt.recursiveClone_of_singleton hparent hsingleton]
      | _ => rfl
  | _ => rfl

/-- At the top the recursion does what the list begins with. -/
theorem Prompt.recursiveClone_of_top (hprompt : rt.Prompt) {body : PrototypeObject κ}
    (hnode : w.heap.node? id = some (.object body)) (hsingleton : body.flags.singleton = false)
    (htop : w.heap.clonedAlong? id = .ok none) :
    rt.recursiveClone id w =
      (rt.clonedParent id >>= fun parent => rt.cloneNode id parent .object) w := by
  rw [recursiveClone_eq]
  cases hlink : body.link with
  | isA =>
    rw [rt.cloneBy_of_isA hnode hsingleton hlink]
    refine Run.bind_eq_of_eq ?_ _
    rw [hprompt.cloneValueBy_of_top hnode hlink htop, rt.clonedParent_of_isA hnode hlink]
  | sharesA =>
    rw [rt.cloneBy_of_sharesA hnode hsingleton hlink,
      Run.bind_of_ok (rt.clonedParent_of_sharesA hnode hlink)]

/-- The recursion does to a stretch what the list does. -/
theorem Prompt.recursiveClone_of_stretch (hprompt : rt.Prompt) (h : w.heap.Stretch id ids)
    {body : PrototypeObject κ} (hnode : w.heap.node? id = some (.object body))
    (hsingleton : body.flags.singleton = false) (last : ObjectId) :
    rt.recursiveClone id w = (do
      let parent ← rt.clonedParent (ids.getLast?.getD id)
      rt.cloneStretch ids.reverse last parent) w := by
  unfold Heap.Stretch at h
  generalize htopped : (Except.ok () : Except Halt Unit) = ending at h
  induction h generalizing body with
  | top htop =>
    rw [hprompt.recursiveClone_of_top hnode hsingleton htop]
    simp only [List.reverse_singleton, cloneStretch, bind_pure]
    rfl
  | stop => cases htopped
  | @step id parent ids ending hparent hrest ih =>
    obtain ⟨_, _, parentBody, -, -, -, -, hparentNode, hparentSingleton⟩ :=
      Heap.clonedAlong?_eq_some_iff.mp hparent
    obtain ⟨above, rest, rfl⟩ : ∃ above rest, ids = above :: rest := by
      cases hrest <;> exact ⟨_, _, rfl⟩
    have hlast : (above :: rest).getLast?.getD id = (above :: rest).getLast?.getD parent := by
      rw [List.getLast?_cons]
      rfl
    rw [recursiveClone_eq, rt.cloneBy_of_clonedAlong? hnode hsingleton hparent,
      Run.bind_eq_of_eq (ih hparentNode hparentSingleton htopped), List.reverse_cons (a := id), bind_assoc,
      List.getLast?_cons_cons, hlast]
    have hsome : (above :: rest).reverse ≠ [] := by simp
    refine congrFun (congrArg _ (funext fun value => ?_)) w
    exact (rt.cloneStretch_concat hsome id last last value).symm

/-- The recursion fails where no stretch is found. -/
theorem recursiveClone_of_stop (rt : Runtime κ σ) {reason : Halt}
    (h : w.heap.Climb id ids (.error reason)) {body : PrototypeObject κ}
    (hnode : w.heap.node? id = some (.object body)) (hsingleton : body.flags.singleton = false) :
    rt.recursiveClone id w = .error reason w := by
  generalize hstopped : (Except.error reason : Except Halt Unit) = ending at h
  induction h generalizing body with
  | top => cases hstopped
  | stop hstop =>
    cases hstopped
    rw [recursiveClone_eq, rt.cloneBy_of_stop hnode hsingleton hstop]
  | @step id parent ids ending hparent _ ih =>
    obtain ⟨_, _, parentBody, -, -, -, -, hparentNode, hparentSingleton⟩ :=
      Heap.clonedAlong?_eq_some_iff.mp hparent
    rw [recursiveClone_eq, rt.cloneBy_of_clonedAlong? hnode hsingleton hparent]
    show EStateM.bind _ _ w = _
    rw [EStateM.bind, ih hparentNode hparentSingleton hstopped]

theorem cloneSilently_of_object (rt : Runtime κ σ) {body : PrototypeObject κ}
    (hnode : w.heap.node? id = some (.object body)) (hsingleton : body.flags.singleton = false) :
    rt.cloneSilently id w =
      match w.heap.stretch id with
      | .ok stretch => (do
          let parent ← rt.clonedParent (stretch.getLast?.getD id)
          rt.cloneStretch stretch.reverse id parent) w
      | .error reason => .error reason w := by
  rw [cloneSilently, Run.node_bind, Heap.get_eq_ok_iff.mpr hnode]
  simp only [Node.body?, Option.any, hsingleton]
  show EStateM.bind _ _ w = _
  rw [EStateM.bind, Run.ofHeap, Run.observe]
  cases w.heap.stretch id <;> rfl

theorem cloneSilently_of_frame (rt : Runtime κ σ) {frame : CallFrame κ}
    (hnode : w.heap.node? id = some (.frame frame)) :
    rt.cloneSilently id w = .error (.raised (.illegalOperation (.notCloneable id))) w := by
  have hget := Heap.get_eq_ok_iff.mpr hnode
  have hstretch : w.heap.stretch id = .ok [id] := by
    rw [Heap.stretch, Heap.walkLimit, Heap.stretchFrom, hget]
    rfl
  have hparent : rt.clonedParent id w = .ok .nil w := by
    rw [clonedParent, Run.node_bind, hget]
    rfl
  rw [cloneSilently, Run.node_bind, hget]
  show EStateM.bind _ _ w = _
  rw [EStateM.bind, Run.ofHeap, Run.observe, hstretch]
  show (rt.clonedParent id >>= fun parent => rt.cloneStretch [id] id parent) w = _
  rw [Run.bind_of_ok hparent, cloneStretch, cloneNode, bind_assoc, Run.node_bind, hget]
  rfl

/-- In every world the recursion does what the list does. -/
theorem Prompt.recursiveClone_eq_cloneSilently (hprompt : rt.Prompt) (id : ObjectId) :
    rt.recursiveClone id = rt.cloneSilently id := by
  funext w
  cases hget : w.heap.get id with
  | error reason =>
    rw [recursiveClone_eq, cloneBy, cloneSilently, Run.node_bind, Run.node_bind, hget]
  | ok node =>
    have hnode := Heap.get_eq_ok_iff.mp hget
    match node with
    | .mirage mirage =>
      rw [recursiveClone_eq, cloneBy, cloneSilently, Run.node_bind, Run.node_bind, hget]
    | .frame frame =>
      rw [recursiveClone_eq, cloneBy, Run.node_bind, hget, rt.cloneSilently_of_frame hnode]
      rfl
    | .object body =>
      cases hsingleton : body.flags.singleton with
      | true =>
        rw [rt.recursiveClone_of_singleton hnode hsingleton, cloneSilently, Run.node_bind, hget]
        simp only [Node.body?, Option.any, hsingleton]
        rfl
      | false =>
        rw [rt.cloneSilently_of_object hnode hsingleton]
        by_cases hexhausted : w.heap.stretch id = .error .exhausted
        · rw [hexhausted, recursiveClone_apply,
            rt.cloneWithin_of_exhausted hnode hsingleton hexhausted]
        · obtain ⟨ids, ending, hclimb⟩ := Heap.exists_climb_of_stretchFrom hexhausted
          rw [hclimb.stretch_eq]
          cases ending with
          | ok top => exact hprompt.recursiveClone_of_stretch hclimb hnode hsingleton id
          | error reason => exact rt.recursiveClone_of_stop hclimb hnode hsingleton

end Silently

end Runtime

end Prototypes
