import Prototypes.Proofs.Approximation.Run
import Prototypes.Proofs.Safety.Worlds

/-!
# Safe runs

A run is safe, given some handles and native methods, if from every sane world in which
those may be used it ends as the rules allow, in a sane world that has grown, and what it
answers may be used there (`Run.Safe`).  What may be used once may be used ever after, so
that a sequence of runs is given what is there at the start and all that is answered on the
way: this is `Run.Safe.bind`.

The module goes through the steps of runs one by one.
-/

namespace Prototypes

variable {κ σ α β : Type} [Answer κ α] [Answer κ β]

/-! ## Views -/

namespace World

variable {rules : Rules κ} {v : World κ σ}

/-- What is seen in a world may be used there; a view of too much is given up. -/
inductive Sees (rules : Rules κ) (v : World κ σ) : Except Halt α → Prop
  | ok {answer : α} : v.Admits rules (partsOf answer) → Sees rules v (.ok answer)
  | exhausted : Sees rules v (.error .exhausted)

namespace Sees

theorem bind {seen : Except Halt α} {next : α → Except Halt β} (h : v.Sees rules seen)
    (hnext : ∀ answer, v.Admits rules (partsOf answer) → v.Sees rules (next answer)) :
    v.Sees rules (seen >>= next) := by
  cases h with
  | ok hanswer => exact hnext _ hanswer
  | exhausted => exact .exhausted

/-- A view of nothing that could be at fault. -/
theorem plain {answer : α} (h : (partsOf answer : List (Part κ)) = []) : v.Sees rules (.ok answer) :=
  .ok (h ▸ .nil v)

/-- A node that may be used, and all it holds. -/
theorem get (hv : v.Sane rules) {id : ObjectId} (hid : v.heap.contains id = true) :
    v.Sees rules (v.heap.get id) := by
  obtain ⟨node, hnode⟩ := Heap.contains_iff.mp hid
  rw [Heap.get_eq_ok_iff.mpr hnode]
  exact .ok (hv.holds hnode)

end Sees

end World

namespace Run

/-! ## Safe ends -/

/-- A run from `v` has ended as the rules allow. -/
inductive EndsSafely (rules : Rules κ) (v : World κ σ) :
    EStateM.Result Halt (World κ σ) α → Prop
  | ok {answer : α} {w : World κ σ} : v.Grows w → w.Sane rules → w.Admits rules (partsOf answer) →
      EndsSafely rules v (.ok answer w)
  | error {reason : Halt} {w : World κ σ} : v.Grows w → w.Sane rules → rules.ends reason →
      EndsSafely rules v (.error reason w)

/-- Given what may be used, the run ends as the rules allow. -/
def Safe (rules : Rules κ) (needs : List (Part κ)) (x : Run κ σ α) : Prop :=
  ∀ v, v.Sane rules → v.Admits rules needs → EndsSafely rules v (x v)

variable {rules : Rules κ} {needs : List (Part κ)} {u v w : World κ σ}

namespace EndsSafely

theorem earlier {result : EStateM.Result Halt (World κ σ) α} (h : EndsSafely rules v result)
    (hgrows : u.Grows v) : EndsSafely rules u result := by
  cases h with
  | ok hw hsane hanswer => exact .ok (hgrows.trans hw) hsane hanswer
  | error hw hsane hends => exact .error (hgrows.trans hw) hsane hends

/-- However the run ends, the world has grown, and is sane. -/
theorem leaves {result : EStateM.Result Halt (World κ σ) α} (h : EndsSafely rules v result) :
    v.Grows (stateOf result) ∧ (stateOf result).Sane rules := by
  cases h with
  | ok hgrows hsane _ => exact ⟨hgrows, hsane⟩
  | error hgrows hsane _ => exact ⟨hgrows, hsane⟩

/-- One run after the other, from a world. -/
theorem bind {x : Run κ σ α} {f : α → Run κ σ β} (h : EndsSafely rules v (x v))
    (hnext : ∀ answer w, v.Grows w → w.Sane rules → w.Admits rules (partsOf answer) →
      EndsSafely rules w (f answer w)) : EndsSafely rules v ((x >>= f) v) := by
  show EndsSafely rules v (EStateM.bind x f v)
  unfold EStateM.bind
  generalize x v = result at h
  cases h with
  | ok hw hsane hanswer => exact (hnext _ _ hw hsane hanswer).earlier hw
  | error hw hsane hends => exact .error hw hsane hends

/-- A run that leaves a world with the same nodes. -/
theorem of_sameNodes {answer : α} (hv : v.Sane rules) (hsame : v.SameNodes w)
    (hanswer : v.Admits rules (partsOf answer)) : EndsSafely rules v (.ok answer w) :=
  .ok hsame.grows (hsame.sane hv) (hsame.grows.admits hanswer)

/-- A run that stops where it is. -/
theorem stop (hv : v.Sane rules) {reason : Halt} (hends : rules.ends reason) :
    EndsSafely (α := α) rules v (.error reason v) :=
  .error (.refl v) hv hends

end EndsSafely

namespace Safe

/-! ## Sequences -/

theorem mono {more : List (Part κ)} {x : Run κ σ α} (h : Safe rules needs x) (hsub : needs ⊆ more) :
    Safe rules more x :=
  fun v hv hneeds => h v hv (hneeds.mono hsub)

theorem pure {answer : α} (h : partsOf answer ⊆ needs) :
    Safe rules needs (Pure.pure answer : Run κ σ α) :=
  fun v hv hneeds => .ok (.refl v) hv (hneeds.mono h)

theorem halt {reason : Halt} (hends : rules.ends reason) :
    Safe rules needs (Run.halt reason : Run κ σ α) :=
  fun _ hv _ => .stop hv hends

theorem exhausted : Safe rules needs (Run.halt .exhausted : Run κ σ α) :=
  halt (rules.ends_of_not_fault rfl)

theorem raise {error : RuntimeError} (h : error.isInternal = false) :
    Safe rules needs (Run.raise error : Run κ σ α) :=
  halt (rules.ends_of_not_fault h)

/-- One run after the other: the second is given besides what the first one answers. -/
theorem bind {x : Run κ σ α} {f : α → Run κ σ β} (h : Safe rules needs x)
    (hnext : ∀ answer, Safe rules (partsOf answer ++ needs) (f answer)) :
    Safe rules needs (x >>= f) :=
  fun v hv hneeds => (h v hv hneeds).bind fun answer w hgrows hw hanswer =>
    hnext answer w hw (hanswer.append (hgrows.admits hneeds))

theorem map {x : Run κ σ α} {f : α → β} (h : Safe rules needs x)
    (hf : ∀ answer, partsOf (f answer) ⊆ partsOf answer ++ needs) : Safe rules needs (f <$> x) := by
  rw [← bind_pure_comp]
  exact h.bind fun answer => pure (hf answer)

theorem ignore {x : Run κ σ α} (h : Safe rules needs x) : Safe rules needs (discard x) :=
  h.map (β := Unit) fun _ => List.nil_subset _

/-- A method that the object model makes by itself may be used. -/
theorem made {method : Method κ} {x : Run κ σ α} (hmade : method.IsMade)
    (h : Safe rules (.native method :: needs) x) : Safe rules needs x :=
  fun v hv hneeds => h v hv fun part hpart => by
    rcases List.mem_cons.mp hpart with rfl | hpart
    · exact rules.code_of_isMade hmade
    · exact hneeds part hpart

/-- Stopping on a condition and going on otherwise. -/
theorem guard {c : Prop} [Decidable c] {error : RuntimeError} {x : Run κ σ α}
    (herror : error.isInternal = false) (h : ¬c → Safe rules needs x) :
    Safe rules needs (if c then Run.raise error >>= fun _ : PUnit => x else x) := by
  by_cases hc : c
  · rw [if_pos hc]
    exact raise (α := α) herror
  · rw [if_neg hc]
    exact h hc

/-- Doing something for each member of a list. -/
theorem forM {γ : Type} {items : List γ} {f : γ → Run κ σ PUnit}
    (h : ∀ item ∈ items, Safe (α := Unit) rules needs (f item)) :
    Safe (α := Unit) rules needs (items.forM f) := by
  induction items with
  | nil => exact pure (List.nil_subset _)
  | cons item items ih =>
    refine (h item (List.mem_cons_self ..)).bind (β := Unit) fun _ => ?_
    exact ih fun other hother => h other (List.mem_cons_of_mem item hother)

/-- Going on with what a check answers. -/
theorem check_bind {held : List (Part κ)} {checked : Except RuntimeError α} {f : α → Run κ σ β}
    (h : Yields held checked) (hheld : held ⊆ needs)
    (hnext : ∀ answer, checked = .ok answer → Safe rules (partsOf answer ++ needs) (f answer)) :
    Safe rules needs (Run.check checked >>= f) := by
  cases checked with
  | ok answer =>
    refine (hnext answer rfl).mono ?_
    exact List.append_subset.mpr ⟨List.Subset.trans (h.answer rfl) hheld, List.Subset.refl needs⟩
  | error error => exact raise (h.error rfl)

theorem check {held : List (Part κ)} {checked : Except RuntimeError α} (h : Yields held checked)
    (hheld : held ⊆ needs) : Safe rules needs (Run.check checked : Run κ σ α) := by
  cases checked with
  | ok answer => exact pure (List.Subset.trans (h.answer rfl) hheld)
  | error error => exact raise (h.error rfl)

/-! ## Steps that look at the world -/

/-- Looking at the world, where the roots may be used. -/
theorem get {f : World κ σ → Run κ σ α}
    (h : ∀ w : World κ σ, Safe rules (.handle w.lexicalRoot :: .handle w.mirrorRoot :: needs) (f w)) :
    Safe rules needs (MonadState.get >>= f) :=
  fun v hv hneeds => h v v hv (hv.roots.append hneeds)

/-- Looking at the heap. -/
theorem ofHeap {view : Heap κ → Except Halt α}
    (h : ∀ v : World κ σ, v.Sane rules → v.Admits rules needs → v.Sees rules (view v.heap)) :
    Safe rules needs (Run.ofHeap view : Run κ σ α) := by
  intro v hv hneeds
  have hsees := h v hv hneeds
  simp only [Run.ofHeap, Run.observe]
  generalize view v.heap = seen at hsees ⊢
  cases hsees with
  | ok hanswer => exact .ok (.refl v) hv hanswer
  | exhausted => exact .stop hv (rules.ends_of_not_fault rfl)

/-- Going on with a node. -/
theorem node_bind {id : ObjectId} {f : Node κ → Run κ σ α} (hid : .handle id ∈ needs)
    (h : ∀ node : Node κ, node.slots.names.Nodup → Safe rules (node.parts ++ needs) (f node)) :
    Safe rules needs (Run.node id >>= f) := by
  intro v hv hneeds
  obtain ⟨node, hnode⟩ := hneeds.exists_node hid
  rw [Run.node_bind_of_some hnode]
  exact h node (hv.names id node hnode) v hv ((hv.holds hnode).append hneeds)

/-- Going on with the slots of a node. -/
theorem slots_bind {id : ObjectId} {f : Storage κ → Run κ σ α} (hid : .handle id ∈ needs)
    (h : ∀ storage : Storage κ, storage.names.Nodup → Safe rules (storage.parts ++ needs) (f storage)) :
    Safe rules needs (Run.slots id >>= f) := by
  rw [Run.slots, bind_map_left]
  refine node_bind hid fun node hnames => (h node.slots hnames).mono ?_
  have hslots := node.parts_slots
  grind

/-- Going on with how a search ended; where it has found a slot, it is there. -/
private theorem search_bind {route : Route κ} {start : ObjectId} {selector : Symbol}
    {f : Resolution κ → Run κ σ β} (hacyclic : ∀ v : World κ σ, v.Sane rules → v.heap.AcyclicAlong route)
    (hparent : ∀ node : Node κ, (route.parent node).parts ⊆ node.parts)
    (hstart : .handle start ∈ needs)
    (hfound : ∀ v holder slot, v.Sane rules → v.Admits rules needs →
      v.heap.slot? selector holder = some slot → EndsSafely rules v (f (.found holder slot) v))
    (hdelegate : ∀ next, Safe rules (next.parts ++ needs) (f (.delegate next)))
    (habsent : Safe rules needs (f .absent)) :
    Safe rules needs
      ((Run.ofHeap fun heap => heap.searchAlong route selector heap.walkLimit start) >>= f) := by
  intro v hv hneeds
  obtain ⟨resolution, hsearch, hdecides⟩ :=
    (hacyclic v hv).exists_searchAlong hv.edges selector (hneeds.contains hstart)
  have hended : (Run.ofHeap fun heap => heap.searchAlong route selector heap.walkLimit start) v =
      .ok resolution v := by
    simp only [Run.ofHeap, Run.observe, hsearch]
  rw [Run.bind_of_ok hended]
  cases hdecides with
  | found _ hslot => exact hfound v _ _ hv hneeds hslot
  | delegate _ hnode _ _ =>
    exact hdelegate _ v hv (((hv.holds hnode).mono (hparent _)).append hneeds)
  | absent _ _ _ _ => exact habsent v hv hneeds

theorem searchDynamic_bind {start : ObjectId} {selector : Symbol} {f : Resolution κ → Run κ σ β}
    (hstart : .handle start ∈ needs)
    (hfound : ∀ v holder slot, v.Sane rules → v.Admits rules needs →
      v.heap.slot? selector holder = some slot → EndsSafely rules v (f (.found holder slot) v))
    (hdelegate : ∀ next, Safe rules (next.parts ++ needs) (f (.delegate next)))
    (habsent : Safe rules needs (f .absent)) :
    Safe rules needs (Run.searchDynamic start selector >>= f) := by
  have h := search_bind (fun _ hv => hv.dynamic) Node.parts_dynamicParent hstart hfound hdelegate habsent
  simpa only [Run.searchDynamic, Heap.searchDynamic, Heap.searchDynamicFrom_eq] using h

theorem searchLexical_bind {start : ObjectId} {selector : Symbol} {f : Resolution κ → Run κ σ β}
    (hstart : .handle start ∈ needs)
    (hfound : ∀ v holder slot, v.Sane rules → v.Admits rules needs →
      v.heap.slot? selector holder = some slot → EndsSafely rules v (f (.found holder slot) v))
    (hdelegate : ∀ next, Safe rules (next.parts ++ needs) (f (.delegate next)))
    (habsent : Safe rules needs (f .absent)) :
    Safe rules needs (Run.searchLexical start selector >>= f) := by
  have hparent (node : Node κ) : (Route.lexical.parent node).parts ⊆ node.parts := by
    show (node.lexicalParent?.elim Value.nil Value.object).parts ⊆ node.parts
    cases hparent : node.lexicalParent? with
    | none => exact List.nil_subset _
    | some parent => simpa [Value.parts] using Node.parts_lexicalParent hparent
  have h := search_bind (fun _ hv => hv.lexical) hparent hstart hfound hdelegate habsent
  simpa only [Run.searchLexical, Heap.searchLexical, Heap.searchLexicalFrom_eq] using h

/-- The mirror of a mirage is held by it. -/
theorem mirrorOf {mirage : ObjectId} (hid : .handle mirage ∈ needs) :
    Safe rules needs (Run.mirrorOf mirage : Run κ σ ObjectId) := by
  intro v hv hneeds
  obtain ⟨node, hnode⟩ := hneeds.exists_node hid
  have hparts := hv.holds hnode
  simp only [Run.mirrorOf, Run.observe, World.mirrorOf, Heap.get_eq_ok_iff.mpr hnode]
  cases node with
  | mirage mirage =>
    obtain ⟨_, _ | mirror⟩ := mirage
    · exact .stop hv (rules.ends_of_not_fault rfl)
    · exact .ok (.refl v) hv (hparts.mono (List.subset_append_right _ _))
  | object _ => exact .stop hv (rules.ends_of_not_fault rfl)
  | frame _ => exact .stop hv (rules.ends_of_not_fault rfl)

/-! ## Steps that change the world -/

theorem fresh : Safe rules needs (Run.fresh : Run κ σ Identity) :=
  fun v hv _ => .of_sameNodes hv ⟨rfl, rfl, rfl, rfl, rfl⟩ (.nil v)

theorem report (event : Event) : Safe rules needs (Run.report event : Run κ σ Unit) :=
  fun v hv _ => .of_sameNodes hv ⟨rfl, rfl, rfl, rfl, rfl⟩ (.nil v)

theorem trace (event : Event) : Safe rules needs (Run.trace event : Run κ σ Unit) := by
  intro v hv _
  unfold Run.trace
  split <;> exact .of_sameNodes hv ⟨rfl, rfl, rfl, rfl, rfl⟩ (.nil v)

theorem newFamily : Safe rules needs (Run.newFamily : Run κ σ CloneFamily) :=
  fun v hv _ => .of_sameNodes hv ⟨rfl, rfl, rfl, rfl, rfl⟩ (.nil v)

theorem allocate {node : Node κ} (hparts : node.parts ⊆ needs) (hnames : node.slots.names.Nodup) :
    Safe rules needs (Run.allocate node : Run κ σ ObjectId) := by
  intro v hv hneeds
  obtain ⟨hsane, hgrows, hnew⟩ := hv.allocate (hneeds.mono hparts) hnames
  simp only [Run.allocate, Run.changeHeap, Heap.allocate_fst]
  exact .ok hgrows hsane (.handle hnew)

/-- Putting another node in the place of one that becomes it. -/
theorem change {id : ObjectId} {change : Node κ → Node κ} (hid : .handle id ∈ needs)
    (hstays : ∀ node : Node κ, node.Stays (change node))
    (hparts : ∀ node : Node κ, (change node).parts ⊆ node.parts ++ needs)
    (hnames : ∀ node : Node κ, node.slots.names.Nodup → (change node).slots.names.Nodup) :
    Safe rules needs (do Run.replace id (change (← Run.node id)) : Run κ σ Unit) := by
  intro v hv hneeds
  obtain ⟨node, hnode⟩ := hneeds.exists_node hid
  rw [Run.node_bind_of_some hnode]
  have hadmits := ((hv.holds hnode).append hneeds).mono (hparts node)
  obtain ⟨hsane, hgrows⟩ :=
    hv.replace hnode (hstays node) hadmits (hnames node (hv.names id node hnode))
  exact .ok hgrows hsane (.nil _)

theorem setSlots {id : ObjectId} {slots : Storage κ} (hid : .handle id ∈ needs)
    (hparts : slots.parts ⊆ needs) (hnames : slots.names.Nodup) :
    Safe rules needs (Run.setSlots id slots : Run κ σ Unit) := by
  refine change hid (fun node => .withSlots node slots) (fun node => ?_) fun node _ => ?_
  · cases node <;> simp only [Node.parts, Node.withSlots, Node.slots, Node.dynamicParent, Node.lexicalParent?] <;> grind
  · rwa [Node.slots_withSlots]

theorem newTable {items : List (Value κ)} (h : Value.partsOfAll items ⊆ needs) :
    Safe rules needs (Run.newTable items : Run κ σ (Value κ)) :=
  fresh.bind fun _ => pure h

theorem newClosure {closure : Closure κ} (h : closure.parts ⊆ needs) :
    Safe rules needs (Run.newClosure closure : Run κ σ (Value κ)) :=
  fresh.bind fun _ => pure h

/-- Putting in the place of a node's slots what comes from adding to them. -/
theorem insert {id : ObjectId} {storage : Storage κ} {added : List (Part κ)}
    {changed : Except RuntimeError (Storage κ)} (h : storage.Inserts added changed)
    (hnames : storage.names.Nodup) (hid : .handle id ∈ needs) (hadded : added ⊆ needs)
    (hparts : storage.parts ⊆ needs) :
    Safe rules needs (do Run.setSlots id (← Run.check changed) : Run κ σ Unit) := by
  have hyields : Yields (added ++ storage.parts) changed := ⟨fun h' => (h.follows h').parts, h.error⟩
  refine check_bind hyields (List.append_subset.mpr ⟨hadded, hparts⟩) fun after hafter => ?_
  exact setSlots (List.mem_append_right _ hid) (List.subset_append_left _ _)
    ((h.follows hafter).names hnames)

/-- Adding to the slots of a node. -/
theorem edit {id : ObjectId} {added : List (Part κ)}
    {change : Storage κ → Except RuntimeError (Storage κ)} (hid : .handle id ∈ needs)
    (hadded : added ⊆ needs) (h : ∀ storage : Storage κ, storage.Inserts added (change storage)) :
    Safe rules needs (do Run.setSlots id (← Run.check (change (← Run.slots id))) : Run κ σ Unit) :=
  slots_bind hid fun storage hnames => insert (h storage) hnames (List.mem_append_right _ hid)
    (List.subset_append_of_subset_right _ hadded) (List.subset_append_left _ _)

theorem putField {id : ObjectId} {field : Field κ} (hid : .handle id ∈ needs)
    (hfield : field.value.parts ⊆ needs) :
    Safe rules needs (Run.putField id field : Run κ σ Unit) :=
  slots_bind hid fun storage hnames => fresh.bind fun identity =>
    insert (storage.inserts_putField identity field) hnames (by grind) (by grind) (by grind)

end Safe

end Run

end Prototypes
