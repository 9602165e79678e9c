import Prototypes.Proofs.Heap.Paths
import Prototypes.Proofs.Mirrors.MetaSend

/-!
# The nodes a walk looks into

A walk for a selector along a path of plain objects and mirages is a loop of
searches: each search stops below a mirage, and if the mirage's mirror would only
do the default thing the next one starts at the mirage itself.  So no node is looked
into twice, and the loop ends where the path does.  Along a chain that is at the slot
that is nearest by the chain alone.

`Runtime.resolveVisiting` is the loop that tells besides which nodes it has looked
into.

## Main results

* `Runtime.map_snd_resolveVisiting` — what it tells besides changes nothing.
* `Runtime.resolveVisiting_path` — where the loop ends and what it has looked into,
  by induction on its searches.
* `Runtime.resolveVisiting_along` — the same along a chain.
-/

namespace Prototypes

variable {κ σ α β : Type}

namespace Heap

/-! ## Searches that tell where they have looked -/

/-- The search along dynamic parents, and the nodes it has looked into. -/
def searchVisitingFrom (heap : Heap κ) (selector : Symbol) :
    (fuel : Nat) → ObjectId → Except Halt (List ObjectId × Resolution κ)
  | 0, _ => .error .exhausted
  | fuel + 1, current => do
    let node ← heap.get current
    match node.slots.find selector with
    | some slot => return ([current], .found current slot)
    | none =>
      match node.dynamicParent with
      | .nil => return ([current], .absent)
      | .object parent =>
        if (← heap.get parent).isPlain then do
          let (visited, resolution) ← heap.searchVisitingFrom selector fuel parent
          return (current :: visited, resolution)
        else return ([current], .delegate (.object parent))
      | other => return ([current], .delegate other)

theorem map_snd_searchVisitingFrom (heap : Heap κ) (selector : Symbol) (fuel : Nat) (id : ObjectId) :
    (heap.searchVisitingFrom selector fuel id).map Prod.snd =
      heap.searchDynamicFrom selector fuel id := by
  induction fuel generalizing id with
  | zero => rfl
  | succ fuel ih =>
    rw [searchVisitingFrom, searchDynamicFrom]
    cases heap.get id with
    | error reason => rfl
    | ok node =>
      simp only [bind, Except.bind]
      cases node.slots.find selector with
      | some slot => rfl
      | none =>
        cases node.dynamicParent with
        | object parent =>
          dsimp only
          cases heap.get parent with
          | error reason => rfl
          | ok parentNode =>
            dsimp only
            split
            · rw [← ih parent]
              cases heap.searchVisitingFrom selector fuel parent <;> rfl
            · rfl
        | _ => rfl

/-! ## The nearest slot of a list of nodes -/

/-- How a search that looks into these nodes one after the other ends. -/
def nearest (heap : Heap κ) (selector : Symbol) : List ObjectId → Resolution κ
  | [] => .absent
  | id :: ids =>
    match heap.slot? selector id with
    | some slot => .found id slot
    | none => heap.nearest selector ids

/-- The nodes it has looked into. -/
def visited (heap : Heap κ) (selector : Symbol) : List ObjectId → List ObjectId
  | [] => []
  | id :: ids =>
    match heap.slot? selector id with
    | some _ => [id]
    | none => id :: heap.visited selector ids

variable {heap : Heap κ} {selector : Symbol} {id : ObjectId} {ids : List ObjectId}

theorem visited_initial (heap : Heap κ) (selector : Symbol) (ids : List ObjectId) :
    heap.visited selector ids <+: ids := by
  induction ids with
  | nil => exact List.nil_prefix
  | cons id ids ih =>
    rw [visited]
    cases heap.slot? selector id with
    | some slot => exact List.prefix_append [id] ids
    | none => exact (List.prefix_cons_inj id).mpr ih

/-- What is nearest is a slot of one of the nodes. -/
theorem slot?_of_nearest {holder : ObjectId} {slot : Slot κ}
    (h : heap.nearest selector ids = .found holder slot) : heap.slot? selector holder = some slot := by
  induction ids with
  | nil => cases h
  | cons id ids ih =>
    rw [nearest] at h
    cases hslot : heap.slot? selector id with
    | some found =>
      rw [hslot] at h
      cases h
      exact hslot
    | none =>
      rw [hslot] at h
      exact ih h

/-- Both depend on what the selector names in each node alone. -/
theorem nearest_visited_congr {other : Heap κ}
    (h : ∀ id, other.slot? selector id = heap.slot? selector id) (ids : List ObjectId) :
    other.nearest selector ids = heap.nearest selector ids ∧
      other.visited selector ids = heap.visited selector ids := by
  induction ids with
  | nil => exact ⟨rfl, rfl⟩
  | cons id ids ih =>
    rw [nearest, nearest, visited, visited, h, ih.1, ih.2]
    exact ⟨rfl, rfl⟩

theorem nearest_ne_delegate (heap : Heap κ) (selector : Symbol) (ids : List ObjectId) (next : Value κ) :
    heap.nearest selector ids ≠ .delegate next := by
  induction ids with
  | nil => exact fun h => nomatch h
  | cons id ids ih =>
    rw [nearest]
    cases heap.slot? selector id with
    | some slot => exact fun h => nomatch h
    | none => exact ih

theorem Chain.visited_ne_nil (h : heap.Chain (.object id) ids) (selector : Symbol) :
    heap.visited selector ids ≠ [] := by
  cases h with
  | cons _ _ _ =>
    rw [visited]
    cases heap.slot? selector id with
    | some slot => exact List.cons_ne_nil _ _
    | none => exact List.cons_ne_nil _ _

theorem Chain.length_visited_le (h : heap.Chain (.object id) ids) (selector : Symbol) :
    (heap.visited selector ids).length ≤ heap.walkLimit :=
  (heap.visited_initial selector ids).length_le.trans (Nat.le_succ_of_le h.length_le)

/-- A chain of nodes that answer has a path to the nearest slot. -/
theorem Chain.exists_path {value : Value κ} (h : heap.Chain value ids)
    (hanswers : ∀ id ∈ ids, ∀ node, heap.node? id = some node → node.answers = true)
    (selector : Symbol) :
    ∃ ending, heap.Path selector value (heap.visited selector ids) ending ∧
      ending.resolution = heap.nearest selector ids := by
  induction h with
  | nil => exact ⟨.value .nil, .value rfl, rfl⟩
  | @cons id node ids hnode _ _ ih =>
    have hanswer := hanswers id (List.mem_cons_self ..) node hnode
    rw [visited, nearest, slot?_of_node? hnode]
    cases hslot : node.slots.find selector with
    | some slot => exact ⟨.found id slot, .found hnode hanswer hslot, rfl⟩
    | none =>
      obtain ⟨ending, hpath, hending⟩ := ih fun other hmem => hanswers other (List.mem_cons_of_mem _ hmem)
      exact ⟨ending, .pass hnode hanswer hslot hpath, hending⟩

/-- One search along a path comes to its end, or stops below the next mirage. -/
theorem Path.searchVisitingFrom_cases {ending : Ending κ}
    (h : heap.Path selector (.object id) ids ending) (hids : ids ≠ []) {fuel : Nat}
    (hle : ids.length ≤ fuel) :
    heap.searchVisitingFrom selector fuel id = .ok (ids, ending.resolution) ∨
      ∃ front next behind, front ≠ [] ∧ ids = front ++ next :: behind ∧
        heap.searchVisitingFrom selector fuel id = .ok (front, .delegate (.object next)) ∧
        (∃ mirage, heap.node? next = some (.mirage mirage)) ∧
        heap.Path selector (.object next) (next :: behind) ending := by
  induction ids generalizing id fuel with
  | nil => exact absurd rfl hids
  | cons first ids ih =>
    rw [List.length_cons] at hle
    obtain ⟨fuel, rfl⟩ : ∃ k, fuel = k + 1 := ⟨fuel - 1, by omega⟩
    cases h with
    | found hnode _ hslot =>
      rw [searchVisitingFrom, get_eq_ok_iff.mpr hnode]
      simp only [bind, Except.bind, hslot]
      exact .inl rfl
    | @pass _ node _ _ hnode _ hslot hrest =>
      rw [searchVisitingFrom, get_eq_ok_iff.mpr hnode]
      simp only [bind, Except.bind, hslot]
      generalize node.dynamicParent = parent at hrest
      cases ids with
      | nil =>
        left
        cases hrest with
        | value hvalue =>
          cases parent with
          | object next => cases hvalue
          | _ => rfl
        | @barred next nextNode hnext hbarred =>
          dsimp only
          rw [get_eq_ok_iff.mpr hnext]
          cases nextNode with
          | object body => cases hbarred
          | _ => rfl
      | cons next more =>
        obtain rfl := hrest.head?_eq rfl
        obtain ⟨nextNode, hnext, hanswers⟩ := hrest.exists_answering (List.mem_cons_self ..)
        dsimp only
        rw [get_eq_ok_iff.mpr hnext]
        cases nextNode with
        | object body =>
          simp only [Node.isPlain, if_true]
          rcases ih hrest (List.cons_ne_nil _ _) (Nat.le_of_succ_le_succ hle) with
            hended | ⟨front, stop, behind, hfront, hmore, hstopped, hmirage, hpath⟩
          · rw [hended]
            exact .inl rfl
          · rw [hstopped]
            refine .inr ⟨first :: front, stop, behind, List.cons_ne_nil _ _, ?_, rfl, hmirage, hpath⟩
            rw [hmore, List.cons_append]
        | mirage mirage =>
          exact .inr ⟨[first], next, more, List.cons_ne_nil _ _, rfl, rfl, ⟨mirage, hnext⟩, hrest⟩
        | frame frame => cases hanswers

end Heap

/-! ## Loops that tell where they have looked -/

/-- The mirror of a mirage does the default thing for these operations, and reflects on it. -/
structure World.DoesDefault (world : World κ σ) (ops : List MetaOp) (mirage mirror : ObjectId) :
    Prop where
  inherits : ∀ op ∈ ops, world.Inherits op mirage mirror
  bound : ∃ body, world.heap.node? mirage = some (.mirage ⟨body, some mirror⟩)
  plain : ∃ body, world.heap.node? mirror = some (.object body)
  base : ∃ holder node index writable,
    world.heap.searchDynamic mirror Selector.base = .ok (.found holder (.field index writable)) ∧
      world.heap.node? holder = some node ∧ node.slots.read? index = some (.object mirage)

/-- A plain object, or a mirage whose mirror does the default thing. -/
def World.Plainlike (world : World κ σ) (ops : List MetaOp) (id : ObjectId) : Prop :=
  (∃ body, world.heap.node? id = some (.object body)) ∨ ∃ mirror, world.DoesDefault ops id mirror

theorem World.DoesDefault.of_alike {v w : World κ σ} {ops : List MetaOp} {mirage mirror : ObjectId}
    (h : v.DoesDefault ops mirage mirror) (hvw : v.Alike w) : w.DoesDefault ops mirage mirror := by
  rw [hvw.eq_with_log]
  exact ⟨fun op hop => (h.inherits op hop).of_alike (.with_log v _), h.bound, h.plain, h.base⟩

theorem World.Plainlike.of_alike {v w : World κ σ} {ops : List MetaOp} {id : ObjectId}
    (h : v.Plainlike ops id) (hvw : v.Alike w) : w.Plainlike ops id := by
  rcases h with ⟨body, hbody⟩ | ⟨mirror, hmirror⟩
  · exact .inl ⟨body, World.Affinity.heap_eq hvw ▸ hbody⟩
  · exact .inr ⟨mirror, hmirror.of_alike hvw⟩

theorem World.Plainlike.answers {world : World κ σ} {ops : List MetaOp} {id : ObjectId}
    (h : world.Plainlike ops id) {node : Node κ} (hnode : world.heap.node? id = some node) :
    node.answers = true := by
  rcases h with ⟨body, hbody⟩ | ⟨mirror, hmirror⟩
  · cases hnode.symm.trans hbody
    rfl
  · obtain ⟨body, hbound⟩ := hmirror.bound
    cases hnode.symm.trans hbound
    rfl

/-- Frames that are left change neither. -/
theorem World.DoesDefault.of_ran {v w : World κ σ} {scopes : List ObjectId} {ops : List MetaOp}
    {mirage mirror : ObjectId} (h : v.DoesDefault ops mirage mirror) (hsound : v.Sound)
    (hran : v.Ran scopes w) : w.DoesDefault ops mirage mirror := by
  have hkeeps := hran.keeps hsound
  obtain ⟨body, hbound⟩ := h.bound
  obtain ⟨plain, hplain⟩ := h.plain
  obtain ⟨holder, node, index, writable, hsearch, hholder, hread⟩ := h.base
  refine ⟨fun op hop => ?_, ⟨body, hkeeps _ _ hbound⟩, ⟨plain, hkeeps _ _ hplain⟩, ?_⟩
  · obtain ⟨method, hmethod, hfound⟩ := (h.inherits op hop).inherits
    refine ⟨⟨body, hkeeps _ _ hbound⟩, ⟨plain, hkeeps _ _ hplain⟩, method, ?_, ?_⟩
    · rw [hran.mirrorDefaults, hmethod]
    · rw [hran.mirrorRoot]
      exact hran.searchDynamic_of_found hsound hfound
  · exact ⟨holder, node, index, writable, hran.searchDynamic_of_found hsound hsearch,
      hkeeps _ _ hholder, hread⟩

theorem World.Plainlike.of_ran {v w : World κ σ} {scopes : List ObjectId} {ops : List MetaOp}
    {id : ObjectId} (h : v.Plainlike ops id) (hsound : v.Sound) (hran : v.Ran scopes w) :
    w.Plainlike ops id := by
  rcases h with ⟨body, hbody⟩ | ⟨mirror, hmirror⟩
  · exact .inl ⟨body, hran.keeps hsound _ _ hbody⟩
  · exact .inr ⟨mirror, hmirror.of_ran hsound hran⟩

namespace Runtime

variable (rt : Runtime κ σ)

/-- The walk for `op` from `target`, and the nodes it has looked into. -/
def resolveVisiting (op : MetaOp) (selector : Symbol) :
    (fuel : Nat) → ObjectId → Run κ σ (List ObjectId × ObjectId × Resolution κ)
  | 0, _ => Run.halt .exhausted
  | fuel + 1, target => do
    let (visited, resolution) ←
      Run.ofHeap fun heap => heap.searchVisitingFrom selector heap.walkLimit target
    match resolution with
    | .delegate parent =>
      match ← rt.delegatedDefault? parent op with
      | some base =>
        let (more, ended) ← resolveVisiting op selector fuel base
        return (visited ++ more, ended)
      | none => return (visited, target, .delegate parent)
    | ended => return (visited, target, ended)

private theorem ofHeap_bind (view : Heap κ → Except Halt α) (f : α → Run κ σ β) (w : World κ σ) :
    (Run.ofHeap view >>= f) w =
      match view w.heap with
      | .ok a => f a w
      | .error reason => .error reason w := by
  simp only [bind, EStateM.bind, Run.ofHeap, Run.observe]
  cases view w.heap <;> rfl

/-- What it tells besides changes nothing. -/
theorem map_snd_resolveVisiting (op : MetaOp) (selector : Symbol) (fuel : Nat) (target : ObjectId) :
    Prod.snd <$> rt.resolveVisiting op selector fuel target =
      rt.resolveFrom op selector fuel target := by
  induction fuel generalizing target with
  | zero => rfl
  | succ fuel ih =>
    funext world
    rw [resolveVisiting, resolveFrom, map_bind, ofHeap_bind, Run.searchDynamic_bind,
      Heap.searchDynamic, ← Heap.map_snd_searchVisitingFrom]
    cases world.heap.searchVisitingFrom selector world.heap.walkLimit target with
    | error reason => rfl
    | ok found =>
      obtain ⟨visited, resolution⟩ := found
      cases resolution with
      | found holder slot => rfl
      | absent => rfl
      | delegate parent =>
        simp only [Except.map, map_bind]
        refine congrFun (bind_congr fun next => ?_) world
        cases next with
        | none => rfl
        | some base =>
          dsimp only
          rw [← ih base]
          simp only [bind_pure_comp, Functor.map_map]

/-- A parent whose mirror does the default thing is gone on at. -/
theorem delegatedDefault?_doesDefault {world : World κ σ} {ops : List MetaOp} {mirage mirror : ObjectId}
    (h : world.DoesDefault ops mirage mirror) {op : MetaOp} (hop : op ∈ ops) :
    ∃ after, rt.delegatedDefault? (.object mirage) op world = .ok (some mirage) after ∧
      world.Alike after := by
  obtain ⟨body, hbound⟩ := h.bound
  obtain ⟨plain, hplain⟩ := h.plain
  obtain ⟨holder, node, index, writable, hsearch, hholder, hread⟩ := h.base
  refine ⟨_, ?_, .traced world (.performedDefault (Value.object (κ := κ) mirror).display op mirage)⟩
  have htarget := defaultTarget?_bind (h.inherits op hop) rt pure
  rw [bind_pure, mirrorBase_bind_of_found hplain hbound hsearch hholder hread,
    Run.trace_bind] at htarget
  simp only [delegatedDefault?]
  rw [Run.node_bind_of_some hbound]
  exact htarget

/-- A plain object, or a mirage whose mirror does the default thing, does by default what it is sent. -/
theorem send_plainlike (host : Host κ σ) (steps : Nat) {world : World κ σ} {ops : List MetaOp}
    {id : ObjectId} (h : world.Plainlike ops id) {message : Message κ} (hop : message.op ∈ ops) :
    ∃ after, world.Alike after ∧ (ofFuel host (steps + 1)).send (.object id) message world =
      (ofFuel host steps).performDefault id message after := by
  rcases h with ⟨body, hbody⟩ | ⟨mirror, hmirror⟩
  · exact ⟨world, .refl world, send_plain host steps hbody message⟩
  · have halike := World.Alike.traced world (.forwarding message.op id)
    obtain ⟨body, hbound⟩ := hmirror.bound
    have hforward := forward_eq_performOnBase (hmirror.inherits _ hop) (ofFuel host steps) default
    obtain ⟨body', hbound'⟩ := (hmirror.of_alike halike).bound
    obtain ⟨plain, hplain⟩ := (hmirror.of_alike halike).plain
    obtain ⟨holder, node, index, writable, hsearch, hholder, hread⟩ := (hmirror.of_alike halike).base
    refine ⟨_, halike.trans (.traced _ (.performedDefault (Value.object (κ := κ) mirror).display
      message.op id)), ?_⟩
    rw [send_mirage host steps hbound, hforward]
    unfold performOnBase performWith
    rw [mirrorBase_bind_of_found hplain hbound' hsearch hholder hread, Run.trace_bind,
      Message.read_arguments]
    rfl

/-- No walk goes on inside what a path ends before. -/
theorem delegatedDefault?_of_endsAt {world : World κ σ} {selector : Symbol} {ending : Heap.Ending κ}
    (h : world.heap.EndsAt selector ending) {parent : Value κ}
    (hparent : ending.resolution = .delegate parent) (op : MetaOp) :
    rt.delegatedDefault? parent op world = .ok none world := by
  cases ending with
  | found holder slot => cases hparent
  | value last =>
    cases last with
    | nil => cases hparent
    | object id => cases h
    | _ =>
      cases hparent
      rfl
  | barred id =>
    cases hparent
    obtain ⟨node, hnode, hanswers⟩ := h
    simp only [delegatedDefault?]
    rw [Run.node_bind_of_some hnode]
    match node with
    | .object body => cases hanswers
    | .frame frame => rfl
    | .mirage ⟨body, some mirror⟩ => cases hanswers
    | .mirage ⟨body, none⟩ =>
      show rt.defaultTarget? id op world = _
      unfold defaultTarget?
      rw [Run.node_bind_of_some hnode]
      rfl

/--
Along a path of plain objects and mirages whose mirrors do the default thing, a walk comes
to the end of the path, having looked into its nodes, each once.
-/
theorem resolveVisiting_path {op : MetaOp} {ops : List MetaOp} (hop : op ∈ ops) {selector : Symbol}
    {fuel : Nat} {v : World κ σ} {id : ObjectId} {ids : List ObjectId} {ending : Heap.Ending κ}
    (hpath : v.heap.Path selector (.object id) ids ending) (hids : ids ≠ [])
    (hplainlike : ∀ id ∈ ids, v.Plainlike ops id) (hlimit : ids.length ≤ v.heap.walkLimit)
    (hle : ids.length ≤ fuel) :
    ∃ last after, rt.resolveVisiting op selector fuel id v =
      .ok (ids, last, ending.resolution) after ∧ v.Alike after := by
  induction fuel generalizing v id ids with
  | zero => exact absurd (List.length_pos_iff.mpr hids) (Nat.not_lt_of_le hle)
  | succ fuel ih =>
    rw [resolveVisiting, ofHeap_bind]
    rcases hpath.searchVisitingFrom_cases hids hlimit with
      hended | ⟨front, next, behind, hfront, rfl, hstopped, ⟨mirage, hmirage⟩, hrest⟩
    · rw [hended]
      refine ⟨id, v, ?_, .refl v⟩
      cases hresolution : ending.resolution with
      | found holder slot => rfl
      | absent => rfl
      | delegate parent =>
        exact Run.bind_of_ok (rt.delegatedDefault?_of_endsAt hpath.endsAt hresolution op) _
    · have hnext : next ∈ front ++ next :: behind :=
        List.mem_append_right front (List.mem_cons_self ..)
      obtain ⟨mirror, hdefault⟩ : ∃ mirror, v.DoesDefault ops next mirror := by
        rcases hplainlike next hnext with ⟨body, hbody⟩ | hmirror
        · cases hmirage.symm.trans hbody
        · exact hmirror
      obtain ⟨middle, hpassed, hmiddle⟩ := rt.delegatedDefault?_doesDefault hdefault hop
      have hheap : v.heap = middle.heap := World.Affinity.heap_eq hmiddle
      have hpositive := List.length_pos_iff.mpr hfront
      rw [List.length_append] at hlimit hle
      obtain ⟨last, after, hwalk, halike⟩ := ih (hheap ▸ hrest) (List.cons_ne_nil _ _)
        (fun id hmem => (hplainlike id (List.mem_append_right front hmem)).of_alike hmiddle)
        (by rw [← hheap]; omega) (by omega)
      refine ⟨last, after, ?_, hmiddle.trans halike⟩
      rw [hstopped]
      dsimp only
      rw [Run.bind_of_ok hpassed]
      dsimp only
      rw [Run.bind_of_ok hwalk]
      rfl

/--
Along a chain of plain objects and mirages whose mirrors do the default thing, a
walk ends with the slot that is nearest by the chain alone, having looked into
the nodes up to its holder, each once.
-/
theorem resolveVisiting_along {op : MetaOp} {ops : List MetaOp} (hop : op ∈ ops) (selector : Symbol)
    {fuel : Nat} {v : World κ σ} {id : ObjectId} {ids : List ObjectId}
    (hchain : v.heap.Chain (.object id) ids) (hplainlike : ∀ id ∈ ids, v.Plainlike ops id)
    (hle : ids.length ≤ fuel) :
    ∃ last after, rt.resolveVisiting op selector fuel id v =
      .ok (v.heap.visited selector ids, last, v.heap.nearest selector ids) after ∧
        v.Alike after := by
  obtain ⟨ending, hpath, hending⟩ :=
    hchain.exists_path (fun other hmem _ => (hplainlike other hmem).answers) selector
  have hinitial := v.heap.visited_initial selector ids
  rw [← hending]
  exact rt.resolveVisiting_path hop hpath (hchain.visited_ne_nil selector)
    (fun other hmem => hplainlike other (hinitial.subset hmem)) (hchain.length_visited_le selector)
    (hinitial.length_le.trans hle)

end Runtime

end Prototypes
