import Prototypes.Proofs.Cloning.Agreement
import Prototypes.Proofs.Cloning.Copies
import Prototypes.Proofs.Slots.Fields

/-!
# Clones are independent of what they are copied from

An object on a chain of plain objects without custom fields is cloned without
running any code: its stretch is copied, and the parent of the topmost copy is the
parent there was, whether that is nil, shared with it, or a singleton.

What a clone finds is what the object finds, in the copies of the stretch and in
the very same objects above it.  So an assignment to a field of the clone is
invisible to the object where the field's holder has been copied, and shared with it
where it has not.

## Main results

* `Runtime.cloneStretch_copies` — copying a stretch leaves a heap with copies of it.
* `Runtime.send_clone_of_bare` — cloning a plain object leaves such a heap.
* `Runtime.clone_independent` — what searches from clone and object find, before and
  after an assignment to the clone.
-/

namespace Prototypes

variable {κ σ : Type}

namespace Heap

/-- The value of the field that a search from `start` finds. -/
def fieldValue? (heap : Heap κ) (start : ObjectId) (selector : Symbol) : Option (Value κ) :=
  match heap.searchDynamic start selector with
  | .ok (.found holder (.field index _)) =>
    (heap.node? holder).bind fun node => node.slots.read? index
  | _ => none

theorem fieldValue?_of_found {heap : Heap κ} {start holder : ObjectId} {selector : Symbol}
    {index : Nat} {writable : Bool} {node : Node κ}
    (h : heap.searchDynamic start selector = .ok (.found holder (.field index writable)))
    (hnode : heap.node? holder = some node) :
    heap.fieldValue? start selector = node.slots.read? index := by
  rw [fieldValue?, h]
  simp only [hnode, Option.bind_some]

/-- A search that ends at the matching slot finds the same value. -/
theorem Copies.fieldValue?_eq {before after : Heap κ} {sources : List ObjectId}
    {matching : ObjectId → ObjectId} (h : before.Copies after sources matching)
    {start : ObjectId} {selector : Symbol} {resolution : Resolution κ}
    (hbefore : before.searchDynamic start selector = .ok resolution)
    (hafter : after.searchDynamic (matching start) selector = .ok (resolution.relocated matching)) :
    after.fieldValue? (matching start) selector = before.fieldValue? start selector := by
  match resolution with
  | .found holder (.field index writable) =>
    have hslot := slot?_of_searchDynamic hbefore
    obtain ⟨node, hnode, -⟩ := Option.bind_eq_some_iff.mp hslot
    obtain ⟨copy, hcopy, hslots⟩ := h.exists_slots hnode
    rw [fieldValue?_of_found hbefore hnode, fieldValue?_of_found hafter hcopy, hslots]
  | .found holder (.mutator ..) => rw [fieldValue?, fieldValue?, hbefore, hafter]; rfl
  | .found holder (.method _) => rw [fieldValue?, fieldValue?, hbefore, hafter]; rfl
  | .found holder (.custom _) => rw [fieldValue?, fieldValue?, hbefore, hafter]; rfl
  | .found holder (.customMutator _) => rw [fieldValue?, fieldValue?, hbefore, hafter]; rfl
  | .delegate next => rw [fieldValue?, fieldValue?, hbefore, hafter]; rfl
  | .absent => rw [fieldValue?, fieldValue?, hbefore, hafter]; rfl

/-- A node whose field has been written corresponds to what it was, and all others to themselves. -/
theorem corresponds_write {heap : Heap κ} {holder other : ObjectId} {body otherBody : PrototypeObject κ}
    {index : Nat} {value : Value κ} {written : Storage κ}
    (hholder : heap.node? holder = some (.object body))
    (hwrite : body.slots.write? index value = some written)
    (hother : heap.node? other = some (.object otherBody)) :
    heap.Corresponds (heap.replace holder (.object { body with slots := written })) id other := by
  have hreplaced := node?_replace_of_contains (contains_of_node? hholder)
    (.object { body with slots := written }) other
  by_cases hsame : other = holder
  · subst hsame
    obtain rfl := Node.object.inj (Option.some.inj (hother.symm.trans hholder))
    rw [if_pos rfl] at hreplaced
    exact ⟨_, _, hother, hreplaced, (Value.relocated_id _).symm, Storage.find_write hwrite⟩
  · rw [if_neg hsame, hother] at hreplaced
    exact ⟨_, _, hother, hreplaced, (Value.relocated_id _).symm, fun _ => rfl⟩

/-- What a search along plain objects finds after a field has been written. -/
theorem Chain.fieldValue?_write {heap : Heap κ} {start holder target : ObjectId}
    {ids : List ObjectId} {body : PrototypeObject κ} {selector : Symbol} {index : Nat}
    {writable : Bool} {value : Value κ} {written : Storage κ}
    (hchain : heap.Chain (.object start) ids)
    (hplain : ∀ other ∈ ids, ∃ body, heap.node? other = some (.object body))
    (hsearch : heap.searchDynamic start selector = .ok (.found holder (.field index writable)))
    (htarget : heap.node? target = some (.object body))
    (hwrite : body.slots.write? index value = some written) :
    (heap.replace target (.object { body with slots := written })).fieldValue? start selector =
      if holder = target then some value else heap.fieldValue? start selector := by
  have hcorresponds : ∀ other ∈ ids, heap.Corresponds
      (heap.replace target (.object { body with slots := written })) id other := by
    intro other hmem
    obtain ⟨otherBody, hother⟩ := hplain other hmem
    exact corresponds_write htarget hwrite hother
  obtain ⟨resolution, hbefore, hafter⟩ :=
    hchain.searchDynamic_of_corresponds hcorresponds selector
  cases hsearch.symm.trans hbefore
  rw [Resolution.relocated_id, id_eq] at hafter
  have hreplaced := node?_replace_of_contains (contains_of_node? htarget)
    (.object { body with slots := written }) holder
  by_cases hsame : holder = target
  · rw [if_pos hsame] at hreplaced ⊢
    rw [fieldValue?_of_found hafter hreplaced]
    exact Storage.read?_write hwrite
  · rw [if_neg hsame] at hreplaced ⊢
    rw [fieldValue?, hafter, fieldValue?, hsearch]
    simp only [hreplaced]

end Heap

namespace Runtime

/-! ## Cloning -/

/-- Copying a node without custom fields allocates the copy and does nothing else. -/
theorem cloneNode_of_bare (rt : Runtime κ σ) {world : World κ σ} {source : ObjectId}
    {body : PrototypeObject κ} (hnode : world.heap.node? source = some (.object body))
    (hcustom : body.slots.custom = []) (parent : Value κ) :
    rt.cloneNode source parent .object world =
      .ok world.heap.nextId { world with
        heap := (world.heap.allocate (.object { body with dynamicParent := parent })).2 } := by
  have hlayout : body.slots.cloneLayout = body.slots := by
    rw [Storage.cloneLayout, ← hcustom]
  unfold cloneNode
  rw [Run.node_bind_of_some hnode]
  dsimp only [Node.body?]
  rw [Run.allocate_bind, hlayout, hcustom]
  rfl

/-- Copying a stretch without custom fields leaves a heap with copies of it. -/
theorem cloneStretch_copies {world : World κ σ} (hfree : world.heap.FreeListExact)
    {id top : ObjectId} {stretch ids : List ObjectId} {topBody : PrototypeObject κ}
    (h : world.heap.Stretch id stretch) (hchain : world.heap.Chain (.object id) ids)
    (hbare : ∀ other ∈ ids, world.heap.Bare other) (hlast : stretch.getLast? = some top)
    (htop : world.heap.node? top = some (.object topBody)) :
    ∃ heap matching, world.heap.Copies heap stretch matching ∧
      ∀ (rt : Runtime κ σ) (last : ObjectId),
        rt.cloneStretch stretch.reverse last topBody.dynamicParent world =
          .ok (matching id) { world with heap } := by
  unfold Heap.Stretch at h
  generalize htopped : (Except.ok () : Except Halt Unit) = ending at h
  induction h generalizing ids with
  | @top id hstop =>
    obtain rfl := Option.some.inj hlast
    obtain ⟨body, hnode, hcustom⟩ := hbare id hchain.mem_self
    obtain rfl := Node.object.inj (Option.some.inj (htop.symm.trans hnode))
    have hcopies := (Heap.Copies.nil hfree).cons hnode (List.not_mem_nil)
      (hchain.parent_ne hchain.mem_self hnode) (fun _ hmem => nomatch hmem)
    rw [Value.relocated_id] at hcopies
    refine ⟨_, _, hcopies, fun rt last => ?_⟩
    rw [List.reverse_singleton, cloneStretch, Run.bind_of_ok
      (rt.cloneNode_of_bare hnode hcustom topBody.dynamicParent), Function.update_self]
    rfl
  | stop => cases htopped
  | @step id parent stretch ending hparent hrest ih =>
    obtain ⟨body, hnode, hcustom⟩ := hbare id hchain.mem_self
    obtain ⟨_, _, _, hnode', hbody', -, habove, hparentNode, -⟩ :=
      Heap.clonedAlong?_eq_some_iff.mp hparent
    obtain rfl := Option.some.inj (hnode.symm.trans hnode')
    obtain rfl := Option.some.inj hbody'
    obtain ⟨more, rfl, hrestChain⟩ := hchain.next hnode habove
    have hrestBare : ∀ other ∈ parent :: more, world.heap.Bare other := fun other hmem =>
      hbare other (List.mem_cons_of_mem id hmem)
    subst htopped
    obtain ⟨above, rest, rfl⟩ : ∃ above rest, stretch = above :: rest := by
      cases hrest <;> exact ⟨_, _, rfl⟩
    rw [List.getLast?_cons_cons] at hlast
    obtain ⟨heap, matching, hcopies, hcopied⟩ := ih hrestChain hrestBare hlast rfl
    have hnew : id ∉ above :: rest := (List.nodup_cons.mp (Heap.Climb.step hparent hrest).nodup).1
    have hwithin : ∀ source ∈ above :: rest, source ∈ id :: parent :: more := fun source hmem =>
      List.mem_cons_of_mem id ((hrestChain.stretch_prefix hrestBare hrest).subset hmem)
    have hall := hcopies.cons hnode hnew (hchain.parent_ne hchain.mem_self hnode)
      fun source hmem _ hsource => hchain.parent_ne (hwithin source hmem) hsource
    rw [habove] at hall
    refine ⟨_, _, hall, fun rt last => ?_⟩
    have hsome : (above :: rest).reverse ≠ [] := by simp
    rw [List.reverse_cons (a := id), rt.cloneStretch_concat hsome id last last,
      Run.bind_of_ok (hcopied rt last), Function.update_self]
    exact rt.cloneNode_of_bare (hcopies.keeps _ _ hnode) hcustom (.object (matching parent))

/-- The parent of the topmost copy is the parent there was. -/
theorem Prompt.clonedParent_of_top {rt : Runtime κ σ} (hprompt : rt.Prompt) {world : World κ σ}
    (hnil : rt.send .nil .clone world = .ok .nil world) {top : ObjectId} {body : PrototypeObject κ}
    {ids : List ObjectId} (hchain : world.heap.Chain (.object top) ids)
    (hbare : ∀ other ∈ ids, world.heap.Bare other)
    (hnode : world.heap.node? top = some (.object body))
    (htop : world.heap.clonedAlong? top = .ok none) :
    rt.clonedParent top world = .ok body.dynamicParent world := by
  cases hlink : body.link with
  | sharesA => exact rt.clonedParent_of_sharesA hnode hlink
  | isA =>
    rw [rt.clonedParent_of_isA hnode hlink]
    cases habove : body.dynamicParent with
    | object parent =>
      obtain ⟨more, rfl, -⟩ := hchain.next hnode habove
      obtain ⟨parentBody, hparent, -⟩ := hbare parent (by simp)
      refine hprompt world parent parentBody hparent ?_
      by_contra hplain
      rw [Bool.not_eq_true] at hplain
      have hstep := Heap.clonedAlong?_eq_some_iff.mpr
        ⟨_, body, parentBody, hnode, rfl, hlink, habove, hparent, hplain⟩
      cases hstep.symm.trans htop
    | nil => exact hnil
    | _ =>
      cases hchain with
      | cons hnode' _ hrest =>
        obtain rfl := Option.some.inj (hnode.symm.trans hnode')
        rw [show (Node.object body).dynamicParent = _ from habove] at hrest
        cases hrest

/--
An object on a chain of plain objects without custom fields is cloned in any number
of steps but one or none, and what is left is a heap with copies of its stretch.
-/
theorem send_clone_of_bare (host : Host κ σ) {world : World κ σ}
    (hfree : world.heap.FreeListExact) {id : ObjectId} {body : PrototypeObject κ}
    {ids : List ObjectId} (hnode : world.heap.node? id = some (.object body))
    (hsingleton : body.flags.singleton = false) (hchain : world.heap.Chain (.object id) ids)
    (hbare : ∀ other ∈ ids, world.heap.Bare other) :
    ∃ stretch matching after, world.heap.Stretch id stretch ∧ stretch <+: ids ∧
      world.heap.Copies after.heap stretch matching ∧
      ∀ n, (ofFuel host (n + 2)).send (.object id) .clone world =
        .ok (.object (matching id)) after := by
  obtain ⟨stretch, hstretch, hfront⟩ := hchain.exists_stretch hbare
  obtain ⟨top, hlast, htop⟩ := hstretch.exists_top
  have hmem : top ∈ ids := hfront.subset (List.mem_of_getLast? hlast)
  obtain ⟨topBody, htopNode, -⟩ := hbare top hmem
  obtain ⟨heap, matching, hcopies, hcopied⟩ :=
    cloneStretch_copies hfree hstretch hchain hbare hlast htopNode
  obtain ⟨front, behind, rfl⟩ := List.append_of_mem hmem
  let after : World κ σ :=
    { world with heap, log := world.log.push (.cloned id (matching id) stretch.length) }
  refine ⟨stretch, matching, after, hstretch, hfront, hcopies, fun n => ?_⟩
  have hparent : (ofFuel host (n + 1)).clonedParent top world =
      .ok topBody.dynamicParent world :=
    (prompt_ofFuel host n).clonedParent_of_top rfl hchain.of_append
      (fun other hother => hbare other (List.mem_append_right front hother)) htopNode htop
  have hclone : (ofFuel host (n + 1)).defaultClone id world = .ok (matching id) after := by
    rw [defaultClone, Run.node_bind_of_some hnode]
    simp only [Node.body?, Option.any, hsingleton]
    have hfound : Run.ofHeap (fun heap => heap.stretch id) world = .ok stretch world := by
      rw [Run.ofHeap, Run.observe, Heap.stretch_eq_ok_iff.mpr hstretch]
    show (Run.ofHeap (fun heap => heap.stretch id) >>= _) world = _
    rw [Run.bind_of_ok hfound, hlast, Option.getD_some, Run.bind_of_ok hparent,
      Run.bind_of_ok (hcopied _ id)]
    rfl
  rw [send_plain host (n + 1) hnode]
  show EStateM.map Value.object _ world = _
  rw [EStateM.map, hclone]

/-! ## Assigning -/

/-- An assignment through a plain object writes the field that a search finds. -/
theorem send_assignField_of_found (host : Host κ σ) {world : World κ σ} {id holder : ObjectId}
    {body holderBody : PrototypeObject κ} {selector : Symbol} {index : Nat} {value : Value κ}
    {written : Storage κ} (hnode : world.heap.node? id = some (.object body))
    (hsearch : world.heap.searchDynamic id selector = .ok (.found holder (.field index true)))
    (hholder : world.heap.node? holder = some (.object holderBody))
    (hwrite : holderBody.slots.write? index value = some written) (n : Nat) :
    (ofFuel host (n + 2)).send (.object id) (.assignField selector value) world =
      .ok .nil { world with
        heap := world.heap.replace holder (.object { holderBody with slots := written }) } := by
  have hresolve : (ofFuel host (n + 1)).resolve .assignField selector id world =
      .ok (id, .found holder (.field index true)) world := by
    rw [resolve, fuel_ofFuel, resolveFrom, Run.searchDynamic_bind, hsearch]
    rfl
  have hslot : holderBody.slots.fieldSlot? selector = some (index, true) := by
    have hfound := Heap.slot?_of_searchDynamic hsearch
    rw [Heap.slot?_of_node? hholder] at hfound
    exact Storage.find_eq_field_iff.mp hfound
  have hassigned : (ofFuel host (n + 1)).writeSlot holder selector value world =
      .ok () { world with
        heap := world.heap.replace holder (.object { holderBody with slots := written }) } :=
    (ofFuel host (n + 1)).writeSlot_of_writable hholder hslot hwrite
  rw [send_plain host (n + 1) hnode]
  show ((ofFuel host (n + 1)).defaultAssignField id selector value >>= fun _ => pure Value.nil)
    world = _
  rw [defaultAssignField, bind_assoc, Run.bind_of_ok hresolve]
  exact Run.bind_of_ok hassigned _

/-! ## Independence -/

/--
An object on a chain of plain objects without custom fields is cloned, whatever the
number of steps from two on.  Every node stays as it was, and for each object of the
stretch there is one new node, its copy.

Any search from the clone ends as it does from the object: with the same slot and the
same value, at the copy of the holder if the holder is in the stretch, and at the very
holder if it is not, which matches itself.  A field that can be written and is found
there can be assigned through the clone.  The clone then finds the value; the object
finds what it found before if the field's holder has been copied, and the value if it
has not.
-/
theorem clone_independent (host : Host κ σ) {world : World κ σ}
    (hfree : world.heap.FreeListExact) {id : ObjectId} {body : PrototypeObject κ}
    {ids : List ObjectId} (hnode : world.heap.node? id = some (.object body))
    (hsingleton : body.flags.singleton = false) (hchain : world.heap.Chain (.object id) ids)
    (hbare : ∀ other ∈ ids, world.heap.Bare other) :
    ∃ stretch matching after, world.heap.Stretch id stretch ∧
      (∀ n, (ofFuel host (n + 2)).send (.object id) .clone world =
        .ok (.object (matching id)) after) ∧
      world.heap.Copies after.heap stretch matching ∧
      (∀ selector, ∃ resolution, world.heap.searchDynamic id selector = .ok resolution ∧
        after.heap.searchDynamic (matching id) selector = .ok (resolution.relocated matching) ∧
        after.heap.fieldValue? (matching id) selector = world.heap.fieldValue? id selector) ∧
      ∀ selector holder index value,
        world.heap.searchDynamic id selector = .ok (.found holder (.field index true)) →
        ∃ final, (∀ n, (ofFuel host (n + 2)).send (.object (matching id))
            (.assignField selector value) after = .ok .nil final) ∧
          final.heap.fieldValue? (matching id) selector = some value ∧
          final.heap.fieldValue? id selector =
            if holder ∈ stretch then world.heap.fieldValue? id selector else some value := by
  obtain ⟨stretch, matching, after, hstretch, hfront, hcopies, hsend⟩ :=
    send_clone_of_bare host hfree hnode hsingleton hchain hbare
  have hcorresponds := hcopies.corresponds hchain hbare hfront
  refine ⟨stretch, matching, after, hstretch, hsend, hcopies, fun selector => ?_, ?_⟩
  · obtain ⟨resolution, hbefore, hafter⟩ :=
      hchain.searchDynamic_of_corresponds hcorresponds selector
    exact ⟨resolution, hbefore, hafter, hcopies.fieldValue?_eq hbefore hafter⟩
  intro selector holder index value hsearch
  have hkept := hchain.of_keeps hcopies.keeps
  have hmatched := hchain.of_corresponds hcorresponds
  have hsearchKept : after.heap.searchDynamic id selector =
      .ok (.found holder (.field index true)) := by
    rw [hchain.searchDynamic_of_keeps hcopies.keeps, hsearch]
  have hsearchMatched : after.heap.searchDynamic (matching id) selector =
      .ok (.found (matching holder) (.field index true)) := by
    obtain ⟨resolution, hbefore, hafter⟩ :=
      hchain.searchDynamic_of_corresponds hcorresponds selector
    cases hsearch.symm.trans hbefore
    exact hafter
  have hholder : holder ∈ ids := hchain.mem_of_searchDynamic hsearch
  obtain ⟨holderBody, targetBody, hholderNode, htarget, -, hfind⟩ := hcorresponds holder hholder
  have hslot : targetBody.slots.find selector = some (.field index true) := by
    rw [hfind, ← Heap.slot?_of_searchDynamic hsearch, Heap.slot?_of_node? hholderNode]
    rfl
  obtain ⟨written, hwrite⟩ := Storage.exists_write hslot value
  obtain ⟨copyBody, copyBody', -, hcopy, -, -⟩ := hcorresponds id hchain.mem_self
  refine ⟨_, fun n => send_assignField_of_found host hcopy hsearchMatched htarget hwrite n, ?_, ?_⟩
  · rw [hmatched.fieldValue?_write ?_ hsearchMatched htarget hwrite, if_pos rfl]
    intro other hmem
    obtain ⟨source, hsource, rfl⟩ := List.mem_map.mp hmem
    obtain ⟨-, sourceBody, -, hsourceCopy, -, -⟩ := hcorresponds source hsource
    exact ⟨sourceBody, hsourceCopy⟩
  · have hsame : after.heap.fieldValue? id selector = world.heap.fieldValue? id selector := by
      rw [Heap.fieldValue?_of_found hsearch hholderNode,
        Heap.fieldValue?_of_found hsearchKept (hcopies.keeps _ _ hholderNode)]
    rw [hkept.fieldValue?_write ?_ hsearchKept htarget hwrite, hsame]
    · by_cases hcopied : holder ∈ stretch
      · have hmoved : holder ≠ matching holder := by
          intro hstays
          have hnew := hcopies.new holder hcopied
          rw [← hstays, Heap.contains_of_node? hholderNode] at hnew
          cases hnew
        rw [if_pos hcopied, if_neg hmoved]
      · rw [if_neg hcopied, if_pos (hcopies.others holder hcopied).symm]
    · intro other hmem
      obtain ⟨otherBody, hother, -⟩ := hbare other hmem
      exact ⟨otherBody, hcopies.keeps _ _ hother⟩

/--
A chain of the objects at indices 4, 3 and 2, the lower link is-a and the upper one
shares-a.  The middle object has a field `x` and the upper one a field `y`.
-/
private def linked : World Empty Unit :=
  let world : World Empty Unit := World.new default ()
  let upper : PrototypeObject Empty :=
    { slots :=
        { Storage.empty ⟨100⟩ with
          fields := [{ name := ⟨"y"⟩, writable := true, value := .nil }] }
      dynamicParent := .nil
      lexicalParent := none
      link := .isA
      typeTags := []
      family := ⟨3⟩
      flags := .none }
  let middle : PrototypeObject Empty :=
    { upper with
      slots :=
        { Storage.empty ⟨101⟩ with
          fields := [{ name := ⟨"x"⟩, writable := true, value := .nil }] }
      dynamicParent := .object ⟨2⟩
      link := .sharesA }
  let lower : PrototypeObject Empty :=
    { upper with slots := Storage.empty ⟨102⟩, dynamicParent := .object ⟨3⟩ }
  let nodes : List (Node Empty) := [.object upper, .object middle, .object lower]
  { world with heap := nodes.foldl (fun heap node => (heap.allocate node).2) world.heap }

private theorem chain_linked : linked.heap.Chain (.object ⟨4⟩) [⟨4⟩, ⟨3⟩, ⟨2⟩] :=
  .cons rfl rfl (.cons rfl rfl (.cons rfl rfl .nil))

private theorem bare_linked : ∀ other ∈ [⟨4⟩, ⟨3⟩, ⟨2⟩], linked.heap.Bare other := by
  intro other hmem
  rcases List.mem_cons.mp hmem with rfl | hmem
  · exact ⟨_, rfl, rfl⟩
  · rcases List.mem_cons.mp hmem with rfl | hmem
    · exact ⟨_, rfl, rfl⟩
    · obtain rfl := List.mem_singleton.mp hmem
      exact ⟨_, rfl, rfl⟩

private theorem stretch_linked : linked.heap.Stretch ⟨4⟩ [⟨4⟩, ⟨3⟩] := .step rfl (.top rfl)

/-- The copied `x` of the clone is its own, the `y` above the shares-a link is shared. -/
theorem clone_independent_linked :
    linked.heap.FreeListExact ∧ linked.heap.Chain (.object ⟨4⟩) [⟨4⟩, ⟨3⟩, ⟨2⟩] ∧
      (∀ other ∈ [⟨4⟩, ⟨3⟩, ⟨2⟩], linked.heap.Bare other) ∧
      ∃ copy after,
        (∀ n, (ofFuel Host.none (n + 2)).send (.object ⟨4⟩) .clone linked =
          .ok (.object copy) after) ∧
        (∃ final, (∀ n, (ofFuel Host.none (n + 2)).send (.object copy)
            (.assignField ⟨"x"⟩ (.bool true)) after = .ok .nil final) ∧
          final.heap.fieldValue? ⟨4⟩ ⟨"x"⟩ = some .nil) ∧
        ∃ final, (∀ n, (ofFuel Host.none (n + 2)).send (.object copy)
            (.assignField ⟨"y"⟩ (.bool true)) after = .ok .nil final) ∧
          final.heap.fieldValue? ⟨4⟩ ⟨"y"⟩ = some (.bool true) := by
  have hfree : linked.heap.FreeListExact :=
    (((World.sound_new default ()).free.allocate _).allocate _).allocate _
  refine ⟨hfree, chain_linked, bare_linked, ?_⟩
  obtain ⟨stretch, matching, after, hstretch, hsend, -, -, hassign⟩ :=
    clone_independent Host.none hfree rfl rfl chain_linked bare_linked
  obtain ⟨rfl, -⟩ := hstretch.unique stretch_linked
  refine ⟨matching ⟨4⟩, after, hsend, ?_, ?_⟩
  · obtain ⟨final, hassigned, -, hold⟩ := hassign ⟨"x"⟩ ⟨3⟩ 0 (.bool true) rfl
    exact ⟨final, hassigned, hold⟩
  · obtain ⟨final, hassigned, -, hnew⟩ := hassign ⟨"y"⟩ ⟨2⟩ 0 (.bool true) rfl
    exact ⟨final, hassigned, hnew⟩

end Runtime

end Prototypes
