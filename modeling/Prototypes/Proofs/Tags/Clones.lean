import Prototypes.Proofs.Cloning.Recursion
import Prototypes.Proofs.Safety.Parents
import Prototypes.Proofs.Tags.Chains

/-!
# Tags are handed down

An object that extends or shares another has that one's chain above it, and a clone has a chain of
its own: copies of the stretch that was cloned, with their tags, and from there on the chain of the
source.  The code that builds an object and the code that makes custom fields anew is anybody's; it
can neither change the tags of a node nor where it goes up.

## Main results

* `Runtime.Safe.extendWith_tags` — what a new object's chain carries.
* `Runtime.Safe.defaultClone_tags` — a clone's chain carries what its source's does, by induction
  along the stretch from the top down.
* `Runtime.tags_follow` — subtypes, chains, clones, and passing.
-/

namespace Prototypes

variable {κ σ : Type}

open Run (EndsSafely)

/-! ## Chains in worlds that grow -/

variable {rules : Rules κ} {rt : Runtime κ σ} {u v w : World κ σ} {id : ObjectId}
  {carried above : List (List TypeTag)}

/-- Objects keep their tags and their parents. -/
theorem World.Grows.made_as (h : v.Grows w) {body : PrototypeObject κ}
    (hnode : v.heap.node? id = some (.object body)) :
    ∃ later, w.heap.node? id = some (.object later) ∧ later.typeTags = body.typeTags ∧
      later.dynamicParent = body.dynamicParent := by
  obtain ⟨after, hafter, hstays⟩ := h.nodes hnode
  cases after with
  | object later => exact ⟨later, hafter, Option.some.inj hstays.tags, hstays.dynamicParent⟩
  | mirage m => cases hstays.plain
  | frame frame => cases hstays.plain

theorem World.Grows.tags (h : v.Grows w) {value : Value κ} (htags : v.heap.Tags value carried) :
    w.heap.Tags value carried := by
  induction htags with
  | nil => exact .nil
  | object hnode _ ih =>
    obtain ⟨later, hlater, htags, hparent⟩ := h.made_as hnode
    rw [← htags]
    exact .object hlater (hparent ▸ ih)

/-- What a chain starts with may be used. -/
theorem Heap.Tags.admits {value : Value κ} (h : v.heap.Tags value carried) : v.Admits rules value.parts := by
  cases h with
  | nil => exact .nil v
  | object hnode _ => exact .handle (Heap.contains_of_node? hnode)

/-- Where a climb ends there is a chain still. -/
theorem Heap.Tags.exists_of_top {heap : Heap κ} {top : ObjectId} {ids : List ObjectId}
    (h : heap.Tags (.object id) carried) (hclimb : heap.Stretch id ids) (hlast : ids.getLast? = some top) :
    ∃ carried, heap.Tags (.object top) carried := by
  unfold Heap.Stretch at hclimb
  generalize hending : (Except.ok () : Except Halt Unit) = ending at hclimb
  induction hclimb generalizing carried with
  | stop => cases hending
  | top _ =>
    cases hlast
    exact ⟨carried, h⟩
  | @step id next ids _ hstep hrest ih =>
    obtain ⟨body, above, hnode, habove, -⟩ := h.node
    obtain ⟨node, _, _, hnode', hbody, -, hnext, -, -⟩ := Heap.clonedAlong?_eq_some_iff.mp hstep
    cases hnode.symm.trans hnode'
    cases hbody
    have hne : ids ≠ [] := by
      rintro rfl
      cases hrest
    exact ih (hnext ▸ habove) ((List.getLast?_cons_of_ne_nil hne).symm.trans hlast) hending

/-- A run that has answered safely leaves a larger world, which is sane. -/
theorem Run.EndsSafely.of_ok {α : Type} [Answer κ α] {result : EStateM.Result Halt (World κ σ) α}
    {answer : α} (h : EndsSafely rules v result) (hresult : result = .ok answer w) : v.Grows w ∧ w.Sane rules := by
  subst hresult
  exact h.leaves

namespace Runtime

/-! ## Copies -/

/-- A copy has the tags of its source, and above them those of the chain it is put on. -/
theorem Safe.cloneNode_tags (hrt : rt.Safe rules) (hv : v.Sane rules) {source copy : ObjectId}
    {body : PrototypeObject κ} (hsource : v.heap.node? source = some (.object body)) {parent : Value κ}
    (hparent : v.heap.Tags parent above) (h : rt.cloneNode source parent .object v = .ok copy w) :
    v.Grows w ∧ w.Sane rules ∧ w.heap.Tags (.object copy) (body.typeTags :: above) := by
  have hheld := hv.holds hsource
  have hparts : v.Admits rules
      (Node.object { body with slots := body.slots.cloneLayout, dynamicParent := parent }).parts := by
    refine (hheld.append hparent.admits).mono ?_
    have hlayout := body.slots.follows_cloneLayout.parts
    simp only [Node.parts, Node.slots, Node.dynamicParent, Node.lexicalParent?]
    grind
  obtain ⟨hcopied, hgrows, hlive⟩ := hv.allocate hparts
    (body.slots.follows_cloneLayout.names (hv.names source _ hsource))
  unfold Runtime.cloneNode at h
  rw [Run.node_bind_of_some hsource] at h
  dsimp only [Node.body?] at h
  rw [Run.allocate_bind] at h
  obtain ⟨_, _, hrenewed, h⟩ := Run.eq_ok_of_bind h
  cases h
  have hneeds := (World.Admits.handle hlive).append (hgrows.admits hheld)
  have hcustom (field : CustomField κ) (hfield : field ∈ body.slots.custom) :
      field.field.parts ⊆ .handle v.heap.nextId :: (Node.object body).parts := fun part hpart => by
    have hmem : part ∈ body.slots.parts := Storage.mem_parts.mpr (.inr (.inr ⟨field, hfield, hpart⟩))
    simp only [Node.parts, Node.slots, List.mem_cons, List.mem_append, hmem, true_or, or_true]
  obtain ⟨hlater, hsane⟩ :=
    ((hrt.renewCustom (List.mem_cons_self ..) hcustom) _ hcopied hneeds).of_ok hrenewed
  have hcopy := (hv.free.node?_allocate (.object
    { body with slots := body.slots.cloneLayout, dynamicParent := parent }) v.heap.nextId).trans (if_pos rfl)
  have hchain := Heap.Tags.object hcopy (hgrows.tags hparent)
  exact ⟨hgrows.trans hlater, hsane, hlater.tags hchain⟩

/-- The parent of the topmost copy is that of its source. -/
def TopsInPlace (rt : Runtime κ σ) : Prop :=
  ∀ {v w : World κ σ} {parent answer : Value κ} {above : List (List TypeTag)},
    v.heap.Tags parent above →
    (∀ id body, parent = .object id → v.heap.node? id = some (.object body) →
      body.flags.singleton = true) →
    rt.send parent .clone v = .ok answer w → answer = parent

theorem TopsInPlace.clonedParent (hplace : rt.TopsInPlace) {top : ObjectId} {body : PrototypeObject κ}
    (hnode : v.heap.node? top = some (.object body)) (htags : v.heap.Tags body.dynamicParent above)
    (htop : v.heap.clonedAlong? top = .ok none) {parent : Value κ}
    (h : rt.clonedParent top v = .ok parent w) : parent = body.dynamicParent := by
  cases hlink : body.link with
  | sharesA =>
    rw [rt.clonedParent_of_sharesA hnode hlink] at h
    cases h
    rfl
  | isA =>
    rw [rt.clonedParent_of_isA hnode hlink] at h
    refine hplace htags (fun id other hid hother => ?_) h
    by_contra hplain
    rw [Bool.not_eq_true] at hplain
    have hstep := Heap.clonedAlong?_eq_some_iff.mpr
      ⟨_, body, other, hnode, rfl, hlink, hid, hother, hplain⟩
    cases hstep.symm.trans htop

/-- The copies of a stretch have the tags of their sources, from the top down. -/
theorem Safe.cloneStretch_tags (hrt : rt.Safe rules) {ids : List ObjectId} (hclimb : v.heap.Stretch id ids)
    (htags : v.heap.Tags (.object id) carried) (hgrows : v.Grows w) (hw : w.Sane rules)
    {parent : Value κ}
    (hparent : ∀ top body, ids.getLast? = some top → v.heap.node? top = some (.object body) →
      parent = body.dynamicParent) {last copy : ObjectId}
    (h : rt.cloneStretch ids.reverse last parent w = .ok copy u) :
    v.Grows u ∧ u.Sane rules ∧ u.heap.Tags (.object copy) carried := by
  unfold Heap.Stretch at hclimb
  generalize hending : (Except.ok () : Except Halt Unit) = ending at hclimb
  induction hclimb generalizing carried copy u with
  | stop => cases hending
  | @top id htop =>
    simp only [List.reverse_singleton, Runtime.cloneStretch, bind_pure] at h
    obtain ⟨body, above, hnode, habove, rfl⟩ := htags.node
    obtain ⟨later, hlater, hsame, -⟩ := hgrows.made_as hnode
    rw [hparent id body rfl hnode] at h
    obtain ⟨hu, hsane, hcopy⟩ := hrt.cloneNode_tags hw hlater (hgrows.tags habove) h
    exact ⟨hgrows.trans hu, hsane, hsame ▸ hcopy⟩
  | @step id next ids _ hstep hrest ih =>
    have hne : ids ≠ [] := by
      rintro rfl
      cases hrest
    have hlast : (id :: ids).getLast? = ids.getLast? := List.getLast?_cons_of_ne_nil hne
    rw [List.reverse_cons, rt.cloneStretch_concat (List.reverse_ne_nil_iff.mpr hne) id last last] at h
    obtain ⟨body, above, hnode, habove, rfl⟩ := htags.node
    obtain ⟨node, _, _, hnode', hbody, -, hnext, -, -⟩ := Heap.clonedAlong?_eq_some_iff.mp hstep
    cases hnode.symm.trans hnode'
    cases hbody
    rw [hnext] at habove
    obtain ⟨copied, middle, hcopied, h⟩ := Run.eq_ok_of_bind h
    obtain ⟨hmiddle, hsane, hcopy⟩ :=
      ih habove (fun top body htop => hparent top body (hlast.trans htop)) hcopied hending
    obtain ⟨later, hlater, hsame, -⟩ := hmiddle.made_as hnode
    obtain ⟨hu, hsane, hcopy⟩ := hrt.cloneNode_tags hsane hlater hcopy h
    exact ⟨hmiddle.trans hu, hsane, hsame ▸ hcopy⟩

/-- A clone has the tags of its source all along its chain. -/
theorem Safe.defaultClone_tags (hrt : rt.Safe rules) (hplace : rt.TopsInPlace) (hv : v.Sane rules)
    (htags : v.heap.Tags (.object id) carried) {copy : ObjectId} (h : rt.defaultClone id v = .ok copy w) :
    v.Grows w ∧ w.Sane rules ∧ w.heap.Tags (.object copy) carried := by
  obtain ⟨body, above, hnode, habove, rfl⟩ := htags.node
  unfold Runtime.defaultClone at h
  rw [Run.node_bind_of_some hnode] at h
  cases hsingleton : body.flags.singleton with
  | true =>
    simp only [Node.body?, Option.any, hsingleton, if_true] at h
    cases h
    exact ⟨.refl v, hv, htags⟩
  | false =>
    simp only [Node.body?, Option.any, hsingleton, Bool.false_eq_true, if_false] at h
    obtain ⟨stretch, _, hstretch, hrest⟩ := Run.eq_ok_of_bind h
    obtain ⟨hstretch, hsame⟩ := Run.observe_eq_ok hstretch
    have hclimb := Heap.stretch_eq_ok_iff.mp hstretch
    obtain ⟨top, hlast, htop⟩ := hclimb.exists_top
    rw [hsame, hlast] at hrest
    obtain ⟨parent, middle, hparent, hrest⟩ := Run.eq_ok_of_bind hrest
    obtain ⟨copied, cloned, hcopied, hrest⟩ := Run.eq_ok_of_bind hrest
    cases hrest
    obtain ⟨_, hchain⟩ := htags.exists_of_top hclimb hlast
    obtain ⟨topBody, _, htopNode, htopTags, -⟩ := hchain.node
    obtain rfl := hplace.clonedParent htopNode htopTags htop hparent
    have hadmits : v.Admits rules [.handle top] := hchain.admits
    obtain ⟨hgrows, hsane⟩ := ((hrt.clonedParent (List.mem_singleton_self _)) v hv hadmits).of_ok hparent
    obtain ⟨hcloned, hsane, hcopy⟩ := hrt.cloneStretch_tags hclimb htags hgrows hsane
      (fun other body hother hbody => by
        cases hlast.symm.trans hother
        cases htopNode.symm.trans hbody
        rfl) hcopied
    have hreported (events : Array Event) : cloned.SameNodes { cloned with log := events } :=
      ⟨rfl, rfl, rfl, rfl, rfl⟩
    exact ⟨hcloned.trans (hreported _).grows, (hreported _).sane hsane, hcopy⟩

/-- The messages that clone. -/
inductive Clones : Message κ → Prop
  | clone : Clones .clone
  | newInstance (arguments : List (Value κ)) : Clones (.newInstance arguments)

theorem Safe.performDefault_tags (hrt : rt.Safe rules) (hplace : rt.TopsInPlace) (hv : v.Sane rules)
    (htags : v.heap.Tags (.object id) carried) {message : Message κ} (hmessage : Clones message)
    (hadmits : v.Admits rules message.parts) {answer : Value κ}
    (h : rt.performDefault id message v = .ok answer w) :
    v.Grows w ∧ ∃ copy, answer = .object copy ∧ w.heap.Tags (.object copy) carried := by
  cases hmessage with
  | clone =>
    change (Value.object <$> rt.defaultClone id) v = _ at h
    rw [← bind_pure_comp] at h
    obtain ⟨copy, _, hcloned, h⟩ := Run.eq_ok_of_bind h
    cases h
    obtain ⟨hgrows, -, hcopy⟩ := hrt.defaultClone_tags hplace hv htags hcloned
    exact ⟨hgrows, copy, rfl, hcopy⟩
  | newInstance arguments =>
    obtain ⟨copy, cloned, hcloned, h⟩ := Run.eq_ok_of_bind h
    obtain ⟨_, _, hinit, h⟩ := Run.eq_ok_of_bind h
    cases h
    obtain ⟨_, hinit⟩ := Run.eq_ok_of_discard hinit
    obtain ⟨hgrows, hsane, hcopy⟩ := hrt.defaultClone_tags hplace hv htags hcloned
    have hneeds : cloned.Admits rules ((Value.object copy).parts ++ Value.partsOfAll arguments) :=
      World.Admits.append hcopy.admits (hgrows.admits hadmits)
    obtain ⟨hlater, -⟩ := ((hrt.invoke Selector.init (List.subset_append_left _ _)
      (List.subset_append_right _ _)) cloned hsane hneeds).of_ok hinit
    exact ⟨hgrows.trans hlater, copy, rfl, hlater.tags hcopy⟩

/-! ## Objects that extend others -/

end Runtime

/-- A new object on what may be used. -/
theorem World.Sane.founded (hv : v.Sane rules) {parent : Value κ} (hparent : v.Admits rules parent.parts)
    {scope : ObjectId} (hscope : v.heap.contains scope = true) (link : ParentLink) (tags : List TypeTag) :
    v.Grows (v.found parent link (some scope) tags) ∧ (v.found parent link (some scope) tags).Sane rules ∧
      (v.found parent link (some scope) tags).heap.node? v.heap.nextId =
        some (.object (v.newBody parent link (some scope) tags)) := by
  have hdrawn : v.SameNodes { v with heap := v.heap.newFamily.2, supply := v.supply + 1 } :=
    ⟨rfl, rfl, rfl, rfl, rfl⟩
  have hparts : v.Admits rules (Node.object (v.newBody parent link (some scope) tags)).parts := by
    have hheld : v.Admits rules (.handle scope :: parent.parts) := fun part hpart => by
      rcases List.mem_cons.mp hpart with rfl | hpart
      exacts [hscope, hparent part hpart]
    refine hheld.mono ?_
    simp only [Node.parts, World.newBody, Node.slots, Node.dynamicParent, Node.lexicalParent?]
    grind
  have hallocated := (hdrawn.sane hv).allocate (hdrawn.grows.admits hparts) List.nodup_nil
  exact ⟨hdrawn.grows.trans hallocated.2.1, hallocated.1,
    (((hdrawn.sane hv).free).node?_allocate _ _).trans (if_pos rfl)⟩

namespace Runtime

/-- A new object has the tags it is made with, and above them those of the chain it is put on. -/
theorem Safe.extendWith_tags (hrt : rt.Safe rules) (hv : v.Sane rules) {parent : Value κ}
    (hparent : v.heap.Tags parent above) {code : Value κ} (hcode : v.Admits rules code.parts)
    {link : ParentLink} {tags : List TypeTag} {answer : Value κ}
    (h : rt.extendWith parent link code tags v = .ok answer w) :
    v.Grows w ∧ ∃ id, answer = .object id ∧ w.heap.Tags (.object id) (tags :: above) := by
  unfold Runtime.extendWith at h
  cases hclosure : code.expectClosure "extension code" with
  | error reason =>
    rw [hclosure] at h
    cases h
  | ok closure =>
    rw [hclosure, Run.check_ok_bind, Run.newBody_allocate_bind] at h
    have hheld : v.Admits rules closure.parts := hcode.mono ((code.yields_expectClosure _).answer hclosure)
    have hscope : v.heap.contains closure.context.scope = true := hheld.contains (by simp)
    obtain ⟨hgrows, hsane, hnode⟩ := hv.founded hparent.admits hscope link tags
    obtain ⟨_, reported, hreported, h⟩ := Run.eq_ok_of_bind h
    obtain ⟨_, _, happlied, h⟩ := Run.eq_ok_of_bind h
    cases h
    obtain ⟨_, happlied⟩ := Run.eq_ok_of_discard happlied
    have hsame : (v.found parent link (some closure.context.scope) tags).SameNodes reported := by
      cases hreported
      exact ⟨rfl, rfl, rfl, rfl, rfl⟩
    have hneeds : reported.Admits rules (.handle v.heap.nextId :: (closure.parts ++ parent.parts)) := by
      intro part hpart
      rcases List.mem_cons.mp hpart with rfl | hpart
      · exact hsame.grows.contains (Heap.contains_of_node? hnode)
      · exact (hgrows.trans hsame.grows).admits (hheld.append hparent.admits) part hpart
    obtain ⟨hlater, -⟩ := ((hrt.applyInScope (by grind) (List.nil_subset _) (by grind)) reported
      (hsame.sane hsane) hneeds).of_ok happlied
    have hchain := Heap.Tags.object hnode (hgrows.tags hparent)
    refine ⟨hgrows.trans (hsame.grows.trans hlater), _, rfl, (hsame.grows.trans hlater).tags hchain⟩

end Runtime

/-! ## Requests -/

section Requests

variable {host : Host κ σ} {steps : Nat} {message : Message κ} {answer : Value κ}
  {body : PrototypeObject κ}

theorem Runtime.careful_send_plain (host : Host κ σ) (steps : Nat)
    (hnode : v.heap.node? id = some (.object body)) (message : Message κ) :
    (careful host (steps + 1)).send (.object id) message v =
      (careful host steps).performDefault id message v := by
  show (Run.node id >>= _) v = _
  rw [Run.node_bind_of_some hnode]

theorem Runtime.careful_topsInPlace (host : Host κ σ) (steps : Nat) : (careful host steps).TopsInPlace := by
  intro v w parent answer above htags hsingletons h
  cases steps with
  | zero => cases h
  | succ steps =>
    cases htags with
    | nil =>
      cases h
      rfl
    | @object id body _ hnode _ =>
      rw [careful_send_plain host steps hnode] at h
      change (Value.object <$> (careful host steps).defaultClone id) v = _ at h
      rw [← bind_pure_comp] at h
      obtain ⟨copy, _, hcloned, h⟩ := Run.eq_ok_of_bind h
      cases h
      unfold Runtime.defaultClone at hcloned
      rw [Run.node_bind_of_some hnode] at hcloned
      simp only [Node.body?, Option.any, hsingletons id body rfl hnode, if_true] at hcloned
      cases hcloned
      rfl

/-- What is answered to a request on live handles the careful machine has answered, by default. -/
theorem Request.Heeds.performs (hheeds : (Request.send (.object id) message).Heeds host steps v)
    (hnode : v.heap.node? id = some (.object body))
    (hanswer : (Runtime.ofFuel host steps).send (.object id) message v = .ok answer w) :
    ∃ left u, (Runtime.careful host left).performDefault id message v = .ok answer u ∧
      v.Admits (Rules.lenient κ) message.parts ∧ u.SameNodes w := by
  obtain ⟨u, hcareful, halike⟩ := (runCareful_below (Runtime.careful_below host steps)
    (.send (.object id) message)).exists_ok hheeds hanswer
  change (if v.allLive _ then (Runtime.careful host steps).send (.object id) message v
    else .error .exhausted v) = _ at hcareful
  split at hcareful
  case isFalse => cases hcareful
  case isTrue hlive =>
    cases steps with
    | zero => cases hcareful
    | succ steps =>
      rw [Runtime.careful_send_plain host steps hnode] at hcareful
      exact ⟨steps, u, hcareful, (World.allLive_iff.mp hlive).mono (List.subset_append_right _ _),
        halike.sameNodes⟩

end Requests

/-! ## Being tagged -/

/-- What an object answers when it is asked whether it is tagged. -/
def World.Tagged (host : Host κ σ) (w : World κ σ) (id : ObjectId) (tag : TypeTag) (answer : Bool) : Prop :=
  ∀ steps, (Runtime.ofFuel host (steps + 1)).send (.object id) (.isTaggedAs tag) w = .ok (.bool answer) w

theorem Heap.Tags.tagged_iff (h : w.heap.Tags (.object id) carried) (host : Host κ σ) {tag : TypeTag}
    {answer : Bool} : w.Tagged host id tag answer ↔ answer = tag.isCarriedBy carried := by
  have hsent (steps : Nat) := Runtime.send_isTaggedAs host steps h tag
  refine ⟨fun htagged => ?_, fun hanswer steps => hanswer ▸ hsent steps⟩
  cases (htagged 0).symm.trans (hsent 0)
  rfl

/-- A supertype of a tag that is carried is carried. -/
theorem TypeTag.Made.isCarriedBy {made : List TypeTag} (hmade : Made made) {tag above : TypeTag}
    (htag : tag ∈ made) (hcarried : ∀ tags ∈ carried, tags ⊆ made) (hbelow : tag.isSubtypeOf above = true)
    (h : tag.isCarriedBy carried = true) : above.isCarriedBy carried = true := by
  obtain ⟨tags, htags, own, hown, hsubtype⟩ := isCarriedBy_iff.mp h
  exact isCarriedBy_iff.mpr
    ⟨tags, htags, own, hown, hmade.isSubtypeOf_trans (hcarried tags htags hown) htag hsubtype hbelow⟩

theorem TypeTag.isCarriedBy_cons {tag : TypeTag} (tags : List TypeTag) (h : tag.isCarriedBy carried = true) :
    tag.isCarriedBy (tags :: carried) = true := by
  rw [isCarriedBy, List.any_cons, Bool.or_eq_true]
  exact .inr h

namespace Runtime

/--
Tags that were made are subtypes of just those that can be reached from them along supertypes, so
that they are ordered.  Take an object whose dynamic parents are plain objects until nil.  It is
tagged as something just when an object of that chain carries a subtype, and so as everything above
what it is tagged as.  What is on it is tagged as it is: any object that it is the parent of, and any
that a request to extend or share it answers.  A clone is tagged as it is, and nothing else.  What
leaves the actor in its place is itself just when it is tagged as an isolate, and otherwise a
reference that stands for it wherever it comes back to the actor.

The code that builds an object or makes a custom field anew is that of any host; the requests that
run it must not use handles whose nodes are gone.
-/
theorem tags_follow (host : Host κ σ) {made : List TypeTag} (hmade : TypeTag.Made made) :
    (∀ a ∈ made, ∀ b ∈ made, (a.isSubtypeOf b = true ↔ a.Reaches b)) ∧
    (∀ a ∈ made, a.isSubtypeOf a = true) ∧
    (∀ a ∈ made, ∀ b ∈ made, ∀ c ∈ made,
      a.isSubtypeOf b = true → b.isSubtypeOf c = true → a.isSubtypeOf c = true) ∧
    (∀ a ∈ made, ∀ b ∈ made, a.isSubtypeOf b = true → b.isSubtypeOf a = true → a = b) ∧
    ∀ {world : World κ σ} {o : ObjectId} {carried : List (List TypeTag)},
      world.heap.Tags (.object o) carried →
      (∀ t, ∃ answer, world.Tagged host o t answer ∧
        (answer = true ↔ ∃ tags ∈ carried, ∃ own ∈ tags, own.isSubtypeOf t = true)) ∧
      ((∀ tags ∈ carried, tags ⊆ made) → ∀ t ∈ made, ∀ above, t.isSubtypeOf above = true →
        world.Tagged host o t true → world.Tagged host o above true) ∧
      (∀ child body, world.heap.node? child = some (.object body) → body.dynamicParent = .object o →
        ∀ t, world.Tagged host o t true → world.Tagged host child t true) ∧
      (world.Sane (Rules.lenient κ) → ∀ steps message answer after,
        (Request.send (.object o) message).Heeds host steps world →
        (ofFuel host steps).send (.object o) message world = .ok answer after →
        (∀ code, message = .extend code ∨ message = .share code → ∃ child, answer = .object child ∧
          ∀ t, world.Tagged host o t true → after.Tagged host child t true) ∧
        (Clones message → ∃ copy, answer = .object copy ∧ after.heap.Tags (.object copy) carried ∧
          ∀ t, ∃ tagged, world.Tagged host o t tagged ∧ after.Tagged host o t tagged ∧
            after.Tagged host copy t tagged)) ∧
      ∀ steps,
        ((ofFuel host (steps + 1)).send (.object o) .pass world = .ok (.object o) world ↔
          world.Tagged host o world.isolateTag true) ∧
        (world.Tagged host o world.isolateTag false →
          (ofFuel host (steps + 1)).send (.object o) .pass world =
            .ok (.farReference ⟨o, world.actor⟩) world) ∧
        ∀ later : World κ σ, later.actor = world.actor →
          (ofFuel host (steps + 1)).send (.farReference ⟨o, world.actor⟩) .resolve later =
            .ok (.object o) later := by
  refine ⟨fun a ha b hb => hmade.isSubtypeOf_iff ha hb, fun a _ => TypeTag.isSubtypeOf_of_reaches (.refl a),
    fun a ha b hb c _ => hmade.isSubtypeOf_trans ha hb, fun a ha b hb => hmade.isSubtypeOf_antisymm ha hb,
    fun {world o carried} htags => ?_⟩
  have htagged {t : TypeTag} {answer : Bool} : world.Tagged host o t answer ↔ answer = t.isCarriedBy carried :=
    htags.tagged_iff host
  obtain ⟨body, _, hnode, -, -⟩ := htags.node
  refine ⟨fun t => ⟨_, htagged.mpr rfl, TypeTag.isCarriedBy_iff⟩, fun hcarried t ht above hbelow h => ?_,
    fun child childBody hchild hparent t h => ?_, fun hsane steps message answer after hheeds hanswer => ?_,
    fun steps => ⟨?_, fun h => ?_, fun later hactor => ?_⟩⟩
  · exact htagged.mpr (hmade.isCarriedBy ht hcarried hbelow (htagged.mp h).symm).symm
  · have hchain : world.heap.Tags (.object child) (childBody.typeTags :: carried) :=
      .object hchild (hparent ▸ htags)
    exact (hchain.tagged_iff host).mpr (TypeTag.isCarriedBy_cons _ (htagged.mp h).symm).symm
  · obtain ⟨left, u, hperformed, hadmits, hsame⟩ := hheeds.performs hnode hanswer
    refine ⟨fun code hcode => ?_, fun hclones => ?_⟩
    · obtain ⟨link, hextended⟩ : ∃ link,
          (careful host left).extendWith (.object o) link code [] world = .ok answer u := by
        rcases hcode with rfl | rfl
        · exact ⟨.isA, hperformed⟩
        · exact ⟨.sharesA, hperformed⟩
      have hcodeLive : world.Admits (Rules.lenient κ) code.parts := by
        rcases hcode with rfl | rfl <;> exact hadmits
      obtain ⟨-, child, rfl, hchild⟩ :=
        (careful_safe host left).extendWith_tags hsane htags hcodeLive hextended
      exact ⟨child, rfl, fun t h => ((hsame.grows.tags hchild).tagged_iff host).mpr
        (TypeTag.isCarriedBy_cons _ (htagged.mp h).symm).symm⟩
    · obtain ⟨hgrows, copy, rfl, hcopy⟩ := (careful_safe host left).performDefault_tags
        (careful_topsInPlace host left) hsane htags hclones hadmits hperformed
      have hcopied := hsame.grows.tags hcopy
      have hkept := hsame.grows.tags (hgrows.tags htags)
      exact ⟨copy, rfl, hcopied, fun t => ⟨_, htagged.mpr rfl, (hkept.tagged_iff host).mpr rfl,
        (hcopied.tagged_iff host).mpr rfl⟩⟩
  · rw [send_pass host steps htags, htagged]
    cases world.isolateTag.isCarriedBy carried <;> simp
  · rw [send_pass host steps htags, ← htagged.mp h]
    rfl
  · rw [← hactor]
    exact send_resolve host steps o later

private def topTag : TypeTag := ⟨⟨100⟩, ⟨"Top"⟩, []⟩

private def leftTag : TypeTag := ⟨⟨101⟩, ⟨"Left"⟩, [topTag]⟩

private def rightTag : TypeTag := ⟨⟨102⟩, ⟨"Right"⟩, [topTag]⟩

/-- A tag with two supertypes that share theirs. -/
private def bottomTag : TypeTag := ⟨⟨103⟩, ⟨"Bottom"⟩, [leftTag, rightTag]⟩

/-- An object with the tag at the bottom, and one that extends it. -/
private def tagging : World Empty Unit :=
  ((World.new default ()).found .nil .isA (some ⟨0⟩) [bottomTag]).found (.object ⟨2⟩) .isA (some ⟨0⟩) []

/-- The object that extends the other is tagged as the tag at the top, and so is its clone. -/
theorem tags_follow_diamond :
    let made := [bottomTag, rightTag, leftTag, topTag]
    TypeTag.Made made ∧ bottomTag.isSubtypeOf topTag = true ∧ tagging.Sane (Rules.lenient Empty) ∧
      tagging.heap.Tags (.object ⟨3⟩) [[], [bottomTag]] ∧
      tagging.Tagged Host.none ⟨3⟩ topTag true ∧
      (Request.send (.object ⟨3⟩) .clone).Heeds Host.none 3 tagging ∧
      ∃ after, (ofFuel Host.none 3).send (.object ⟨3⟩) .clone tagging = .ok (.object ⟨5⟩) after ∧
        after.Tagged Host.none ⟨5⟩ topTag true := by
  intro made
  have hmade : TypeTag.Made made := by
    refine .new (.new (.new (.new .nil ?_ ?_) ?_ ?_) ?_ ?_) ?_ ?_ <;>
      simp [bottomTag, rightTag, leftTag, topTag]
  have hsane : tagging.Sane (Rules.lenient Empty) := by
    have hnew := World.sane_new (Rules.lenient Empty) default ()
    have hnil : (World.new default () : World Empty Unit).heap.Tags .nil [] := .nil
    obtain ⟨-, hfirst, hnode⟩ := hnew.founded hnil.admits hnew.lexicalRoot .isA [bottomTag]
    exact (hfirst.founded (Heap.Tags.object hnode .nil).admits hfirst.lexicalRoot .isA []).2.1
  have htags : tagging.heap.Tags (.object ⟨3⟩) [[], [bottomTag]] := by
    have hlower : tagging.heap.node? ⟨3⟩ = some (.object _) := rfl
    have hupper : tagging.heap.node? ⟨2⟩ = some (.object _) := rfl
    exact .object hlower (.object hupper .nil)
  have hheeds : (Request.send (.object ⟨3⟩) .clone).Heeds Host.none 3 tagging :=
    fun after hexhausted => by cases hexhausted
  obtain ⟨hreaches, -, -, -, hchains⟩ := tags_follow Host.none hmade
  have hbelow : bottomTag.isSubtypeOf topTag = true :=
    (hreaches bottomTag (by simp [made]) topTag (by simp [made])).mpr
      (.head (b := leftTag) (by simp [bottomTag]) (.single (by simp [leftTag])))
  obtain ⟨htagged, -, -, hhanded, -⟩ := hchains htags
  obtain ⟨answer, hanswer, hcarried⟩ := htagged topTag
  obtain rfl := hcarried.mpr ⟨[bottomTag], by simp, bottomTag, by simp, hbelow⟩
  obtain ⟨copy, hcopy, -, hsame⟩ := (hhanded hsane 3 .clone _ _ hheeds rfl).2 .clone
  cases hcopy
  obtain ⟨tagged, hbefore, -, hafter⟩ := hsame topTag
  cases (hbefore 0).symm.trans (hanswer 0)
  exact ⟨hmade, hbelow, hsane, htags, hanswer, hheeds, _, rfl, hafter⟩

end Runtime

end Prototypes
