import Prototypes.Proofs.Families.Copying
import Prototypes.Proofs.Families.Relations
import Prototypes.Proofs.Safety.Parents

/-!
# Families in worlds without mirages

A world is *unmirrored* if it comes from a new one by requests that use live handles and make
no mirages, with collections between them.  The machine here answers such requests as the
actual one does and stops short of all others, as though it had run out of steps; what host
code asks for in the course of a request is treated in the same way.

In such a world being a clone is descending from the same original, whether or not that is
still there, and being related composes.

## Main results

* `Runtime.unmirrored_below` — where no mirages are made, the machine does what the actual
  one does.
* `Runtime.unmirrored_tracking` — every call of it keeps track of pedigrees.
* `Request.Abstains.sameFamily_of_clone`, `Request.Abstains.hasOriginal_of_founds` — a clone is
  of its source's family, and what is made or extended of a new one.
* `World.Unmirrored.families` — what families are in unmirrored worlds.
-/

namespace Prototypes

variable {κ σ α : Type}

open Run (Steady Ends)

/-! ## The machine -/

/-- Answers a request, if its handles are live and it makes no mirage. -/
def Request.runUnmirrored (rt : Runtime κ σ) : Request κ → Run κ σ (Value κ)
  | newMirage .. | createMirage .. => Run.halt .exhausted
  | request => request.runCareful rt

/-- Runs a host program whose requests make no mirages, and the answer of which is live. -/
def Program.runUnmirrored (rt : Runtime κ σ) (program : Program κ σ (Value κ)) : Run κ σ (Value κ) := do
  let answer ← program.runBy (fun request => request.runUnmirrored rt) fun _ => Run.halt .exhausted
  Run.allowed (World.allLive answer.parts) (pure answer)

/-- The runtime with a number of steps in which no mirages are made. -/
def Runtime.unmirrored (host : Host κ σ) : Nat → Runtime κ σ :=
  Runtime.machineWith host Runtime.performDefault Program.runUnmirrored

/-! ## Below the other machines -/

section Actual

variable {rt rt' : Runtime κ σ}

theorem Request.runUnmirrored_below (h : rt.Below World.Alike rt') (request : Request κ) :
    Run.Below World.Alike (request.runUnmirrored rt) (request.runCareful rt') := by
  have hrequest : Run.Below World.Alike (request.runCareful rt) (request.runCareful rt') :=
    (h.request request).both_allowed fun _ => rfl
  cases request with
  | newMirage | createMirage => exact .exhausted _
  | _ => exact hrequest

namespace Runtime

/-- The careful machine is one with host programs of its own. -/
theorem machineWith_careful (host : Host κ σ) (steps : Nat) :
    machineWith host performDefault (fun rt program => do
      let answer ← program.runCareful rt fun _ => Run.halt .exhausted
      Run.allowed (World.allLive answer.parts) (pure answer)) steps = careful host steps := by
  induction steps with
  | zero => rfl
  | succ steps ih =>
    have hrun (rt : Runtime κ σ) : rt.runMethodWith rt.performDefault (fun program => do
        let answer ← program.runCareful rt fun _ => Run.halt .exhausted
        Run.allowed (World.allLive answer.parts) (pure answer)) host = rt.runMethodCareful host := by
      funext method context arguments
      obtain ⟨identity, name, parameters, body⟩ := method
      have hactual (body : Body κ) :
          rt.runMethodBy rt.performDefault host ⟨identity, name, parameters, body⟩ context arguments =
            rt.runMethod host ⟨identity, name, parameters, body⟩ context arguments := by
        rw [runMethodBy_performDefault]
      cases body with
      | host code => rfl
      | builtin operation => exact hactual (.builtin operation)
      | fragment fragment => exact hactual (.fragment fragment)
    simp only [machineWith, careful, ih, dispatchBy_performDefault, hrun]

/-- Where no mirages are made, the machine does what the careful one does. -/
theorem unmirrored_below_careful (host : Host κ σ) (steps : Nat) :
    (unmirrored host steps).Below World.Alike (careful host steps) := by
  rw [← machineWith_careful]
  refine machineWith_below host Below.performDefault (fun h program => ?_) Steady.bindMirror steps
  have hprogram := program.runBy_below (Request.runUnmirrored_below h) fun _ =>
    .exhausted (Run.halt .exhausted)
  exact hprogram.bind fun answer => (Run.Below.pure answer).both_allowed fun _ => rfl

/-- Where no mirages are made, the machine does what the actual one does. -/
theorem unmirrored_below (host : Host κ σ) (steps : Nat) :
    (unmirrored host steps).Below World.Alike (ofFuel host steps) :=
  (unmirrored_below_careful host steps).trans (careful_below host steps)

end Runtime

end Actual

/-! ## Every call keeps track -/

section Tracking

variable {start v w : World κ σ} {rt : Runtime κ σ}

/-- Where there are no mirages nobody is given a mirror. -/
theorem Run.tracked_setMirror (mirage mirror : ObjectId) :
    Steady (World.Tracked start) (Run.setMirror mirage mirror : Run κ σ Unit) := by
  rintro v _ ⟨rfl, hv, hstart⟩
  refine Run.Below.agrees_change ⟨rfl, hv, hstart⟩ fun node hnode => ?_
  have hsame : node.withMirror (some mirror) = node.withSlots node.slots := by
    cases node with
    | mirage m => exact absurd hnode hv.unmirrored
    | object body => rfl
    | frame frame => rfl
  obtain ⟨p, hp⟩ := hv
  rw [hsame]
  exact ⟨rfl, ⟨p, hp.edit node.slots hnode⟩, hstart.trans (.replace hnode (.withSlots _ _))⟩

theorem Run.tracked_bindMirror (mirror mirage : Value κ) :
    Steady (World.Tracked start) (Run.bindMirror mirror mirage : Run κ σ Unit) :=
  Runtime.Steady.bindMirror_of Run.tracked_setMirror mirror mirage

theorem Run.tracked_removeSlot (id : ObjectId) (selector : Symbol) :
    Steady (World.Tracked start) (Runtime.defaultRemoveSlot id selector : Run κ σ (Value κ)) := by
  rintro v _ ⟨rfl, hv, hstart⟩
  refine Runtime.Steady.agrees_defaultRemoveSlot (World.Tracked.editable _) ⟨rfl, hv, hstart⟩ ?_
  rintro v' _ node identity value rest ⟨rfl, ⟨p, hp⟩, hstart'⟩ hheap hnode -
  have hnode' := (congrArg (Heap.node? · id) hheap).trans hnode
  rw [setSlots_of_node hnode']
  exact .ok () ⟨rfl, ⟨p, hp.edit rest hnode'⟩, hstart'.trans (.replace hnode' (.withSlots _ _))⟩

theorem Request.runUnmirrored_tracks (hrt : rt.Tracking) (request : Request κ) :
    Steady (World.Tracked start) (request.runUnmirrored rt) := by
  have hallowed (hrun : Steady (World.Tracked start) (request.run rt)) :
      Steady (World.Tracked start) (request.runCareful rt) := hrun.both_allowed fun _ => rfl
  have hrequest := (hrt start).request_of_mirages request
  cases request with
  | newMirage | createMirage => exact .exhausted _
  | bindMirror mirror mirage =>
    exact hallowed ((Run.tracked_bindMirror mirror mirage).bind fun _ => .pure _)
  | _ => exact hallowed (hrequest fun hmirages => nomatch hmirages)

theorem Program.runUnmirrored_tracks (hrt : rt.Tracking) (program : Program κ σ (Value κ)) :
    Steady (World.Tracked start) (program.runUnmirrored rt) :=
  (program.runBy_below (Request.runUnmirrored_tracks hrt) fun _ => .exhausted _).bind fun answer =>
    (Run.Below.pure answer).both_allowed fun _ => rfl

namespace Runtime

theorem Tracking.performDefault (hrt : rt.Tracking) (hplace : rt.ClonesInPlace) (id : ObjectId)
    (message : Message κ) : Steady (World.Tracked start) (rt.performDefault id message) := by
  have hclone : Steady (World.Tracked start) (rt.defaultCloneBy rt.cloneMirage id) := by
    rintro v _ ⟨rfl, hv, hstart⟩
    exact ((hrt.defaultClone hplace hv id).tracked_earlier hstart).agrees
  have hperform := (hrt start).performDefaultBy_of_clone hclone message (fun _ => World.Tracked.editable id)
    fun selector _ => Run.tracked_removeSlot id selector
  rwa [performDefaultBy_cloneMirage] at hperform

/-- A singleton clones itself, and so does what is no heap node. -/
private theorem clonesInPlace_succ (host : Host κ σ) (steps : Nat) :
    (unmirrored host (steps + 1)).ClonesInPlace := by
  intro v w parent answer hv hsingleton hanswer
  cases parent with
  | object id =>
    change (Run.node id >>= _) v = _ at hanswer
    rw [Run.node_bind] at hanswer
    cases hnode : v.heap.node? id with
    | none =>
      rw [Heap.get_eq_error_iff.mpr ⟨hnode, rfl⟩] at hanswer
      cases hanswer
    | some node =>
      rw [Heap.get_eq_ok_iff.mpr hnode] at hanswer
      cases node with
      | mirage m => exact absurd hnode hv.unmirrored
      | frame frame => cases hanswer
      | object body =>
        have hself : ((unmirrored host steps).defaultClone id) v = .ok id v := by
          unfold defaultClone
          rw [Run.node_bind_of_some hnode]
          simp only [Node.body?, Option.any, hsingleton id body rfl hnode, if_true]
          rfl
        change (Value.object <$> (unmirrored host steps).defaultClone id) v = _ at hanswer
        rw [← bind_pure_comp, Run.bind_of_ok hself] at hanswer
        cases hanswer
        rfl
  | _ =>
    cases hanswer
    rfl

/-- Every call of the machine keeps track, and what is not cloned along is its own clone. -/
theorem unmirrored_tracking (host : Host κ σ) (steps : Nat) :
    (unmirrored host steps).Tracking ∧ (unmirrored host steps).ClonesInPlace := by
  induction steps with
  | zero => exact ⟨fun _ => .idle _, fun _ _ h => nomatch h⟩
  | succ steps ih =>
    obtain ⟨hrt, hplace⟩ := ih
    refine ⟨fun start => ?_, clonesInPlace_succ host steps⟩
    exact
      { fuel := Nat.le_refl _
        send := (hrt start).dispatchBy fun id message => hrt.performDefault hplace id message
        run := (hrt start).runMethodWith (fun id message => hrt.performDefault hplace id message)
          (Program.runUnmirrored_tracks hrt) Run.tracked_bindMirror host }

end Runtime

end Tracking

/-! ## New objects -/

/-- Requests for new objects that are no clones. -/
inductive Request.Founds : Request κ → Prop
  | newObject : Founds .newObject
  | freshMirror : Founds .freshMirror
  | extendWith (parent : Value κ) (link : ParentLink) (code : Value κ) (tags : List TypeTag) :
      Founds (.extendWith parent link code tags)
  | extend (parent code : Value κ) : Founds (.send parent (.extend code))
  | share (parent code : Value κ) : Founds (.send parent (.share code))

section Founds

variable {v : World κ σ}

/-- A value that is told to extend itself does so by default. -/
private theorem Runtime.Tracking.dispatch_extend {rt : Runtime κ σ} (hrt : rt.Tracking)
    (hv : v.Recorded) (parent : Value κ) {message : Message κ} {code : Value κ}
    (hmessage : message = .extend code ∨ message = .share code) :
    Ends (World.Tracked v) (fun answer w => ∃ id, answer = .object id ∧ v.HasOriginal w id)
      (rt.dispatchBy rt.performDefault parent message v) := by
  have hextends (link : ParentLink) := hrt.extendWith hv parent link code []
  cases parent with
  | object id =>
    have hperform : Ends (World.Tracked v)
        (fun answer w => ∃ id, answer = .object id ∧ v.HasOriginal w id)
        (rt.performDefault id message v) := by
      rcases hmessage with rfl | rfl
      · exact hextends .isA
      · exact hextends .sharesA
    rw [Runtime.dispatchBy, Run.node_bind]
    cases hnode : v.heap.node? id with
    | none =>
      rw [Heap.get_eq_error_iff.mpr ⟨hnode, rfl⟩]
      exact .error _ (.refl hv)
    | some node =>
      rw [Heap.get_eq_ok_iff.mpr hnode]
      cases node with
      | object body => exact hperform
      | mirage m => exact absurd hnode hv.unmirrored
      | frame frame =>
        dsimp only
        split
        · exact hperform
        · exact .error _ (.refl hv)
  | _ =>
    rcases hmessage with rfl | rfl
    · exact hextends .isA
    · exact hextends .sharesA

theorem Request.Founds.ends {request : Request κ} (h : request.Founds) (host : Host κ σ)
    (steps : Nat) (hv : v.Recorded) :
    Ends (World.Tracked v) (fun answer w => ∃ id, answer = .object id ∧ v.HasOriginal w id)
      (request.run (Runtime.unmirrored host steps) v) := by
  have hnew (parent : Value κ) (link : ParentLink) (scope : Option ObjectId) :
      Ends (World.Tracked v)
        (fun (answer : Value κ) w => ∃ id, answer = .object id ∧ v.HasOriginal w id)
        ((do
          let body ← Run.newBody parent link scope []
          return .object (← Run.allocate (.object body)) : Run κ σ (Value κ)) v) := by
    rw [Run.newBody_allocate_bind]
    exact .ok (World.Affinity.found parent link scope [] (.refl hv))
      ⟨_, rfl, World.hasOriginal_found hv.free parent link scope []⟩
  have hsend (parent : Value κ) {message : Message κ} {code : Value κ}
      (hmessage : message = .extend code ∨ message = .share code) :
      Ends (World.Tracked v) (fun answer w => ∃ id, answer = .object id ∧ v.HasOriginal w id)
        ((Runtime.unmirrored host steps).send parent message v) := by
    cases steps with
    | zero => exact .exhausted v
    | succ steps =>
      obtain ⟨hrt, -⟩ := Runtime.unmirrored_tracking host steps
      exact hrt.dispatch_extend hv parent hmessage
  cases h with
  | newObject => exact hnew .nil .isA (some v.lexicalRoot)
  | freshMirror => exact hnew (.object v.mirrorRoot) .isA (some v.lexicalRoot)
  | extendWith parent link code tags =>
    obtain ⟨hrt, -⟩ := Runtime.unmirrored_tracking host steps
    exact hrt.extendWith hv parent link code tags
  | extend parent code => exact hsend parent (.inl rfl)
  | share parent code => exact hsend parent (.inr rfl)

end Founds

/-! ## Worlds without mirages -/

/-- The request ends with a number of steps, uses live handles, and makes no mirages. -/
def Request.Abstains (host : Host κ σ) (steps : Nat) (request : Request κ) (world : World κ σ) : Prop :=
  Run.Ended (request.runUnmirrored (Runtime.unmirrored host steps)) world

/-- The worlds that come about by such requests, collections, and the host's own doings. -/
inductive World.Unmirrored (host : Host κ σ) : World κ σ → Prop
  | new (settings : WorldSettings) (memory : σ) : Unmirrored host (World.new settings memory)
  | request {v : World κ σ} (request : Request κ) (steps : Nat) : Unmirrored host v →
      request.Abstains host steps v →
        Unmirrored host (Run.after (request.run (Runtime.ofFuel host steps)) v)
  | collect {v : World κ σ} (roots : List (Value κ)) : Unmirrored host v →
      Unmirrored host (Run.after (Run.collect roots) v)
  | remember {v : World κ σ} (update : σ → σ) : Unmirrored host v →
      Unmirrored host { v with host := update v.host }
  | identity {v : World κ σ} : Unmirrored host v → Unmirrored host { v with supply := v.supply + 1 }

namespace Request.Abstains

variable {host : Host κ σ} {steps : Nat} {request : Request κ} {v w : World κ σ}

/-- Such a request uses live handles. -/
theorem heeds (h : request.Abstains host steps v) : request.Heeds host steps v :=
  (Request.runUnmirrored_below (Runtime.unmirrored_below_careful host steps) request).ended h

/-- What ends on the machine ends in the same way on the actual one. -/
theorem below (request : Request κ) (host : Host κ σ) (steps : Nat) :
    Run.Below World.Alike (request.runUnmirrored (Runtime.unmirrored host steps))
      (request.run (Runtime.ofFuel host steps)) :=
  (Request.runUnmirrored_below (Runtime.unmirrored_below_careful host steps) request).trans
    (Request.runCareful_below (Runtime.careful_below host steps) request)

/-- Such a request leaves a world with a pedigree, in which nodes are what they were made as. -/
theorem tracked (h : request.Abstains host steps v) (hv : v.Recorded) :
    (Run.after (request.run (Runtime.ofFuel host steps)) v).Recorded ∧
      v.Grows (Run.after (request.run (Runtime.ofFuel host steps)) v) := by
  obtain ⟨hrt, -⟩ := Runtime.unmirrored_tracking host steps
  obtain ⟨-, ⟨p, hp⟩, hgrows⟩ :=
    (Request.runUnmirrored_tracks hrt request).after_of_ended (World.Tracked.refl hv) h
  have halike := (below request host steps).after_alike h
  refine ⟨?_, hgrows.trans halike.sameNodes.grows⟩
  rw [halike.eq_with_log]
  exact ⟨p, hp.aside _ _ _⟩

/-- What the run of such a request comes to on the machine, it comes to on the actual one. -/
theorem answered {post : Value κ → World κ σ → Prop} {answer : Value κ}
    (h : request.Abstains host steps v)
    (hends : Ends (World.Tracked v) post (request.run (Runtime.unmirrored host steps) v))
    (hanswer : request.run (Runtime.ofFuel host steps) v = .ok answer w) :
    ∃ u, post answer u ∧ u.Grows w := by
  have hallowed : Ends (World.Tracked v) post
      (request.runCareful (Runtime.unmirrored host steps) v) := by
    unfold Request.runCareful Run.allowed
    split
    · exact hends
    · exact .exhausted v
  have hunmirrored : Ends (World.Tracked v) post
      (request.runUnmirrored (Runtime.unmirrored host steps) v) := by
    cases request with
    | newMirage | createMirage => exact .exhausted v
    | _ => exact hallowed
  obtain ⟨u, hu, halike⟩ := (below request host steps).exists_ok h hanswer
  rw [hu] at hunmirrored
  cases hunmirrored with
  | ok _ hpost => exact ⟨u, hpost, halike.sameNodes.grows⟩

/-- The clone that a request gets is of the family of its source. -/
theorem sameFamily_of_clone {source : ObjectId} {message : Message κ} {answer : Value κ}
    (h : (Request.send (.object source) message).Abstains host steps v) (hv : v.Recorded)
    (hsource : v.heap.IsObject source)
    (hmessage : message = .clone ∨ ∃ arguments, message = .newInstance arguments)
    (hanswer : (Request.send (.object source) message).run (Runtime.ofFuel host steps) v =
      .ok answer w) :
    ∃ copy, answer = .object copy ∧ w.heap.SameFamily copy source := by
  have hends : Ends (World.Tracked v)
      (fun answer u => ∃ copy, answer = .object copy ∧ u.heap.SameFamily copy source)
      ((Request.send (.object source) message).run (Runtime.unmirrored host steps) v) := by
    cases steps with
    | zero => exact .exhausted v
    | succ steps =>
      obtain ⟨body, hbody⟩ := hsource
      obtain ⟨hrt, hplace⟩ := Runtime.unmirrored_tracking host steps
      show Ends _ _ ((Runtime.unmirrored host steps).dispatchBy _ (.object source) message v)
      rw [Runtime.dispatchBy_plain _ _ hbody]
      exact hrt.performDefault_clone hplace hv source hmessage
  obtain ⟨u, ⟨copy, rfl, hfamily⟩, hgrows⟩ := h.answered hends hanswer
  exact ⟨copy, rfl, hgrows.sameFamily hfamily⟩

/-- The new object that a request gets is of a new family. -/
theorem hasOriginal_of_founds {answer : Value κ} (h : request.Abstains host steps v)
    (hv : v.Recorded) (hfounds : request.Founds)
    (hanswer : request.run (Runtime.ofFuel host steps) v = .ok answer w) :
    ∃ id, answer = .object id ∧ v.HasOriginal w id := by
  obtain ⟨u, ⟨id, rfl, horiginal⟩, hgrows⟩ := h.answered (hfounds.ends host steps hv) hanswer
  exact ⟨id, rfl, horiginal.grows hgrows⟩

end Request.Abstains

namespace World.Unmirrored

variable {host : Host κ σ} {w : World κ σ}

theorem arises (h : World.Unmirrored host w) : World.Arises host w := by
  induction h with
  | new settings memory => exact .new settings memory
  | request request steps _ habstains ih => exact ih.request request steps habstains.heeds
  | collect roots _ ih => exact ih.collect roots
  | remember update _ ih => exact ih.remember update
  | identity _ ih => exact ih.identity

theorem recorded (h : World.Unmirrored host w) : w.Recorded := by
  induction h with
  | new settings memory => exact ⟨_, .new settings memory⟩
  | request request steps _ habstains ih => exact (habstains.tracked ih).1
  | collect roots _ ih =>
    refine Run.after_collect ih fun collected w hcollect => ?_
    obtain ⟨p, hp⟩ := ih
    exact ⟨p, hp.collect hcollect⟩
  | @remember v update _ ih =>
    obtain ⟨p, hp⟩ := ih
    exact ⟨p, hp.aside v.supply v.log (update v.host)⟩
  | @identity v _ ih =>
    obtain ⟨p, hp⟩ := ih
    exact ⟨p, hp.aside (v.supply + 1) v.log v.host⟩

/--
In an unmirrored world every object descends from an original.  Objects are clones of one
another when they descend from the same one; what they descend from is not changed by a request,
nor by a collection, be it of the original itself; a clone descends from what its source does;
and what is made or extended descends from nothing that anybody before descended from.

Objects of one family have the same link, tags and flags, and parents that are the same or
of one family.  So an object is related to itself and to whatever its relatives are related
to, and a clone finds out what it is related to exactly as its source does.
-/
theorem families (h : World.Unmirrored host w) :
    (∃ p, w.Descends p) ∧
    (∀ p, w.Descends p →
      (∀ a b, w.heap.IsObject a → w.heap.IsObject b → ∀ steps,
        (Runtime.ofFuel host (steps + 1)).send (.object a) (.isCloneOf (.object b)) w =
          .ok (.bool (decide (p.origin a = p.origin b))) w) ∧
      (∀ (request : Request κ) steps, request.Abstains host steps w →
        ∃ q, (Run.after (request.run (Runtime.ofFuel host steps)) w).Descends q ∧
          ∀ id, w.heap.IsObject id → q.origin id = p.origin id) ∧
      ∀ extra collected u, Run.collect extra w = .ok collected u → u.Descends p) ∧
    (∀ source message steps answer u, w.heap.IsObject source →
      (message = .clone ∨ ∃ arguments, message = .newInstance arguments) →
      (Request.send (.object source) message).Abstains host steps w →
      (Request.send (.object source) message).run (Runtime.ofFuel host steps) w = .ok answer u →
        ∃ copy, answer = .object copy ∧ u.heap.IsObject copy ∧
          ∀ q, u.Descends q → q.origin copy = q.origin source) ∧
    (∀ (request : Request κ) steps answer u, request.Founds → request.Abstains host steps w →
      request.run (Runtime.ofFuel host steps) w = .ok answer u →
        ∃ id, answer = .object id ∧ u.heap.IsObject id ∧
          ∀ q, u.Descends q → ∀ b, w.heap.IsObject b → q.origin b ≠ q.origin id) ∧
    w.heap.Familial ∧
    (∀ a, w.heap.IsObject a → ∀ steps,
      (Runtime.ofFuel host (steps + 1)).send (.object a) (.isRelatedTo (.object a)) w =
        .ok (.bool true) w) ∧
    (∀ a b c, w.heap.IsObject a → w.heap.IsObject b → w.heap.IsObject c → ∀ first second u u',
      (Runtime.ofFuel host first).send (.object a) (.isRelatedTo (.object b)) w = .ok (.bool true) u →
      (Runtime.ofFuel host second).send (.object b) (.isRelatedTo (.object c)) w = .ok (.bool true) u' →
      ∀ steps, (Runtime.ofFuel host (steps + 1)).send (.object a) (.isRelatedTo (.object c)) w =
        .ok (.bool true) w) ∧
    ∀ copy source, w.heap.SameFamily copy source → ∀ value steps,
      (Runtime.ofFuel host steps).send (.object copy) (.isRelatedTo value) w =
        (Runtime.ofFuel host steps).send (.object source) (.isRelatedTo value) w := by
  have hacyclic := h.arises.sane.dynamic
  have hrecorded := h.recorded
  obtain ⟨p₀, hp₀⟩ := h.recorded
  have hdocumented := hp₀.documented
  refine ⟨hrecorded, fun p hp => ⟨?_, ?_, ?_⟩, ?_, ?_, hdocumented.familial, ?_, ?_, ?_⟩
  · rintro a b ⟨body, ha⟩ ⟨other, hb⟩ steps
    have hclone : (body.family == other.family) = decide (p.origin a = p.origin b) := by
      rw [Bool.eq_iff_iff, beq_iff_eq, decide_eq_true_iff]
      exact hp.documented.family_eq_iff ha hb
    rw [send_isCloneOf ha hb, hclone]
  · intro request steps habstains
    obtain ⟨⟨q, hq⟩, hgrows⟩ := habstains.tracked hrecorded
    exact ⟨q, hq, fun id hid => hp.origin_eq hq hgrows hid⟩
  · exact fun extra collected u hcollect => hp.collect hcollect
  · intro source message steps answer u hsource hmessage habstains hanswer
    obtain ⟨copy, rfl, hfamily⟩ :=
      habstains.sameFamily_of_clone hrecorded hsource hmessage hanswer
    refine ⟨copy, rfl, hfamily.isObject, fun q hq => ?_⟩
    exact (hq.documented.sameFamily_iff hfamily.isObject hfamily.symm.isObject).mp hfamily
  · intro request steps answer u hfounds habstains hanswer
    obtain ⟨id, rfl, horiginal⟩ := habstains.hasOriginal_of_founds hrecorded hfounds hanswer
    obtain ⟨-, hgrows⟩ := habstains.tracked hrecorded
    rw [Run.after, hanswer] at hgrows
    exact ⟨id, rfl, horiginal.isObject, fun q hq b hb => horiginal.origin_ne hp₀ hq hgrows hb⟩
  · rintro a ⟨body, ha⟩ steps
    exact send_isRelatedTo_of_related hacyclic ha ha (.refl ha) host steps
  · rintro a b c ⟨body, ha⟩ ⟨middle, hb⟩ ⟨other, hc⟩ first second u u' hfirst hsecond steps
    have hab := related_of_send hdocumented.unmirrored ha hb hfirst
    have hbc := related_of_send hdocumented.unmirrored hb hc hsecond
    exact send_isRelatedTo_of_related hacyclic ha hc (hab.trans hdocumented.familial hbc) host steps
  · intro copy source hfamily value steps
    exact send_isRelatedTo_eq hdocumented.familial hfamily host steps value

/-- A new world with an object. -/
private def withOriginal : World Empty Unit :=
  Run.after (Request.newObject.run (Runtime.ofFuel Host.none 0)) (World.new default ())

/-- It is cloned. -/
private def withClone : World Empty Unit :=
  Run.after ((Request.send (.object ⟨2⟩) .clone).run (Runtime.ofFuel Host.none 2)) withOriginal

/-- It is cloned again. -/
private def withClones : World Empty Unit :=
  Run.after ((Request.send (.object ⟨2⟩) .clone).run (Runtime.ofFuel Host.none 2)) withClone

/-- The clones are left. -/
private def withoutOriginal : World Empty Unit :=
  Run.after (Run.collect [.object ⟨3⟩, .object ⟨4⟩]) withClones

theorem families_without_original :
    World.Unmirrored Host.none withoutOriginal ∧
      withoutOriginal.heap.contains ⟨2⟩ = false ∧
      (∃ p, withoutOriginal.Descends p ∧ p.origin ⟨3⟩ = p.origin ⟨4⟩) ∧
      (Runtime.ofFuel Host.none 1).send (.object ⟨3⟩) (.isRelatedTo (.object ⟨3⟩)) withoutOriginal =
        .ok (.bool true) withoutOriginal := by
  have horiginal : World.Unmirrored Host.none withOriginal :=
    (new default ()).request .newObject 0 fun after hexhausted => by cases hexhausted
  have hclone : World.Unmirrored Host.none withClone :=
    horiginal.request (.send (.object ⟨2⟩) .clone) 2 fun after hexhausted => by cases hexhausted
  have hclones : World.Unmirrored Host.none withClones :=
    hclone.request (.send (.object ⟨2⟩) .clone) 2 fun after hexhausted => by cases hexhausted
  have hleft : World.Unmirrored Host.none withoutOriginal := hclones.collect _
  obtain ⟨⟨p, hp⟩, hpedigree, -, -, -, hreflexive, -⟩ := families hleft
  obtain ⟨hcloned, -⟩ := hpedigree p hp
  have hanswer := hcloned ⟨3⟩ ⟨4⟩ ⟨_, rfl⟩ ⟨_, rfl⟩ 0
  refine ⟨hleft, rfl, ⟨p, hp, ?_⟩, hreflexive ⟨3⟩ ⟨_, rfl⟩ 0⟩
  by_contra hdiffers
  rw [decide_eq_false hdiffers] at hanswer
  cases hanswer

end World.Unmirrored

end Prototypes
