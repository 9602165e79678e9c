import Prototypes.Proofs.Binding.Reached
import Prototypes.Proofs.Cloning.Independence
import Prototypes.Proofs.Mirrors.Frames

/-!
# Mirages from creation on

A mirage is made without a mirror.  Creating one leaves the binding to an instance of the
mirror it is given, a prototype: the instance is a clone, and is asked to initialise
itself with the mirage.  Whether it binds itself then is up to the `init` it finds.

A *prototype* here is a mirror whose instances find the `init` of the mirror root.  A
mirage created with one has a mirror before the code that builds it begins, and keeps it.
A mirage created with an object that has no `init` is left without a mirror.

## Main results

* `Runtime.createMirage_eq` — creation in its three parts.
* `Runtime.bound_of_newInstance`, `Runtime.bound_of_freshMirror` — an instance of a prototype
  binds itself, and is new.
* `World.Reached.createMirage_bound` — a mirage created with a prototype has a mirror of its
  own, which holds it.
* `World.createMirage_unbound` — any other object may leave it without one.
-/

namespace Prototypes

variable {κ σ : Type}

/-! ## Prototypes of mirrors -/

/--
The mirror root, or a plain object whose instances have the mirror root's way to bind
themselves: it is no singleton, it and its parents are plain objects without custom fields,
and `init` found from it is the method that binds mirrors.
-/
inductive World.Prototype (world : World κ σ) (mirror : ObjectId) : Prop
  | root (hroot : mirror = world.mirrorRoot)
  | plain {body : PrototypeObject κ} {ids : List ObjectId} {holder : ObjectId} {identity : Identity}
      (node : world.heap.node? mirror = some (.object body))
      (cloned : body.flags.singleton = false)
      (chain : world.heap.Chain (.object mirror) ids)
      (bare : ∀ id ∈ ids, world.heap.Bare id)
      (init : world.heap.searchDynamic mirror Selector.init =
        .ok (.found holder (.method (World.bindMethod identity))))

/-- The world with a new mirage that has no mirror. -/
def World.withMirage (world : World κ σ) (scope : ObjectId) (tags : List TypeTag) : World κ σ :=
  { world with
    heap := (world.heap.newFamily.2.allocate
      (.mirage ⟨world.newBody .nil .isA (some scope) tags, none⟩)).2
    supply := world.supply + 1 }

namespace World

variable {world : World κ σ} {mirror : ObjectId}

private theorem free_newFamily (h : world.heap.FreeListExact) : world.heap.newFamily.2.FreeListExact :=
  ⟨h.nodup, h.mem_iff⟩

theorem keeps_withMirage (h : world.heap.FreeListExact) (scope : ObjectId) (tags : List TypeTag) :
    world.heap.Keeps (world.withMirage scope tags).heap :=
  .allocate (free_newFamily h) _

theorem Sound.withMirage (h : world.Sound) (scope : ObjectId) (tags : List TypeTag) :
    (world.withMirage scope tags).Sound where
  free := (free_newFamily h.free).allocate _
  defaults := h.defaults

/-- A new mirage does not keep a mirror from being a prototype. -/
theorem Prototype.withMirage (h : world.Prototype mirror) (hfree : world.heap.FreeListExact)
    (scope : ObjectId) (tags : List TypeTag) : (world.withMirage scope tags).Prototype mirror := by
  have hkeeps := keeps_withMirage hfree scope tags
  cases h with
  | root hroot => exact .root hroot
  | plain node cloned chain bare init =>
    refine .plain (hkeeps _ _ node) cloned (chain.of_keeps hkeeps) (fun id hmem => ?_)
      ((chain.searchDynamic_of_keeps hkeeps Selector.init).trans init)
    obtain ⟨body, hbody, hcustom⟩ := bare id hmem
    exact ⟨body, hkeeps _ _ hbody, hcustom⟩

end World

namespace Runtime

variable {rt : Runtime κ σ} {host : Host κ σ} {v w : World κ σ} {mirror mirage : ObjectId}

/-! ## The parts of a creation -/

/-- Binds a mirage to a bare mirror, or leaves it to an instance of `mirror` to bind itself. -/
def bindInstance (rt : Runtime κ σ) (root mirror mirage : ObjectId) : Run κ σ Unit :=
  if mirror = root then Run.freshMirror >>= fun made => Run.bindMirror made (.object mirage)
  else discard <| rt.send (.object mirror) (.newInstance [.object mirage])

/-- A mirage is made, then bound, then built. -/
theorem createMirage_eq (rt : Runtime κ σ) (identity : Identity) (code : Closure κ) (mirror : ObjectId)
    (tags : List TypeTag) (v : World κ σ) :
    rt.createMirage (.closure identity code) (.object mirror) tags v =
      (do
        rt.bindInstance v.mirrorRoot mirror v.heap.nextId
        discard <| rt.applyInScope code [] ⟨v.heap.nextId, .object v.heap.nextId, .nil⟩
        return (.object v.heap.nextId : Value κ)) (v.withMirage code.context.scope tags) := by
  have hmade : Run.newMirage .nil .isA (some code.context.scope) tags v =
      .ok v.heap.nextId (v.withMirage code.context.scope tags) :=
    Run.allocate_bind _ pure { v with heap := v.heap.newFamily.2, supply := v.supply + 1 }
  unfold createMirage bindInstance
  simp only [Value.expectClosure, Value.expectObject]
  rw [Run.check_ok_bind, Run.check_ok_bind, Run.bind_of_ok hmade]
  by_cases hroot : mirror = v.mirrorRoot
  · simp only [if_pos hroot, bind_assoc]
    show (if mirror = v.mirrorRoot then _ else _ : Run κ σ (Value κ)) _ = _
    rw [if_pos hroot]
  · simp only [if_neg hroot]
    show (if mirror = v.mirrorRoot then _ else _ : Run κ σ (Value κ)) _ = _
    rw [if_neg hroot]

/-! ## Instances bind themselves -/

/-- A bare mirror that is made and bound is new. -/
theorem bound_of_freshMirror (hfree : v.heap.FreeListExact)
    (h : (Run.freshMirror >>= fun made => Run.bindMirror made (.object mirage)) v = .ok () w) :
    ∃ made, v.heap.contains made = false ∧ w.HasMirror mirage made := by
  obtain ⟨made, u, hmade, hbound⟩ := Run.eq_ok_of_bind h
  have hfresh : Run.freshMirror v =
      .ok (.object v.heap.nextId) (v.found (.object v.mirrorRoot) .isA (some v.lexicalRoot) []) :=
    Run.newBody_allocate_bind _ _ _ _ (fun id => (pure (Value.object id) : Run κ σ (Value κ))) v
  cases hfresh.symm.trans hmade
  exact ⟨_, hfree.not_contains_nextId, Run.hasMirror_of_bindMirror hbound⟩

/-- The method that binds mirrors binds its receiver to its argument. -/
theorem runMethod_bindMethod (rt : Runtime κ σ) (host : Host κ σ) (identity : Identity)
    (context : Context κ) (argument : Value κ) :
    rt.runMethod host (World.bindMethod identity) context [argument] =
      (do Run.bindMirror context.receiver argument; return .nil) := rfl

/-- An object that finds the binding `init` has the mirage it was initialised with. -/
theorem bound_of_init {n : Nat} {made holder : ObjectId} {body : PrototypeObject κ}
    {identity : Identity} {answer : Value κ} (hsound : v.Sound)
    (hnode : v.heap.node? made = some (.object body))
    (hinit : v.heap.searchDynamic made Selector.init =
      .ok (.found holder (.method (World.bindMethod identity))))
    (h : (ofFuel host n).invoke (.object made) Selector.init [.object mirage] v = .ok answer w) :
    w.HasMirror mirage made := by
  obtain ⟨holderNode, hholder⟩ : ∃ node, v.heap.node? holder = some node := by
    obtain ⟨node, hnode, -⟩ := Option.bind_eq_some_iff.mp (Heap.slot?_of_searchDynamic hinit)
    exact ⟨node, hnode⟩
  match n with
  | 0 => cases h
  | 1 =>
    rw [invoke, send_plain host 0 hnode] at h
    cases h
  | n + 2 =>
    rw [invoke, send_method host n hsound _ hnode hinit hholder ⟨rfl, rfl⟩,
      runMethod_bindMethod] at h
    obtain ⟨_, u, hbound, hrest⟩ := Run.eq_ok_of_bind h
    cases hrest
    exact Run.hasMirror_of_bindMirror hbound

/-- A prototype's clone is new, and finds the binding `init` as the prototype does. -/
theorem clone_of_prototype {n : Nat} {copy : ObjectId} {body : PrototypeObject κ}
    {ids : List ObjectId} {holder : ObjectId} {identity : Identity} (hsound : v.Sound)
    (hnode : v.heap.node? mirror = some (.object body)) (hcloned : body.flags.singleton = false)
    (hchain : v.heap.Chain (.object mirror) ids) (hbare : ∀ id ∈ ids, v.heap.Bare id)
    (hinit : v.heap.searchDynamic mirror Selector.init =
      .ok (.found holder (.method (World.bindMethod identity))))
    (h : (ofFuel host (n + 1)).defaultClone mirror v = .ok copy w) :
    w.Sound ∧ v.heap.contains copy = false ∧
      (∃ body, w.heap.node? copy = some (.object body)) ∧
      ∃ holder, w.heap.searchDynamic copy Selector.init =
        .ok (.found holder (.method (World.bindMethod identity))) := by
  obtain ⟨stretch, matching, after, hstretch, hfront, hcopies, hclone⟩ :=
    send_clone_of_bare host hsound.free hnode hcloned hchain hbare
  obtain ⟨rfl, rfl⟩ : matching mirror = copy ∧ after = w := by
    have hsent := hclone n
    rw [send_plain host (n + 1) hnode] at hsent
    have hmade : (ofFuel host (n + 1)).performDefault mirror .clone v = .ok (.object copy) w := by
      show EStateM.map Value.object _ v = _
      rw [EStateM.map, h]
    cases hsent.symm.trans hmade
    exact ⟨rfl, rfl⟩
  have hcorresponds := hcopies.corresponds hchain hbare hfront
  obtain ⟨_, body', _, hcopy, -⟩ := hcorresponds mirror hchain.mem_self
  obtain ⟨resolution, hbefore, hafter⟩ := hchain.searchDynamic_of_corresponds hcorresponds Selector.init
  cases hinit.symm.trans hbefore
  have hmem : mirror ∈ stretch := by cases hstretch <;> exact List.mem_cons_self ..
  exact ⟨sound_of_send hsound (hclone 0), hcopies.new mirror hmem, ⟨body', hcopy⟩, _, hafter⟩

/-- A new instance of a prototype binds itself to the mirage it is initialised with. -/
theorem bound_of_newInstance {n : Nat} {answer : Value κ} (hsound : v.Sound)
    (hprototype : v.Prototype mirror) (hroot : mirror ≠ v.mirrorRoot)
    (h : (ofFuel host n).send (.object mirror) (.newInstance [.object mirage]) v = .ok answer w) :
    ∃ made, v.heap.contains made = false ∧ w.HasMirror mirage made := by
  cases hprototype with
  | root hisRoot => exact absurd hisRoot hroot
  | plain node cloned chain bare init =>
    match n with
    | 0 => cases h
    | n + 1 =>
      rw [send_plain host n node] at h
      obtain ⟨copy, u, hcopy, hrest⟩ := Run.eq_ok_of_bind
        (h : (ofFuel host n).defaultNewInstance mirror [.object mirage] v = .ok answer w)
      obtain ⟨_, u', hinit, hanswer⟩ := Run.eq_ok_of_bind hrest
      cases hanswer
      obtain ⟨_, hinit⟩ := Run.eq_ok_of_discard hinit
      cases n with
      | zero => cases hinit
      | succ n =>
        obtain ⟨hsound', hnew, ⟨body, hbody⟩, holder, hsearch⟩ :=
          clone_of_prototype hsound node cloned chain bare init hcopy
        exact ⟨copy, hnew, bound_of_init hsound' hbody hsearch hinit⟩

/-- Whichever way the mirage is bound, if to a prototype, its mirror is new. -/
theorem bound_of_bindInstance {n : Nat} (hsound : v.Sound) (hprototype : v.Prototype mirror)
    (h : (ofFuel host n).bindInstance v.mirrorRoot mirror mirage v = .ok () w) :
    ∃ made, v.heap.contains made = false ∧ w.HasMirror mirage made := by
  unfold bindInstance at h
  split at h
  · exact bound_of_freshMirror hsound.free h
  · rename_i hroot
    obtain ⟨answer, hsent⟩ := Run.eq_ok_of_discard h
    exact bound_of_newInstance hsound hprototype hroot hsent

/-! ## Mirages stay bound -/

section Bound

variable {rt rt' : Runtime κ σ} {v w : World κ σ}

theorem Below.bindInstance (h : rt.Below World.Alike rt') (root mirror mirage : ObjectId) :
    Run.Below World.Alike (rt.bindInstance root mirror mirage) (rt'.bindInstance root mirror mirage) := by
  unfold Runtime.bindInstance
  split
  · exact Steady.freshMirror.bind fun made => Steady.bindMirror made (.object mirage)
  · exact (h.send _ _).ignore

theorem Bonding.bindInstance (hrt : rt.Bonding) (root mirror mirage : ObjectId) (start : World κ σ) :
    Run.Steady (World.Bonds start) (rt.bindInstance root mirror mirage) := by
  unfold Runtime.bindInstance
  split
  · exact Run.steady_bindFresh (.object mirage) start
  · exact ((hrt start).send _ _).ignore

end Bound

end Runtime

namespace World

variable {v w : World κ σ} {mirror mirage : ObjectId}

theorem Bonded.withMirage (hv : v.Bonded) (scope : ObjectId) (tags : List TypeTag) :
    (v.withMirage scope tags).Bonded :=
  have hfamily : v.Bonds _ _ := Kinship.newFamily (Bonds.refl hv)
  have hmade : v.Bonds _ _ := Kinship.allocate
    (show (Node.mirage ⟨v.newBody .nil .isA (some scope) tags, none⟩).mirror? = none from rfl) hfamily
  (Affinity.setSupply (v.supply + 1) hmade).2.1

theorem HasMirror.of_alike (h : v.HasMirror mirage mirror) (hvw : v.Alike w) :
    w.HasMirror mirage mirror := by
  rw [hvw.eq_with_log]
  exact h

theorem Ties.of_alike (h : v.Ties mirror mirage) (hvw : v.Alike w) : w.Ties mirror mirage := by
  rw [hvw.eq_with_log]
  exact h

theorem Prototype.contains (h : v.Prototype mirror) (hv : v.Bonded) : v.heap.contains mirror = true := by
  cases h with
  | root hroot => exact hroot ▸ hv.root
  | plain node => exact Heap.contains_of_node? node

/--
In a reached world, a mirage created with a prototype is handed out bound, if all that runs
keeps to the rules: it is new, it has a mirror that is new and so is not the prototype, and
the mirror's own, read-only `base` is the mirage.
-/
theorem Reached.createMirage_bound {host : Host κ σ} (h : World.Reached host v)
    (hprototype : v.Prototype mirror) {steps : Nat} {code answer : Value κ} {tags : List TypeTag}
    (hended : Run.Ended ((Runtime.abiding host steps).createMirage code (.object mirror) tags) v)
    (hcreated : (Runtime.ofFuel host steps).createMirage code (.object mirror) tags v = .ok answer w) :
    ∃ mirage made, answer = .object mirage ∧ v.heap.contains mirage = false ∧
      v.heap.contains made = false ∧ made ≠ mirror ∧ w.HasMirror mirage made ∧ w.Ties made mirage := by
  have hbonded := h.bonded
  have hbelow := Runtime.abiding_below host steps
  obtain ⟨hrt, -⟩ := Runtime.abiding_bonding host steps
  cases code with
  | closure identity closure =>
    obtain ⟨u, hcareful, halike⟩ := (hbelow.createMirage
      (fun mirage => Runtime.Steady.freshMirror.bind fun made => Runtime.Steady.bindMirror made mirage)
      (.closure identity closure) (.object mirror) tags).exists_ok hended hcreated
    rw [Runtime.createMirage_eq] at hcareful
    obtain ⟨_, bound, hinstance, hrest⟩ := Run.eq_ok_of_bind hcareful
    obtain ⟨_, built, hbuilt, hanswer⟩ := Run.eq_ok_of_bind hrest
    obtain ⟨_, hbuilt⟩ := Run.eq_ok_of_discard hbuilt
    cases hanswer
    -- the actual machine binds the mirage as well, and leaves a like world
    have hagrees := hbelow.bindInstance v.mirrorRoot mirror v.heap.nextId
      (v.withMirage closure.context.scope tags) _ (.refl _)
    rw [hinstance] at hagrees
    generalize hactual : (Runtime.ofFuel host steps).bindInstance _ _ _ _ = actual at hagrees
    cases hagrees with
    | @ok _ _ bound' hbound =>
      obtain ⟨made, hnew, hmirror⟩ := Runtime.bound_of_bindInstance (h.sound.withMirage _ _)
        (hprototype.withMirage hbonded.free _ _) hactual
      have hboundBonded := (Run.kept (hrt.bindInstance _ _ _) (hbonded.withMirage _ _) hinstance).1
      obtain ⟨hbuiltBonded, hevolves⟩ :=
        Run.kept (fun start => (hrt start).applyInScope closure [] _) hboundBonded hbuilt
      have hkept := hevolves.hasMirror (hmirror.of_alike hbound.symm)
      have hmade := (keeps_withMirage hbonded.free _ _).not_contains hnew
      refine ⟨v.heap.nextId, made, rfl, hbonded.free.not_contains_nextId, hmade, ?_,
        hkept.of_alike halike, (hbuiltBonded.tied _ _ hkept).of_alike halike⟩
      rintro rfl
      rw [hprototype.contains hbonded] at hmade
      cases hmade
  | _ => cases hcreated

/-- A new world with a bare child of the mirror root. -/
private def withPrototype : World Empty Unit :=
  Run.after (Request.freshMirror.run Runtime.idle) (World.new default ())

/-- Code that does nothing. -/
private def noCode : Value Empty :=
  .closure ⟨100⟩ ⟨⟨⟨101⟩, ⟨"code"⟩, [], .fragment .selfReference⟩, ⟨⟨0⟩, .object ⟨0⟩, .nil⟩⟩

private theorem prototype_withPrototype : withPrototype.Prototype ⟨2⟩ := by
  refine .plain rfl rfl (.cons rfl rfl (.cons rfl rfl .nil) : Heap.Chain _ _ [⟨2⟩, ⟨1⟩]) ?_ rfl
  intro id hmem
  rcases List.mem_cons.mp hmem with rfl | hmem
  · exact ⟨_, rfl, rfl⟩
  · obtain rfl := List.mem_singleton.mp hmem
    exact ⟨_, rfl, rfl⟩

/-- Whether a run answered a mirage, and whether it has a mirror. -/
private def handsOut (mirage : ObjectId) (bound : Bool) :
    EStateM.Result Halt (World Empty Unit) (Value Empty) → Bool
  | .ok (.object made) after => made == mirage &&
      (after.heap.node? mirage).any fun node => node.isMirage && node.mirror?.isSome == bound
  | _ => false

private theorem exists_of_handsOut {mirage : ObjectId} {bound : Bool}
    {result : EStateM.Result Halt (World Empty Unit) (Value Empty)}
    (h : handsOut mirage bound result = true) :
    ∃ after body mirror?, result = .ok (.object mirage) after ∧
      after.heap.node? mirage = some (.mirage ⟨body, mirror?⟩) ∧ mirror?.isSome = bound := by
  unfold handsOut at h
  split at h
  · rename_i made after
    rw [Bool.and_eq_true, beq_iff_eq, Option.any_eq_true] at h
    obtain ⟨rfl, node, hnode, hkind⟩ := h
    rw [Bool.and_eq_true, beq_iff_eq] at hkind
    match node with
    | .mirage ⟨body, mirror?⟩ => exact ⟨after, body, mirror?, rfl, hnode, hkind.2⟩
    | .object body => cases hkind.1
    | .frame frame => cases hkind.1
  · cases h

/-- A mirage created with the child of the mirror root gets a clone of it for a mirror. -/
theorem Reached.createMirage_bound_new :
    World.Reached Host.none withPrototype ∧ withPrototype.Prototype ⟨2⟩ ∧
      ∃ after, (Runtime.ofFuel Host.none 3).createMirage noCode (.object ⟨2⟩) [] withPrototype =
          .ok (.object ⟨3⟩) after ∧
        ∃ made, made ≠ ⟨2⟩ ∧ after.HasMirror ⟨3⟩ made ∧ after.Ties made ⟨3⟩ := by
  have hreached : World.Reached Host.none withPrototype := (new default ()).request .freshMirror rfl rfl
  obtain ⟨careful, -, -, hcareful, -⟩ := exists_of_handsOut (show handsOut ⟨3⟩ true
    ((Runtime.abiding Host.none 3).createMirage noCode (.object ⟨2⟩) [] withPrototype) = true by
    decide +kernel)
  obtain ⟨after, -, -, hcreated, -⟩ := exists_of_handsOut (show handsOut ⟨3⟩ true
    ((Runtime.ofFuel Host.none 3).createMirage noCode (.object ⟨2⟩) [] withPrototype) = true by
    decide +kernel)
  obtain ⟨mirage, made, hanswer, -, -, hne, hmirror, hties⟩ :=
    createMirage_bound hreached prototype_withPrototype
      (fun _ hexhausted => by cases hcareful.symm.trans hexhausted) hcreated
  cases hanswer
  exact ⟨hreached, prototype_withPrototype, after, hcreated, made, hne, hmirror, hties⟩

/-! ## Mirages without a mirror -/

/-- A new world with a plain object. -/
private def withObject : World Empty Unit :=
  Run.after (Request.newObject.run Runtime.idle) (World.new default ())

/--
A plain object that is given for a mirror has no `init` but the primitive one, which does
nothing.  The creation succeeds, and the mirage it answers has no mirror.
-/
theorem createMirage_unbound :
    ∃ after, (Runtime.ofFuel Host.none 3).createMirage noCode (.object ⟨2⟩) [] withObject =
        .ok (.object ⟨3⟩) after ∧
      (∀ mirror, ¬ after.HasMirror ⟨3⟩ mirror) ∧
      Run.mirrorOf ⟨3⟩ after = .error (.raised (.illegalOperation (.mirageUnbound ⟨3⟩))) after := by
  obtain ⟨after, body, mirror?, hcreated, hnode, hunbound⟩ :=
    exists_of_handsOut (show handsOut ⟨3⟩ false
      ((Runtime.ofFuel Host.none 3).createMirage noCode (.object ⟨2⟩) [] withObject) = true by
      decide +kernel)
  obtain rfl : mirror? = none := Option.not_isSome_iff_eq_none.mp (by rw [hunbound]; exact nofun)
  refine ⟨after, hcreated, ?_, ?_⟩
  · rintro mirror ⟨node, hfound, hmirror⟩
    cases hnode.symm.trans hfound
    cases hmirror
  · rw [Run.mirrorOf, Run.observe, World.mirrorOf, Heap.get_eq_ok_iff.mpr hnode]
    rfl

end World

end Prototypes
