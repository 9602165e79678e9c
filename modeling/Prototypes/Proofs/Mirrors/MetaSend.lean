import Prototypes.Proofs.Mirrors.Frames

/-!
# The shortcut past a mirror

A mirage whose mirror is plain and inherits an operation from the mirror root
does not send anything: the operation is performed on the mirror's base at once.
The long way round would have been to send the mirror the operation's selector,
find the mirror root's method, bind the arguments in a frame, run the method,
which performs the operation on the base, and check what comes back against
what the operation promises.

Every one of these stages turns out to be neutral but for the frame.

## Main results

* `World.Sound.eq_defaultMethod` — the methods a mirror inherits.
* `Runtime.performOnBase_promised` — default answers pass the check.
* `Runtime.forward_eq_performOnBase` — what the shortcut does.
* `Runtime.meta_send_eq_shortcut` — the long way round does the same in a world
  that has one call frame more.
-/

namespace Prototypes

variable {κ σ α β : Type}

/-! ## The mirror root's methods -/

/-- The default answer of mirrors to an operation, as a method. -/
def MetaOp.defaultMethod (op : MetaOp) (identity : Identity) : Method κ :=
  Method.builtin identity op.selector (op.parameters.map fun name => .required ⟨name⟩)
    (.performDefault op)

/-- The methods a mirror root was made with are recognised. -/
theorem World.isMirrorDefault_of_getElem? {world : World κ σ} {op : MetaOp} {method : Method κ}
    (h : world.mirrorDefaults[op.index]? = some method) : world.isMirrorDefault op method = true := by
  rw [World.isMirrorDefault, h]
  exact beq_self_eq_true method.identity

/-- The methods a mirror root was made with are the default answers. -/
theorem World.Sound.eq_defaultMethod {world : World κ σ} (h : world.Sound) {op : MetaOp}
    {method : Method κ} (hmethod : world.mirrorDefaults[op.index]? = some method) :
    ∃ identity, method = op.defaultMethod identity := by
  obtain ⟨first, hfirst⟩ := h.defaults
  rw [hfirst, World.rootMethods, List.getElem?_map, MetaOp.getElem?_index] at hmethod
  exact ⟨_, (Option.some.inj hmethod).symm⟩

/-- A default method accepts as many arguments as its operation has parameters. -/
theorem MetaOp.accepts_defaultMethod (op : MetaOp) (identity : Identity) {count : Nat}
    (h : count = op.parameters.length) : (op.defaultMethod identity : Method κ).Accepts count where
  checked := by cases op <;> rfl
  arity := by
    subst h
    cases op <;> rfl

/-! ## What operations promise -/

private theorem ok_of_bind {α β ε : Type} {x : Except ε α} {f : α → Except ε β} {b : β}
    (h : x >>= f = .ok b) : ∃ a, f a = .ok b := by
  cases x with
  | ok a => exact ⟨a, h⟩
  | error e => cases h

/-- Reading arguments gives a message of the operation they were read for. -/
theorem Message.op_of_read {op : MetaOp} {arguments : List (Value κ)} {message : Message κ}
    (h : Message.read op arguments = .ok message) : message.op = op := by
  unfold Message.read at h
  split at h
  -- an operation with two arguments to be read, with one, with none, or a wrong number
  all_goals
    first
    | obtain ⟨_, h⟩ := ok_of_bind h
      obtain ⟨_, h⟩ := ok_of_bind h
      cases h
      rfl
    | obtain ⟨_, h⟩ := ok_of_bind h
      cases h
      rfl
    | cases h
      rfl
    | cases h

namespace Runtime

/-- A check that all answers of a run pass is neutral. -/
private theorem check_promised_of_ok {x : Run κ σ (Value κ)} {op : MetaOp}
    (h : ∀ v answer w, x v = .ok answer w → answer.promised op = .ok answer) :
    (x >>= fun answer => Run.check (answer.promised op)) = x := by
  funext world
  simp only [bind, EStateM.bind]
  cases hx : x world with
  | ok answer after =>
    dsimp only
    rw [h world answer after hx]
    rfl
  | error reason after => rfl

private theorem exists_of_map_eq_ok {f : α → β} {x : Run κ σ α} {v w : World κ σ} {b : β}
    (h : (f <$> x) v = .ok b w) : ∃ a, b = f a := by
  rw [← bind_pure_comp] at h
  obtain ⟨a, u, _, ha⟩ := Run.eq_ok_of_bind h
  cases ha
  exact ⟨a, rfl⟩

private theorem exists_table_of_eq_ok {x : Run κ σ (List (Value κ))} {v w : World κ σ}
    {answer : Value κ} (h : (x >>= Run.newTable) v = .ok answer w) :
    ∃ identity items, answer = .table identity items := by
  obtain ⟨items, u, _, h⟩ := Run.eq_ok_of_bind h
  cases h
  exact ⟨_, items, rfl⟩

private theorem exists_text_of_eq_ok {id : ObjectId} {v w : World κ σ} {answer : Value κ}
    (h : defaultPrint id v = .ok answer w) : ∃ text, answer = .text text := by
  obtain ⟨node, u, _, h⟩ := Run.eq_ok_of_bind h
  cases node <;> cases h <;> exact ⟨_, rfl⟩

/-- Answers of nodes by default are what their operation promises. -/
theorem performDefault_promised (rt : Runtime κ σ) (id : ObjectId) (message : Message κ) :
    (rt.performDefault id message >>= fun answer => Run.check (answer.promised message.op)) =
      rt.performDefault id message := by
  cases message with
  | isCloneOf | isRelatedTo | respondsTo | isTaggedAs =>
    apply check_promised_of_ok
    intro v answer w h
    obtain ⟨b, rfl⟩ := exists_of_map_eq_ok h
    rfl
  | listFields | listMethods | listSlots | typeTags =>
    apply check_promised_of_ok
    intro v answer w h
    obtain ⟨identity, items, rfl⟩ := exists_table_of_eq_ok h
    rfl
  | print =>
    apply check_promised_of_ok
    intro v answer w h
    obtain ⟨text, rfl⟩ := exists_text_of_eq_ok h
    rfl
  | _ => exact bind_pure _

/-- So are the answers of mirrors by default. -/
theorem performOnBase_promised (rt : Runtime κ σ) (op : MetaOp) (mirror : Value κ)
    (arguments : List (Value κ)) :
    (rt.performOnBase op mirror arguments >>= fun answer => Run.check (answer.promised op)) =
      rt.performOnBase op mirror arguments := by
  unfold performOnBase performWith
  simp only [bind_assoc]
  refine bind_congr fun base => bind_congr fun _ => ?_
  cases hread : Message.read op arguments with
  | ok message =>
    rw [Run.check_ok_bind, Run.check_ok_bind, ← Message.op_of_read hread]
    exact rt.performDefault_promised base message
  | error e => rfl

end Runtime

/-! ## The two ways -/

/-- The mirror of a mirage is plain and inherits the mirror root's method for an operation. -/
structure World.Inherits (world : World κ σ) (op : MetaOp) (mirage mirror : ObjectId) : Prop where
  bound : ∃ body, world.heap.node? mirage = some (.mirage ⟨body, some mirror⟩)
  plain : ∃ body, world.heap.node? mirror = some (.object body)
  inherits : ∃ method, world.mirrorDefaults[op.index]? = some method ∧
    world.heap.searchDynamic mirror op.selector = .ok (.found world.mirrorRoot (.method method))

theorem World.Inherits.of_alike {v w : World κ σ} {op : MetaOp} {mirage mirror : ObjectId}
    (h : v.Inherits op mirage mirror) (hvw : v.Alike w) : w.Inherits op mirage mirror := by
  rw [hvw.eq_with_log]
  exact ⟨h.bound, h.plain, h.inherits⟩

namespace Runtime

/-- A mirror whose chain has a method for an operation inherits it if that is the mirror root's. -/
theorem inheritsDefault_eq {world : World κ σ} {mirror holder : ObjectId} {op : MetaOp}
    {method : Method κ}
    (hsearch : world.heap.searchDynamic mirror op.selector = .ok (.found holder (.method method))) :
    inheritsDefault mirror op world =
      .ok (decide (holder = world.mirrorRoot) && world.isMirrorDefault op method) world := by
  unfold inheritsDefault
  rw [Run.searchDynamic_bind, hsearch]
  rfl

/-- A mirage with a plain mirror is passed over if the mirror inherits the operation. -/
theorem defaultTarget?_eq {world : World κ σ} {mirage mirror : ObjectId} {op : MetaOp}
    {body plain : PrototypeObject κ} {inherits : Bool}
    (hbound : world.heap.node? mirage = some (.mirage ⟨body, some mirror⟩))
    (hplain : world.heap.node? mirror = some (.object plain))
    (hinherits : inheritsDefault mirror op world = .ok inherits world) (rt : Runtime κ σ) :
    rt.defaultTarget? mirage op world =
      (if inherits then do
          let base ← rt.mirrorBase (.object mirror)
          Run.trace (.performedDefault (Value.object (κ := κ) mirror).display op base)
          return some base
        else return none) world := by
  have hisPlain : (Node.object plain).isPlain = true := rfl
  unfold defaultTarget?
  rw [Run.node_bind_of_some hbound]
  dsimp only
  rw [Run.node_bind_of_some hplain, if_pos hisPlain, Run.bind_of_ok hinherits]
  rfl

/-- What a plain mirror reflects on is read from the field that a search for `base` finds. -/
theorem mirrorBase_bind_of_found {world : World κ σ} {mirror mirage holder : ObjectId}
    {body : PrototypeObject κ} {reflected : Mirage κ} {node : Node κ} {index : Nat} {writable : Bool}
    (hplain : world.heap.node? mirror = some (.object body))
    (hmirage : world.heap.node? mirage = some (.mirage reflected))
    (hsearch : world.heap.searchDynamic mirror Selector.base =
      .ok (.found holder (.field index writable)))
    (hholder : world.heap.node? holder = some node)
    (hread : node.slots.read? index = some (.object mirage)) (rt : Runtime κ σ)
    (next : ObjectId → Run κ σ α) :
    (rt.mirrorBase (.object mirror) >>= next) world = next mirage world := by
  have hisPlain : (Node.object body).isPlain = true := rfl
  have hisMirage : (Node.mirage reflected).isMirage = true := rfl
  have hstored : storedBase? (.object mirror) world = .ok (some (.object mirage)) world := by
    simp only [storedBase?]
    rw [Run.node_bind_of_some hplain, if_pos hisPlain, Run.searchDynamic_bind, hsearch]
    dsimp only
    rw [Run.slots_bind hholder, hread]
    rfl
  unfold mirrorBase
  rw [bind_assoc, Run.bind_of_ok hstored]
  simp only [pure_bind, bind_assoc]
  rw [Run.node_bind_of_some hmirage]
  simp only [if_pos hisMirage, pure_bind]

/-- A mirror that inherits an operation is found to do so, and its base is looked up. -/
theorem defaultTarget?_bind {world : World κ σ} {op : MetaOp} {mirage mirror : ObjectId}
    (h : world.Inherits op mirage mirror) (rt : Runtime κ σ) (next : Option ObjectId → Run κ σ α) :
    (rt.defaultTarget? mirage op >>= next) world =
      (do let base ← rt.mirrorBase (.object mirror)
          Run.trace (.performedDefault (Value.object (κ := κ) mirror).display op base)
          next (some base)) world := by
  obtain ⟨body, hbound⟩ := h.bound
  obtain ⟨plain, hplain⟩ := h.plain
  obtain ⟨method, hmethod, hsearch⟩ := h.inherits
  have hinherits := inheritsDefault_eq hsearch
  rw [World.isMirrorDefault_of_getElem? hmethod, decide_eq_true rfl, Bool.and_true] at hinherits
  rw [Run.bind_eq_of_eq (defaultTarget?_eq hbound hplain hinherits rt), if_pos rfl]
  simp only [bind_assoc, pure_bind]

/-- The shortcut performs the operation on the mirror's base, having reported that it forwards. -/
theorem forward_eq_performOnBase {world : World κ σ} {mirage mirror : ObjectId} {message : Message κ}
    (h : world.Inherits message.op mirage mirror) (rt : Runtime κ σ) (table : Identity) :
    rt.forward mirage message world =
      rt.performOnBase message.op (.object mirror) (message.arguments table)
        (world.traced (.forwarding message.op mirage)) := by
  obtain ⟨body, hbound⟩ := h.bound
  have halike := World.Alike.traced world (.forwarding message.op mirage)
  unfold forward
  rw [Run.mirrorOf_bind (Heap.get_eq_ok_iff.mpr hbound), Run.trace_bind,
    defaultTarget?_bind (h.of_alike halike)]
  unfold performOnBase performWith
  rw [Message.read_arguments]
  rfl

/--
The shortcut of a mirage past a mirror that inherits an operation, and the
operation's message really sent to the mirror, its answer being checked: with
two steps more, and in the world as it is, the message does exactly what the
shortcut does in the world that has one more call frame, in which the
operation's parameters are bound to the arguments under the mirror root.
-/
theorem meta_send_eq_shortcut (host : Host κ σ) (steps : Nat) {world : World κ σ}
    (hsound : world.Sound) {op : MetaOp} {mirage mirror : ObjectId}
    (h : world.Inherits op mirage mirror) {arguments : List (Value κ)}
    (hcount : arguments.length = op.parameters.length) :
    (∀ message table, message.op = op → message.arguments table = arguments →
      (ofFuel host steps).forward mirage message world =
        (ofFuel host steps).performOnBase op (.object mirror) arguments
          (world.traced (.forwarding op mirage))) ∧
    ((ofFuel host (steps + 2)).invoke (.object mirror) op.selector arguments >>= fun answer =>
        Run.check (answer.promised op)) world =
      (ofFuel host steps).performOnBase op (.object mirror) arguments
        (world.enter world.mirrorRoot ((op.parameters.map Symbol.mk).zip arguments)) := by
  constructor
  · rintro message table rfl rfl
    exact forward_eq_performOnBase h _ table
  · obtain ⟨plain, hplain⟩ := h.plain
    obtain ⟨method, hmethod, hsearch⟩ := h.inherits
    obtain ⟨identity, rfl⟩ := hsound.eq_defaultMethod hmethod
    obtain ⟨root, hroot, _⟩ := Option.bind_eq_some_iff.mp (Heap.slot?_of_searchDynamic hsearch)
    have hsend := send_method host steps hsound (.object mirror) hplain hsearch hroot
      (op.accepts_defaultMethod identity hcount)
    have hbindings : Method.pair ⟨world.supply⟩ (op.defaultMethod identity : Method κ).parameters
        arguments = (op.parameters.map Symbol.mk).zip arguments := by
      rw [← Method.pair_required ⟨world.supply⟩, List.map_map]
      rfl
    have hrun : (ofFuel host steps).runMethod host (op.defaultMethod identity)
        ⟨world.heap.nextId, .object mirror, root.dynamicParent⟩ arguments =
          (ofFuel host steps).performOnBase op (.object mirror) arguments := rfl
    rw [hrun, hbindings] at hsend
    rw [← performOnBase_promised]
    exact Run.bind_eq_of_eq hsend _

/-- A mirage at index 2 and its mirror, a child of the mirror root, at index 3. -/
private def reflected : World Empty Unit :=
  let world : World Empty Unit := World.new default ()
  let mirage : PrototypeObject Empty :=
    { slots := Storage.empty ⟨100⟩
      dynamicParent := .nil
      lexicalParent := none
      link := .isA
      typeTags := []
      family := ⟨3⟩
      flags := .none }
  let mirror : PrototypeObject Empty :=
    { mirage with
      slots :=
        { Storage.empty ⟨101⟩ with
          fields := [{ name := Selector.base, writable := false, value := .object ⟨2⟩ }] }
      dynamicParent := .object world.mirrorRoot }
  { world with
    heap := ((world.heap.allocate (.mirage ⟨mirage, some ⟨3⟩⟩)).2.allocate (.object mirror)).2 }

private theorem sound_reflected : reflected.Sound where
  free := ((World.sound_new default ()).free.allocate _).allocate _
  defaults := ⟨3, rfl⟩

private theorem inherits_reflected : reflected.Inherits .respondsTo ⟨2⟩ ⟨3⟩ where
  bound := ⟨_, rfl⟩
  plain := ⟨_, rfl⟩
  inherits := ⟨_, rfl, rfl⟩

/-- Asking a mirage whether it understands a message it does not understand. -/
theorem meta_send_eq_shortcut_respondsTo :
    reflected.Sound ∧ reflected.Inherits .respondsTo ⟨2⟩ ⟨3⟩ ∧
      ((ofFuel .none 5).invoke (.object ⟨3⟩) MetaOp.respondsTo.selector [.symbol ⟨"x"⟩] >>=
          fun answer => Run.check (answer.promised .respondsTo)) reflected =
        (ofFuel .none 3).performOnBase .respondsTo (.object ⟨3⟩) [.symbol ⟨"x"⟩]
          (reflected.enter reflected.mirrorRoot [(⟨"selector"⟩, .symbol ⟨"x"⟩)]) :=
  ⟨sound_reflected, inherits_reflected,
    (meta_send_eq_shortcut .none 3 sound_reflected inherits_reflected rfl).2⟩

end Runtime

end Prototypes
