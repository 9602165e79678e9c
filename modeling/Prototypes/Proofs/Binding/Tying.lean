import Prototypes.Proofs.Binding.Bonds

/-!
# Tying a mirror to a mirage

Ties are made where a mirage is given its mirror, and nowhere else.  That binding keeps
the ties is about one world at a time (`Run.Ends`): it does when what is bound as a mirror
is a plain object there and then.

## Main results

* `Run.Ends.steady` — what keeps the ties wherever it begins keeps them from earlier on.
* `Run.bindMirror_cases` — binding fails at once or ties two nodes that are free.
* `Run.Ends.bindMirror`, `Run.steady_bindFresh` — binding a plain object keeps the ties, and
  a new mirror is one.
-/

namespace Prototypes

variable {κ σ α β : Type}

open Run (Steady)

namespace Run

/-! ## Ends of runs with the ties kept -/

variable {start v w : World κ σ}

namespace Ends

variable {post : α → World κ σ → Prop}

/-- What is kept from where a run begins is kept from earlier on. -/
theorem earlier {result : EStateM.Result Halt (World κ σ) α} (h : Ends v.Bonds post result)
    (hstart : start.Evolves v) : Ends start.Bonds post result :=
  h.mono (fun _ hw => hw.earlier hstart) fun _ _ _ => id

/-- A run that keeps the ties from wherever it begins. -/
theorem steady {x : Run κ σ α} (h : ∀ v, v.Bonded → ∃ post, Ends v.Bonds post (x v))
    (start : World κ σ) : Steady (World.Bonds start) x := by
  rintro v _ ⟨rfl, hv, hstart⟩
  obtain ⟨post, hends⟩ := h v hv
  exact (hends.earlier hstart).agrees

end Ends

/-- Where a run that keeps the ties answers, the world has evolved. -/
theorem kept {x : Run κ σ α} {answer : α} (h : ∀ start : World κ σ, Steady (World.Bonds start) x)
    (hv : v.Bonded) (hx : x v = .ok answer w) : w.Bonded ∧ v.Evolves w := by
  have hends := Ends.of_steady (h v) (.refl hv)
  rw [hx] at hends
  cases hends with
  | ok hw _ => exact hw.2

/-! ## Changing one node -/

theorem setSlots_of_node {id : ObjectId} {node : Node κ} (h : w.heap.node? id = some node)
    (slots : Storage κ) : Run.setSlots id slots w =
      .ok () { w with heap := w.heap.replace id (node.withSlots slots) } := by
  unfold Run.setSlots
  rw [node_bind_of_some h]
  rfl

theorem setMirror_of_node {mirage : ObjectId} {node : Node κ} (h : w.heap.node? mirage = some node)
    (mirror : ObjectId) : Run.setMirror mirage mirror w =
      .ok () { w with heap := w.heap.replace mirage (node.withMirror (some mirror)) } := by
  unfold Run.setMirror
  rw [node_bind_of_some h]
  rfl

/-- Adding a field to a node that is there takes an identity, and fails only for a duplicate. -/
theorem putField_of_node {id : ObjectId} {node : Node κ} (h : v.heap.node? id = some node)
    (field : Field κ) : Run.putField id field v =
      match node.slots.putField ⟨v.supply⟩ field with
      | .ok slots =>
        .ok () { v with supply := v.supply + 1, heap := v.heap.replace id (node.withSlots slots) }
      | .error e => .error (.raised e) { v with supply := v.supply + 1 } := by
  unfold Run.putField
  rw [slots_bind h, fresh_bind]
  cases node.slots.putField ⟨v.supply⟩ field with
  | error e => rfl
  | ok slots =>
    rw [check_ok_bind]
    exact setSlots_of_node (w := { v with supply := v.supply + 1 }) h slots

theorem putField_eq_ok {id : ObjectId} {field : Field κ} (h : Run.putField id field v = .ok () w) :
    ∃ node slots, v.heap.node? id = some node ∧
      node.slots.putField ⟨v.supply⟩ field = .ok slots ∧
        w = { v with supply := v.supply + 1, heap := v.heap.replace id (node.withSlots slots) } := by
  cases hnode : v.heap.node? id with
  | none =>
    rw [Run.putField, Run.slots, bind_map_left, node_bind, Heap.get_eq_error_iff.mpr ⟨hnode, rfl⟩] at h
    cases h
  | some node =>
    rw [putField_of_node hnode] at h
    cases hput : node.slots.putField ⟨v.supply⟩ field with
    | error e =>
      rw [hput] at h
      cases h
    | ok slots =>
      rw [hput] at h
      cases h
      exact ⟨node, slots, rfl, hput, rfl⟩

/-! ## Binding -/

/-- Only a mirage without a mirror passes; any other node raises an error. -/
theorem checkUnbound_cases (id : ObjectId) (mirage : Value κ) (v : World κ σ) :
    (∃ reason, Run.checkUnbound id mirage v = .error reason v ∧
      (v.heap.contains id = true → ∃ error, reason = .raised error)) ∨
      ∃ body, v.heap.node? id = some (.mirage ⟨body, none⟩) ∧
        Run.checkUnbound id mirage v = .ok () v := by
  unfold Run.checkUnbound
  rw [node_bind]
  cases hnode : v.heap.node? id with
  | none =>
    rw [Heap.get_eq_error_iff.mpr ⟨hnode, rfl⟩]
    refine .inl ⟨_, rfl, fun hlive => ?_⟩
    obtain ⟨node, hnode'⟩ := Heap.contains_iff.mp hlive
    cases hnode.symm.trans hnode'
  | some node =>
    rw [Heap.get_eq_ok_iff.mpr hnode]
    match node with
    | .mirage ⟨body, none⟩ => exact .inr ⟨body, rfl, rfl⟩
    | .mirage ⟨body, some mirror⟩ => exact .inl ⟨_, rfl, fun _ => ⟨_, rfl⟩⟩
    | .object body => exact .inl ⟨_, rfl, fun _ => ⟨_, rfl⟩⟩
    | .frame frame => exact .inl ⟨_, rfl, fun _ => ⟨_, rfl⟩⟩

/-- What binding does with a mirage that has no mirror. -/
theorem bindMirror_unbound {r m : ObjectId} {body : PrototypeObject κ}
    (hmirage : v.heap.node? m = some (.mirage ⟨body, none⟩)) :
    Run.bindMirror (.object r) (.object m) v =
      if r = v.mirrorRoot then .error (.raised (.illegalOperation .mirrorRootShared)) v
      else (do
        if ((← Run.slots r).fieldIndex? Selector.base).isSome then
          Run.raise (.illegalOperation (.mirrorAlreadyBound (Value.object r : Value κ).display))
        Run.putField r { name := Selector.base, writable := false, value := .object m }
        Run.setMirror m r
        Run.report (.bound r m)) v := by
  rcases checkUnbound_cases m (.object m) v with ⟨reason, hfailed, -⟩ | ⟨body', -, hpassed⟩
  · unfold Run.checkUnbound at hfailed
    rw [node_bind_of_some hmirage] at hfailed
    cases hfailed
  · unfold Run.bindMirror
    simp only [Value.expectObject]
    rw [check_ok_bind, check_ok_bind, bind_of_ok hpassed]
    by_cases hroot : r = v.mirrorRoot
    · rw [if_pos hroot]
      show (if r = v.mirrorRoot then _ else _ : Run κ σ Unit) v = _
      rw [if_pos hroot]
      rfl
    · rw [if_neg hroot]
      show (if r = v.mirrorRoot then _ else _ : Run κ σ Unit) v = _
      rw [if_neg hroot]

/-- What binding does with a mirage that has no mirror and another node that can become one. -/
theorem bindMirror_free {r m : ObjectId} {body : PrototypeObject κ} {node : Node κ}
    (hmirage : v.heap.node? m = some (.mirage ⟨body, none⟩)) (hroot : r ≠ v.mirrorRoot)
    (hnode : v.heap.node? r = some node) :
    Run.bindMirror (.object r) (.object m) v =
      if (node.slots.fieldIndex? Selector.base).isSome then
        .error (.raised (.illegalOperation (.mirrorAlreadyBound (Value.object r : Value κ).display))) v
      else (do
        Run.putField r { name := Selector.base, writable := false, value := .object m }
        Run.setMirror m r
        Run.report (.bound r m)) v := by
  rw [bindMirror_unbound hmirage, if_neg hroot, slots_bind hnode]
  cases (node.slots.fieldIndex? Selector.base).isSome <;> rfl

/--
Binding fails at once, with an error if the handles are live, or it ties a node without a
`base` to a mirage without a mirror.
-/
theorem bindMirror_cases (mirror mirage : Value κ) (v : World κ σ) :
    (∃ reason, Run.bindMirror mirror mirage v = .error reason v ∧
      ((∀ id, mirror = .object id ∨ mirage = .object id → v.heap.contains id = true) →
        ∃ error, reason = .raised error)) ∨
      ∃ r m body node, mirror = .object r ∧ mirage = .object m ∧
        v.heap.node? m = some (.mirage ⟨body, none⟩) ∧ r ≠ v.mirrorRoot ∧
        v.heap.node? r = some node ∧ node.slots.fieldIndex? Selector.base = none ∧
        Run.bindMirror mirror mirage v = (do
          Run.putField r { name := Selector.base, writable := false, value := mirage }
          Run.setMirror m r
          Run.report (.bound r m)) v := by
  cases mirror with
  | object r =>
    cases mirage with
    | object m =>
      rcases checkUnbound_cases m (.object m) v with ⟨reason, hfailed, hraised⟩ | ⟨body, hm, -⟩
      · refine .inl ⟨reason, ?_, fun hlive => hraised (hlive m (.inr rfl))⟩
        unfold Run.bindMirror
        simp only [Value.expectObject]
        rw [check_ok_bind, check_ok_bind]
        show EStateM.bind _ _ v = _
        unfold EStateM.bind
        rw [hfailed]
      · by_cases hroot : r = v.mirrorRoot
        · exact .inl ⟨_, (bindMirror_unbound hm).trans (if_pos hroot), fun _ => ⟨_, rfl⟩⟩
        · cases hr : v.heap.node? r with
          | none =>
            refine .inl ⟨.dangling r, ?_, fun hlive => ?_⟩
            · rw [bindMirror_unbound hm, if_neg hroot, Run.slots, bind_map_left, node_bind,
                Heap.get_eq_error_iff.mpr ⟨hr, rfl⟩]
            · obtain ⟨node, hnode⟩ := Heap.contains_iff.mp (hlive r (.inl rfl))
              cases hr.symm.trans hnode
          | some node =>
            have hbind := bindMirror_free hm hroot hr
            cases hbase : node.slots.fieldIndex? Selector.base with
            | some index =>
              rw [hbase] at hbind
              exact .inl ⟨_, hbind, fun _ => ⟨_, rfl⟩⟩
            | none =>
              rw [hbase] at hbind
              exact .inr ⟨r, m, body, node, rfl, rfl, hm, hroot, hr, hbase, hbind⟩
    | _ => exact .inl ⟨_, rfl, fun _ => ⟨_, rfl⟩⟩
  | _ => exact .inl ⟨_, rfl, fun _ => ⟨_, rfl⟩⟩

/-- Binding that succeeds gives the mirage its mirror. -/
theorem hasMirror_of_bindMirror {mirror mirage : ObjectId}
    (h : Run.bindMirror (.object mirror) (.object mirage) v = .ok () w) : w.HasMirror mirage mirror := by
  rcases bindMirror_cases (.object mirror) (.object mirage) v with ⟨reason, hfailed, -⟩ |
    ⟨r, m, body, node, hr, hm, hmirage, -, hnode, -, hbind⟩
  · cases hfailed.symm.trans h
  · cases hr
    cases hm
    rw [hbind] at h
    obtain ⟨_, u, hput, hrest⟩ := eq_ok_of_bind h
    obtain ⟨node', slots, hnode', -, rfl⟩ := putField_eq_ok hput
    cases hnode.symm.trans hnode'
    have hread := v.heap.node?_replace_of_contains (Heap.contains_of_node? hnode) (node.withSlots slots)
    -- the mirage may be the mirror itself, and is one still with the field
    obtain ⟨tied, htied, hmirageTied⟩ : ∃ tied,
        (v.heap.replace mirror (node.withSlots slots)).node? mirage = some tied ∧
          tied.isMirage = true := by
      by_cases hself : mirage = mirror
      · subst hself
        cases hnode.symm.trans hmirage
        exact ⟨_, (hread mirage).trans (if_pos rfl), rfl⟩
      · exact ⟨_, (hread mirage).trans ((if_neg hself).trans hmirage), rfl⟩
    have hset := setMirror_of_node (w := { v with
      supply := v.supply + 1, heap := v.heap.replace mirror (node.withSlots slots) }) htied mirror
    rw [bind_of_ok hset] at hrest
    cases hrest
    exact ⟨_, (Heap.node?_replace_of_contains (Heap.contains_of_node? htied) _ mirage).trans
      (if_pos rfl), tied.mirror?_withMirror hmirageTied mirror⟩

/-- Giving a mirage without a mirror one that holds it. -/
theorem Ends.setMirror (hv : v.Bonded) (hstart : start.Evolves v) {mirage mirror : ObjectId}
    {node : Node κ} (hnode : v.heap.node? mirage = some node) (hmirage : node.isMirage = true)
    (hfree : ∀ old, start.heap.node? mirage = some old → old.mirror? = none)
    (hties : v.Ties mirror mirage) :
    Ends start.Bonds (fun _ w => w.HasMirror mirage mirror) (Run.setMirror mirage mirror v) := by
  have hmirror := node.mirror?_withMirror hmirage mirror
  have hlive := Heap.contains_of_node? hnode
  rw [setMirror_of_node hnode]
  refine .ok
    (World.Bonds.replace hv hstart hlive (node.withMirror (some mirror)) ?kept ?held ?mirror rfl)
    ⟨_, ?found, hmirror⟩
  case kept =>
    intro old hold
    obtain ⟨new, hnew, hbecomes⟩ := hstart.node hold
    cases hnode.symm.trans hnew
    exact hbecomes.withMirror (hfree old hold) mirror
  case held =>
    exact fun other hother => absurd hother (hv.not_mirror_of_isMirage hnode hmirage)
  case mirror =>
    intro other hother
    cases hmirror.symm.trans hother
    refine ⟨?_, hties⟩
    rintro rfl
    obtain ⟨-, held, hheld, hholds⟩ := hties
    cases hnode.symm.trans hheld
    rw [hholds.not_isMirage] at hmirage
    cases hmirage
  case found => exact (v.heap.node?_replace_of_contains hlive _ mirage).trans (if_pos rfl)

/-- Binding a plain object, or failing to, keeps the ties. -/
theorem Ends.bindMirror (hv : v.Bonded) {mirror mirage : Value κ}
    (hplain : ∀ id node, mirror = .object id → v.heap.node? id = some node → node.isPlain = true) :
    Ends v.Bonds (fun _ _ => True) (Run.bindMirror mirror mirage v) := by
  rcases bindMirror_cases mirror mirage v with ⟨reason, hfailed, -⟩ |
    ⟨r, m, body, node, rfl, rfl, hm, hroot, hr, -, hbind⟩
  · rw [hfailed]
    exact .error reason (.refl hv)
  · rw [hbind]
    refine (of_steady (Run.Below.putField r _) (.refl hv)).bind fun _ v₁ hv₁ hput => ?_
    obtain ⟨node', slots, hr', hslots, rfl⟩ := putField_eq_ok hput
    cases hr.symm.trans hr'
    have hread := v.heap.node?_replace_of_contains (Heap.contains_of_node? hr) (node.withSlots slots)
    have hne : m ≠ r := by
      rintro rfl
      cases hm.symm.trans hr
      cases hplain m _ rfl hm
    have hties : World.Ties { v with
        supply := v.supply + 1, heap := v.heap.replace r (node.withSlots slots) } r m :=
      ⟨hroot, node.withSlots slots, (hread r).trans (if_pos rfl),
        (node.isPlain_withSlots slots).trans (hplain r node rfl hr),
        by rw [Node.slots_withSlots]; exact Storage.readOnly_putField hslots⟩
    have hset := setMirror hv₁.2.1 hv₁.2.2 ((hread m).trans ((if_neg hne).trans hm)) rfl
      (fun old hold => by cases hm.symm.trans hold; rfl) hties
    exact hset.bind fun _ v₂ hv₂ _ =>
      (of_steady (Run.Below.report _) hv₂).mono (fun _ => id) fun _ _ _ _ => trivial

/-- A new mirror is a plain object. -/
theorem freshMirror_eq_ok {mirror : Value κ} (hv : v.Bonded) (h : Run.freshMirror v = .ok mirror w) :
    ∃ id body, mirror = .object id ∧ w.heap.node? id = some (.object body) := by
  have hmade : Run.freshMirror v =
      (Run.newBody (.object v.mirrorRoot) .isA (some v.lexicalRoot) [] >>= fun body =>
        Run.allocate (.object body) >>= fun id => pure (Value.object id)) v := rfl
  rw [hmade] at h
  obtain ⟨body, u, hbody, hrest⟩ := eq_ok_of_bind h
  have hu := (kept (fun _ => Runtime.Steady.newBody _ _ _ _) hv hbody).1
  rw [allocate_bind] at hrest
  cases hrest
  exact ⟨_, body, rfl, (hu.free.node?_allocate _ _).trans (if_pos rfl)⟩

/-- Binding a new mirror keeps the ties. -/
theorem steady_bindFresh (mirage : Value κ) (start : World κ σ) :
    Steady (World.Bonds start) (Run.freshMirror >>= fun mirror => Run.bindMirror mirror mirage) := by
  refine Ends.steady (fun v hv => ⟨fun _ _ => True, ?_⟩) start
  refine (Ends.of_steady Runtime.Steady.freshMirror (.refl hv)).bind fun mirror w hw hmirror => ?_
  obtain ⟨id, body, rfl, hnode⟩ := freshMirror_eq_ok hv hmirror
  have hbound : Ends w.Bonds (fun _ _ => True) (Run.bindMirror (.object id) mirage w) :=
    .bindMirror hw.2.1 fun other node hother hnode' => by
      cases hother
      cases hnode.symm.trans hnode'
      rfl
  exact hbound.earlier hw.2.2

end Run

end Prototypes
