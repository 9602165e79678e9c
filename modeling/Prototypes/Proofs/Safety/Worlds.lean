import Prototypes.Proofs.Approximation.Outcomes
import Prototypes.Proofs.Heap.Ancestry
import Prototypes.Proofs.Safety.Checks

/-!
# Well-formed worlds

In a well-formed world all that nodes refer to is there, selectors name one slot at most,
parents lead round in no circle, and the two roots are there (`World.WellFormed`).

Which native methods may occur in a world, and in which ways a run in it may end, are
matters of `Rules`; a sane world is a well-formed one that keeps to them.  A world grows
when every node stays, as far as it can (`World.Grows`).

## Main results

* `World.Sane.allocate`, `World.Sane.replace` — the two ways in which nodes change keep a
  world sane and let it grow.
* `World.wellFormed_new` — a new world is well-formed.
-/

namespace Prototypes

variable {κ σ : Type}

/-! ## Rules -/

/-- The parameters that the object model gives a method of its own. -/
@[simp, grind =]
def Builtin.parameters : Builtin → List Parameter
  | accessor _ => []
  | mutator _ => [.required ⟨"value"⟩]
  | notUnderstood _ | primitive .. | resend _ => [.rest ⟨"arguments"⟩]
  | performDefault op => op.parameters.map fun name => .required ⟨name⟩
  | bindBase => [.required Selector.base]

/-- The method is one that the object model makes by itself. -/
def Method.IsMade (method : Method κ) : Prop :=
  ∃ body : Builtin, method.body = .builtin body ∧ method.parameters = body.parameters

theorem Method.isMade_builtin (identity : Identity) (name : Symbol) (body : Builtin) :
    (Method.builtin identity name body.parameters body : Method κ).IsMade :=
  ⟨body, rfl, rfl⟩

theorem Method.IsMade.parts_eq {method : Method κ} (h : method.IsMade) :
    method.parts = [.native method] := by
  obtain ⟨body, hbody, -⟩ := h
  obtain ⟨identity, name, parameters, _⟩ := method
  cases hbody
  rfl

/-- The first argument of such a method is read without asking whether there is one. -/
def Builtin.readsArgument : Builtin → Bool
  | mutator _ | bindBase => true
  | _ => false

/-- Ways to stop that are the host's fault or nobody's but the program's own. -/
def Halt.isFault : Halt → Bool
  | dangling _ | outOfBounds => true
  | raised error => error.isInternal
  | exhausted => false

/-- Which native methods may occur in a world, and how runs in it may end. -/
structure Rules (κ : Type) where
  code : Method κ → Prop
  ends : Halt → Prop
  code_of_isMade : ∀ {method}, method.IsMade → code method
  ends_of_not_fault : ∀ {reason}, reason.isFault = false → ends reason
  /-- a method that reads its first argument has one, if it has to -/
  argument : ∀ {method : Method κ} {body}, code method → method.body = .builtin body →
    body.readsArgument = true → method.arity.accepts 0 = true → ends .outOfBounds

/-- The rules of worlds without host code, in which nothing goes wrong. -/
def Rules.strict (κ : Type) : Rules κ where
  code := Method.IsMade
  ends reason := reason.isFault = false
  code_of_isMade h := h
  ends_of_not_fault h := h
  argument {method body} hmade hbody hreads haccepts := by
    obtain ⟨body', hbody', hparameters⟩ := hmade
    cases hbody.symm.trans hbody'
    rw [Method.arity, hparameters] at haccepts
    cases body <;> cases hreads <;> cases haccepts

/-- The rules that allow everything. -/
def Rules.lenient (κ : Type) : Rules κ where
  code _ := True
  ends _ := True
  code_of_isMade _ := trivial
  ends_of_not_fault _ := trivial
  argument _ _ _ _ := trivial

/-! ## Worlds -/

variable {rules : Rules κ}

/-- The node is there, or the method may occur. -/
def Part.Admitted (rules : Rules κ) (heap : Heap κ) : Part κ → Prop
  | .handle id => heap.contains id = true
  | .native method => rules.code method

namespace World

/-- All of the parts may be used. -/
def Admits (rules : Rules κ) (w : World κ σ) (parts : List (Part κ)) : Prop :=
  ∀ part ∈ parts, part.Admitted rules w.heap

/--
All that nodes refer to is there, selectors name one slot at most, parents lead round in no
circle, and the roots are there.
-/
structure WellFormed (w : World κ σ) : Prop where
  edges : w.heap.EdgesLive
  names : ∀ id node, w.heap.node? id = some node → node.slots.names.Nodup
  dynamic : w.heap.AcyclicAlong .dynamic
  lexical : w.heap.AcyclicAlong .lexical
  lexicalRoot : w.heap.contains w.lexicalRoot = true
  mirrorRoot : w.heap.contains w.mirrorRoot = true

/-- A well-formed world, sound as all worlds are, in which only native methods occur that may. -/
structure Sane (rules : Rules κ) (w : World κ σ) : Prop extends w.WellFormed, w.Sound where
  natives : ∀ id node, w.heap.node? id = some node →
    ∀ method, .native method ∈ node.parts → rules.code method

/-- Every node is there still, and goes up the same ways. -/
structure Grows (v w : World κ σ) : Prop where
  nodes : ∀ {id node}, v.heap.node? id = some node →
    ∃ after, w.heap.node? id = some after ∧ node.Stays after
  lexicalRoot : w.lexicalRoot = v.lexicalRoot
  mirrorRoot : w.mirrorRoot = v.mirrorRoot

variable {u v w : World κ σ} {parts : List (Part κ)} {id : ObjectId} {node : Node κ}

namespace Grows

theorem refl (w : World κ σ) : w.Grows w where
  nodes hnode := ⟨_, hnode, .refl _⟩
  lexicalRoot := rfl
  mirrorRoot := rfl

theorem trans (h : u.Grows v) (h' : v.Grows w) : u.Grows w where
  nodes hnode := by
    obtain ⟨middle, hmiddle, hstays⟩ := h.nodes hnode
    obtain ⟨after, hafter, hstays'⟩ := h'.nodes hmiddle
    exact ⟨after, hafter, hstays.trans hstays'⟩
  lexicalRoot := h'.lexicalRoot.trans h.lexicalRoot
  mirrorRoot := h'.mirrorRoot.trans h.mirrorRoot

theorem contains (h : v.Grows w) (hlive : v.heap.contains id = true) :
    w.heap.contains id = true := by
  obtain ⟨node, hnode⟩ := Heap.contains_iff.mp hlive
  obtain ⟨after, hafter, -⟩ := h.nodes hnode
  exact Heap.contains_of_node? hafter

theorem admits (h : v.Grows w) (hparts : v.Admits rules parts) : w.Admits rules parts := by
  intro part hpart
  have hadmitted := hparts part hpart
  cases part with
  | handle id => exact h.contains hadmitted
  | native method => exact hadmitted

/-- A new node leaves every node what it was. -/
theorem allocate (hfree : v.heap.FreeListExact) (node : Node κ) :
    v.Grows { v with heap := (v.heap.allocate node).2 } where
  nodes hnode := ⟨_, Heap.Keeps.allocate hfree node _ _ hnode, .refl _⟩
  lexicalRoot := rfl
  mirrorRoot := rfl

/-- So does another node in the place of one that becomes it. -/
theorem replace {new : Node κ} (hnode : v.heap.node? id = some node) (hstays : node.Stays new) :
    v.Grows { v with heap := v.heap.replace id new } where
  nodes {other old} hold := by
    have hread := Heap.node?_replace_of_contains (Heap.contains_of_node? hnode) new
    by_cases hother : other = id
    · subst hother
      cases hnode.symm.trans hold
      exact ⟨new, (hread _).trans (if_pos rfl), hstays⟩
    · exact ⟨old, (hread _).trans ((if_neg hother).trans hold), .refl old⟩
  lexicalRoot := rfl
  mirrorRoot := rfl

end Grows

/-! ## What may be used in a sane world -/

namespace Admits

theorem nil (w : World κ σ) : w.Admits rules [] := fun _ hpart => by cases hpart

theorem handle (h : w.heap.contains id = true) : w.Admits rules [.handle id] := by
  intro part hpart
  obtain rfl := List.mem_singleton.mp hpart
  exact h

theorem append {more : List (Part κ)} (h : w.Admits rules parts) (h' : w.Admits rules more) :
    w.Admits rules (parts ++ more) := fun part hpart =>
  (List.mem_append.mp hpart).elim (h part) (h' part)

theorem mono {more : List (Part κ)} (h : w.Admits rules parts) (hsub : more ⊆ parts) :
    w.Admits rules more := fun part hpart => h part (hsub hpart)

theorem contains (h : w.Admits rules parts) (hid : .handle id ∈ parts) :
    w.heap.contains id = true := h _ hid

theorem exists_node (h : w.Admits rules parts) (hid : .handle id ∈ parts) :
    ∃ node, w.heap.node? id = some node := Heap.contains_iff.mp (h.contains hid)

end Admits

namespace Sane

/-- What a node holds may be used. -/
theorem holds (h : w.Sane rules) (hnode : w.heap.node? id = some node) :
    w.Admits rules node.parts := by
  intro part hpart
  cases part with
  | handle target => exact h.edges id node hnode target ((node.handle_mem_parts target).mp hpart)
  | native method => exact h.natives id node hnode method hpart

/-- So may the slot a selector names. -/
theorem found (h : w.Sane rules) {selector : Symbol} {slot : Slot κ}
    (hslot : w.heap.slot? selector id = some slot) :
    w.Admits rules (.handle id :: slot.parts) := by
  obtain ⟨node, hnode, hfind⟩ := Option.bind_eq_some_iff.mp hslot
  intro part hpart
  rcases List.mem_cons.mp hpart with rfl | hpart
  · exact Heap.contains_of_node? hnode
  · refine h.holds hnode part ?_
    simp only [Node.parts, List.mem_append, Storage.parts_of_find hfind hpart, true_or]

theorem roots (h : w.Sane rules) :
    w.Admits rules [.handle w.lexicalRoot, .handle w.mirrorRoot] := by
  intro part hpart
  simp only [List.mem_cons, List.not_mem_nil, or_false] at hpart
  rcases hpart with rfl | rfl
  exacts [h.lexicalRoot, h.mirrorRoot]

end Sane

/-! ## Changes -/

/-- The edges of what may be used are live. -/
private theorem Admits.edges_live (h : w.Admits rules node.parts) :
    ∀ target ∈ node.edges, w.heap.contains target = true := fun target htarget =>
  h.contains ((node.handle_mem_parts target).mpr htarget)

/-- A sane world with other nodes, if they go round in no circle, and the new ones hold what may be used. -/
private theorem Sane.change (h : v.Sane rules) {heap : Heap κ} (hfree : heap.FreeListExact)
    (hlive : ∀ id, v.heap.contains id = true → heap.contains id = true)
    (hnew : ∀ id node, heap.node? id = some node → v.heap.node? id = some node ∨
      (v.Admits rules node.parts ∧ node.slots.names.Nodup))
    (hdynamic : heap.AcyclicAlong .dynamic) (hlexical : heap.AcyclicAlong .lexical) :
    World.Sane rules { v with heap } where
  free := hfree
  edges id node hnode target htarget := by
    rcases hnew id node hnode with hold | ⟨hparts, -⟩
    · exact hlive target (h.edges id node hold target htarget)
    · exact hlive target (hparts.edges_live target htarget)
  names id node hnode := by
    rcases hnew id node hnode with hold | ⟨-, hnames⟩
    · exact h.names id node hold
    · exact hnames
  dynamic := hdynamic
  lexical := hlexical
  lexicalRoot := hlive _ h.lexicalRoot
  mirrorRoot := hlive _ h.mirrorRoot
  defaults := h.defaults
  natives id node hnode method hmethod := by
    rcases hnew id node hnode with hold | ⟨hparts, -⟩
    · exact h.natives id node hold method hmethod
    · exact hparts _ hmethod

/-- A new node that holds what may be used. -/
theorem Sane.allocate (h : w.Sane rules) (hparts : w.Admits rules node.parts)
    (hnames : node.slots.names.Nodup) :
    World.Sane rules { w with heap := (w.heap.allocate node).2 } ∧
      w.Grows { w with heap := (w.heap.allocate node).2 } ∧
        (w.heap.allocate node).2.contains w.heap.nextId = true := by
  have hread := h.free.node?_allocate node
  have hkeeps := Heap.Keeps.allocate h.free node
  refine ⟨h.change (h.free.allocate node) (fun id hid => ?_) (fun id found hfound => ?_)
      (h.dynamic.allocate h.free h.edges hparts.edges_live)
      (h.lexical.allocate h.free h.edges hparts.edges_live),
    .allocate h.free node, Heap.contains_of_node? ((hread _).trans (if_pos rfl))⟩
  · obtain ⟨old, hold⟩ := Heap.contains_iff.mp hid
    exact Heap.contains_of_node? (hkeeps id old hold)
  · rw [hread] at hfound
    by_cases hid : id = w.heap.nextId
    · rw [if_pos hid] at hfound
      cases hfound
      exact .inr ⟨hparts, hnames⟩
    · rw [if_neg hid] at hfound
      exact .inl hfound

/-- A node that has become another one, which holds what may be used. -/
theorem Sane.replace (h : w.Sane rules) {new : Node κ} (hnode : w.heap.node? id = some node)
    (hstays : node.Stays new) (hparts : w.Admits rules new.parts) (hnames : new.slots.names.Nodup) :
    World.Sane rules { w with heap := w.heap.replace id new } ∧
      w.Grows { w with heap := w.heap.replace id new } := by
  have hid := Heap.contains_of_node? hnode
  have hread := Heap.node?_replace_of_contains hid new
  refine ⟨h.change (h.free.replace hid new) (fun other hother => ?_) (fun other found hfound => ?_)
      (h.dynamic.replace hnode hstays) (h.lexical.replace hnode hstays), .replace hnode hstays⟩
  · exact (Heap.contains_replace_of_contains hid new other).trans hother
  · rw [hread] at hfound
    by_cases hother : other = id
    · rw [if_pos hother] at hfound
      cases hfound
      exact .inr ⟨hparts, hnames⟩
    · rw [if_neg hother] at hfound
      exact .inl hfound

/-- The same nodes under the same handles, the same places to be handed out next, the same roots. -/
structure SameNodes (v w : World κ σ) : Prop where
  entries : w.heap.entries = v.heap.entries
  free : w.heap.free = v.heap.free
  lexicalRoot : w.lexicalRoot = v.lexicalRoot
  mirrorRoot : w.mirrorRoot = v.mirrorRoot
  defaults : w.mirrorDefaults = v.mirrorDefaults

theorem SameNodes.grows (h : v.SameNodes w) : v.Grows w where
  nodes {id node} hnode := ⟨node, by rw [← hnode, Heap.node?, h.entries, Heap.node?], .refl _⟩
  lexicalRoot := h.lexicalRoot
  mirrorRoot := h.mirrorRoot

theorem SameNodes.sane (h : v.SameNodes w) (hv : v.Sane rules) : w.Sane rules := by
  obtain ⟨heap, lexicalRoot, mirrorRoot, defaults, isolateTag, actor, tracing, supply, log, host⟩ := w
  obtain ⟨entries, free, families, allocated, settings⟩ := heap
  obtain ⟨hentries, hfree, hlexicalRoot, hmirrorRoot, hdefaults⟩ := h
  dsimp only at hentries hfree hlexicalRoot hmirrorRoot hdefaults
  subst hentries hfree hlexicalRoot hmirrorRoot hdefaults
  exact {
    free := ⟨hv.free.nodup, hv.free.mem_iff⟩
    edges := hv.edges
    names := hv.names
    dynamic := hv.dynamic
    lexical := hv.lexical
    lexicalRoot := hv.lexicalRoot
    mirrorRoot := hv.mirrorRoot
    defaults := hv.defaults
    natives := hv.natives }

/-! ## New worlds -/

/-- The nodes of a new world are its roots. -/
private theorem root_of_node?_new {settings : WorldSettings} {host : σ}
    (h : (World.new settings host : World κ σ).heap.node? id = some node) : id = ⟨0⟩ ∨ id = ⟨1⟩ := by
  obtain ⟨index⟩ := id
  match index with
  | 0 => exact .inl rfl
  | 1 => exact .inr rfl
  | index + 2 => simp [World.new, Heap.node?] at h

/-- The mirror root's methods are all made by the object model. -/
private theorem isMade_rootMethods {first : Nat} {identity : Identity} {method : Method κ}
    (h : method ∈ rootMethods first ++ [bindMethod identity]) : method.IsMade := by
  rcases List.mem_append.mp h with h | h
  · obtain ⟨op, -, rfl⟩ := List.mem_map.mp h
    exact Method.isMade_builtin _ _ (.performDefault op)
  · obtain rfl := List.mem_singleton.mp h
    exact Method.isMade_builtin _ _ .bindBase

private theorem names_rootMethods (first : Nat) (identity : Identity) :
    (rootMethods first ++ [bindMethod identity] : List (Method κ)).map Method.name =
      MetaOp.all.map MetaOp.selector ++ [Selector.init] := by
  simp only [rootMethods, List.map_append, List.map_map]
  rfl

/-- What the nodes of a new world hold: each other, and methods that the object model makes. -/
private theorem parts_new {settings : WorldSettings} {host : σ}
    (h : (World.new settings host : World κ σ).heap.node? id = some node) :
    ∀ part ∈ node.parts, part = .handle ⟨0⟩ ∨ part = .handle ⟨1⟩ ∨
      ∃ method : Method κ, method.IsMade ∧ part = .native method := by
  intro part hpart
  rcases root_of_node?_new h with rfl | rfl
  · cases h
    simp only [Node.parts_object, Storage.parts, Storage.empty, List.flatMap_cons, List.flatMap_nil,
      Value.parts, List.append_nil, Option.toList_none, List.map_nil, List.mem_singleton] at hpart
    exact .inr (.inl hpart)
  · cases h
    simp only [Node.parts_object, Storage.parts, Storage.empty, List.flatMap_cons, List.flatMap_nil,
      Value.parts, List.append_nil, List.nil_append, Option.toList_some, List.map_cons, List.map_nil,
      List.mem_append, List.mem_singleton, List.mem_flatMap] at hpart
    rcases hpart with ⟨method, hmethod, hpart⟩ | hpart
    · have hmade := isMade_rootMethods (List.mem_append.mpr (hmethod.imp_right List.mem_singleton.mpr))
      rw [hmade.parts_eq, List.mem_singleton] at hpart
      exact .inr (.inr ⟨method, hmade, hpart⟩)
    · exact .inl hpart

/-- The mirror root is enclosed by the lexical root, and that is all there is to go up. -/
theorem wellFormed_new (settings : WorldSettings) (host : σ) :
    (World.new settings host : World κ σ).WellFormed where
  edges id node hnode target htarget := by
    rcases parts_new hnode _ ((node.handle_mem_parts target).mpr htarget) with
      htarget | htarget | ⟨_, -, htarget⟩ <;> cases htarget <;> rfl
  names id node hnode := by
    rcases root_of_node?_new hnode with rfl | rfl
    · cases hnode
      exact List.nodup_singleton _
    · cases hnode
      show ([Selector.base] ++
        (rootMethods 3 ++ [bindMethod _] : List (Method κ)).map Method.name ++ []).Nodup
      rw [names_rootMethods]
      decide
  dynamic := .of_rank (fun _ => 0) fun id next ⟨node, hnode, hparent⟩ => by
    rcases root_of_node?_new hnode with rfl | rfl <;> cases hnode <;> cases hparent
  lexical := .of_rank ObjectId.index fun id next ⟨node, hnode, hparent⟩ => by
    rcases root_of_node?_new hnode with rfl | rfl <;> cases hnode <;> cases hparent
    exact Nat.zero_lt_one
  lexicalRoot := rfl
  mirrorRoot := rfl

theorem sane_new (rules : Rules κ) (settings : WorldSettings) (host : σ) :
    (World.new settings host : World κ σ).Sane rules where
  toWellFormed := wellFormed_new settings host
  toSound := sound_new settings host
  natives id node hnode method hmethod := by
    rcases parts_new hnode _ hmethod with hpart | hpart | ⟨_, hmade, hpart⟩ <;> cases hpart
    exact rules.code_of_isMade hmade

end World

end Prototypes
