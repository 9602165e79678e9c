import Prototypes.Proofs.Slots.Operations
import Prototypes.Semantics.Fragments
import Prototypes.Semantics.Relations

/-!
# What data holds

Data of the object model holds two things that can be at fault: handles, whose nodes
may be gone, and methods whose bodies are no code as a tree.  `parts` lists both; the
handles among the parts are the edges.

What is read from a storage was held by it, and what is put into it is all that a
storage holds anew.

## Main results

* `Value.handle_mem_parts`, `Node.handle_mem_parts` — the handles among the parts.
* `Storage.parts_of_find` — what a search answers was held.
* `Storage.Does.parts_subset` — operations on slots add nothing but what they are given.
-/

namespace Prototypes

variable {κ : Type}

/-- A handle, or a method whose body is no code as a tree. -/
inductive Part (κ : Type) where
  | handle (id : ObjectId)
  | native (method : Method κ)

/-! ## Values and code -/

mutual

/-- The handles and native methods a value holds. -/
@[simp, grind =]
def Value.parts : Value κ → List (Part κ)
  | .object id => [.handle id]
  | .table _ items => Value.partsOfAll items
  | .closure _ closure => Closure.parts closure
  | .method method => Method.parts method
  | .field field => [.handle field.host]
  | .context _ context => Context.parts context
  | .fragment _ fragment => Fragment.parts fragment
  | .farReference reference => [.handle reference.target]
  | .nil | .bool _ | .fixnum _ | .float _ | .text _ | .symbol _ | .typeTag _ => []

@[simp, grind =]
def Value.partsOfAll : List (Value κ) → List (Part κ)
  | [] => []
  | value :: more => Value.parts value ++ Value.partsOfAll more

def Context.parts : Context κ → List (Part κ)
  | ⟨scope, receiver, superView⟩ => .handle scope :: (Value.parts receiver ++ Value.parts superView)

def Closure.parts : Closure κ → List (Part κ)
  | ⟨method, context⟩ => Method.parts method ++ Context.parts context

def Method.parts : Method κ → List (Part κ)
  | ⟨_, _, _, .fragment body⟩ => Fragment.parts body
  | ⟨identity, name, parameters, .builtin body⟩ =>
    [.native ⟨identity, name, parameters, .builtin body⟩]
  | ⟨identity, name, parameters, .host code⟩ => [.native ⟨identity, name, parameters, .host code⟩]

@[simp, grind =]
def Fragment.parts : Fragment κ → List (Part κ)
  | .literal value => Value.parts value
  | .selfReference => []
  | .variableReference _ => []
  | .definition _ value => Fragment.parts value
  | .assignment _ value => Fragment.parts value
  | .methodDefinition method => Method.parts method
  | .messageSend receiver _ arguments => Fragment.parts receiver ++ Fragment.partsOfAll arguments
  | .sequence statements => Fragment.partsOfAll statements
  | .quotation body => Fragment.parts body
  | .unquotation body => Fragment.parts body

@[simp, grind =]
def Fragment.partsOfAll : List (Fragment κ) → List (Part κ)
  | [] => []
  | fragment :: more => Fragment.parts fragment ++ Fragment.partsOfAll more

end

mutual

/-- The handles among the parts are the edges. -/
theorem Value.handle_mem_parts (id : ObjectId) :
    (value : Value κ) → (.handle id ∈ value.parts ↔ id ∈ value.edges)
  | .object _ | .field _ | .farReference _ => by simp [Value.parts, Value.edges]
  | .table _ items => by
    simpa only [Value.parts, Value.edges] using Value.handle_mem_partsOfAll id items
  | .closure _ closure => by
    simpa only [Value.parts, Value.edges] using Closure.handle_mem_parts id closure
  | .method method => by
    simpa only [Value.parts, Value.edges] using Method.handle_mem_parts id method
  | .context _ context => by
    simpa only [Value.parts, Value.edges] using Context.handle_mem_parts id context
  | .fragment _ fragment => by
    simpa only [Value.parts, Value.edges] using Fragment.handle_mem_parts id fragment
  | .nil | .bool _ | .fixnum _ | .float _ | .text _ | .symbol _ | .typeTag _ => by
    simp [Value.parts, Value.edges]

theorem Value.handle_mem_partsOfAll (id : ObjectId) :
    (values : List (Value κ)) → (.handle id ∈ Value.partsOfAll values ↔ id ∈ Value.edgesOfAll values)
  | [] => by simp [Value.partsOfAll, Value.edgesOfAll]
  | value :: more => by
    simp only [Value.partsOfAll, Value.edgesOfAll, List.mem_append,
      Value.handle_mem_parts id value, Value.handle_mem_partsOfAll id more]

theorem Context.handle_mem_parts (id : ObjectId) :
    (context : Context κ) → (.handle id ∈ context.parts ↔ id ∈ context.edges)
  | ⟨scope, receiver, superView⟩ => by
    simp [Context.parts, Context.edges, Value.handle_mem_parts id receiver,
      Value.handle_mem_parts id superView]

theorem Closure.handle_mem_parts (id : ObjectId) :
    (closure : Closure κ) → (.handle id ∈ closure.parts ↔ id ∈ closure.edges)
  | ⟨method, context⟩ => by
    simp only [Closure.parts, Closure.edges, List.mem_append, Method.handle_mem_parts id method,
      Context.handle_mem_parts id context]

theorem Method.handle_mem_parts (id : ObjectId) :
    (method : Method κ) → (.handle id ∈ method.parts ↔ id ∈ method.edges)
  | ⟨_, _, _, .fragment body⟩ => by
    simpa only [Method.parts, Method.edges, Body.edges] using Fragment.handle_mem_parts id body
  | ⟨_, _, _, .builtin _⟩ | ⟨_, _, _, .host _⟩ => by simp [Method.parts, Method.edges, Body.edges]

theorem Fragment.handle_mem_parts (id : ObjectId) :
    (fragment : Fragment κ) → (.handle id ∈ fragment.parts ↔ id ∈ fragment.edges)
  | .literal value => by
    simpa only [Fragment.parts, Fragment.edges] using Value.handle_mem_parts id value
  | .selfReference | .variableReference _ => by simp [Fragment.parts, Fragment.edges]
  | .definition _ value | .assignment _ value => by
    simpa only [Fragment.parts, Fragment.edges] using Fragment.handle_mem_parts id value
  | .methodDefinition method => by
    simpa only [Fragment.parts, Fragment.edges] using Method.handle_mem_parts id method
  | .messageSend receiver _ arguments => by
    simp only [Fragment.parts, Fragment.edges, List.mem_append,
      Fragment.handle_mem_parts id receiver, Fragment.handle_mem_partsOfAll id arguments]
  | .sequence statements => by
    simpa only [Fragment.parts, Fragment.edges] using Fragment.handle_mem_partsOfAll id statements
  | .quotation body | .unquotation body => by
    simpa only [Fragment.parts, Fragment.edges] using Fragment.handle_mem_parts id body

theorem Fragment.handle_mem_partsOfAll (id : ObjectId) :
    (fragments : List (Fragment κ)) →
      (.handle id ∈ Fragment.partsOfAll fragments ↔ id ∈ Fragment.edgesOfAll fragments)
  | [] => by simp [Fragment.partsOfAll, Fragment.edgesOfAll]
  | fragment :: more => by
    simp only [Fragment.partsOfAll, Fragment.edgesOfAll, List.mem_append,
      Fragment.handle_mem_parts id fragment, Fragment.handle_mem_partsOfAll id more]

end

@[simp, grind =]
theorem Context.parts_eq (context : Context κ) :
    context.parts = .handle context.scope :: (context.receiver.parts ++ context.superView.parts) := by
  cases context
  rfl

@[simp, grind =]
theorem Closure.parts_eq (closure : Closure κ) :
    closure.parts = closure.method.parts ++ closure.context.parts := by
  cases closure
  rfl

/-- A method of the object model's own is itself all that it holds. -/
@[simp, grind =]
theorem Method.parts_builtin (identity : Identity) (name : Symbol) (parameters : List Parameter)
    (body : Builtin) : (Method.builtin identity name parameters body : Method κ).parts =
      [.native (Method.builtin identity name parameters body)] := rfl

theorem Value.mem_partsOfAll {part : Part κ} {values : List (Value κ)} :
    part ∈ Value.partsOfAll values ↔ ∃ value ∈ values, part ∈ value.parts := by
  induction values with
  | nil => simp [Value.partsOfAll]
  | cons value more ih => simp [Value.partsOfAll, ih]

theorem Value.partsOfAll_mono {values more : List (Value κ)} (h : values ⊆ more) :
    Value.partsOfAll values ⊆ Value.partsOfAll more := fun _ hpart =>
  let ⟨value, hvalue, hmem⟩ := Value.mem_partsOfAll.mp hpart
  Value.mem_partsOfAll.mpr ⟨value, h hvalue, hmem⟩

/-! ## Slots and storages -/

@[simp, grind =]
def Slot.parts : Slot κ → List (Part κ)
  | .method found => found.parts
  | .custom found | .customMutator found => found.parts
  | .field .. | .mutator .. => []

namespace Storage

variable {storage : Storage κ}

/-- What the slots of a node hold. -/
def parts (storage : Storage κ) : List (Part κ) :=
  storage.fields.flatMap (fun field => field.value.parts) ++
    storage.methods.flatMap Method.parts ++
    storage.custom.flatMap fun field => field.field.parts

theorem handle_mem_parts (id : ObjectId) (storage : Storage κ) :
    .handle id ∈ storage.parts ↔ id ∈ storage.edges := by
  simp only [parts, edges, List.mem_append, List.mem_flatMap, Value.handle_mem_parts,
    Method.handle_mem_parts]

theorem mem_parts {part : Part κ} :
    part ∈ storage.parts ↔ (∃ field ∈ storage.fields, part ∈ field.value.parts) ∨
      (∃ method ∈ storage.methods, part ∈ method.parts) ∨
        ∃ field ∈ storage.custom, part ∈ field.field.parts := by
  simp only [parts, List.mem_append, List.mem_flatMap, or_assoc]

@[simp, grind =]
theorem parts_empty (identity : Identity) : (empty identity : Storage κ).parts = [] := rfl

/-! ### Reading -/

theorem parts_of_read? {index : Nat} {value : Value κ} (h : storage.read? index = some value) :
    value.parts ⊆ storage.parts := by
  obtain ⟨field, hfield, rfl⟩ := Option.map_eq_some_iff.mp h
  exact fun _ hpart => mem_parts.mpr (.inl ⟨field, List.mem_of_getElem? hfield, hpart⟩)

theorem parts_of_method? {name : Symbol} {method : Method κ} (h : storage.method? name = some method) :
    method.parts ⊆ storage.parts :=
  fun _ hpart => mem_parts.mpr (.inr (.inl ⟨method, List.mem_of_find?_eq_some h, hpart⟩))

theorem parts_of_custom? {name : Symbol} {value : Value κ} (h : storage.custom? name = some value) :
    value.parts ⊆ storage.parts := by
  obtain ⟨field, hfield, rfl⟩ := Option.map_eq_some_iff.mp h
  exact fun _ hpart =>
    mem_parts.mpr (.inr (.inr ⟨field, List.mem_of_find?_eq_some hfield, hpart⟩))

/-- What a selector names was held. -/
theorem parts_of_find {selector : Symbol} {slot : Slot κ} (h : storage.find selector = some slot) :
    slot.parts ⊆ storage.parts := by
  cases names_of_find h with
  | field _ | mutator _ _ => exact List.nil_subset _
  | method hmethod => exact parts_of_method? hmethod
  | custom _ hcustom => exact parts_of_custom? hcustom
  | customMutator _ _ hcustom => exact parts_of_custom? hcustom

end Storage

/-! ### Operations on slots -/

def Entry.parts : Entry κ → List (Part κ)
  | field entry => entry.value.parts
  | method entry => entry.parts
  | custom entry => entry.field.parts

/-- What an operation is given. -/
def SlotOperation.parts : SlotOperation κ → List (Part κ)
  | insert _ entry => entry.parts
  | write _ value => value.parts
  | remove .. | clone => []

/-- What an operation answers. -/
def SlotAnswer.parts : SlotAnswer κ → List (Part κ)
  | value answer => answer.elim [] Value.parts
  | method answer => answer.elim [] Method.parts
  | behind custom => custom.flatMap fun field => field.field.parts
  | done | index _ => []

/-- A storage then holds what it held before and what the operation was given. -/
theorem Storage.Does.parts_subset {storage : Storage κ} {operation : SlotOperation κ}
    {result : EStateM.Result Halt (Storage κ) (SlotAnswer κ)} (h : storage.Does operation result) :
    (stateOf result).parts ⊆ operation.parts ++ storage.parts := by
  intro part hmem
  have hpart := mem_parts.mp hmem
  rw [List.mem_append, mem_parts]
  cases h <;> simp_all [stateOf, SlotOperation.parts, Entry.parts] <;> grind

/-- What an operation takes out of a storage was held by it. -/
theorem Storage.Does.answer_subset {storage after : Storage κ} {operation : SlotOperation κ}
    {answer : SlotAnswer κ} (h : storage.Does operation (.ok answer after)) :
    answer.parts ⊆ storage.parts := by
  intro part hpart
  rw [mem_parts]
  cases h <;> simp_all [SlotAnswer.parts] <;> grind

/-! ## Nodes, messages and answers -/

/-- What a node holds: its slots, its parents and its mirror. -/
def Node.parts (node : Node κ) : List (Part κ) :=
  node.slots.parts ++ node.dynamicParent.parts ++ node.lexicalParent?.toList.map .handle ++
    (match node with
      | .mirage m => m.mirror.toList.map .handle
      | _ => [])

@[simp, grind =]
theorem Node.parts_object (body : PrototypeObject κ) :
    (Node.object body).parts =
      body.slots.parts ++ body.dynamicParent.parts ++ body.lexicalParent.toList.map .handle :=
  List.append_nil _

@[simp, grind =]
theorem Node.parts_mirage (mirage : Mirage κ) :
    (Node.mirage mirage).parts = (Node.object mirage.object).parts ++ mirage.mirror.toList.map .handle := by
  rw [Node.parts_object]
  rfl

@[simp, grind =]
theorem Node.parts_frame (frame : CallFrame κ) :
    (Node.frame frame).parts = frame.slots.parts ++ [.handle frame.lexicalParent] := by
  simp [Node.parts, Node.slots, Node.dynamicParent, Node.lexicalParent?]

theorem Node.parts_body {node : Node κ} {body : PrototypeObject κ} (h : node.body? = some body) :
    (Node.object body).parts ⊆ node.parts := by
  cases node with
  | object _ =>
    cases h
    exact List.Subset.refl _
  | mirage mirage =>
    cases h
    rw [Node.parts_mirage]
    exact List.subset_append_left _ _
  | frame _ => cases h

theorem Node.parts_slots (node : Node κ) : node.slots.parts ⊆ node.parts := by
  simp [Node.parts]

theorem Node.parts_dynamicParent (node : Node κ) : node.dynamicParent.parts ⊆ node.parts := by
  simp [Node.parts]

theorem Node.parts_lexicalParent {node : Node κ} {parent : ObjectId}
    (h : node.lexicalParent? = some parent) : .handle parent ∈ node.parts := by
  simp [Node.parts, h]

theorem Node.handle_mem_parts (id : ObjectId) (node : Node κ) :
    .handle id ∈ node.parts ↔ id ∈ node.edges := by
  cases node <;>
    simp [Node.parts, Node.edges, Node.slots, Node.dynamicParent, Node.lexicalParent?, Value.parts,
      Storage.handle_mem_parts, Value.handle_mem_parts]

@[simp, grind =]
def Message.parts : Message κ → List (Part κ)
  | invoke receiver _ arguments => receiver.parts ++ Value.partsOfAll arguments
  | select receiver _ => receiver.parts
  | call _ arguments | newInstance arguments => Value.partsOfAll arguments
  | assignField _ value | assignVariable _ value | defineField _ value => value.parts
  | extend value | share value | isCloneOf value | isRelatedTo value | addField value
  | addMethod value | addSlot value | eval value | quote value => value.parts
  | lookup _ | clone | doesNotUnderstand _ | grabField _ | listFields | grabMethod _ | listMethods
  | grabSlot _ | removeSlot _ | listSlots | respondsTo _ | pass | resolve | print | isTaggedAs _
  | typeTags => []

/-- Laying a message out adds nothing. -/
theorem Message.parts_arguments (table : Identity) (message : Message κ) :
    Value.partsOfAll (message.arguments table) ⊆ message.parts := by
  cases message <;> simp [arguments, Message.parts, Value.partsOfAll, Value.parts]

@[simp, grind =]
def Resolution.parts : Resolution κ → List (Part κ)
  | .found holder slot => .handle holder :: slot.parts
  | .delegate next => next.parts
  | .absent => []

@[simp, grind =]
def Heap.Walk.parts : Heap.Walk κ → List (Part κ)
  | .decided _ => []
  | .ask parent => parent.parts

@[simp, grind =]
def Quoted.parts : Quoted κ → List (Part κ)
  | .code made => made.parts
  | .value answer => answer.parts

/-- Answers of runs, with what they hold. -/
class Answer (κ α : Type) where
  partsOf : α → List (Part κ)

export Answer (partsOf)

attribute [simp, grind =] Answer.partsOf

section Answers

instance : Answer κ Unit := ⟨fun _ => []⟩
instance : Answer κ Bool := ⟨fun _ => []⟩
instance : Answer κ Symbol := ⟨fun _ => []⟩
instance : Answer κ TypeTag := ⟨fun _ => []⟩
instance : Answer κ Identity := ⟨fun _ => []⟩
instance : Answer κ CloneFamily := ⟨fun _ => []⟩
instance : Answer κ ObjectId := ⟨fun id => [.handle id]⟩
instance : Answer κ (Value κ) := ⟨Value.parts⟩
instance : Answer κ (List (Value κ)) := ⟨Value.partsOfAll⟩
instance : Answer κ (Context κ) := ⟨Context.parts⟩
instance : Answer κ (Closure κ) := ⟨Closure.parts⟩
instance : Answer κ (Method κ) := ⟨Method.parts⟩
instance : Answer κ (Fragment κ) := ⟨Fragment.parts⟩
instance : Answer κ (List (Fragment κ)) := ⟨Fragment.partsOfAll⟩
instance : Answer κ (Storage κ) := ⟨Storage.parts⟩
instance : Answer κ (Node κ) := ⟨Node.parts⟩
instance : Answer κ (PrototypeObject κ) := ⟨fun body => (Node.object body).parts⟩
instance : Answer κ (Message κ) := ⟨Message.parts⟩
instance : Answer κ (Resolution κ) := ⟨Resolution.parts⟩
instance : Answer κ (Heap.Walk κ) := ⟨Heap.Walk.parts⟩
instance : Answer κ (Quoted κ) := ⟨Quoted.parts⟩
instance : Answer κ (List ObjectId) := ⟨List.map .handle⟩
instance : Answer κ (List (Symbol × Value κ)) := ⟨fun bindings => Value.partsOfAll (bindings.map Prod.snd)⟩
instance {α : Type} [Answer κ α] : Answer κ (Option α) := ⟨fun answer => answer.elim [] partsOf⟩
instance {α β : Type} [Answer κ α] [Answer κ β] : Answer κ (α × β) :=
  ⟨fun answer => partsOf answer.1 ++ partsOf answer.2⟩
instance {α β : Type} [Answer κ α] [Answer κ β] : Answer κ (α ⊕ β) := ⟨Sum.elim partsOf partsOf⟩

@[simp, grind =]
theorem partsOf_objectId (id : ObjectId) : (partsOf id : List (Part κ)) = [.handle id] := rfl

@[simp, grind =]
theorem partsOf_value (value : Value κ) : partsOf value = value.parts := rfl

@[simp, grind =]
theorem partsOf_values (values : List (Value κ)) : partsOf values = Value.partsOfAll values := rfl

@[simp, grind =]
theorem partsOf_closure (closure : Closure κ) : partsOf closure = closure.parts := rfl

@[simp, grind =]
theorem partsOf_method (method : Method κ) : partsOf method = method.parts := rfl

@[simp, grind =]
theorem partsOf_context (context : Context κ) : partsOf context = context.parts := rfl

@[simp, grind =]
theorem partsOf_fragment (fragment : Fragment κ) : partsOf fragment = fragment.parts := rfl

@[simp, grind =]
theorem partsOf_fragments (fragments : List (Fragment κ)) :
    partsOf fragments = Fragment.partsOfAll fragments := rfl

@[simp, grind =]
theorem partsOf_quoted (quoted : Quoted κ) : partsOf quoted = quoted.parts := rfl

@[simp, grind =]
theorem partsOf_message (message : Message κ) : partsOf message = message.parts := rfl

@[simp, grind =]
theorem partsOf_storage (storage : Storage κ) : partsOf storage = storage.parts := rfl

@[simp, grind =]
theorem partsOf_node (node : Node κ) : partsOf node = node.parts := rfl

@[simp, grind =]
theorem partsOf_some {α : Type} [Answer κ α] (answer : α) :
    (partsOf (some answer) : List (Part κ)) = partsOf answer := rfl

end Answers

end Prototypes
