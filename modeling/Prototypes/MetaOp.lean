import Prototypes.Arity
import Prototypes.Symbol.HostName

/-!
# Meta operations

Everything that can be done to an object is one of thirty-two operations. An
ordinary object answers each with its default meaning; a mirage passes it on
to its mirror, as a message whose selector is the operation's name.
-/

namespace Prototypes

/-- The operations every object answers. -/
inductive MetaOp where
  | invoke | select | lookup | call | assignField | assignVariable | defineField
  | clone | newInstance | extend | share | doesNotUnderstand | isCloneOf | isRelatedTo
  | addField | grabField | listFields | addMethod | grabMethod | listMethods
  | addSlot | grabSlot | removeSlot | listSlots | respondsTo
  | eval | quote | pass | resolve | print | isTaggedAs | typeTags
deriving DecidableEq, Inhabited

namespace MetaOp

/-- All operations, in their order. -/
def all : List MetaOp :=
  [invoke, select, lookup, call, assignField, assignVariable, defineField,
   clone, newInstance, extend, share, doesNotUnderstand, isCloneOf, isRelatedTo,
   addField, grabField, listFields, addMethod, grabMethod, listMethods,
   addSlot, grabSlot, removeSlot, listSlots, respondsTo,
   eval, quote, pass, resolve, print, isTaggedAs, typeTags]

/-- The name a mirror implements the operation under. -/
def name : MetaOp → String
  | invoke => "invoke"
  | select => "select"
  | lookup => "lookup"
  | call => "call"
  | assignField => "assignField"
  | assignVariable => "assignVariable"
  | defineField => "defineField"
  | clone => "clone"
  | newInstance => "newInstance"
  | extend => "extend"
  | share => "share"
  | doesNotUnderstand => "doesNotUnderstand"
  | isCloneOf => "isCloneOf"
  | isRelatedTo => "isRelatedTo"
  | addField => "addField"
  | grabField => "grabField"
  | listFields => "listFields"
  | addMethod => "addMethod"
  | grabMethod => "grabMethod"
  | listMethods => "listMethods"
  | addSlot => "addSlot"
  | grabSlot => "grabSlot"
  | removeSlot => "removeSlot"
  | listSlots => "listSlots"
  | respondsTo => "respondsTo"
  | eval => "eval"
  | quote => "quote"
  | pass => "pass"
  | resolve => "resolve"
  | print => "print"
  | isTaggedAs => "isTaggedAs"
  | typeTags => "typeTags"

/-- What a mirror receives when it is sent the operation. -/
def parameters : MetaOp → List String
  | invoke => ["receiver", "selector", "arguments"]
  | select => ["receiver", "selector"]
  | call => ["selector", "arguments"]
  | assignField | assignVariable | defineField => ["selector", "value"]
  | newInstance => ["arguments"]
  | extend | share => ["code"]
  | isCloneOf | isRelatedTo => ["other"]
  | addField => ["field"]
  | addMethod => ["method"]
  | addSlot => ["slot"]
  | lookup | doesNotUnderstand | grabField | grabMethod | grabSlot | removeSlot | respondsTo =>
    ["selector"]
  | eval | quote => ["context"]
  | isTaggedAs => ["tag"]
  | clone | listFields | listMethods | listSlots | pass | resolve | print | typeTags => []

instance : ToString MetaOp := ⟨name⟩

/-- The name with a capital letter. -/
def label (op : MetaOp) : String := op.name.capitalize

/-- The operation's place in `all`. -/
def index (op : MetaOp) : Nat := all.idxOf op

def selector (op : MetaOp) : Symbol := ⟨op.name⟩

/-- The name host code implements the operation under, such as `meta_invoke`. -/
def hostName (op : MetaOp) : String := HostName.ofSymbol .reflective op.selector

def arity (op : MetaOp) : Arity := .exact op.parameters.length

/-- The operation a mirror implements under `selector`. -/
def ofSelector? (selector : Symbol) : Option MetaOp := all.find? fun op => op.selector == selector

/-- Call frames answer only what concerns them as lexical scopes. -/
def appliesToFrames : MetaOp → Bool
  | lookup | call | assignVariable | defineField => true
  | _ => false

/-! ## Looking operations up -/

theorem mem_all (op : MetaOp) : op ∈ all := by cases op <;> decide

theorem getElem?_index (op : MetaOp) : all[op.index]? = some op := by cases op <;> decide

theorem ofSelector?_selector (op : MetaOp) : ofSelector? op.selector = some op := by
  cases op <;> decide

/-- Each operation has a selector of its own. -/
theorem selector_inj {a b : MetaOp} : a.selector = b.selector ↔ a = b :=
  ⟨fun h => Option.some.inj (by rw [← ofSelector?_selector a, h, ofSelector?_selector b]),
    congrArg selector⟩

end MetaOp

end Prototypes
