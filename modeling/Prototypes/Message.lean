import Prototypes.Method

/-!
# Messages of the meta level

A `Message` is a meta operation with its arguments in the form the operation
needs them: a selector where a selector belongs, a list where a table does.

Only at the border to mirrors do messages turn into values. A message that is
sent to a mirror is laid out as a list of arguments (`Message.arguments`), a
table being made for its list if it has one; a mirror that falls back on the
default meaning of an operation has its arguments read again
(`Message.read`), and that is where arguments of the wrong kind are noticed.
-/

namespace Prototypes

variable {κ : Type}

/-- A meta operation and its arguments. -/
inductive Message (κ : Type) where
  | invoke (receiver : Value κ) (selector : Symbol) (arguments : List (Value κ))
  | select (receiver : Value κ) (selector : Symbol)
  | lookup (selector : Symbol)
  | call (selector : Symbol) (arguments : List (Value κ))
  | assignField (selector : Symbol) (value : Value κ)
  | assignVariable (selector : Symbol) (value : Value κ)
  | defineField (selector : Symbol) (value : Value κ)
  | clone
  | newInstance (arguments : List (Value κ))
  | extend (code : Value κ)
  | share (code : Value κ)
  | doesNotUnderstand (selector : Symbol)
  | isCloneOf (other : Value κ)
  | isRelatedTo (other : Value κ)
  | addField (field : Value κ)
  | grabField (selector : Symbol)
  | listFields
  | addMethod (method : Value κ)
  | grabMethod (selector : Symbol)
  | listMethods
  | addSlot (slot : Value κ)
  | grabSlot (selector : Symbol)
  | removeSlot (selector : Symbol)
  | listSlots
  | respondsTo (selector : Symbol)
  | eval (context : Value κ)
  | quote (context : Value κ)
  | pass
  | resolve
  | print
  | isTaggedAs (tag : TypeTag)
  | typeTags

namespace Message

/-- The operation a message asks for. -/
def op : Message κ → MetaOp
  | invoke .. => .invoke
  | select .. => .select
  | lookup _ => .lookup
  | call .. => .call
  | assignField .. => .assignField
  | assignVariable .. => .assignVariable
  | defineField .. => .defineField
  | clone => .clone
  | newInstance _ => .newInstance
  | extend _ => .extend
  | share _ => .share
  | doesNotUnderstand _ => .doesNotUnderstand
  | isCloneOf _ => .isCloneOf
  | isRelatedTo _ => .isRelatedTo
  | addField _ => .addField
  | grabField _ => .grabField
  | listFields => .listFields
  | addMethod _ => .addMethod
  | grabMethod _ => .grabMethod
  | listMethods => .listMethods
  | addSlot _ => .addSlot
  | grabSlot _ => .grabSlot
  | removeSlot _ => .removeSlot
  | listSlots => .listSlots
  | respondsTo _ => .respondsTo
  | eval _ => .eval
  | quote _ => .quote
  | pass => .pass
  | resolve => .resolve
  | print => .print
  | isTaggedAs _ => .isTaggedAs
  | typeTags => .typeTags

/-- The arguments a mirror receives; `table` is the identity of the table made for a list. -/
def arguments (table : Identity) : Message κ → List (Value κ)
  | invoke receiver selector arguments => [receiver, .symbol selector, .table table arguments]
  | select receiver selector => [receiver, .symbol selector]
  | call selector arguments => [.symbol selector, .table table arguments]
  | assignField selector value | assignVariable selector value | defineField selector value =>
    [.symbol selector, value]
  | newInstance arguments => [.table table arguments]
  | extend value | share value | isCloneOf value | isRelatedTo value | addField value
  | addMethod value | addSlot value | eval value | quote value => [value]
  | lookup selector | doesNotUnderstand selector | grabField selector | grabMethod selector
  | grabSlot selector | removeSlot selector | respondsTo selector => [.symbol selector]
  | isTaggedAs tag => [.typeTag tag]
  | clone | listFields | listMethods | listSlots | pass | resolve | print | typeTags => []

/-! ## Reading arguments -/

/-- An argument that has to be a selector. -/
def readSelector (value : Value κ) : Except RuntimeError Symbol := value.expectSymbol "selector"

/-- An argument that has to be a table of arguments. -/
def readTable (value : Value κ) : Except RuntimeError (List (Value κ)) :=
  value.expectTable "argument table"

/-- The message of an operation with one selector for argument. -/
def ofSelector (message : Symbol → Message κ) (value : Value κ) : Except RuntimeError (Message κ) :=
  message <$> readSelector value

/-- The message of an operation with a selector and a value for arguments. -/
def ofAssignment (message : Symbol → Value κ → Message κ) (selector value : Value κ) :
    Except RuntimeError (Message κ) := do
  return message (← readSelector selector) value

/--
Reads the arguments of an operation: first their number is checked, then the
kinds the operation depends on, from the left except that `call` looks at its
table first.
-/
def read : MetaOp → List (Value κ) → Except RuntimeError (Message κ)
  | .invoke, [receiver, selector, arguments] => do
    return invoke receiver (← readSelector selector) (← readTable arguments)
  | .select, [receiver, selector] => do return select receiver (← readSelector selector)
  | .lookup, [selector] => ofSelector lookup selector
  | .call, [selector, arguments] => do
    let arguments ← readTable arguments
    return call (← readSelector selector) arguments
  | .assignField, [selector, value] => ofAssignment assignField selector value
  | .assignVariable, [selector, value] => ofAssignment assignVariable selector value
  | .defineField, [selector, value] => ofAssignment defineField selector value
  | .clone, [] => .ok clone
  | .newInstance, [arguments] => newInstance <$> readTable arguments
  | .extend, [code] => .ok (extend code)
  | .share, [code] => .ok (share code)
  | .doesNotUnderstand, [selector] => ofSelector doesNotUnderstand selector
  | .isCloneOf, [other] => .ok (isCloneOf other)
  | .isRelatedTo, [other] => .ok (isRelatedTo other)
  | .addField, [field] => .ok (addField field)
  | .grabField, [selector] => ofSelector grabField selector
  | .listFields, [] => .ok listFields
  | .addMethod, [method] => .ok (addMethod method)
  | .grabMethod, [selector] => ofSelector grabMethod selector
  | .listMethods, [] => .ok listMethods
  | .addSlot, [slot] => .ok (addSlot slot)
  | .grabSlot, [selector] => ofSelector grabSlot selector
  | .removeSlot, [selector] => ofSelector removeSlot selector
  | .listSlots, [] => .ok listSlots
  | .respondsTo, [selector] => ofSelector respondsTo selector
  | .eval, [context] => .ok (eval context)
  | .quote, [context] => .ok (quote context)
  | .pass, [] => .ok pass
  | .resolve, [] => .ok resolve
  | .print, [] => .ok print
  | .isTaggedAs, [tag] => isTaggedAs <$> tag.expectTypeTag "type tag"
  | .typeTags, [] => .ok typeTags
  | op, arguments => .error (.arityMismatch op.selector op.arity arguments.length)

/-- A message is read back from the arguments it is laid out as. -/
theorem read_arguments (table : Identity) (message : Message κ) :
    read message.op (message.arguments table) = .ok message := by
  cases message <;> rfl

/-- A mirror receives one argument for each parameter of the operation. -/
theorem length_arguments (table : Identity) (message : Message κ) :
    (message.arguments table).length = message.op.parameters.length := by
  cases message <;> rfl

end Message

end Prototypes
