import Prototypes.Proofs.Safety.Defaults
import Prototypes.Semantics.Bodies

/-!
# Safe operations: values, code and bodies

Completes the list of operations with those on values outside the heap, fragments of code
among them, and with the two calls of a runtime: messages dispatched, and bodies of methods
run.  What host code does is left open.
-/

namespace Prototypes

variable {κ σ : Type}

open Run.Safe

variable {rules : Rules κ} {needs : List (Part κ)} {rt : Runtime κ σ} {context : Context κ}

/-! ## Fragments -/

theorem Quoted.parts_splice (quoted : Quoted κ) : quoted.splice.parts = quoted.parts := by
  match quoted with
  | .code fragment => rfl
  | .value answer => cases answer <;> rfl

theorem Quoted.safe_toValue {quoted : Quoted κ} (h : quoted.parts ⊆ needs) :
    Run.Safe rules needs (quoted.toValue : Run κ σ (Value κ)) := by
  cases quoted with
  | code fragment => exact fresh.bind fun _ => pure (by grind)
  | value value => exact pure h

namespace Fragment

mutual

theorem safe_eval {needs : List (Part κ)} (h : rt.Safe rules)
    (hcontext : context.parts ⊆ needs) :
    (fragment : Fragment κ) → fragment.parts ⊆ needs → Run.Safe rules needs (fragment.eval rt context)
  | .literal _, hfragment => pure (by grind)
  | .selfReference, _ => pure (by grind)
  | .variableReference _, _ => h.sends (by grind) (List.nil_subset _)
  | .definition _ fragment, hfragment | .assignment _ fragment, hfragment =>
    (safe_eval h hcontext fragment (by grind)).bind fun _ =>
      (h.sends (by grind) (by grind)).ignore.bind fun _ => pure (by grind)
  | .methodDefinition method, hfragment =>
    (h.sends (by grind) (by grind)).ignore.bind fun _ => pure (by grind)
  | .messageSend receiver _ arguments, hfragment =>
    (safe_eval h hcontext receiver (by grind)).bind fun _ =>
      (safe_evalAll h (by grind) arguments (by grind)).bind fun _ =>
        h.invoke _ (by grind) (by grind)
  | .sequence statements, hfragment =>
    safe_evalLast h hcontext (List.nil_subset _) statements (by grind)
  | .quotation body, hfragment =>
    (safe_quote h hcontext body (by grind)).bind fun quoted => quoted.safe_toValue (by grind)
  | .unquotation _, _ => raise rfl

theorem safe_evalAll {needs : List (Part κ)} (h : rt.Safe rules)
    (hcontext : context.parts ⊆ needs) :
    (fragments : List (Fragment κ)) → partsOfAll fragments ⊆ needs →
      Run.Safe rules needs (evalAll rt context fragments)
  | [], _ => pure (List.nil_subset _)
  | fragment :: more, hfragments =>
    (safe_eval h hcontext fragment (by grind)).bind fun _ =>
      (safe_evalAll h (by grind) more (by grind)).bind fun _ => pure (by grind)

theorem safe_evalLast {needs : List (Part κ)} (h : rt.Safe rules)
    (hcontext : context.parts ⊆ needs) {last : Value κ} (hlast : last.parts ⊆ needs) :
    (fragments : List (Fragment κ)) → partsOfAll fragments ⊆ needs →
      Run.Safe rules needs (evalLast rt context last fragments)
  | [], _ => pure hlast
  | fragment :: more, hfragments =>
    (safe_eval h hcontext fragment (by grind)).bind fun _ =>
      safe_evalLast h (by grind) (by grind) more (by grind)

theorem safe_quote {needs : List (Part κ)} (h : rt.Safe rules)
    (hcontext : context.parts ⊆ needs) :
    (fragment : Fragment κ) → fragment.parts ⊆ needs → Run.Safe rules needs (fragment.quote rt context)
  | .literal _, hfragment | .methodDefinition _, hfragment => pure (by grind)
  | .selfReference, _ | .variableReference _, _ => pure (List.nil_subset _)
  | .definition _ fragment, hfragment | .assignment _ fragment, hfragment
  | .quotation fragment, hfragment =>
    (safe_quote h hcontext fragment (by grind)).bind fun quoted => pure (by grind [Quoted.parts_splice])
  | .messageSend receiver _ arguments, hfragment =>
    (safe_quote h hcontext receiver (by grind)).bind fun quoted =>
      (safe_quoteAll h (by grind) arguments (by grind)).bind fun _ =>
        pure (by grind [Quoted.parts_splice])
  | .sequence statements, hfragment =>
    (safe_quoteAll h hcontext statements (by grind)).bind fun _ => pure (by grind)
  | .unquotation body, hfragment =>
    (safe_eval h hcontext body (by grind)).map fun _ => by grind

theorem safe_quoteAll {needs : List (Part κ)} (h : rt.Safe rules)
    (hcontext : context.parts ⊆ needs) :
    (fragments : List (Fragment κ)) → partsOfAll fragments ⊆ needs →
      Run.Safe rules needs (quoteAll rt context fragments)
  | [], _ => pure (List.nil_subset _)
  | fragment :: more, hfragments =>
    (safe_quote h hcontext fragment (by grind)).bind fun quoted =>
      (safe_quoteAll h (by grind) more (by grind)).bind fun _ =>
        pure (by grind [Quoted.parts_splice])

end

end Fragment

namespace Runtime.Safe

/-! ## Values outside the heap -/

/-- A message of its own comes to a field with an argument, unless it needs none. -/
theorem performOnField (h : rt.Safe rules) {field : NativeField} {selector : Symbol}
    {arguments : List (Value κ)} (hfield : .handle field.host ∈ needs)
    (harguments : Value.partsOfAll arguments ⊆ needs)
    (hlength : arguments.length = (Value.field field : Value κ).protocolArity selector) :
    Run.Safe rules needs (rt.performOnField field selector arguments) := by
  unfold Runtime.performOnField
  split
  · exact pure (List.nil_subset _)
  next hname =>
    split
    · exact h.readSlot field.name hfield
    next hread =>
      cases arguments with
      | nil => simp [Value.protocolArity, hname, hread] at hlength
      | cons argument arguments =>
        dsimp only
        split
        · exact (h.writeSlot field.name hfield (by grind)).bind fun _ => pure (List.nil_subset _)
        · exact check_bind (argument.yields_expectObject _) (by grind) fun host _ => pure (by grind)

theorem valueProtocol (h : rt.Safe rules) {value : Value κ} {selector : Symbol}
    {arguments : List (Value κ)} (hvalue : value.parts ⊆ needs)
    (harguments : Value.partsOfAll arguments ⊆ needs) :
    Run.Safe rules needs (rt.valueProtocol value selector arguments) := by
  unfold Runtime.valueProtocol
  split
  · exact pure (List.nil_subset _)
  · refine guard rfl fun hlength => ?_
    split
    next closure table _ _ =>
      refine check_bind (table.yields_expectTable _) (by grind) fun items _ => ?_
      exact (h.apply (by grind) (by grind)).map fun _ => by grind
    next field arguments =>
      refine (h.performOnField (by grind) (by grind) ?_).map fun _ => by grind
      exact Classical.not_not.mp hlength
    · exact pure (List.nil_subset _)

theorem valueSelect {value receiver : Value κ} (selector : Symbol) (hvalue : value.parts ⊆ needs)
    (hreceiver : receiver.parts ⊆ needs) :
    Run.Safe rules needs (Runtime.valueSelect value receiver selector : Run κ σ (Value κ)) := by
  refine fresh.bind fun identity => ?_
  refine made (Method.isMade_builtin identity selector (.resend selector)) <| get fun w => ?_
  exact newClosure (by grind)

theorem resolveReference {value : Value κ} (hvalue : value.parts ⊆ needs) :
    Run.Safe rules needs (Runtime.resolveReference value : Run κ σ (Value κ)) := by
  cases value with
  | farReference reference =>
    refine get fun w => ?_
    split
    · exact pure (by grind)
    · exact pure (by grind)
  | _ => exact pure hvalue

theorem performOnValue (h : rt.Safe rules) {value : Value κ} {message : Message κ}
    (hvalue : value.parts ⊆ needs) (hmessage : message.parts ⊆ needs) :
    Run.Safe rules needs (rt.performOnValue value message) := by
  cases message with
  | invoke receiver selector arguments =>
    refine (h.valueProtocol hvalue (by grind)).bind fun answer => ?_
    cases answer with
    | some answer => exact pure (by grind)
    | none => exact h.invokeFallback selector (by grind) (by grind)
  | select receiver selector =>
    unfold Runtime.performOnValue
    dsimp only
    split
    · exact valueSelect selector hvalue hmessage
    · exact h.selectFallback selector hmessage
  | newInstance arguments =>
    exact (h.invoke _ hvalue hmessage).ignore.bind fun _ => pure (by grind)
  | extend code => exact h.extendWith _ [] hvalue hmessage
  | share code => exact h.extendWith _ [] hvalue hmessage
  | doesNotUnderstand selector => exact defaultHandler selector hvalue
  | eval context =>
    refine check_bind (context.yields_expectContext _) hmessage fun context _ => ?_
    cases value with
    | fragment identity fragment => exact fragment.safe_eval h (by grind) (by grind)
    | _ => exact pure (by grind)
  | quote context =>
    refine check_bind (context.yields_expectContext _) hmessage fun context _ => ?_
    cases value with
    | fragment identity fragment =>
      exact (fragment.safe_quote h (by grind) (by grind)).bind fun quoted => quoted.safe_toValue (by grind)
    | _ => exact pure (by grind)
  | resolve => exact resolveReference hvalue
  | typeTags => exact newTable (List.nil_subset _)
  | clone | pass => exact pure hvalue
  | isCloneOf | isRelatedTo | respondsTo | print | isTaggedAs => exact pure (List.nil_subset _)
  | lookup | call | assignField | assignVariable | defineField | addField | grabField
  | listFields | addMethod | grabMethod | listMethods | addSlot | grabSlot | removeSlot
  | listSlots => exact raise rfl

/-! ## Messages dispatched -/

theorem askMirror (h : rt.Safe rules) {mirror : ObjectId} {message : Message κ}
    (hmirror : .handle mirror ∈ needs) (hmessage : message.parts ⊆ needs) :
    Run.Safe rules needs (rt.askMirror mirror message) := by
  refine fresh.bind fun table => ?_
  have harguments := message.parts_arguments table
  refine (h.invoke message.op.selector (by grind) (by grind)).bind fun answer => ?_
  exact check (answer.yields_promised message.op) (List.subset_append_left _ _)

theorem forward (h : rt.Safe rules) {mirage : ObjectId} {message : Message κ}
    (hmirage : .handle mirage ∈ needs) (hmessage : message.parts ⊆ needs) :
    Run.Safe rules needs (rt.forward mirage message) := by
  refine (mirrorOf hmirage).bind fun mirror => (trace _).bind fun _ => ?_
  refine (h.defaultTarget? message.op (by grind)).bind fun base => ?_
  cases base with
  | some base => exact h.performDefault (by grind) (by grind)
  | none => exact h.askMirror (by grind) (by grind)

theorem dispatch (h : rt.Safe rules) {target : Value κ} {message : Message κ}
    (htarget : target.parts ⊆ needs) (hmessage : message.parts ⊆ needs) :
    Run.Safe rules needs (rt.dispatch target message) := by
  cases target with
  | object id =>
    refine node_bind (by grind) fun node _ => ?_
    cases node with
    | object body => exact h.performDefault (by grind) (by grind)
    | mirage mirage => exact h.forward (by grind) (by grind)
    | frame frame =>
      dsimp only
      split
      · exact h.performDefault (by grind) (by grind)
      · exact raise rfl
  | _ => exact h.performOnValue htarget hmessage

/-! ## Bodies of methods -/

theorem performOnBase (h : rt.Safe rules) (op : MetaOp) {mirror : Value κ}
    {arguments : List (Value κ)} (hmirror : mirror.parts ⊆ needs)
    (harguments : Value.partsOfAll arguments ⊆ needs) :
    Run.Safe rules needs (rt.performOnBase op mirror arguments) := by
  refine (h.mirrorBase hmirror).bind fun base => (trace _).bind fun _ => ?_
  refine check_bind (Message.yields_read op arguments) (by grind) fun message _ => ?_
  exact h.performDefault (by grind) (by grind)

/-- The first of the arguments that a method has accepted. -/
theorem firstArgument {method : Method κ} {body : Builtin} {arguments : List (Value κ)}
    (hbody : method.body = .builtin body) (hreads : body.readsArgument = true)
    (haccepts : method.arity.accepts arguments.length = true)
    (hmethod : .native method ∈ needs) (harguments : Value.partsOfAll arguments ⊆ needs) :
    Run.Safe rules needs (Runtime.firstArgument arguments : Run κ σ (Value κ)) := by
  cases arguments with
  | nil =>
    exact fun v hv hneeds => .stop hv (rules.argument (hneeds _ hmethod) hbody hreads haccepts)
  | cons argument arguments => exact pure (by grind)

/-- A method run on arguments that it accepts, if what host code does is safe. -/
theorem runMethod_of (h : rt.Safe rules) (host : Host κ σ) {method : Method κ} {context : Context κ}
    {arguments : List (Value κ)} (haccepts : method.arity.accepts arguments.length = true)
    (hmethod : method.parts ⊆ needs) (hcontext : context.parts ⊆ needs)
    (harguments : Value.partsOfAll arguments ⊆ needs)
    (hhost : ∀ code, method.body = .host code →
      Run.Safe rules needs ((host.program code context arguments).run rt)) :
    Run.Safe rules needs (rt.runMethod host method context arguments) := by
  obtain ⟨identity, name, parameters, body⟩ := method
  match body with
  | .builtin (.accessor name) =>
    exact ((slotOwner context).mono hcontext).bind fun owner => h.readSlot name (by grind)
  | .builtin (.mutator name) =>
    refine ((slotOwner context).mono hcontext).bind fun owner => ?_
    refine (firstArgument rfl rfl haccepts (by grind [Method.parts]) (by grind)).bind fun value => ?_
    exact (h.writeSlot name (by grind) (by grind)).bind fun _ => pure (by grind)
  | .builtin (.notUnderstood selector) => exact raise rfl
  | .builtin (.primitive primitive selector) =>
    exact h.callPrimitive primitive selector (by grind) harguments
  | .builtin (.resend selector) => exact h.sends (by grind) (by grind)
  | .builtin (.performDefault op) => exact h.performOnBase op (by grind) harguments
  | .builtin .bindBase =>
    refine (firstArgument rfl rfl haccepts (by grind [Method.parts]) harguments).bind fun value => ?_
    exact (bindMirror (by grind) (by grind)).bind fun _ => pure (List.nil_subset _)
  | .host code => exact hhost code rfl
  | .fragment fragment => exact fragment.safe_eval h hcontext hmethod

end Runtime.Safe

end Prototypes
