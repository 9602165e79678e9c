import Prototypes.Semantics.Runtime

/-!
# Evaluating and quoting fragments

`eval` runs a fragment in a context. `quote` rebuilds it, every unquotation in
it being replaced by what its inner fragment evaluates to. A quotation evaluates
to what quoting its inner fragment gives, so the two call each other.

What quoting gives is a fragment, or a bare value if the whole fragment was an
unquotation (`Quoted`). A bare value that stands inside a larger fragment is
spliced in: a fragment as it is, any other value as a literal. Code inside
method bodies is not touched.
-/

namespace Prototypes

variable {κ σ : Type}

/-- What quoting gives. -/
inductive Quoted (κ : Type) where
  /-- a fragment built anew -/
  | code (fragment : Fragment κ)
  /-- the value of an unquotation -/
  | value (value : Value κ)

namespace Quoted

/-- As a part of a larger fragment. -/
def splice : Quoted κ → Fragment κ
  | code fragment => fragment
  | value (.fragment _ fragment) => fragment
  | value other => .literal other

/-- As a value; a fragment built anew gets an identity of its own. -/
def toValue : Quoted κ → Run κ σ (Value κ)
  | code fragment => return .fragment (← Run.fresh) fragment
  | value v => pure v

end Quoted

namespace Fragment

variable (rt : Runtime κ σ)

mutual

/-- Runs a fragment. -/
def eval (context : Context κ) : Fragment κ → Run κ σ (Value κ)
  | .literal value => pure value
  | .selfReference => pure context.receiver
  | .variableReference name => rt.send (.object context.scope) (.lookup name)
  | .definition name fragment => do
    let value ← eval context fragment
    discard <| rt.send (.object context.scope) (.defineField name value)
    return value
  | .assignment name fragment => do
    let value ← eval context fragment
    discard <| rt.send (.object context.scope) (.assignVariable name value)
    return value
  | .methodDefinition method => do
    discard <| rt.send (.object context.scope) (.addMethod (.method method))
    return .method method
  | .messageSend receiver selector arguments => do
    let receiver ← eval context receiver
    rt.invoke receiver selector (← evalAll context arguments)
  | .sequence statements => evalLast context .nil statements
  | .quotation body => do (← quote context body).toValue
  | .unquotation _ => Run.raise (.illegalOperation .strayUnquotation)

/-- Evaluates fragments from the left. -/
def evalAll (context : Context κ) : List (Fragment κ) → Run κ σ (List (Value κ))
  | [] => pure []
  | fragment :: more => do
    let value ← eval context fragment
    return value :: (← evalAll context more)

/-- Evaluates fragments from the left and answers the last value, `last` if there is none. -/
def evalLast (context : Context κ) (last : Value κ) : List (Fragment κ) → Run κ σ (Value κ)
  | [] => pure last
  | fragment :: more => do evalLast context (← eval context fragment) more

/-- Rebuilds a fragment. -/
def quote (context : Context κ) : Fragment κ → Run κ σ (Quoted κ)
  | .literal value => return .code (.literal value)
  | .selfReference => return .code .selfReference
  | .variableReference name => return .code (.variableReference name)
  | .definition name fragment => return .code (.definition name (← quote context fragment).splice)
  | .assignment name fragment => return .code (.assignment name (← quote context fragment).splice)
  | .methodDefinition method => return .code (.methodDefinition method)
  | .messageSend receiver selector arguments => do
    let receiver := (← quote context receiver).splice
    return .code (.messageSend receiver selector (← quoteAll context arguments))
  | .sequence statements => return .code (.sequence (← quoteAll context statements))
  | .quotation body => return .code (.quotation (← quote context body).splice)
  | .unquotation body => .value <$> eval context body

/-- Rebuilds fragments from the left. -/
def quoteAll (context : Context κ) : List (Fragment κ) → Run κ σ (List (Fragment κ))
  | [] => pure []
  | fragment :: more => do
    let fragment := (← quote context fragment).splice
    return fragment :: (← quoteAll context more)

end

end Fragment

end Prototypes
