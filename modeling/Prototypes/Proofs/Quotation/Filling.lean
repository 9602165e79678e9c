import Prototypes.Semantics.Fragments

/-!
# Quoting as filling in

The unquotations that quoting evaluates are the *holes* of a fragment.  Quoting comes
to them from the left, enters neither literals nor methods nor another hole, and does
nothing between one hole and the next.  So it is two things done one after the other:
the expressions in the holes are evaluated, as a list, and the fragment is rebuilt
with the values in their places, which asks nothing of the world.

## Main results

* `Fragment.holes`, `Fragment.filled` — the expressions in the holes, and the fragment
  with values in place of them.
* `Fragment.quote_eq_filled` — quoting is filling in what the expressions evaluate to.
-/

namespace Prototypes

variable {κ σ : Type}

@[simp]
theorem Quoted.splice_code (fragment : Fragment κ) : (Quoted.code fragment).splice = fragment := rfl

namespace Fragment

/-! ## Holes -/

mutual

/-- The expressions in the unquotations that quoting evaluates, from the left. -/
def holes : Fragment κ → List (Fragment κ)
  | .literal _ | .selfReference | .variableReference _ | .methodDefinition _ => []
  | .definition _ value => holes value
  | .assignment _ value => holes value
  | .messageSend receiver _ arguments => holes receiver ++ holesOfAll arguments
  | .sequence statements => holesOfAll statements
  | .quotation body => holes body
  | .unquotation body => [body]

def holesOfAll : List (Fragment κ) → List (Fragment κ)
  | [] => []
  | fragment :: more => holes fragment ++ holesOfAll more

end

mutual

/-- The fragment with a value for each hole.  A part takes as many values as it has holes. -/
def filled : Fragment κ → List (Value κ) → Quoted κ
  | .literal value, _ => .code (.literal value)
  | .selfReference, _ => .code .selfReference
  | .variableReference name, _ => .code (.variableReference name)
  | .definition name value, values => .code (.definition name (filled value values).splice)
  | .assignment name value, values => .code (.assignment name (filled value values).splice)
  | .methodDefinition method, _ => .code (.methodDefinition method)
  | .messageSend receiver selector arguments, values =>
    .code (.messageSend (filled receiver (values.take receiver.holes.length)).splice selector
      (filledAll arguments (values.drop receiver.holes.length)))
  | .sequence statements, values => .code (.sequence (filledAll statements values))
  | .quotation body, values => .code (.quotation (filled body values).splice)
  | .unquotation _, values => .value (values.headD .nil)

def filledAll : List (Fragment κ) → List (Value κ) → List (Fragment κ)
  | [], _ => []
  | fragment :: more, values =>
    (filled fragment (values.take fragment.holes.length)).splice ::
      filledAll more (values.drop fragment.holes.length)

end

/-! ## Evaluating one list after another -/

variable (rt : Runtime κ σ) (context : Context κ)

/--
What is made of the values of two lists of fragments, evaluated as one list, is made of
the values of the first and those of the second.
-/
theorem map_evalAll_append {α : Type} (make : List (Value κ) → List (Value κ) → α)
    (front behind : List (Fragment κ)) :
    (fun values => make (values.take front.length) (values.drop front.length)) <$>
        evalAll rt context (front ++ behind) =
      evalAll rt context front >>= fun first => make first <$> evalAll rt context behind := by
  induction front generalizing make with
  | nil =>
    rw [evalAll, pure_bind]
    rfl
  | cons fragment front ih =>
    simp only [List.cons_append, evalAll, map_bind, map_pure, bind_assoc, pure_bind]
    refine bind_congr fun value => ?_
    rw [← ih fun first second => make (value :: first) second, map_eq_pure_bind]
    rfl

/-! ## Quoting -/

mutual

/-- Quoting evaluates the expressions in the holes, and fills in their values. -/
theorem quote_eq_filled :
    (fragment : Fragment κ) →
      fragment.quote rt context = fragment.filled <$> evalAll rt context fragment.holes
  | .literal _ | .selfReference | .variableReference _ | .methodDefinition _ => by
    simp only [quote, holes, evalAll, map_pure, filled]
  | .definition _ value | .assignment _ value => by
    simp only [quote, holes, filled, quote_eq_filled value, bind_pure_comp, Functor.map_map]
  | .messageSend receiver selector arguments => by
    simp only [quote, holes, filled, quote_eq_filled receiver, quoteAll_eq_filledAll arguments]
    rw [map_evalAll_append rt context fun first second =>
      Quoted.code (.messageSend (receiver.filled first).splice selector (filledAll arguments second))]
    simp only [bind_pure_comp, Functor.map_map, bind_map_left]
  | .sequence statements => by
    simp only [quote, holes, filled, quoteAll_eq_filledAll statements, bind_pure_comp,
      Functor.map_map]
  | .quotation body => by
    simp only [quote, holes, filled, quote_eq_filled body, bind_pure_comp, Functor.map_map]
  | .unquotation body => by
    simp only [quote, holes, evalAll, filled, bind_pure_comp, Functor.map_map, map_pure,
      List.headD_cons]

theorem quoteAll_eq_filledAll :
    (fragments : List (Fragment κ)) →
      quoteAll rt context fragments = filledAll fragments <$> evalAll rt context (holesOfAll fragments)
  | [] => by simp only [quoteAll, holesOfAll, evalAll, map_pure, filledAll]
  | fragment :: more => by
    simp only [quoteAll, holesOfAll, filledAll, quote_eq_filled fragment, quoteAll_eq_filledAll more]
    rw [map_evalAll_append rt context fun first second =>
      (fragment.filled first).splice :: filledAll more second]
    simp only [bind_pure_comp, Functor.map_map, bind_map_left]

end

end Fragment

end Prototypes
