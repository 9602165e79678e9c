import Prototypes.Proofs.Approximation.Run
import Prototypes.Proofs.Quotation.Filling
import Prototypes.Semantics.Machine

/-!
# Quoting as substitution

What quoting does to the world is what evaluating the holes does, one after another
until one stops.  What it answers is the fragment with the values in the holes and
nothing else changed: had every hole been filled with itself, the fragment would be
back as it was.  Without holes nothing is evaluated, and the answer is the same code.

## Main results

* `Fragment.InTurn` — fragments evaluated one after another, each to an answer.
* `Fragment.splice_filled_with_holes` — filling every hole with itself changes nothing.
* `Fragment.quote_is_substitution` — quoting evaluates the holes in turn, and substitutes
  what they evaluate to.
-/

namespace Prototypes

variable {κ σ : Type}

namespace Fragment

/-! ## Holes evaluated in turn -/

section InTurn

variable (rt : Runtime κ σ) (context : Context κ)

/-- Fragments evaluated from the left, each once and in the world its predecessor left. -/
inductive InTurn : List (Fragment κ) → World κ σ → List (Value κ) → World κ σ → Prop where
  | nil (world : World κ σ) : InTurn [] world [] world
  | cons {fragment : Fragment κ} {more : List (Fragment κ)} {world between after : World κ σ}
      {value : Value κ} {values : List (Value κ)} :
      fragment.eval rt context world = .ok value between → InTurn more between values after →
        InTurn (fragment :: more) world (value :: values) after

variable {rt context}

theorem InTurn.length_eq {fragments : List (Fragment κ)} {world after : World κ σ}
    {values : List (Value κ)} (h : InTurn rt context fragments world values after) :
    values.length = fragments.length := by
  induction h with
  | nil world => rfl
  | cons _ _ ih => rw [List.length_cons, List.length_cons, ih]

variable (rt context)

/-- Evaluating a list either evaluates all of it in turn, or stops where one of it does. -/
theorem evalAll_cases (fragments : List (Fragment κ)) (world : World κ σ) :
    (∃ values after, InTurn rt context fragments world values after ∧
      evalAll rt context fragments world = .ok values after) ∨
    ∃ front stopped behind values between reason after,
      fragments = front ++ stopped :: behind ∧
        InTurn rt context front world values between ∧
        stopped.eval rt context between = .error reason after ∧
        evalAll rt context fragments world = .error reason after := by
  induction fragments generalizing world with
  | nil => exact .inl ⟨[], world, .nil world, rfl⟩
  | cons fragment more ih =>
    cases hfirst : fragment.eval rt context world with
    | error reason after =>
      exact .inr ⟨[], fragment, more, [], world, reason, after, rfl, .nil world, hfirst,
        Run.bind_of_error hfirst _⟩
    | ok value next =>
      have hall : evalAll rt context (fragment :: more) world =
          (List.cons value <$> evalAll rt context more) next := by
        rw [map_eq_pure_bind]
        exact Run.bind_of_ok hfirst _
      obtain ⟨values, after, hvalues, hmore⟩ |
        ⟨front, stopped, behind, values, between, reason, after, rfl, hfront, hstopped, hmore⟩ := ih next
      · refine .inl ⟨value :: values, after, .cons hfirst hvalues, ?_⟩
        rw [hall, map_eq_pure_bind, Run.bind_of_ok hmore]
        rfl
      · refine .inr ⟨fragment :: front, stopped, behind, value :: values, between, reason, after, rfl,
          .cons hfirst hfront, hstopped, ?_⟩
        rw [hall, map_eq_pure_bind, Run.bind_of_error hmore]

end InTurn

/-! ## Holes filled with themselves -/

/-- The unquotations that quoting comes to, as values. -/
def holeValues (identity : Identity) (holes : List (Fragment κ)) : List (Value κ) :=
  holes.map fun hole => .fragment identity (.unquotation hole)

theorem take_holeValues (identity : Identity) (front behind : List (Fragment κ)) :
    (holeValues identity (front ++ behind)).take front.length = holeValues identity front := by
  rw [holeValues, List.map_append, List.take_left' (by rw [List.length_map]), holeValues]

theorem drop_holeValues (identity : Identity) (front behind : List (Fragment κ)) :
    (holeValues identity (front ++ behind)).drop front.length = holeValues identity behind := by
  rw [holeValues, List.map_append, List.drop_left' (by rw [List.length_map]), holeValues]

mutual

/-- Nothing but the holes is filled: each filled with itself, the fragment is as it was. -/
theorem splice_filled_with_holes (identity : Identity) :
    (fragment : Fragment κ) → (fragment.filled (holeValues identity fragment.holes)).splice = fragment
  | .literal _ | .selfReference | .variableReference _ | .methodDefinition _ => by
    simp only [filled, Quoted.splice_code]
  | .definition _ value | .assignment _ value => by
    simp only [filled, holes, Quoted.splice_code, splice_filled_with_holes identity value]
  | .messageSend receiver _ arguments => by
    simp only [filled, holes, Quoted.splice_code, take_holeValues, drop_holeValues,
      splice_filled_with_holes identity receiver, filledAll_with_holes identity arguments]
  | .sequence statements => by
    simp only [filled, holes, Quoted.splice_code, filledAll_with_holes identity statements]
  | .quotation body => by
    simp only [filled, holes, Quoted.splice_code, splice_filled_with_holes identity body]
  | .unquotation _ => by
    simp only [filled, holes, holeValues, List.map_cons, List.headD_cons, Quoted.splice]

theorem filledAll_with_holes (identity : Identity) :
    (fragments : List (Fragment κ)) →
      filledAll fragments (holeValues identity (holesOfAll fragments)) = fragments
  | [] => by simp only [filledAll]
  | fragment :: more => by
    simp only [filledAll, holesOfAll, take_holeValues, drop_holeValues,
      splice_filled_with_holes identity fragment, filledAll_with_holes identity more]

end

/-- A fragment without holes is filled as it is. -/
theorem filled_of_no_holes {fragment : Fragment κ} (h : fragment.holes = []) :
    fragment.filled [] = .code fragment := by
  have hself := splice_filled_with_holes ⟨0⟩ fragment
  rw [h, holeValues, List.map_nil] at hself
  cases fragment with
  | unquotation body => simp only [holes, List.cons_ne_nil] at h
  | literal | selfReference | variableReference | methodDefinition => simp only [filled]
  | _ => simpa only [filled, Quoted.splice_code, Quoted.code.injEq] using hself

/-! ## Quoting -/

/--
Quoting a fragment evaluates the expressions in its holes, in turn.  It ends with the first
error, in the world of the error.  Otherwise it answers the fragment filled with the values,
in the world the last of them left; a hole that is the whole fragment gives the bare value.
Filling changes nothing but the holes.  Without holes the world is as it was, and the answer
the same code, which evaluates as the fragment does.  So it is for a fragment that is sent
`quote` as a value, whose answer is given an identity of its own.
-/
theorem quote_is_substitution (rt : Runtime κ σ) (context : Context κ) (fragment : Fragment κ)
    (world : World κ σ) :
    ((∃ values after, InTurn rt context fragment.holes world values after ∧
        values.length = fragment.holes.length ∧
        fragment.quote rt context world = .ok (fragment.filled values) after) ∨
      ∃ front stopped behind values between reason after,
        fragment.holes = front ++ stopped :: behind ∧
          InTurn rt context front world values between ∧
          stopped.eval rt context between = .error reason after ∧
          fragment.quote rt context world = .error reason after) ∧
      (∀ identity, (fragment.filled (holeValues identity fragment.holes)).splice = fragment) ∧
      (fragment.holes = [] →
        ∃ answer, fragment.quote rt context world = .ok (.code answer) world ∧ answer = fragment ∧
          ∀ (rt' : Runtime κ σ) (context' : Context κ) (world' : World κ σ),
            answer.eval rt' context' world' = fragment.eval rt' context' world') ∧
      ∀ identity place,
        rt.dispatch (.fragment identity fragment) (.quote (.context place context)) world =
          (fragment.quote rt context >>= Quoted.toValue) world := by
  refine ⟨?_, fun identity => splice_filled_with_holes identity fragment, fun hholes => ?_,
    fun _ _ => rfl⟩
  · rw [quote_eq_filled, map_eq_pure_bind]
    obtain ⟨values, after, hvalues, hall⟩ |
      ⟨front, stopped, behind, values, between, reason, after, hholes, hfront, hstopped, hall⟩ :=
        evalAll_cases rt context fragment.holes world
    · exact .inl ⟨values, after, hvalues, hvalues.length_eq, Run.bind_of_ok hall _⟩
    · exact .inr ⟨front, stopped, behind, values, between, reason, after, hholes, hfront, hstopped,
        Run.bind_of_error hall _⟩
  · refine ⟨fragment, ?_, rfl, fun _ _ _ => rfl⟩
    rw [quote_eq_filled, hholes, evalAll, map_pure, filled_of_no_holes hholes]
    rfl

/-- A message with two holes, the second of which needs what evaluating the first left. -/
private def holeAfterHole : Fragment Empty :=
  .messageSend (.unquotation (.definition ⟨"y"⟩ (.literal (.fixnum 9)))) ⟨"+"⟩
    [.unquotation (.variableReference ⟨"y"⟩)]

/-- A quotation without holes, its method having an unquotation for body. -/
private def quotedMethod : Fragment Empty :=
  .quotation (.methodDefinition ⟨⟨100⟩, ⟨"m"⟩, [], .fragment (.unquotation .selfReference)⟩)

/--
The unquotation in a method's body is no hole of a quotation: quoting it in a new world answers
the quotation with the method as it was, and changes nothing.
-/
theorem quote_is_substitution_method :
    let world : World Empty Unit := World.new default ()
    quotedMethod.holes = [] ∧
      ∃ answer, quotedMethod.quote (Runtime.ofFuel Host.none 1) world.topContext world =
        .ok (.code answer) world ∧ answer = quotedMethod := by
  intro world
  obtain ⟨answer, hquote, hanswer, -⟩ :=
    (quote_is_substitution (Runtime.ofFuel Host.none 1) world.topContext quotedMethod world).2.2.1 rfl
  exact ⟨rfl, answer, hquote, hanswer⟩

/-- What is defined in one hole is seen in the next. -/
example :
    let world : World Empty Unit := World.new default ()
    ∃ after, holeAfterHole.quote (Runtime.ofFuel Host.none 4) world.topContext world =
      .ok (.code (.messageSend (.literal (.fixnum 9)) ⟨"+"⟩ [.literal (.fixnum 9)])) after :=
  ⟨_, rfl⟩

end Fragment

end Prototypes
