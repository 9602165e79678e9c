import Prototypes.Proofs.Approximation.Run
import Prototypes.Proofs.Quotation.Filling
import Prototypes.Semantics.Machine

/-!
# What quoting leaves of unquotations

An unquotation means something only inside a quotation: evaluated on its own it is an
error.  Quoting puts a value in place of every unquotation it comes to.  It does not
come to all of them, since a method that a fragment defines is taken over as it is,
with the unquotations in its body.  Nothing else in the answer is one, unless it came
in with code: a literal that holds some, or a value put into a hole.

## Main results

* `Fragment.unquotations_of_quote` — the unquotations of what quoting answers are those
  in the methods the fragment defines.
* `Fragment.quote_leaves_method_bodies` — and there they stay.
-/

namespace Prototypes

variable {κ σ : Type}

/-! ## Unquotations, wherever they are -/

mutual

/-- The unquotations in a value, in code and in the literals of code. -/
def Value.unquotations : Value κ → List (Fragment κ)
  | .table _ items => Value.unquotationsOfAll items
  | .closure _ closure => Closure.unquotations closure
  | .method method => Method.unquotations method
  | .context _ context => Context.unquotations context
  | .fragment _ fragment => Fragment.unquotations fragment
  | .nil | .bool _ | .fixnum _ | .float _ | .text _ | .symbol _ | .object _ | .field _ | .typeTag _
  | .farReference _ => []

def Value.unquotationsOfAll : List (Value κ) → List (Fragment κ)
  | [] => []
  | value :: more => Value.unquotations value ++ Value.unquotationsOfAll more

def Context.unquotations : Context κ → List (Fragment κ)
  | ⟨_, receiver, superView⟩ => Value.unquotations receiver ++ Value.unquotations superView

def Closure.unquotations : Closure κ → List (Fragment κ)
  | ⟨method, context⟩ => Method.unquotations method ++ Context.unquotations context

/-- Built-in and host bodies are not code as a tree. -/
def Method.unquotations : Method κ → List (Fragment κ)
  | ⟨_, _, _, .fragment body⟩ => Fragment.unquotations body
  | ⟨_, _, _, .builtin _⟩ | ⟨_, _, _, .host _⟩ => []

def Fragment.unquotations : Fragment κ → List (Fragment κ)
  | .literal value => Value.unquotations value
  | .selfReference | .variableReference _ => []
  | .definition _ value => Fragment.unquotations value
  | .assignment _ value => Fragment.unquotations value
  | .methodDefinition method => Method.unquotations method
  | .messageSend receiver _ arguments =>
    Fragment.unquotations receiver ++ Fragment.unquotationsOfAll arguments
  | .sequence statements => Fragment.unquotationsOfAll statements
  | .quotation body => Fragment.unquotations body
  | .unquotation body => .unquotation body :: Fragment.unquotations body

def Fragment.unquotationsOfAll : List (Fragment κ) → List (Fragment κ)
  | [] => []
  | fragment :: more => Fragment.unquotations fragment ++ Fragment.unquotationsOfAll more

end

/-! ## Values without code -/

mutual

/-- Whether a value holds a fragment or a method, be it in a closure. -/
def Value.holdsCode : Value κ → Bool
  | .table _ items => Value.anyHoldsCode items
  | .context _ context => Context.holdsCode context
  | .closure .. | .method _ | .fragment .. => true
  | .nil | .bool _ | .fixnum _ | .float _ | .text _ | .symbol _ | .object _ | .field _ | .typeTag _
  | .farReference _ => false

def Value.anyHoldsCode : List (Value κ) → Bool
  | [] => false
  | value :: more => Value.holdsCode value || Value.anyHoldsCode more

def Context.holdsCode : Context κ → Bool
  | ⟨_, receiver, superView⟩ => Value.holdsCode receiver || Value.holdsCode superView

end

mutual

theorem Value.unquotations_of_codeless :
    (value : Value κ) → value.holdsCode = false → value.unquotations = []
  | .table _ items, h => by
    rw [Value.holdsCode] at h
    rw [Value.unquotations, Value.unquotationsOfAll_of_codeless items h]
  | .context _ context, h => by
    rw [Value.holdsCode] at h
    rw [Value.unquotations, Context.unquotations_of_codeless context h]
  | .closure .., h | .method _, h | .fragment .., h => by cases h
  | .nil, _ | .bool _, _ | .fixnum _, _ | .float _, _ | .text _, _ | .symbol _, _ | .object _, _
  | .field _, _ | .typeTag _, _ | .farReference _, _ => by rw [Value.unquotations]

theorem Value.unquotationsOfAll_of_codeless :
    (values : List (Value κ)) → Value.anyHoldsCode values = false →
      Value.unquotationsOfAll values = []
  | [], _ => by rw [Value.unquotationsOfAll]
  | value :: more, h => by
    rw [Value.anyHoldsCode, Bool.or_eq_false_iff] at h
    rw [Value.unquotationsOfAll, Value.unquotations_of_codeless value h.1,
      Value.unquotationsOfAll_of_codeless more h.2, List.append_nil]

theorem Context.unquotations_of_codeless :
    (context : Context κ) → context.holdsCode = false → context.unquotations = []
  | ⟨_, receiver, superView⟩, h => by
    rw [Context.holdsCode, Bool.or_eq_false_iff] at h
    rw [Context.unquotations, Value.unquotations_of_codeless receiver h.1,
      Value.unquotations_of_codeless superView h.2, List.append_nil]

end

/-! ## What quoting takes over -/

/-- The fragment that quoting gave, if it did not give another kind of value. -/
def Quoted.fragment? : Quoted κ → Option (Fragment κ)
  | .code fragment => some fragment
  | .value (.fragment _ fragment) => some fragment
  | .value _ => none

theorem Quoted.splice_of_fragment? {quoted : Quoted κ} {fragment : Fragment κ}
    (h : quoted.fragment? = some fragment) : quoted.splice = fragment := by
  cases quoted with
  | code built => exact Option.some.inj h
  | value value =>
    cases value with
    | fragment identity found => exact Option.some.inj h
    | _ => cases h

/-- A value without code is spliced in as a literal. -/
theorem Quoted.unquotations_splice_of_codeless {value : Value κ} (h : value.holdsCode = false) :
    (Quoted.value value).splice.unquotations = [] := by
  cases value with
  | fragment identity fragment => cases h
  | _ => exact Value.unquotations_of_codeless _ h

namespace Fragment

mutual

/-- The literals outside of unquotations and methods. -/
def keptLiterals : Fragment κ → List (Value κ)
  | .literal value => [value]
  | .selfReference | .variableReference _ | .methodDefinition _ | .unquotation _ => []
  | .definition _ value => keptLiterals value
  | .assignment _ value => keptLiterals value
  | .messageSend receiver _ arguments => keptLiterals receiver ++ keptLiteralsOfAll arguments
  | .sequence statements => keptLiteralsOfAll statements
  | .quotation body => keptLiterals body

def keptLiteralsOfAll : List (Fragment κ) → List (Value κ)
  | [] => []
  | fragment :: more => keptLiterals fragment ++ keptLiteralsOfAll more

end

mutual

/-- The methods that are defined outside of unquotations and other methods. -/
def keptMethods : Fragment κ → List (Method κ)
  | .literal _ | .selfReference | .variableReference _ | .unquotation _ => []
  | .methodDefinition method => [method]
  | .definition _ value => keptMethods value
  | .assignment _ value => keptMethods value
  | .messageSend receiver _ arguments => keptMethods receiver ++ keptMethodsOfAll arguments
  | .sequence statements => keptMethodsOfAll statements
  | .quotation body => keptMethods body

def keptMethodsOfAll : List (Fragment κ) → List (Method κ)
  | [] => []
  | fragment :: more => keptMethods fragment ++ keptMethodsOfAll more

end

/-- None of these values holds code. -/
abbrev Codeless (values : List (Value κ)) : Prop := ∀ value ∈ values, value.holdsCode = false

mutual

/-- Filled with values without code, a fragment has the unquotations of its methods left. -/
theorem unquotations_filled :
    (fragment : Fragment κ) → Codeless fragment.keptLiterals →
      (values : List (Value κ)) → Codeless values →
        (fragment.filled values).splice.unquotations = fragment.keptMethods.flatMap Method.unquotations
  | .literal value, hkept, _, _ => by
    simp only [filled, Quoted.splice_code, unquotations, keptMethods, List.flatMap_nil]
    exact value.unquotations_of_codeless (hkept value (by simp [keptLiterals]))
  | .selfReference, _, _, _ | .variableReference _, _, _, _ => by
    simp only [filled, Quoted.splice_code, unquotations, keptMethods, List.flatMap_nil]
  | .methodDefinition method, _, _, _ => by
    simp only [filled, Quoted.splice_code, unquotations, keptMethods, List.flatMap_cons, List.flatMap_nil,
      List.append_nil]
  | .definition _ value, hkept, values, hvalues | .assignment _ value, hkept, values, hvalues => by
    simp only [filled, Quoted.splice_code, unquotations, keptMethods]
    exact unquotations_filled value (by simpa only [keptLiterals] using hkept) values hvalues
  | .messageSend receiver _ arguments, hkept, values, hvalues => by
    simp only [keptLiterals, List.forall_mem_append] at hkept
    simp only [filled, Quoted.splice_code, unquotations, keptMethods, List.flatMap_append]
    rw [unquotations_filled receiver hkept.1 _ fun value h => hvalues value (List.mem_of_mem_take h),
      unquotationsOfAll_filledAll arguments hkept.2 _
        fun value h => hvalues value (List.mem_of_mem_drop h)]
  | .sequence statements, hkept, values, hvalues => by
    simp only [filled, Quoted.splice_code, unquotations, keptMethods]
    exact unquotationsOfAll_filledAll statements (by simpa only [keptLiterals] using hkept) values hvalues
  | .quotation body, hkept, values, hvalues => by
    simp only [filled, Quoted.splice_code, unquotations, keptMethods]
    exact unquotations_filled body (by simpa only [keptLiterals] using hkept) values hvalues
  | .unquotation _, _, values, hvalues => by
    simp only [filled, keptMethods, List.flatMap_nil]
    refine Quoted.unquotations_splice_of_codeless ?_
    cases values with
    | nil => rfl
    | cons value more => exact hvalues value (List.mem_cons_self ..)

theorem unquotationsOfAll_filledAll :
    (fragments : List (Fragment κ)) → Codeless (keptLiteralsOfAll fragments) →
      (values : List (Value κ)) → Codeless values →
        unquotationsOfAll (filledAll fragments values) =
          (keptMethodsOfAll fragments).flatMap Method.unquotations
  | [], _, _, _ => by
    simp only [filledAll, unquotationsOfAll, keptMethodsOfAll, List.flatMap_nil]
  | fragment :: more, hkept, values, hvalues => by
    simp only [keptLiteralsOfAll, List.forall_mem_append] at hkept
    simp only [filledAll, unquotationsOfAll, keptMethodsOfAll, List.flatMap_append]
    rw [unquotations_filled fragment hkept.1 _ fun value h => hvalues value (List.mem_of_mem_take h),
      unquotationsOfAll_filledAll more hkept.2 _ fun value h => hvalues value (List.mem_of_mem_drop h)]

end

/-! ## The unquotations of an answer -/

/--
When quoting gives a fragment, its holes were evaluated to some values.  If neither these
values nor the literals of the fragment hold code, the unquotations of the answer are just
those in the methods that the fragment defines: none is left outside of method bodies.
-/
theorem unquotations_of_quote (rt : Runtime κ σ) (context : Context κ) {fragment answer : Fragment κ}
    {world after : World κ σ} {quoted : Quoted κ}
    (hquote : fragment.quote rt context world = .ok quoted after)
    (hanswer : quoted.fragment? = some answer) :
    ∃ values, evalAll rt context fragment.holes world = .ok values after ∧
      (Codeless fragment.keptLiterals → Codeless values →
        answer.unquotations = fragment.keptMethods.flatMap Method.unquotations) := by
  rw [quote_eq_filled, map_eq_pure_bind] at hquote
  obtain ⟨values, evaluated, hvalues, hfilled⟩ := Run.eq_ok_of_bind hquote
  obtain ⟨rfl, rfl⟩ : fragment.filled values = quoted ∧ evaluated = after := by
    cases hfilled
    exact ⟨rfl, rfl⟩
  refine ⟨values, hvalues, fun hkept hcodeless => ?_⟩
  rw [← Quoted.splice_of_fragment? hanswer]
  exact unquotations_filled fragment hkept values hcodeless

/-- A definition of a method whose body is an unquotation. -/
private def unquotingMethod : Fragment Empty :=
  .methodDefinition ⟨⟨100⟩, ⟨"m"⟩, [], .fragment (.unquotation (.literal (.fixnum 1)))⟩

/-- The method after a hole. -/
private def holeThenMethod : Fragment Empty :=
  .sequence [.unquotation (.literal (.bool true)), unquotingMethod]

/-- The hole is filled and no unquotation any more, what the method holds is left. -/
theorem unquotations_of_quote_sequence :
    let world : World Empty Unit := World.new default ()
    let answer : Fragment Empty := .sequence [.literal (.bool true), unquotingMethod]
    holeThenMethod.quote (Runtime.ofFuel Host.none 1) world.topContext world =
        .ok (.code answer) world ∧
      Codeless holeThenMethod.keptLiterals ∧
      answer.unquotations = [.unquotation (.literal (.fixnum 1))] := by
  intro world answer
  have hquote : holeThenMethod.quote (Runtime.ofFuel Host.none 1) world.topContext world =
      .ok (.code answer) world := rfl
  have hkept : Codeless holeThenMethod.keptLiterals := by decide
  obtain ⟨values, hvalues, hleft⟩ := unquotations_of_quote _ _ hquote rfl
  obtain rfl : values = [.bool true] := by
    cases hvalues
    rfl
  exact ⟨hquote, hkept, hleft hkept (by decide)⟩

/--
Quoting the definition of a method changes nothing and evaluates nothing, so the answer
has the unquotation that is the method's body.  Once defined, the method fails.
-/
theorem quote_leaves_method_bodies :
    let world : World Empty Unit := World.new default ()
    unquotingMethod.holes = [] ∧
      unquotingMethod.quote (Runtime.ofFuel Host.none 1) world.topContext world =
        .ok (.code unquotingMethod) world ∧
      unquotingMethod.unquotations = [.unquotation (.literal (.fixnum 1))] ∧
      ∃ after, (do
          discard <| unquotingMethod.eval (Runtime.ofFuel Host.none 5) world.topContext
          (Runtime.ofFuel Host.none 5).send (.object world.lexicalRoot) (.call ⟨"m"⟩ []) :
            Run Empty Unit (Value Empty)) world =
        .error (.raised (.illegalOperation .strayUnquotation)) after :=
  ⟨rfl, rfl, rfl, _, rfl⟩

end Fragment

end Prototypes
