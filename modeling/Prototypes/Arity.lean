/-!
# Arities

How many arguments a method takes: an exact number, or any number from a
least one on when its last parameter collects the rest.
-/

namespace Prototypes

/-- The numbers of arguments a method accepts. -/
structure Arity where
  required : Nat
  variadic : Bool
deriving DecidableEq, Inhabited

namespace Arity

def exact (required : Nat) : Arity := ⟨required, false⟩

def atLeast (required : Nat) : Arity := ⟨required, true⟩

def accepts (arity : Arity) (count : Nat) : Bool :=
  if arity.variadic then arity.required ≤ count else count = arity.required

/-- `2`, or `at least 2`. -/
def text (arity : Arity) : String :=
  if arity.variadic then s!"at least {arity.required}" else s!"{arity.required}"

instance : ToString Arity := ⟨text⟩

end Arity

end Prototypes
