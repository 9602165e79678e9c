import Prototypes.Symbol.HostName
import Prototypes.Arity

/-!
# Primitives

Four messages are understood by every value once its chain of parents is
exhausted.
-/

namespace Prototypes

/-- The messages every value understands. -/
inductive Primitive where
  /-- `==`: is the argument the receiver? -/
  | identical
  /-- `!=` -/
  | notIdentical
  /-- `new`: a new instance of the receiver -/
  | new
  /-- `init`: ignores its arguments -/
  | init
deriving DecidableEq, Inhabited

namespace Primitive

def all : List Primitive := [identical, notIdentical, new, init]

def selector : Primitive → Symbol
  | identical => ⟨"=="⟩
  | notIdentical => ⟨"!="⟩
  | new => Selector.new
  | init => Selector.init

/-- The receiver does not count. -/
def arity : Primitive → Arity
  | identical | notIdentical => .exact 1
  | new | init => .atLeast 0

/-- The primitive a selector names. -/
def ofSelector? (selector : Symbol) : Option Primitive :=
  all.find? fun primitive => primitive.selector == selector

end Primitive

end Prototypes
