import Mathlib.Data.List.Nodup
import Prototypes.Error

/-!
# The symbol table

How selectors lie in memory. The texts of all selectors are in one vector, and a
selector is the number of its text there, so that two of them are compared by
comparing numbers. A hash map beside the vector tells the number of a text.

Texts are only ever added. Who makes an assignment or reads its target interns the
text of the answer and may thereby add it.

A number has 32 bits. That of a new text is the length of the vector, of which only
the lower bits are kept: the text behind the first `2 ^ 32` has the number of the first.
-/

namespace Prototypes

/-- A selector in memory: the number of its text. -/
structure SymbolId where
  number : UInt32
deriving DecidableEq, Inhabited

/-- The texts that have been interned, and the number of each. -/
structure SymbolTable where
  texts : List String
  ids : Std.ExtHashMap String SymbolId

namespace SymbolTable

def empty : SymbolTable := ⟨[], ∅⟩

/-- The symbol of a text that has been interned. -/
def find? (table : SymbolTable) (text : String) : Option SymbolId := table.ids[text]?

/-- The text of a symbol; a number beyond the vector stops whoever reads it. -/
def text (table : SymbolTable) (id : SymbolId) : Except Halt String :=
  match table.texts[id.number.toNat]? with
  | some text => .ok text
  | none => .error .outOfBounds

/-! ## Interning -/

/-- The symbol that the next new text gets. -/
def next (table : SymbolTable) : SymbolId := ⟨.ofNat table.texts.length⟩

def add (table : SymbolTable) (text : String) : SymbolTable :=
  ⟨table.texts ++ [text], table.ids.insert text table.next⟩

/-- The symbol of a text, which is added unless it is there. -/
def getOrAdd (table : SymbolTable) (text : String) : SymbolId × SymbolTable :=
  match table.find? text with
  | some id => (id, table)
  | none => (table.next, table.add text)

/--
The symbol of a text. Looking it up needs no more than a shared lock; only a text that
is not found is looked up again under the exclusive one, and added.
-/
def intern (table : SymbolTable) (text : String) : SymbolId × SymbolTable :=
  match table.find? text with
  | some id => (id, table)
  | none => table.getOrAdd text

/-- Interns texts one after the other: the symbols handed out, and the table that is left. -/
def internAll (table : SymbolTable) : List String → List SymbolId × SymbolTable
  | [] => ([], table)
  | text :: more =>
    let (id, later) := table.intern text
    let (ids, last) := later.internAll more
    (id :: ids, last)

/-! ## Assignments -/

/-- Whether the symbol is an assignment. -/
def isAssignment (table : SymbolTable) (id : SymbolId) : Except Halt Bool := do
  return (Symbol.mk (← table.text id)).isAssignment

/-- The symbol of what the assignment writes, if it is one. -/
def assignmentTarget? (table : SymbolTable) (id : SymbolId) :
    Except Halt (Option SymbolId × SymbolTable) := do
  match (Symbol.mk (← table.text id)).assignmentTarget? with
  | none => return (none, table)
  | some target =>
    let (found, later) := table.intern target.text
    return (some found, later)

/-- The symbol of the assignment to a symbol. -/
def assignment (table : SymbolTable) (id : SymbolId) : Except Halt (SymbolId × SymbolTable) := do
  return table.intern (Symbol.mk (← table.text id)).assignment.text

end SymbolTable

end Prototypes
