import Prototypes.Semantics.Mirrors

/-!
# New objects

Objects are made from nothing, by extending a parent, or as mirages. Code that
builds an object runs with the new object as scope and receiver, so what it
defines becomes the object's slots.

Binding a new mirage to its mirror is left to the mirror: a prototype mirror is
asked for a new instance, which binds itself when it is initialised with the
mirage. Only the mirror root is never instantiated; a bare child of it is
bound instead.
-/

namespace Prototypes

variable {κ σ : Type}

namespace Run

/-- An empty orphan in the outermost scope. -/
def newObject : Run κ σ (Value κ) := do
  let body ← newBody .nil .isA (some (← get).lexicalRoot) []
  return .object (← allocate (.object body))

/-- The handler for a message the receiver does not understand; it fails when it is applied. -/
def defaultHandler (receiver : Value κ) (selector : Symbol) : Run κ σ (Value κ) := do
  let method := Method.builtin (← fresh) selector [.rest ⟨"arguments"⟩] (.notUnderstood selector)
  let scope := receiver.asObject?.getD (← get).lexicalRoot
  newClosure ⟨method, ⟨scope, receiver, .nil⟩⟩

end Run

namespace Runtime

variable (rt : Runtime κ σ)

/-- A new object on `parent`, built by `code`. -/
def extendWith (parent : Value κ) (link : ParentLink) (code : Value κ) (tags : List TypeTag) :
    Run κ σ (Value κ) := do
  let code ← Run.check (code.expectClosure "extension code")
  let body ← Run.newBody parent link (some code.context.scope) tags
  let id ← Run.allocate (.object body)
  Run.report (.extended parent.display id link)
  discard <| rt.applyInScope code [] ⟨id, .object id, parent⟩
  return .object id

/-- A new mirage with an instance of `mirror`, built by `code`. -/
def createMirage (code mirror : Value κ) (tags : List TypeTag) : Run κ σ (Value κ) := do
  let code ← Run.check (code.expectClosure "mirage code")
  let mirrorId ← Run.check (mirror.expectObject "mirror")
  let id ← Run.newMirage .nil .isA (some code.context.scope) tags
  let mirage : Value κ := .object id
  if mirrorId = (← get).mirrorRoot then
    Run.bindMirror (← Run.freshMirror) mirage
  else
    discard <| rt.send mirror (.newInstance [mirage])
  discard <| rt.applyInScope code [] ⟨id, mirage, .nil⟩
  return mirage

end Runtime

end Prototypes
