import Prototypes.Semantics.Machine

/-!
# Demonstrations

Three short stories about delegation, told by host programs that write down
lines of text as they go.

* `extension`: accessors, is-a and shares-a clones.
* `mirror`: a mirage whose mirror counts how often a slot is selected.
* `stress`: a long chain in which plain objects and mirages alternate.
-/

namespace Prototypes

namespace Scenario

/-- The host code that occurs in the stories. -/
inductive Code where
  /-- defines a field in the scope being built -/
  | define (name : Symbol) (value : Int64)
  | nothing
  /-- makes the object being built a mirror that counts selections -/
  | countingMirror
  /-- a mirror's `select`: counts, and goes on with the default -/
  | countedSelect
deriving DecidableEq, Inhabited

/-- A story; what the host remembers is the lines told so far. -/
abbrev Story (α : Type) := Program Code (Array String) α

/-- The field a counting mirror counts in. -/
def selections : Symbol := ⟨"selections"⟩

def x : Symbol := ⟨"x"⟩

/-- What a piece of code does. -/
def program (code : Code) (context : Context Code) (arguments : List (Value Code)) :
    Story (Value Code) := do
  let scope : Value Code := .object context.scope
  match code with
  | .define name value =>
    Program.tell scope (.defineField name (.fixnum value))
    return .nil
  | .nothing => return .nil
  | .countingMirror =>
    Program.tell scope (.defineField selections (.fixnum 0))
    let select ← Program.check (Method.make (← Program.identity) ⟨"select"⟩
      [.required ⟨"receiver"⟩, .required ⟨"selector"⟩] (.host .countedSelect))
    Program.tell scope (.addMethod (.method select))
    return .nil
  | .countedSelect =>
    let count ← Program.invoke context.receiver selections []
    let count := count.asFixnum?.getD 0 + 1
    Program.tell context.receiver (.assignField selections (.fixnum count))
    Program.superSend context ⟨"select"⟩ arguments

def host : Host Code (Array String) := ⟨program⟩

/-! ## Telling -/

/-- Writes a line. -/
def say (line : String) : Story Unit := .remember (fun lines => lines.push line) (.done ())

/-- A closure over host code without parameters. -/
def code (body : Code) : Story (Value Code) := Program.hostClosure ⟨"code"⟩ [] body

/-- An object without parent, built by `code`. -/
def objectLiteral (code : Value Code) : Story (Value Code) :=
  Program.ask (.extendWith .nil .isA code [])

def extension : Story Unit := do
  let a ← objectLiteral (← code (.define x 1))
  let definesY ← code (.define ⟨"y"⟩ 2)
  let b ← Program.send a (.extend definesY)
  let accessor ← Program.send b (.select b x)
  let read ← Program.applyValue accessor []
  say s!"B.select(B, x) applied => {read.display}"
  let copy ← Program.send b .clone
  Program.tell copy (.assignField x (.fixnum 9))
  let copied ← Program.invoke copy x []
  let kept ← Program.invoke a x []
  say s!"B.clone().x := 9 => clone.x = {copied.display}, A.x = {kept.display}"
  let shared ← Program.send a (.share definesY)
  let sharedCopy ← Program.send shared .clone
  Program.tell sharedCopy (.assignField x (.fixnum 5))
  let written ← Program.invoke a x []
  say s!"shares-a clone writes through: A.x = {written.display}"
  Program.tell a (.assignField x (.fixnum 1))

/-- A mirror that counts selections and otherwise answers by default. -/
def countingMirror : Story (Value Code) := do
  let root ← Program.view fun world => .ok world.mirrorRoot
  Program.send (.object root) (.extend (← code .countingMirror))

def mirror : Story Unit := do
  let prototype ← countingMirror
  let mirage ← Program.ask (.createMirage (← code (.define x 7)) prototype [])
  let id ← Program.check (mirage.expectObject "mirage")
  let mirror ← Program.view fun world => world.mirrorOf id
  let accessor ← Program.send mirage (.select mirage x)
  let selected ← Program.applyValue accessor []
  let invoked ← Program.invoke mirage x []
  let count ← Program.invoke (.object mirror) selections []
  say s!"mirage.x selected => {selected.display}, invoked => {invoked.display}, selections seen: {count.display}"
  say s!"printed as {← Program.print mirage}"

/-- A mirage with a counting mirror on `current`. -/
def mirageOn (current prototype : Value Code) : Story (Value Code) := do
  let scope ← Program.view fun world => .ok world.lexicalRoot
  let mirage ← Program.ask (.newMirage current .isA (some scope) [])
  Program.tell prototype (.newInstance [mirage])
  return mirage

/-- Puts `remaining` levels on top of `current`: mirages at even levels, extensions at odd ones. -/
def pile (prototype empty : Value Code) :
    (remaining level : Nat) → (current : Value Code) → Story (Value Code)
  | 0, _, current => pure current
  | remaining + 1, level, current => do
    let next ← if level % 2 = 0 then mirageOn current prototype
      else Program.send current (.extend empty)
    pile prototype empty remaining (level + 1) next

def stress (depth : Nat) : Story Unit := do
  let prototype ← countingMirror
  let bottom ← objectLiteral (← code (.define x 42))
  let empty ← code .nothing
  let top ← pile prototype empty depth 0 bottom
  let found ← Program.invoke top x []
  say s!"depth {depth}: x => {found.display}"
  let collected ← Program.collect [top] .done
  say s!"heap: {collected.live} live, {collected.freed} freed"

end Scenario

end Prototypes
