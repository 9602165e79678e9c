import Prototypes.Host.Request

/-!
# Host programs

Code of the embedding program sees an object world only through requests. A
`Program` is such code with its requests laid open: it is finished, or stops,
or makes a request and goes on according to the answer. It may also look at
the world, its log excepted, take identities for values it makes, and update
what the host remembers.

Being data, programs can be reasoned about by induction: whatever every request
keeps, every program keeps.
-/

namespace Prototypes

/-- What host code does, one step at a time. -/
inductive Program (κ σ α : Type) where
  | done (answer : α)
  | stop (reason : Halt)
  | observe (next : World κ σ → Program κ σ α)
  | remember (update : σ → σ) (next : Program κ σ α)
  | fresh (next : Identity → Program κ σ α)
  /-- a request; an error it raises is handed to the program -/
  | request (request : Request κ) (next : Except RuntimeError (Value κ) → Program κ σ α)
  | collect (roots : List (Value κ)) (next : Collected → Program κ σ α)

namespace Program

variable {κ σ α β : Type}

instance : Inhabited (Program κ σ α) := ⟨.stop .exhausted⟩

/-- One program after the other. -/
def bind (program : Program κ σ α) (next : α → Program κ σ β) : Program κ σ β :=
  match program with
  | done answer => next answer
  | stop reason => stop reason
  | observe more => observe fun world => (more world).bind next
  | remember update more => remember update (more.bind next)
  | fresh more => fresh fun identity => (more identity).bind next
  | request r more => request r fun answer => (more answer).bind next
  | collect roots more => collect roots fun collected => (more collected).bind next

instance : Monad (Program κ σ) where
  pure := done
  bind := bind

/-! ## Steps -/

/-- Stops with an error. -/
def raise (error : RuntimeError) : Program κ σ α := stop (.raised error)

/-- The answer of a check that can fail with an error. -/
def check : Except RuntimeError α → Program κ σ α
  | .ok answer => done answer
  | .error e => raise e

/-- Looks at the world; what is seen can stop the program. -/
def view (look : World κ σ → Except Halt α) : Program κ σ α :=
  observe fun world =>
    match look world with
    | .ok answer => done answer
    | .error reason => stop reason

/-- A new identity. -/
def identity : Program κ σ Identity := fresh done

/-- Makes a request, and stops if it fails. -/
def ask (r : Request κ) : Program κ σ (Value κ) := request r check

/-- Sends a message of the meta level. -/
def send (target : Value κ) (message : Message κ) : Program κ σ (Value κ) :=
  ask (.send target message)

/-- Sends an ordinary message. -/
def invoke (receiver : Value κ) (selector : Symbol) (arguments : List (Value κ)) :
    Program κ σ (Value κ) :=
  send receiver (.invoke receiver selector arguments)

/-- Sends a message of the meta level whose answer does not matter. -/
def tell (target : Value κ) (message : Message κ) : Program κ σ Unit :=
  discard (send target message)

/-- Sends a message on to the parent of the object in which the running method was found. -/
def superSend (context : Context κ) (selector : Symbol) (arguments : List (Value κ)) :
    Program κ σ (Value κ) :=
  send context.superView (.invoke context.receiver selector arguments)

/-- Applies a closure directly and asks anything else to apply itself. -/
def applyValue (callee : Value κ) (arguments : List (Value κ)) : Program κ σ (Value κ) :=
  match callee with
  | .closure _ closure => ask (.apply closure arguments)
  | other => do invoke other Selector.apply [.table (← identity) arguments]

/-- The text an object is printed as. -/
def print (value : Value κ) : Program κ σ String := do
  match ← send value .print with
  | .text text => return text
  | other => raise (.illegalArgument (.printedNoText other.kindName other.display))

/-- A closure in the outermost scope over host code. -/
def hostClosure (name : Symbol) (parameters : List Parameter) (code : κ) :
    Program κ σ (Value κ) := do
  let method ← check (Method.make (← identity) name parameters (.host code))
  let context ← view fun world => .ok world.topContext
  return .closure (← identity) ⟨method, context⟩

/--
Adds host code to `target` as a method, under its host name. A name of the
reflective stratum has to name a meta operation.
-/
def exposeHost (target : Value κ) (hostName : String) (parameters : List Parameter) (code : κ) :
    Program κ σ Unit := do
  let (stratum, selector) ← check (HostName.readOrFail hostName)
  if stratum = .reflective && (MetaOp.ofSelector? selector).isNone then
    raise (.illegalArgument (.noMetaOperation hostName))
  let method ← check (Method.make (← identity) selector parameters (.host code))
  tell target (.addMethod (.method method))

/-! ## Running -/

/-- Runs a program, its requests being answered by `rt`. -/
def run (rt : Runtime κ σ) : Program κ σ α → Run κ σ α
  | done answer => pure answer
  | stop reason => Run.halt reason
  | observe next => fun world => (next world.visible).run rt world
  | remember update next => fun world => next.run rt { world with host := update world.host }
  | fresh next => fun world =>
    (next ⟨world.supply⟩).run rt { world with supply := world.supply + 1 }
  | request r next => fun world =>
    match r.run rt world with
    | .ok answer world => (next (.ok answer)).run rt world
    | .error (.raised e) world => (next (.error e)).run rt world
    | .error reason world => .error reason world
  | collect roots next => fun world =>
    match Run.collect roots world with
    | .ok collected world => (next collected).run rt world
    | .error reason world => .error reason world

end Program

end Prototypes
