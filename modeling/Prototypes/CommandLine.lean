import Prototypes.Scenario

/-!
# The command line

The demonstrations are chosen and sized by options. Arguments are taken from
the left, and the first that cannot be accepted decides the outcome: an unknown
or positional argument, an option given twice, a value that is missing or
malformed. Asking for the version ends reading too, so only what stands before
it matters.
-/

namespace Prototypes

namespace CommandLine

/-- Which demonstrations run. -/
inductive Choice where
  | extension
  | mirror
  | stress
  | all
deriving DecidableEq, Inhabited

namespace Choice

def ofText? : String → Option Choice
  | "extension" => some extension
  | "mirror" => some mirror
  | "stress" => some stress
  | "all" => some all
  | _ => none

end Choice

/-- The options given; each can be given once. -/
structure Options where
  depth : Option Nat
  choice : Option Choice
  tracing : Bool
deriving DecidableEq, Inhabited

/-- What the arguments ask for. -/
inductive Command where
  | run (options : Options)
  | version
  | invalid
deriving DecidableEq, Inhabited

/-! ## Reading arguments -/

/-- A count that fits a machine word: decimal digits, perhaps after a plus sign. -/
def readCount? (text : String) : Option Nat :=
  let digits := match text.toList with
    | '+' :: rest => rest
    | digits => digits
  if digits.isEmpty || !digits.all Char.isDigit then none
  else
    let count := digits.foldl (fun n c => 10 * n + (c.toNat - '0'.toNat)) 0
    if count < Nat.pow 2 64 then some count else none

def setDepth? (options : Options) (text : String) : Option Options :=
  match options.depth, readCount? text with
  | none, some depth => some { options with depth }
  | _, _ => none

def setChoice? (options : Options) (text : String) : Option Options :=
  match options.choice, Choice.ofText? text with
  | none, some choice => some { options with choice }
  | _, _ => none

/-- The text after an equals sign. -/
def attached? (option argument : String) : Option String :=
  if (option ++ "=").toList.isPrefixOf argument.toList then
    some (String.ofList (argument.toList.drop (option.length + 1)))
  else none

/-- Whether an argument is the short option for the version, or a cluster that starts with it. -/
def isShortVersion (argument : String) : Bool := ['-', 'V'].isPrefixOf argument.toList

/-- Reads arguments that follow `options`. -/
def readFrom (options : Options) : List String → Command
  | [] => .run options
  | ["--"] => .run options
  | "--version" :: _ => .version
  | "--trace" :: rest =>
    if options.tracing then .invalid else readFrom { options with tracing := true } rest
  | "--depth" :: value :: rest =>
    match setDepth? options value with
    | some options => readFrom options rest
    | none => .invalid
  | "--scenario" :: value :: rest =>
    match setChoice? options value with
    | some options => readFrom options rest
    | none => .invalid
  | argument :: rest =>
    if isShortVersion argument then .version
    else
      let set? := match attached? "--depth" argument, attached? "--scenario" argument with
        | some value, _ => setDepth? options value
        | none, some value => setChoice? options value
        | none, none => none
      match set? with
      | some options => readFrom options rest
      | none => .invalid

/-- Reads the arguments. -/
def read (arguments : List String) : Command := readFrom ⟨none, none, false⟩ arguments

/-! ## Running -/

/-- How a run of the program ended. -/
structure Outcome where
  exitCode : Nat
  output : String
deriving DecidableEq, Inhabited

/-- The demonstrations that were chosen, in order. -/
def story (options : Options) : Scenario.Story Unit := do
  let choice := options.choice.getD .all
  if choice = .all || choice = .extension then Scenario.extension
  if choice = .all || choice = .mirror then Scenario.mirror
  if choice = .all || choice = .stress then Scenario.stress (options.depth.getD 1000)

/-- More steps than any demonstration takes. -/
def stepLimit : Nat := Nat.pow 2 60

/-- What is told, in lines. -/
def lines (told : Array String) : String := told.foldl (fun text line => text ++ line ++ "\n") ""

/-- Runs the demonstrations. -/
def demonstrate (options : Options) : Outcome :=
  let settings : WorldSettings := { (default : WorldSettings) with tracing := options.tracing }
  match (story options).runFor stepLimit Scenario.host (World.new settings #[]) with
  | .ok () world => ⟨0, lines world.host⟩
  | .error (.raised _) world => ⟨1, lines world.host⟩
  | .error _ world => ⟨2, lines world.host⟩

/-- Does what the arguments ask for. -/
def execute (arguments : List String) : Outcome :=
  match read arguments with
  | .run options => demonstrate options
  | .version => ⟨0, "mirage 0.1.0\n"⟩
  | .invalid => ⟨2, ""⟩

end CommandLine

end Prototypes
