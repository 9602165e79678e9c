import Prototypes.Semantics.Bodies

/-!
# Tying the knot

The operations are defined over the calls through which they re-enter each
other. Here those calls are given their meaning, over a number of steps: with
none left every call halts as exhausted, and with `n + 1` steps a call does
what the operations do whose calls have `n`. A run that halts otherwise, or
answers, has had steps enough.
-/

namespace Prototypes

variable {κ σ α : Type}

namespace Runtime

/-- The runtime whose calls never answer. -/
def idle : Runtime κ σ where
  fuel := 0
  send _ _ := Run.halt .exhausted
  run _ _ _ := Run.halt .exhausted

/--
The runtime with a number of steps. Its calls do what the operations do over the
runtime with one step less, of which no more is built than is called.
-/
def ofFuel (host : Host κ σ) : Nat → Runtime κ σ
  | 0 => idle
  | fuel + 1 =>
    { fuel := fuel + 1
      send := fun target message => (ofFuel host fuel).dispatch target message
      run := fun method context arguments =>
        (ofFuel host fuel).runMethod host method context arguments }

theorem fuel_ofFuel (host : Host κ σ) (fuel : Nat) : (ofFuel host fuel).fuel = fuel := by
  cases fuel <;> rfl

end Runtime

namespace Program

/-- Runs a program with a number of steps. -/
def runFor (fuel : Nat) (host : Host κ σ) (program : Program κ σ α) : Run κ σ α :=
  program.run (Runtime.ofFuel host fuel)

end Program

end Prototypes
