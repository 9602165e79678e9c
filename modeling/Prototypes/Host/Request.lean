import Prototypes.Semantics.Dispatch

/-!
# Requests of the host

The operations of an object world that change it, as data. Whatever is done to
a world from outside is a sequence of these, garbage collection apart.

`Request.run` answers a request. A request that has nothing to say answers nil;
handles are answered as object values.
-/

namespace Prototypes

variable {κ σ : Type}

/-- What a host can ask of a world. -/
inductive Request (κ : Type) where
  /-- a message of the meta level -/
  | send (target : Value κ) (message : Message κ)
  | apply (closure : Closure κ) (arguments : List (Value κ))
  | applyInScope (closure : Closure κ) (arguments : List (Value κ)) (context : Context κ)
  | newObject
  /-- a new object on `parent`, whose meta level is not asked -/
  | extendWith (parent : Value κ) (link : ParentLink) (code : Value κ) (tags : List TypeTag)
  | newMirage (parent : Value κ) (link : ParentLink) (scope : Option ObjectId)
      (tags : List TypeTag)
  | bindMirror (mirror mirage : Value κ)
  | createMirage (code mirror : Value κ) (tags : List TypeTag)
  | freshMirror
  | mirrorBase (mirror : Value κ)
  /-- what a value stands for where it arrives, in a new world of another actor -/
  | resolveIn (actor : ActorId) (value : Value κ)

namespace Request

/-- What `value` stands for in a new world of `actor`; that it came into being is reported here. -/
def resolveElsewhere (rt : Runtime κ σ) (actor : ActorId) (value : Value κ) :
    Run κ σ (Value κ) := fun world =>
  let away : World κ σ := World.new { (default : WorldSettings) with actor } world.host
  let world := { world with log := world.log ++ away.log }
  match rt.dispatch value .resolve away with
  | .ok answer _ => .ok answer world
  | .error reason _ => .error reason world

/-- Answers a request. -/
def run (rt : Runtime κ σ) : Request κ → Run κ σ (Value κ)
  | send target message => rt.send target message
  | apply closure arguments => rt.apply closure arguments
  | applyInScope closure arguments context => rt.applyInScope closure arguments context
  | newObject => Run.newObject
  | extendWith parent link code tags => rt.extendWith parent link code tags
  | newMirage parent link scope tags => .object <$> Run.newMirage parent link scope tags
  | bindMirror mirror mirage => do
    Run.bindMirror mirror mirage
    return .nil
  | createMirage code mirror tags => rt.createMirage code mirror tags
  | freshMirror => Run.freshMirror
  | mirrorBase mirror => .object <$> rt.mirrorBase mirror
  | resolveIn actor value => resolveElsewhere rt actor value

end Request

end Prototypes
