import DataBinding.World

/-!
# The host

What bindings rely on from the program around them: its types, the labels of its object classes, and a way
to perform actions. Everything that runs host code takes the host as an argument and calls back through it.
-/

namespace DataBinding

structure Platform where
  types : TypeTable
  classLabel : ObjectKind → String
  /-- How deep raises may be nested, if the program limits that. -/
  raiseLimit : Option Nat := none

structure Host extends Platform where
  perform : Action → Effect Unit

namespace Host

/-- The object behind a value, which has to be of the wanted class. -/
def downcast (host : Host) (wanted : ObjectKind) (v : Value) : Except Error ObjectRef :=
  match v with
  | .object r =>
    if r.kind = wanted then .ok r
    else .error (.typeMismatch (.wrongClass (host.types.name r.type) (host.classLabel wanted)))
  | v => .error (v.mismatch host.types "an object")

/-- Performs a script; an empty one needs no call back. -/
def run (host : Host) (acts : List Act) : Effect Unit :=
  if acts.isEmpty then pure () else host.perform (.script acts)

end Host

end DataBinding
