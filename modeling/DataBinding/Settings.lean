import DataBinding.Flags
import DataBinding.Json.Canonical

/-!
# Settings

The part of a configuration that is written down: a document with the default flags.
-/

namespace DataBinding

structure Settings where
  defaultFlags : Flags := .empty
deriving DecidableEq, Repr

namespace Settings

open Json

def flagsKey : String := "default_flag"

def flags? : Document → Option Flags
  | .text (some s) => Flags.ofText? s
  | _ => none

/-- Reads the members in order: the key may occur once, other keys do not matter. -/
def ofMembers? : Option Flags → List (Option String × Document) → Option Settings
  | found, [] => some ⟨found.getD .empty⟩
  | found, (key, d) :: rest =>
    match key with
    | none => none
    | some key =>
      if key = flagsKey then
        match found with
        | some _ => none
        | none =>
          match flags? d with
          | none => none
          | some f => ofMembers? (some f) rest
      else ofMembers? found rest

/-- Settings are an object, or an array with at most the flags. -/
def ofDocument? : Document → Option Settings
  | .object members => ofMembers? none members
  | .array [] => some {}
  | .array [d] => (flags? d).map (⟨·⟩)
  | _ => none

def read? (s : String) : Option Settings := (Document.read? s).bind ofDocument?

def text (s : Settings) : String :=
  (Canonical.object [(flagsKey, .text s.defaultFlags.text)]).compact

end Settings

end DataBinding
