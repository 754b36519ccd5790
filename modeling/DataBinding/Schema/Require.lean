import DataBinding.Schema.Lookup
import DataBinding.Error

/-!
# Required declarations

Lookup of members and methods that have to exist.
-/

namespace DataBinding.TypeTable

def requireMember (types : TypeTable) (t : TypeId) (name : String) : Except Error Member :=
  match types.member? t name with
  | some m => .ok m
  | none => .error (.memberNotFound name (types.name t))

def requireMethod (types : TypeTable) (t : TypeId) (name : String) (arity : Nat) : Except Error Method :=
  match types.method? t name arity with
  | some m => .ok m
  | none => .error (.memberNotFound (name ++ "/" ++ toString arity) (types.name t))

end DataBinding.TypeTable
