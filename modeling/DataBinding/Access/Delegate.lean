import DataBinding.Schema.Require
import DataBinding.Table

/-!
# Method delegates

Methods that are ready to be called with a list of arguments, the receiver in front. A delegate knows how
many arguments it takes, whether it gives a value and whether it changes its receiver in place.
-/

namespace DataBinding

/-- The most arguments, receiver included, that a delegate takes. -/
def Delegate.maxArity : Nat := 5

/-- What a delegate is called with and what it gives. -/
inductive DelegateKind where
  | action (arity : Nat)
  | function (arity : Nat)
  | valueInstanceAction (arity : Nat)
  | valueInstanceFunction (arity : Nat)
deriving DecidableEq, Repr

namespace DelegateKind

def of (m : Method) : DelegateKind :=
  match m.returns, m.convention with
  | none, .record => valueInstanceAction m.totalArity
  | none, _ => action m.totalArity
  | some _, .record => valueInstanceFunction m.totalArity
  | some _, _ => function m.totalArity

def arity : DelegateKind → Nat
  | action n | function n | valueInstanceAction n | valueInstanceFunction n => n

def returnsValue : DelegateKind → Bool
  | function _ | valueInstanceFunction _ => true
  | _ => false

def text : DelegateKind → String
  | action n => "Action(" ++ toString n ++ ")"
  | function n => "Function(" ++ toString n ++ ")"
  | valueInstanceAction n => "ValueInstanceAction(" ++ toString n ++ ")"
  | valueInstanceFunction n => "ValueInstanceFunction(" ++ toString n ++ ")"

end DelegateKind

structure Delegate where
  method : Method
  kind : DelegateKind

/-- Delegates exist for methods with one to five arguments, none of them by reference. -/
def Method.isSupported (m : Method) : Bool :=
  1 ≤ m.totalArity && m.totalArity ≤ Delegate.maxArity && !m.hasByRefParams

namespace Delegate

/-- The method that a call of `m` on receivers of type `t` runs. -/
def resolve (types : TypeTable) (m : Method) (t : TypeId) : Method :=
  if m.isStatic then m else types.override t m

def on (types : TypeTable) (m : Method) (t : TypeId) : Except Error Delegate :=
  let found := resolve types m t
  if found.isSupported then .ok ⟨found, .of found⟩
  else .error (.unsupportedMethod (types.qualifiedMethod found))

end Delegate

structure DelegateCache where
  entries : Table (DeclId × TypeId) Delegate := .empty

namespace DelegateCache

/-- The delegate, taken from the cache if it is there and added to it if not; a method without a delegate
adds nothing. -/
def find (types : TypeTable) (cache : DelegateCache) (m : Method) (t : TypeId) :
    Except Error Delegate × DelegateCache :=
  match cache.entries.find? (m.id, t) with
  | some d => (.ok d, cache)
  | none =>
    match Delegate.on types m t with
    | .ok d => (.ok d, ⟨cache.entries.insert (m.id, t) d⟩)
    | .error e => (.error e, cache)

def size (cache : DelegateCache) : Nat := cache.entries.size

end DelegateCache

end DataBinding
