import DataBinding.Operator

/-!
# Expressions

Expression trees over constants, members, operators, calls and conditionals. Each member access carries an
identity that copies of the tree share.
-/

namespace DataBinding

/-- The identity of a member access, shared by all copies of it. -/
structure NodeId where
  index : Nat
deriving DecidableEq, Repr

inductive Expr where
  /-- A value, shown under a name if it has one. -/
  | constant (value : Value) (type : TypeId) (name : Option String)
  /-- A member of the value of an expression. -/
  | member (node : NodeId) (target : Expr) (m : Member)
  | typeMember (node : NodeId) (m : Member)
  | binary (op : BinaryOp) (left right : Expr) (type : TypeId)
  /-- A conversion may go through a method. -/
  | unary (op : UnaryOp) (operand : Expr) (type : TypeId) (conversion : Option Method)
  | call (target : Expr) (method : Method) (args : List Expr)
  | typeCall (method : Method) (args : List Expr)
  | conditional (test yes no : Expr) (type : TypeId)
deriving Inhabited

namespace Expr

/-- The static type; a call of a method without a result has none. -/
def type? : Expr → Option TypeId
  | constant _ t _ => some t
  | member _ _ m => some m.type
  | typeMember _ m => some m.type
  | binary _ _ _ t => some t
  | unary _ _ t _ => some t
  | call _ m _ => m.returns
  | typeCall m _ => m.returns
  | conditional _ _ _ t => some t

def isConstant : Expr → Bool
  | constant .. => true
  | _ => false

def isCall : Expr → Bool
  | call .. => true
  | typeCall .. => true
  | _ => false

def node? : Expr → Option NodeId
  | member n _ _ => some n
  | typeMember n _ => some n
  | _ => none

def member? : Expr → Option Member
  | member _ _ m => some m
  | typeMember _ m => some m
  | _ => none

end Expr

end DataBinding
