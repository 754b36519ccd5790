import DataBinding.Expr.Basic

/-!
# Text of expressions

The readable form of an expression. Binary and conditional operands are put in parentheses.
-/

namespace DataBinding.Expr

/-- Whether an expression needs parentheses as an operand. -/
def isCompound : Expr → Bool
  | binary .. => true
  | conditional .. => true
  | _ => false

def literal (types : TypeTable) : Value → String
  | .null => "null"
  | .text s => Text.quoted s
  | .object r => "<" ++ types.name r.type ++ ">"
  | v => v.display types

/-- The text `s` of an operand `e`, in parentheses where it needs them. -/
def operandText (e : Expr) (s : String) : String := if e.isCompound then "(" ++ s ++ ")" else s

def unaryMark (types : TypeTable) (op : UnaryOp) (t : TypeId) : String :=
  match op with
  | .not => "!"
  | .negate => "-"
  | .convert => "(" ++ types.name t ++ ")"

mutual
def render (types : TypeTable) (e : Expr) : String :=
  match e with
  | constant _ _ (some name) => name
  | constant v _ none => literal types v
  | member _ target m => operandText target (render types target) ++ "." ++ m.name
  | typeMember _ m => types.qualifiedMember m
  | binary op left right _ =>
    operandText left (render types left) ++ " " ++ op.symbol ++ " " ++ operandText right (render types right)
  | unary op e t _ => unaryMark types op t ++ operandText e (render types e)
  | call target m args =>
    operandText target (render types target) ++ "." ++ m.name ++
      "(" ++ ", ".intercalate (renderAll types args) ++ ")"
  | typeCall m args => types.qualifiedMethod m ++ "(" ++ ", ".intercalate (renderAll types args) ++ ")"
  | conditional test yes no _ =>
    operandText test (render types test) ++ " ? " ++ operandText yes (render types yes) ++ " : " ++
      operandText no (render types no)
termination_by structural e
def renderAll (types : TypeTable) (es : List Expr) : List String :=
  match es with
  | [] => []
  | e :: es => render types e :: renderAll types es
termination_by structural es
end

end DataBinding.Expr
