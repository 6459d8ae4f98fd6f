/-! The comparison and arithmetic operators of the language. -/

namespace Frontend

inductive CmpOp where
  | eq | neq | lt | lte | gt | gte
  deriving DecidableEq, Inhabited

inductive ArithOp where
  | add | sub | mul | div | rem
  deriving DecidableEq, Inhabited

namespace CmpOp

def holds : CmpOp → Ordering → Bool
  | eq, o => o == .eq
  | neq, o => o != .eq
  | lt, o => o == .lt
  | lte, o => o != .gt
  | gt, o => o == .gt
  | gte, o => o != .lt

def isEquality : CmpOp → Bool
  | eq | neq => true
  | _ => false

def text : CmpOp → String
  | eq => "=="
  | neq => "!="
  | lt => "<"
  | lte => "<="
  | gt => ">"
  | gte => ">="

def name : CmpOp → String
  | eq => "Eq"
  | neq => "Neq"
  | lt => "Lt"
  | lte => "Lte"
  | gt => "Gt"
  | gte => "Gte"

def all : List CmpOp := [eq, neq, lt, lte, gt, gte]

end CmpOp

namespace ArithOp

def text : ArithOp → String
  | add => "+"
  | sub => "-"
  | mul => "*"
  | div => "/"
  | rem => "%"

def name : ArithOp → String
  | add => "Add"
  | sub => "Sub"
  | mul => "Mul"
  | div => "Div"
  | rem => "Rem"

def all : List ArithOp := [add, sub, mul, div, rem]

end ArithOp

end Frontend
