import Pseudocode.Builtin
import Pseudocode.Diagnostic.Basic
import Pseudocode.Channel
import Pseudocode.Program.Basic

/-!
# What can go wrong in a run

Every way in which a run can fail, with its wording in one place. A fault that came in through a
channel or by interruption also has a cause outside the program.
-/

namespace Pseudocode

/-- Why a run fails. Values that a message shows are kept as text. -/
inductive Fault where
  | interrupted (cause : ChannelError)
  | stepLimit (limit : Nat)
  | constantAssigned (name : Text)
  | alreadyExists (name : Text)
  | invalidSize (size : Text) (name : Text)
  | sizeLimit (size : Text) (name : Text) (limit : Nat)
  | undefinedVariable (name : Text)
  | notArray (name : Text)
  | invalidIndex (index : Text) (name : Text)
  | indexOutOfRange (index : Text) (length : Nat) (name : Text)
  | outputFailed (cause : ChannelError)
  | readFailed (name : Text) (cause : ChannelError)
  | unaryOperand (op : UnaryOp) (kind : Value.Kind)
  | divisionByZero
  | incomparable (op : BinaryOp) (lhs rhs : Value.Kind)
  | unsupportedOperator (op : BinaryOp)
  | binaryOperands (op : BinaryOp) (lhs rhs : Value.Kind)
  | undefinedFunction (name : Text)
  | call (fault : CallFault)
  deriving DecidableEq, Repr

namespace Fault

/-- The wording of a fault. -/
def message : Fault → Text
  | interrupted _ => "execution interrupted"
  | stepLimit n => "step limit of " ++ Text.ofNat n ++ " exceeded"
  | constantAssigned name => "cannot assign to constant '" ++ name ++ "'"
  | alreadyExists name => "variable '" ++ name ++ "' already exists"
  | invalidSize size name => "invalid array size " ++ size ++ " for '" ++ name ++ "'"
  | sizeLimit size name limit =>
    "invalid array size " ++ size ++ " for '" ++ name ++ "': limit is " ++ Text.ofNat limit
  | undefinedVariable name => "undefined variable '" ++ name ++ "'"
  | notArray name => "'" ++ name ++ "' is not an array"
  | invalidIndex index name => "invalid index " ++ index ++ " for '" ++ name ++ "'"
  | indexOutOfRange index length name =>
    "index " ++ index ++ " out of range [1, " ++ Text.ofNat length ++ "] for '" ++ name ++ "'"
  | outputFailed _ => "output failed"
  | readFailed name _ => "reading '" ++ name ++ "' failed"
  | unaryOperand op kind => "cannot apply unary '" ++ op.symbol ++ "' to " ++ kind.name
  | divisionByZero => "division by zero"
  | incomparable op lhs rhs =>
    "cannot compare " ++ lhs.name ++ " and " ++ rhs.name ++ " with '" ++ op.symbol ++ "'"
  | unsupportedOperator op => "unsupported operator '" ++ op.symbol ++ "'"
  | binaryOperands op lhs rhs =>
    "cannot apply '" ++ op.symbol ++ "' to " ++ lhs.name ++ " and " ++ rhs.name
  | undefinedFunction name => "undefined function '" ++ name ++ "'"
  | call fault => fault.message

/-- What caused a fault from outside the program. -/
def cause? : Fault → Option ChannelError
  | interrupted cause | outputFailed cause | readFailed _ cause => some cause
  | _ => none

end Fault

/-- A fault and the place of the node that has it. -/
structure RuntimeError where
  loc : Option Location
  fault : Fault
  deriving DecidableEq, Repr

/-- The diagnostic of a runtime error. -/
def RuntimeError.diagnostic (e : RuntimeError) : Diagnostic where
  stage := .runtime
  loc := e.loc
  summary := e.fault.message
  cause := e.fault.cause?.map ChannelError.message

end Pseudocode
