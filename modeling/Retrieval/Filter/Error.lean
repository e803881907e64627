/-
# What can be wrong with a filter or an order
-/
import Retrieval.Filter.Keyword
import Retrieval.Filter.Test
import Retrieval.Schema.Definition

namespace Retrieval

/-- The shape of operand that an operator asks for. -/
inductive OperandShape where
  | single
  | pair
  | flagOrNull
deriving DecidableEq

/-- The text that asks for a shape of operand. -/
def OperandShape.request : OperandShape → String
  | single => "expected a single value"
  | pair => "expected a list of exactly two values"
  | flagOrNull => "expected true, false or null"

/-- What a literal was expected to be. -/
inductive Expectation where
  /-- A value of the type of the attribute. -/
  | value (type : ValueType)
  /-- Compared with an attribute that has date parts. -/
  | dateAttribute (test : Test) (found : ValueType)
deriving DecidableEq

/-- The text that names an expectation. -/
def Expectation.text : Expectation → String
  | value type => type.name
  | dateAttribute test found => s!"a date attribute for '{test.name}', found {found.name}"

/-- Why a filter or an order is refused. -/
inductive QueryError where
  /-- The text is blank or its brackets do not match. -/
  | bracketImbalance (input : String)
  | malformedToken (token input : String)
  | unknownAttribute (attr schema : String)
  /-- A path goes on after a scalar. -/
  | notTraversable (attr schema : String)
  | unknownOperator (operator value : String)
  | invalidOperand (operator : Operator) (value : String) (shape : OperandShape)
  | invalidValue (attr value : String) (expected : Expectation)
  | unknownSchema (schema : String)
deriving DecidableEq

namespace QueryError

/-- The code under which the error is reported. -/
def code : QueryError → String
  | bracketImbalance .. => "SNATCH_QUERY_BRACKET_IMBALANCE"
  | malformedToken .. => "SNATCH_QUERY_MALFORMED_TOKEN"
  | unknownAttribute .. => "SNATCH_QUERY_UNKNOWN_ATTRIBUTE"
  | notTraversable .. => "SNATCH_QUERY_NON_TERMINAL_LEAF_ATTRIBUTE"
  | unknownOperator .. => "SNATCH_QUERY_UNKNOWN_OPERATOR"
  | invalidOperand .. => "SNATCH_QUERY_INVALID_OPERAND"
  | invalidValue .. => "SNATCH_QUERY_INVALID_VALUE"
  | unknownSchema .. => "SNATCH_QUERY_UNKNOWN_SCHEMA"

/-- The text of the error. -/
def message : QueryError → String
  | bracketImbalance input => s!"Invalid bracket sequence in '{input}'"
  | malformedToken token input => s!"Malformed token '{token}' in '{input}'"
  | unknownAttribute attr schema => s!"Attribute '{attr}' does not exist on schema '{schema}'"
  | notTraversable attr schema =>
    s!"Attribute '{attr}' on schema '{schema}' is a terminal field and cannot be traversed"
  | unknownOperator operator value => s!"Unknown operator '{operator}' (value '{value}')"
  | invalidOperand operator value shape =>
    s!"Operator '{operator.name}' cannot take '{value}': {shape.request}"
  | invalidValue attr value expected =>
    s!"Invalid value '{value}' for attribute '{attr}': expected {expected.text}"
  | unknownSchema schema => s!"Unknown schema '{schema}'"

/-- The status under which the error is answered. -/
def status : QueryError → Nat
  | unknownSchema .. => 404
  | _ => 400

end QueryError

end Retrieval
