/-
# Errors of requests

Whatever refuses a request keeps its own code and text; the status tells whether the request was at
fault, what it asks for is missing, or the data is.
-/
import Retrieval.Configuration
import Retrieval.Store

namespace Retrieval

/-- Why a request is refused. -/
inductive Error where
  | query (e : QueryError)
  | plan (e : PlanError)
  | store (e : StoreError)
  | schema (e : SchemaError)
  | configuration (e : ConfigurationError)
  /-- A parameter has a value that it cannot have. -/
  | invalidParameter (parameter value : String)
deriving DecidableEq

namespace Error

/-- The code under which the error is reported. -/
def code : Error → String
  | query e => e.code
  | plan e => e.code
  | store e => e.code
  | schema e => e.code
  | configuration e => e.code
  | invalidParameter .. => "SNATCH_INVALID_PARAM"

/-- The text of the error. -/
def message : Error → String
  | query e => e.message
  | plan e => e.message
  | store e => e.message
  | schema e => e.message
  | configuration e => e.message
  | invalidParameter parameter value =>
    s!"Invalid value '{value}' for parameter '{parameter}'"

/-- The status under which the error is answered. -/
def status : Error → Nat
  | query e => e.status
  | plan e => e.status
  | store e => e.status
  | schema _ => 500
  | configuration _ => 500
  | invalidParameter .. => 400

end Error

end Retrieval
