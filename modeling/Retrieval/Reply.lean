/-
# Replies

A request is answered by data or by the code and the text of what refuses it.
-/
import Retrieval.Error

namespace Retrieval

/-- The answer to a request. -/
inductive Reply where
  | data (v : Json)
  | error (code message : String)

namespace Reply

/-- The reply to a request that is refused. -/
def refusal (e : Error) : Reply := .error e.code e.message

/-- The reply to a request that ends in `r`. -/
def ofExcept {α : Type} (write : α → Json) (r : Except Error α) : Reply :=
  match r with
  | .ok a => .data (write a)
  | .error e => refusal e

/-- Whether the request is answered by data. -/
def isSuccess : Reply → Bool
  | data _ => true
  | error .. => false

/-- The JSON form of a reply. -/
def toJson : Reply → Json
  | data v => .ofMembers [("status", .string "ok"), ("data", v)]
  | error code message =>
    .ofMembers
      [("status", .string "error"), ("code", .string code), ("message", .string message)]

end Reply

end Retrieval
