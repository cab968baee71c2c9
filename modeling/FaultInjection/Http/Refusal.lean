import FaultInjection.Error
import FaultInjection.Json.Basic

/-!
Errors as answers to requests: a status, a word for the kind of error, and a detail from which the
other side can tell what went wrong.
-/

namespace FaultInjection

structure Refusal where
  error : String
  kind : String
  detail : String
  deriving DecidableEq, Repr

def Refusal.json (refusal : Refusal) : Json :=
  .object [("error", .string refusal.error), ("kind", .string refusal.kind),
    ("detail", .string refusal.detail)]

namespace Error

def status : Error → Nat
  | registration _ | duplicateFailure _ _ => 409
  | nodeNotFound _ | failureNotFound _ _ => 404
  | notOwner _ _ _ => 403
  | error => if error.isValidation then 400 else 500

def kind : Error → String
  | registration _ => "registration"
  | duplicateFailure _ _ => "duplicate_failure"
  | nodeNotFound _ => "node_not_found"
  | failureNotFound _ _ => "failure_not_found"
  | notOwner _ _ _ => "not_owner"
  | error => if error.isValidation then "validation" else "internal"

def detail : Error → String
  | registration reason => reason
  | nodeNotFound node => node
  | error => error.message

def refusal (error : Error) : Refusal := ⟨error.message, error.kind, error.detail⟩

end Error

end FaultInjection
