import JobQueue.Request.Basic
import JobQueue.Text.Quoted

/-! # The wording of refused requests -/

namespace JobQueue.RequestFault

/-- A natural number in a message. -/
def number (n : Nat) : String := String.ofList (Decimal.digits n)

/-- **The message.** -/
def message : RequestFault → String
  | .emptyName field => field.text ++ " must not be empty"
  | .longName field bytes =>
    field.text ++ " too long (" ++ number bytes ++ " bytes, max " ++
      number Request.maxNameBytes ++ ")"
  | .illegalName field name =>
    field.text ++ " must be alphanumeric (plus _ - . :): " ++ Text.quoted name
  | .noAttempts n =>
    "max_attempts must be at least 1, got " ++ String.ofList (Decimal.ofInt n)
  | .deepPayload levels =>
    "payload too deeply nested (" ++ number levels ++ " levels, max " ++
      number Request.maxPayloadLevels ++ ")"

def toError (fault : RequestFault) : JobError := .validation fault.message

end JobQueue.RequestFault
