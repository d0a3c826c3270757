import Avtp.Header

/-!
# Common header access by status code

An access to the common header for callers that pass the place for the result and compare integer
codes. There are two codes: one for a value that does not fit, and one for everything else that is
wrong. A failed access leaves the place for the result, or the data unit, as it was.
-/

namespace Avtp.StatusCode

/-- Reasons why an access by status code fails. -/
inductive AccessError where
  /-- There is no place for the result. -/
  | missingOutput
  /-- The value of the field needs more than 32 bits. -/
  | truncated (value : Nat) (slot : CommonSlot)
  /-- The field cannot be accessed. -/
  | field (reason : FieldError)
  deriving DecidableEq

/-- The wording of the reason. -/
def AccessError.message : AccessError → String
  | .missingOutput => "Missing output value"
  | .truncated value slot =>
    s!"Value {Text.decimal value} of field {slot.row.name} does not fit into 32 bits"
  | .field reason => reason.message

/-- The code for an argument that is wrong in itself. -/
def invalidArgument : Int := -22

/-- The code for a value out of range. -/
def outOfRange : Int := -34

/-- The status code of a failed access. -/
def AccessError.code : AccessError → Int
  | .missingOutput => invalidArgument
  | .truncated .. => outOfRange
  | .field (.valueOutOfRange ..) => outOfRange
  | .field (.unknownField ..) => invalidArgument
  | .field (.bufferTooSmall ..) => invalidArgument

/-- Reads a field into the place for the result, which is left as it was on failure. That there is
such a place is checked before the data unit. -/
def get (pdu : List UInt8) (slot : CommonSlot) (output : Option UInt32) :
    Except AccessError Unit × Option UInt32 :=
  match output with
  | none => (.error .missingOutput, none)
  | some held =>
    match Header.get (h := .common) pdu slot with
    | .error reason => (.error (.field reason), some held)
    | .ok value =>
      if value < UInt32.size then (.ok (), some (.ofNat value))
      else (.error (.truncated value slot), some held)

/-- Writes a field of the data unit, which is left as it was on failure. -/
def set (pdu : List UInt8) (slot : CommonSlot) (value : UInt32) :
    Except AccessError Unit × List UInt8 :=
  match Header.set (h := .common) pdu slot value.toNat with
  | .ok written => (.ok (), written)
  | .error reason => (.error (.field reason), pdu)

end Avtp.StatusCode
