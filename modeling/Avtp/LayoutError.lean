import Avtp.StreamFormat

/-!
# Faults in a layout

What can be wrong with the octets that are meant to hold a header, a data unit or a message, and
where the fault was found. `LayoutError.message` is the wording.
-/

namespace Avtp

/-- The part of a data unit in which a fault was found. -/
inductive Part where
  /-- The fixed part of a header. -/
  | header (h : Header)
  /-- What follows the header of a control stream. -/
  | payload (format : StreamFormat)
  /-- An ACF message as a whole. -/
  | message
  deriving DecidableEq

/-- The name of a part in messages. -/
def Part.name : Part → String
  | .header h => h.name
  | .payload .ntscf => "NtscfPayload"
  | .payload .tscf => "TscfPayload"
  | .message => "AcfMessage"

/-- Reasons why octets do not hold what they are meant to hold. -/
inductive LayoutError where
  /-- The version of the data unit is not the one this library knows. -/
  | unsupportedVersion (part : Part) (version : Nat)
  /-- The subtype or message type is another one. -/
  | unexpectedType (part : Part) (expected actual : UInt8)
  /-- The buffer ends before the part does. -/
  | bufferTooSmall (part : Part) (required actual : Nat)
  /-- The advertised length does not cover the fixed part. -/
  | invalidLength (part : Part) (advertised minimum : Nat)
  deriving DecidableEq

/-- The wording of a fault. -/
def LayoutError.message : LayoutError → String
  | .unsupportedVersion part version =>
    s!"Unsupported version at {part.name}: {Text.decimal version}"
  | .unexpectedType part expected actual =>
    s!"Unexpected type at {part.name}: expected 0x{Text.hex 2 expected.toNat}, " ++
      s!"actual 0x{Text.hex 2 actual.toNat}"
  | .bufferTooSmall part required actual =>
    s!"Buffer too small at {part.name}: required {Text.decimal required}, " ++
      s!"actual {Text.decimal actual}"
  | .invalidLength part advertised minimum =>
    s!"Invalid length at {part.name}: advertised {Text.decimal advertised}, " ++
      s!"minimum {Text.decimal minimum}"

end Avtp
