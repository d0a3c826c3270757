import Avtp.Header
import Avtp.PduSubtype

/-!
# The two control stream formats

NTSCF and TSCF differ in their headers and agree in everything else: how the header is checked, how
the payload is delimited, and what the payload consists of. `StreamFormat` names the two, so that
what they share is said once.
-/

namespace Avtp

/-- A format for a stream of ACF messages. -/
inductive StreamFormat where
  | ntscf
  | tscf
  deriving DecidableEq

namespace StreamFormat

/-- The header of the format. -/
@[reducible] def header : StreamFormat → Header
  | ntscf => .ntscf
  | tscf => .tscf

/-- The subtype that announces the format. -/
def subtype : StreamFormat → PduSubtype
  | ntscf => .ntscf
  | tscf => .tscf

/-- The field for the number of octets behind the header. -/
def dataLengthSlot : (format : StreamFormat) → format.header.Slot
  | ntscf => NtscfSlot.dataLength
  | tscf => TscfSlot.dataLength

/-- The format that a subtype announces. -/
def ofSubtype? : PduSubtype → Option StreamFormat
  | .ntscf => some ntscf
  | .tscf => some tscf
  | _ => none

end StreamFormat

end Avtp
