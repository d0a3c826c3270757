import Avtp.LayoutError
import Avtp.Acf.MessageFormat

/-!
# The extent of an ACF message

An ACF message says itself how long it is. Its extent is what can be told from its first octets: the
type, the length, and, once the type has been found to be one with a known header, the length of
that header and the number of padding octets at the end.

The checks come in the order in which their facts are needed. First the four octets that hold type
and length must be there. Then the length must cover those four octets, for a length of zero would
let a walk along the messages stand still. Then the whole message must be there. Only then is the
type compared, the header measured, and last the padding, which may take all of the payload but none
of the header.
-/

namespace Avtp.Acf

/-- Size and division of an ACF message, in octets. -/
structure MessageExtent where
  type : MessageType
  /-- Length of the message, header and padding included. -/
  length : Nat
  /-- Length of the fixed header. -/
  headerLength : Nat
  /-- Number of octets that fill up the last quadlet. -/
  padding : Nat
  deriving DecidableEq

namespace MessageExtent

/-- The octets of the payload, as a range in the message. -/
def payloadRange (extent : MessageExtent) : Nat × Nat :=
  (extent.headerLength, extent.length - extent.padding)

/-- The type that a message announces. -/
def announcedType (buf : List UInt8) : MessageType :=
  .ofRaw (.ofNat ((Header.place (h := .acf) AcfSlot.msgType).read buf))

/-- The length that a message announces, in octets. -/
def announcedLength (buf : List UInt8) : Nat :=
  4 * (Header.place (h := .acf) AcfSlot.msgLength).read buf

/-- The extent of the message at the start of the buffer, whatever its type. Nothing but the shared
header is taken for the header, and nothing for padding. -/
def ofOctets? (buf : List UInt8) : Except LayoutError MessageExtent :=
  if buf.length < Header.size .acf then
    .error (.bufferTooSmall (.header .acf) (Header.size .acf) buf.length)
  else if announcedLength buf < Header.size .acf then
    .error (.invalidLength (.header .acf) (announcedLength buf) (Header.size .acf))
  else if buf.length < announcedLength buf then
    .error (.bufferTooSmall .message (announcedLength buf) buf.length)
  else
    .ok { type := announcedType buf, length := announcedLength buf,
          headerLength := Header.size .acf, padding := 0 }

/-- The extent as that of a message with a known header. -/
def narrow? (extent : MessageExtent) (format : MessageFormat) (buf : List UInt8) :
    Except LayoutError MessageExtent :=
  let headerLength := format.header.size
  let padding := (Header.place format.padSlot).read buf
  if extent.type ≠ format.type then
    .error (.unexpectedType (.header format.header) format.type.raw extent.type.raw)
  else if extent.length < headerLength then
    .error (.invalidLength (.header format.header) extent.length headerLength)
  else if extent.length < headerLength + padding then
    .error (.invalidLength (.header format.header) extent.length (headerLength + padding))
  else
    .ok { extent with headerLength, padding }

/-- The extent of the message at the start of the buffer, which must have the given format. -/
def ofFormat? (format : MessageFormat) (buf : List UInt8) : Except LayoutError MessageExtent :=
  match ofOctets? buf with
  | .ok extent => extent.narrow? format buf
  | .error fault => .error fault

/-! ### What an extent promises -/

/-- A message covers its shared header and lies inside the buffer. -/
theorem length_of_ofOctets? {buf : List UInt8} {extent : MessageExtent}
    (h : ofOctets? buf = .ok extent) : 4 ≤ extent.length ∧ extent.length ≤ buf.length := by
  unfold ofOctets? at h
  split at h
  · simp at h
  · split at h
    · simp at h
    · split at h
      · simp at h
      · next h₁ h₂ h₃ =>
        obtain rfl := Except.ok.inj h
        simp only [Header.size] at h₁ h₂
        constructor <;> simp only <;> omega

end MessageExtent

end Avtp.Acf
