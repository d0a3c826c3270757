import Avtp.Acf.MessageExtent

/-!
# How much of a buffer a header takes

Each of the eight headers claims a definite number of octets at the start of a buffer. The common
header and the UDP encapsulation header claim their fixed size. A control stream claims its header
and the advertised payload. A message claims the length it advertises. `Header.extent?` is this
number, or the reason why the buffer does not hold what the header needs.

The verdict depends on nothing behind the claimed octets, and a buffer that merely ends too early is
told how many octets would be needed, so that a reader can fetch them and ask again.
-/

namespace Avtp

/-- The number of quadlets that hold the given number of octets, the last one possibly in part. -/
def quadletsFor (octets : Nat) : Nat := (octets + 3) / 4

/-! ### Control streams -/

/-- The number of octets behind the header of a control stream. The subtype is checked before the
version, and both only in a complete header. -/
def StreamFormat.dataLength? (format : StreamFormat) (buf : List UInt8) :
    Except LayoutError Nat :=
  let headerLength := format.header.size
  let subtype := UInt8.ofNat ((Header.place (h := .common) CommonSlot.subtype).read buf)
  let version := (Header.place (h := .common) CommonSlot.version).read buf
  let dataLength := (Header.place format.dataLengthSlot).read buf
  if buf.length < headerLength then
    .error (.bufferTooSmall (.header format.header) headerLength buf.length)
  else if subtype ≠ format.subtype.raw then
    .error (.unexpectedType (.header format.header) format.subtype.raw subtype)
  else if version ≠ protocolVersion.toNat then
    .error (.unsupportedVersion (.header format.header) version)
  else if buf.length < headerLength + dataLength then
    .error (.bufferTooSmall (.payload format) (headerLength + dataLength) buf.length)
  else
    .ok dataLength

/-! ### All headers -/

namespace Header

/-- The fixed part of a header as its whole extent. -/
def fixedExtent? (h : Header) (buf : List UInt8) : Except LayoutError Nat :=
  if buf.length < h.size then .error (.bufferTooSmall (.header h) h.size buf.length)
  else .ok h.size

/-- The number of octets that the header claims at the start of the buffer. -/
def extent? : Header → List UInt8 → Except LayoutError Nat
  | common, buf => fixedExtent? common buf
  | udp, buf => fixedExtent? udp buf
  | ntscf, buf => (StreamFormat.ntscf.dataLength? buf).map (size ntscf + ·)
  | tscf, buf => (StreamFormat.tscf.dataLength? buf).map (size tscf + ·)
  | acf, buf => (Acf.MessageExtent.ofOctets? buf).map (·.length)
  | can, buf => (Acf.MessageExtent.ofFormat? .can buf).map (·.length)
  | canBrief, buf => (Acf.MessageExtent.ofFormat? .canBrief buf).map (·.length)
  | lin, buf => (Acf.MessageExtent.ofFormat? .lin buf).map (·.length)

end Header

end Avtp
