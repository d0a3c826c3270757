import Avtp.Acf.Walk
import Avtp.Acf.TypedMessage
import Avtp.Dump.Log
import Avtp.Listing
import Avtp.Text.OctetSpelling

/-!
# Taking a capture apart

A capture is a data unit, possibly behind the UDP encapsulation header. `listing?` says which octets
of it are what, and `events` what there is to report on the way. Both follow the same path:
encapsulation, common header, then for a control stream its header and its messages one by one.

A capture fails only by its headers. Messages that make no sense end the walk; what is left of the
payload is then listed as undecoded. Whatever follows the data unit is listed as trailing.
-/

namespace Avtp.Dump

/-- Reasons why there is no dump. -/
inductive DumpError where
  /-- The input is not text. -/
  | unreadableInput
  /-- The input spells no octets. -/
  | spelling (reason : Text.SpellingError)
  /-- There is no encapsulation header. -/
  | encapsulation (reason : ViewError)
  /-- There is no common header. -/
  | commonHeader (reason : ViewError)
  /-- There is no control stream of the announced format. -/
  | streamHeader (format : StreamFormat) (fault : LayoutError)
  /-- A control stream that was measured has no view. -/
  | streamView (format : StreamFormat) (reason : ViewError)
  /-- A message found by the walk has no extent. -/
  | message (fault : LayoutError)
  deriving DecidableEq

namespace DumpError

/-- What was being done. -/
def context : DumpError → String
  | unreadableInput => "reading stdin"
  | spelling _ => "input is not valid hex"
  | encapsulation _ => "parsing UDP encapsulation header"
  | commonHeader _ => "parsing common header"
  | streamHeader .ntscf _ | streamView .ntscf _ => "parsing NTSCF header"
  | streamHeader .tscf _ | streamView .tscf _ => "parsing TSCF header"
  | message _ => "parsing ACF message"

/-- What was wrong. -/
def cause : DumpError → String
  | unreadableInput => "stream did not contain valid UTF-8"
  | spelling reason => reason.message
  | encapsulation reason => reason.message
  | commonHeader reason => reason.message
  | streamHeader _ fault => fault.message
  | streamView _ reason => reason.message
  | message fault => fault.message

end DumpError

/-! ### Encapsulation -/

/-- The encapsulation header, if there is to be one, and the data unit. -/
def splitCapture? (udp : Bool) (buf : List UInt8) :
    Except DumpError (Option UdpView × List UInt8) :=
  if udp then
    match View.split? .udp buf with
    | .ok (view, pdu) => .ok (some view, pdu)
    | .error reason => .error (.encapsulation reason)
  else .ok (none, buf)

/-! ### The listing -/

/-- Adds octets without fields; no octets make no section. -/
def pushOctets (listing : Listing) (title : String) (count : Nat) : Listing :=
  if quadletsFor count = 0 then listing else listing.pushOpaque title (quadletsFor count)

/-- Adds the messages of a walk up to the first fault. -/
def pushMessages : Listing → List (Except LayoutError AcfView) → Except DumpError Listing
  | listing, .ok view :: items =>
    match view.extent? with
    | .ok extent => pushMessages (listing.append extent.listing) items
    | .error fault => .error (.message fault)
  | listing, .error _ :: _ => .ok listing
  | listing, [] => .ok listing

/-- Adds a control stream and what follows it. -/
def pushStream? (listing : Listing) (format : StreamFormat) (pdu : List UInt8) :
    Except DumpError Listing :=
  match format.dataLength? pdu with
  | .error fault => .error (.streamHeader format fault)
  | .ok _ =>
    match View.split? format.header pdu with
    | .error reason => .error (.streamView format reason)
    | .ok (view, rest) =>
      let walk := Acf.Walk.start view.payload
      (pushMessages (listing.append (.ofHeader format.header)) walk.items).map fun listing ↦
        pushOctets (pushOctets listing "Undecoded" walk.finish.rest.length) "Trailing" rest.length

/-- Adds a data unit and what follows it. -/
def pushPdu? (listing : Listing) (pdu : List UInt8) : Except DumpError Listing :=
  match View.split? .common pdu with
  | .error reason => .error (.commonHeader reason)
  | .ok (common, rest) =>
    match StreamFormat.ofSubtype? (CommonView.subtype common) with
    | some format => pushStream? listing format pdu
    | none => .ok (pushOctets (listing.append (.ofHeader .common)) "Payload" rest.length)

/-- The listing of a capture. -/
def listing? (udp : Bool) (buf : List UInt8) : Except DumpError Listing :=
  match splitCapture? udp buf with
  | .error reason => .error reason
  | .ok (none, pdu) => pushPdu? .empty pdu
  | .ok (some _, pdu) => pushPdu? (Listing.empty.append (.ofHeader .udp)) pdu

/-! ### The events -/

/-- The events of an item of a walk that ends in front of so many octets. -/
def itemEvents (remaining : Nat) : Except LayoutError AcfView → List Event
  | .ok view => [.message view]
  | .error fault => [.walkStopped fault remaining, .malformed fault]

/-- The events of a control stream and of what follows it. -/
def streamEvents (format : StreamFormat) (pdu : List UInt8) : List Event :=
  match View.split? format.header pdu with
  | .error _ => []
  | .ok (view, rest) =>
    let walk := Acf.Walk.start view.payload
    .stream format view :: walk.items.flatMap (itemEvents walk.finish.rest.length) ++
      if rest.isEmpty then [] else [.trailing rest.length]

/-- The events of a data unit and of what follows it. -/
def pduEvents (pdu : List UInt8) : List Event :=
  match View.split? .common pdu with
  | .error _ => []
  | .ok (common, _) =>
    .dataUnit common pdu.length ::
      match StreamFormat.ofSubtype? (CommonView.subtype common) with
      | some format => streamEvents format pdu
      | none => [.undecoded (CommonView.subtype common)]

/-- The events of a capture. -/
def events (udp : Bool) (buf : List UInt8) : List Event :=
  match splitCapture? udp buf with
  | .error _ => []
  | .ok (none, pdu) => pduEvents pdu
  | .ok (some view, pdu) => .encapsulation view :: pduEvents pdu

end Avtp.Dump
