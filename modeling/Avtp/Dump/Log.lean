import Avtp.View.Describe

/-!
# The log of a dump

While a dump is made, events are logged: what was recognised, what could not be decoded, and what
was left over. An event has a level and is shown if the level is within the verbosity asked for. The
walk along the messages logs under a name of its own.
-/

namespace Avtp.Dump

/-- Levels of importance, the most important first. -/
inductive Level where
  | error
  | warn
  | info
  | debug
  | trace
  deriving DecidableEq

namespace Level

/-- The levels in order. -/
def rank : Level → Nat
  | error => 1
  | warn => 2
  | info => 3
  | debug => 4
  | trace => 5

/-- The name of a level in log lines. -/
def name : Level → String
  | error => "ERROR"
  | warn => "WARN"
  | info => "INFO"
  | debug => "DEBUG"
  | trace => "TRACE"

end Level

/-- The least important level that is shown, or none at all. -/
abbrev Verbosity := Option Level

namespace Verbosity

/-- The verbosity when nothing else is asked for. -/
def standard : Verbosity := some .info

/-- The verbosity of the given name. -/
def ofName? : String → Option Verbosity
  | "off" => some none
  | "error" => some (some .error)
  | "warn" => some (some .warn)
  | "info" => some (some .info)
  | "debug" => some (some .debug)
  | "trace" => some (some .trace)
  | _ => none

/-- The level is within the verbosity. -/
def shows (verbosity : Verbosity) (level : Level) : Bool :=
  match verbosity with
  | some least => level.rank ≤ least.rank
  | none => false

end Verbosity

/-- What can happen while a dump is made. -/
inductive Event where
  /-- The encapsulation header was found. -/
  | encapsulation (view : UdpView)
  /-- The common header was found, on a data unit of this length. -/
  | dataUnit (view : CommonView) (length : Nat)
  /-- The header of a control stream was found. -/
  | stream (format : StreamFormat) (view : View format.header)
  /-- The subtype has no decoder. -/
  | undecoded (subtype : PduSubtype)
  /-- A message was found. -/
  | message (view : AcfView)
  /-- The walk along the messages stopped in front of so many octets. -/
  | walkStopped (fault : LayoutError) (remaining : Nat)
  /-- A message was malformed. -/
  | malformed (fault : LayoutError)
  /-- So many octets follow the data unit. -/
  | trailing (length : Nat)

namespace Event

/-- The level of an event. -/
def level : Event → Level
  | encapsulation .. | dataUnit .. | message .. => .info
  | stream .. | walkStopped .. => .debug
  | undecoded .. | malformed .. | trailing .. => .warn

/-- The name under which an event is logged. -/
def target : Event → String
  | walkStopped .. => "avtparse::proto::acf::messages"
  | _ => "avtp_dump"

/-- What an event says: a headline and named values. -/
def content : Event → String × List (String × String)
  | encapsulation view =>
    ("UDP encapsulation", [("seq_no", Text.decimal view.sequenceNumber.toNat)])
  | dataUnit view length =>
    ("AVTP PDU",
      [("subtype", view.subtype.describe), ("version", Text.decimal view.version.toNat),
        ("len", Text.decimal length)])
  | stream .ntscf view => ("NTSCF", [("header", view.describe)])
  | stream .tscf view => ("TSCF", [("header", view.describe)])
  | undecoded subtype =>
    ("No decoder for subtype, showing common header only", [("subtype", subtype.describe)])
  | message view =>
    ("ACF message",
      [("msg_type", view.msgType.describe), ("len", Text.decimal view.octets.length)])
  | walkStopped fault remaining =>
    ("Stopping ACF message iteration",
      [("error", fault.message), ("remaining", Text.decimal remaining)])
  | malformed fault => ("Malformed ACF message", [("error", fault.message)])
  | trailing length => ("Trailing bytes behind the PDU", [("len", Text.decimal length)])

/-- The log line of an event. -/
def line (event : Event) : String :=
  s!"{event.level.name} {event.target}: {event.content.1}" ++
    String.join (event.content.2.map fun value ↦ s!" {value.1}={value.2}")

end Event

/-- The log lines of the events that are shown. -/
def logLines (verbosity : Verbosity) (events : List Event) : List String :=
  (events.filter fun event ↦ verbosity.shows event.level).map Event.line

end Avtp.Dump
