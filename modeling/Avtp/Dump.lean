import Avtp.Dump.Dissection
import Avtp.Listing.Render

/-!
# Dumps

A dump shows a capture, entered in hexadecimal, as an annotated listing. The text of the capture
comes with the command or, failing that, from a stream of octets that has to be UTF-8.

The outcome of a run is its exit code, what it prints, and its diagnostics: the log lines, and after
them the report of the failure if there was one. A run that fails prints nothing else.
-/

namespace Avtp.Dump

/-- How to dump. -/
structure Options where
  /-- The data unit is behind the UDP encapsulation header. -/
  udp : Bool
  /-- Fields are told apart by colour. -/
  color : Bool
  verbosity : Verbosity

/-- Where the capture comes from. -/
inductive Input where
  /-- A text given with the command. -/
  | argument (content : String)
  /-- The octets of a stream. -/
  | stream (content : List UInt8)

/-- What a run shows to the outside. -/
structure Outcome where
  exitCode : Nat
  output : String
  diagnostics : List String
  deriving DecidableEq

/-- The text of the input. -/
def Input.text? : Input → Except DumpError String
  | .argument content => .ok content
  | .stream content =>
    match String.fromUTF8? (ByteArray.mk content.toArray) with
    | some content => .ok content
    | none => .error .unreadableInput

/-- The octets that the input spells. -/
def Input.octets? (input : Input) : Except DumpError (List UInt8) :=
  match input.text? with
  | .error reason => .error reason
  | .ok content => (Text.spelledOctets? content).mapError .spelling

/-- The report of a failure: what was being done, and what was wrong. -/
def failureLines (reason : DumpError) : List String :=
  [s!"Error: {reason.context}", "", "Caused by:", s!"    {reason.cause}"]

/-- Dumps a capture that has been read. -/
def dumpOctets (options : Options) (buf : List UInt8) : Outcome :=
  let log := logLines options.verbosity (events options.udp buf)
  match listing? options.udp buf with
  | .ok listing => ⟨0, listing.render buf options.color, log⟩
  | .error reason => ⟨1, "", log ++ failureLines reason⟩

/-- Reads a capture and dumps it. -/
def run (options : Options) (input : Input) : Outcome :=
  match input.octets? with
  | .ok buf => dumpOctets options buf
  | .error reason => ⟨1, "", failureLines reason⟩

end Avtp.Dump
