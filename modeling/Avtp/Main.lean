import Avtp.Dump

/-!
# The command line

Prints an annotated dump of a data unit.

* `--udp`: the data unit is behind the UDP encapsulation header.
* `--no-color`: plain text.
* The first other argument is the data unit in hexadecimal. Without it, standard input is read.

The environment variable `RUST_LOG` sets the verbosity of the log on standard error.
-/

open Avtp Dump

/-- The options that the arguments and the environment ask for. -/
def Avtp.Dump.Options.ofArguments (arguments : List String) (log : Option String) : Options where
  udp := arguments.contains "--udp"
  color := !arguments.contains "--no-color"
  verbosity := (log.bind Verbosity.ofName?).getD .standard

/-- The argument that holds the data unit. -/
def Avtp.Dump.captureArgument? (arguments : List String) : Option String :=
  arguments.find? fun argument ↦ argument != "--udp" && argument != "--no-color"

/-- Runs a dump on the command line. -/
def main (arguments : List String) : IO UInt32 := do
  let input ← match captureArgument? arguments with
    | some text => pure (Input.argument text)
    | none => do
      let octets ← (← IO.getStdin).readBinToEnd
      pure (Input.stream octets.toList)
  let outcome := run (.ofArguments arguments (← IO.getEnv "RUST_LOG")) input
  outcome.diagnostics.forM (IO.eprintln ·)
  IO.print outcome.output
  return .ofNat outcome.exitCode
