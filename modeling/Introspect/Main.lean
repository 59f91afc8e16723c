import Introspect.Command.Run
import Std.Time.DateTime.PlainDateTime
import Std.Time.DateTime.Timestamp

/-! The program: the command line over files, standard streams and the system clock. -/
namespace Introspect.Command

def usage : String :=
  "Usage: iql [-l LEVEL] [-c FILE] (run QUERY [-s FILE] [-p] [--syntax-only] [--strict] | "
    ++ "sources [-s FILE] | docs | doc CATEGORY)"

def FileError.ofIO : IO.Error → FileError
  | .noFileOrDirectory .. => .missing
  | .permissionDenied .. => .denied
  | .inappropriateType _ code _ => if code = 21 then .directory else .notDirectory
  | .invalidArgument _ 36 _ => .nameTooLong
  | e => .other e.toString

def decodeText (bytes : ByteArray) : Except FileError String :=
  match String.fromUTF8? bytes with
  | some text => .ok text
  | none => .error .notText

def readTextFile (path : String) : IO (Except FileError String) := do
  try
    return decodeText (← IO.FS.readBinFile path)
  catch e =>
    return .error (.ofIO e)

partial def readStream (stream : IO.FS.Stream) (done : ByteArray) : IO ByteArray := do
  let chunk ← stream.read 65536
  if chunk.isEmpty then return done else readStream stream (done ++ chunk)

def readStdin : IO (Except FileError (Option String)) := do
  let stdin ← IO.getStdin
  if ← stdin.isTty then return .ok none
  try
    return (decodeText (← readStream stdin ByteArray.empty)).map some
  catch e =>
    return .error (.ofIO e)

def currentTime : IO Timestamp := do
  let nanos := (← Std.Time.Timestamp.now).toNanosecondsSinceUnixEpoch
  let t := Std.Time.PlainDateTime.ofWallTime (Std.Time.WallTime.ofNanoseconds nanos)
  let civil : Civil :=
    { year := t.year.toInt
      month := t.month.val.toNat
      day := t.day.val.toNat
      hour := t.hour.val.toNat
      minute := t.minute.val.toNat
      second := t.second.val.toNat
      nanos := t.nanosecond.val.toNat }
  return (Timestamp.ofCivil? civil).getD .epoch

/-- A clock that counts from `start`, in nanoseconds of the monotonic clock. -/
def systemClock (start : Nat) : IO Clock := do
  let spent := (← IO.monoNanosNow) - start
  return {
    now := ← currentTime
    elapsed := fun waited => UInt64.ofNat (spent + waited + 1) }

def systemHost (start : Nat) : Host IO where
  fileText := readTextFile
  inputText := readStdin
  clock := systemClock start

end Introspect.Command

open Introspect.Command in
def main (arguments : List String) : IO UInt32 := do
  match Invocation.ofArguments? arguments with
  | none =>
    IO.eprintln usage
    return 2
  | some call =>
    let output ← execute (systemHost (← IO.monoNanosNow)) call
    IO.print output.stdout
    IO.eprint output.stderr
    return output.code.toUInt32
