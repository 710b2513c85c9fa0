import LoxTokens.Command.Program
import Std.Time.DateTime

/-!
# The command line

The only module that does input and output.  It asks the system for what `Program.run` and
`Session.reply` want to know, and writes out what they answer.
-/

set_option autoImplicit false

namespace LoxTokens
namespace CommandLine

open Std.Time

/-! ## Time -/

/-- A number in decimal, filled up with zeros. -/
def padded (width n : Nat) : Text :=
  List.replicate (width - (Text.ofNat n).length) '0' ++ Text.ofNat n

/-- The current time in UTC, to the microsecond. -/
def timeStamp : IO Text := do
  let t := PlainDateTime.ofWallTime (WallTime.ofTimestamp (← Timestamp.now) TimeZone.Offset.zero)
  let field (width : Nat) (n : Int) := padded width n.toNat
  return field 4 t.date.year.toInt ++ '-' :: field 2 t.date.month.val ++ '-' ::
    field 2 t.date.day.val ++ 'T' :: field 2 t.time.hour.val ++ ':' ::
    field 2 t.time.minute.val ++ ':' :: field 2 t.time.second.val ++ '.' ::
    field 6 (t.time.nanosecond.val / 1000) ++ ['Z']

/-! ## Reading -/

/-- The failure that a system error amounts to.  Errors of opening a file carry their number with
its sign changed. -/
def failureOfError (e : IO.Error) : Failure :=
  match e with
  | .noFileOrDirectory _ _ _ => Failure.notFound
  | .inappropriateType _ code _ =>
    if code = 21 ∨ code = -21 then Failure.isDirectory else Failure.notDirectory
  | .permissionDenied _ _ _ => ⟨.other, "Permission denied (os error 13)".toList⟩
  | e => ⟨.other, e.toString.toList⟩

/-- The contents of a file. -/
def readFile (path : Text) : IO (Except Failure Bytes) := do
  try
    return .ok (← IO.FS.readBinFile (String.ofList path)).toList
  catch e => return .error (failureOfError e)

/-- The bytes up to the next line feed and including it, or up to the end of the input. -/
partial def readLine (input : IO.FS.Stream) (before : ByteArray) : IO Bytes := do
  let next ← input.read 1
  let line := before ++ next
  if next.isEmpty || next.toList = [Bytes.lineFeed] then return line.toList
  else readLine input line

/-! ## Writing -/

/-- Writes an output to the two streams. -/
def emit (o : Output) : IO Unit := do
  let stdout ← IO.getStdout
  stdout.putStr (String.ofList o.stdout)
  stdout.flush
  unless o.stderr.isEmpty do
    let stderr ← IO.getStderr
    stderr.putStr (String.ofList (o.stderrText (← timeStamp)))
    stderr.flush

/-- Answers one line after the other, each before the next is read. -/
partial def converse (s : Session) : IO Status := do
  emit Session.invitation
  let line ← readLine (← IO.getStdin) ByteArray.empty
  if line.isEmpty then return .success
  match s.reply line with
  | .ok answer =>
    emit answer
    converse s
  | .error f =>
    emit (Session.unreadable f).output
    return (Session.unreadable f).status

/-- Does what the arguments ask for. -/
def execute (arguments : List Text) : IO Status := do
  match Program.settings arguments with
  | .error outcome =>
    emit outcome.output
    -- The message of a usage error comes without an end of line.
    if outcome.status = .usage then (← IO.getStderr).putStrLn ""
    return outcome.status
  | .ok settings =>
    let s := Program.session ((← IO.getEnv "RUST_LOG").map String.toList) settings
    emit s.opening
    match settings.path? with
    | none => converse s
    | some path =>
      let outcome := s.ofFile path (← readFile path)
      emit outcome.output
      return outcome.status

end CommandLine
end LoxTokens

/-- Runs the program on the arguments of the command line. -/
def main (arguments : List String) : IO UInt32 := do
  let status ← LoxTokens.CommandLine.execute (arguments.map String.toList)
  return UInt32.ofNat status.code
