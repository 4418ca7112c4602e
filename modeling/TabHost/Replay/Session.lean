import TabHost.Replay.Run

/-!
# Sessions

A session replays a script line by line: each line is read, its step is applied, and what
the tabs sent is written out, before the next line is read. So the output of the steps
before a faulty line is there, and a step that stops the program writes nothing.
-/

namespace TabHost

/-- Why a session fails. -/
inductive SessionError where
  | settings
  | noScript (path : String)
  | unreadable
  | line (number : Nat) (e : DecodeError)
  | host (e : HostError)
  deriving DecidableEq

namespace SessionError

def message : SessionError → String
  | .settings => "failed to load tab config"
  | .noScript path => "failed to open " ++ path
  | .unreadable => "failed to read script"
  | .line number e =>
    "line " ++ toString number ++ ": " ++ (e.message?.getD "malformed JSON")
  | .host e => e.message

/-- The failure that an error of a script is in a session. -/
def ofScript : ScriptError → SessionError
  | .unreadable => .unreadable
  | .line number e => .line number e
  | .host e => .host e

end SessionError

/-- How a session ends. -/
inductive Ending where
  | finished
  | failed (e : SessionError)
  | crashed (f : Fault)
  deriving DecidableEq

namespace Ending

/-- The exit code of the program. -/
def exitCode : Ending → Nat
  | .finished => 0
  | .failed _ => 1
  | .crashed _ => 101

end Ending

/-- What a session wrote, and how it ended. -/
structure Session where
  output : List Outgoing := []
  ending : Ending

namespace Session

/-- A session that failed before its first line. -/
def refused (e : SessionError) : Session := { ending := .failed e }

/-- The output of an operation, and the session after it. -/
def after (o : Outcome Effect (Host Headless)) (next : Host Headless → Session) : Session :=
  match o.fault with
  | some f => { ending := .crashed f }
  | none =>
    let s := next o.state
    { s with output := o.outgoing ++ s.output }

/-- Replays lines, the first of which has the given number. -/
def runLines (build : Build) (number : Nat) :
    List (List UInt8) → Host Headless → Session
  | [], h => after (Replay.finish build h) fun _ => { ending := .finished }
  | bytes :: rest, h =>
    match Script.parseBytes number bytes with
    | .error e => refused (.ofScript e)
    | .ok none => runLines build (number + 1) rest h
    | .ok (some step) =>
      match Replay.apply build step h with
      | .error e => refused (.host e)
      | .ok o => after o (runLines build (number + 1) rest)

/-- Replays a script. -/
def run (build : Build) (settings : Settings) (bytes : List UInt8) : Session :=
  runLines build 1 (Text.lines bytes) (Replay.start settings)

/-- The lines that a session writes. -/
def lines (s : Session) : List String := s.output.map fun o => o.encode.text

end Session

end TabHost
