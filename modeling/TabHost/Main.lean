import TabHost.Replay.Session

/-!
# The command line

`main` replays the script in the file that its first argument names, or else in the
standard input. The messages that tabs send go to the standard output, one on a line, and
what goes wrong goes to the standard error. The environment variable
`FRONTIER_TAB_CONFIG` may name a file with settings.
-/

namespace TabHost.CommandLine

/-- The environment variable that names the file with settings. -/
def settingsVariable : String := "FRONTIER_TAB_CONFIG"

/-- The file at a path, from which settings are to be read. A path that cannot be resolved
leads to no file. -/
def settingsFileAt (path : String) : IO SettingsFile := do
  match ← (IO.FS.realPath path).toBaseIO with
  | .error _ => return .missing
  | .ok resolved =>
    match ← (IO.FS.readBinFile resolved).toBaseIO with
    | .error _ => return .unreadable
    | .ok bytes => return .content bytes.toList

/-- The file with settings, as the environment names it. -/
def settingsFile : IO SettingsFile := do
  match ← IO.getEnv settingsVariable with
  | none => return .missing
  | some path => settingsFileAt path

/-- The bytes of the script: from a file if there is a path, else from the standard input. -/
def scriptBytes (path : Option String) : IO (Except SessionError (List UInt8)) := do
  match path with
  | none => read ((← IO.getStdin).readBinToEnd)
  | some p =>
    match ← (IO.FS.Handle.mk p .read).toBaseIO with
    | .error _ => return .error (.noScript p)
    | .ok file => read file.readBinToEnd
where
  read (bytes : IO ByteArray) : IO (Except SessionError (List UInt8)) := do
    match ← bytes.toBaseIO with
    | .error _ => return .error .unreadable
    | .ok bytes => return .ok bytes.toList

/-- The session that a command line asks for. -/
def session (args : List String) : IO Session := do
  match Settings.load (← settingsFile) with
  | .error _ => return .refused .settings
  | .ok settings =>
    match ← scriptBytes args.head? with
    | .error e => return .refused e
    | .ok bytes => return .run .checked settings bytes

end TabHost.CommandLine

/-- Runs a session. -/
def main (args : List String) : IO UInt32 := do
  let s ← TabHost.CommandLine.session args
  for line in s.lines do
    IO.println line
  match s.ending with
  | .finished => pure ()
  | .failed e => IO.eprintln ("Error: " ++ e.message)
  | .crashed f => IO.eprintln f.message
  return .ofNat s.ending.exitCode
