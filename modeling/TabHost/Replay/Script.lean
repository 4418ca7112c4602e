import TabHost.Replay.Step
import TabHost.Text.Lines
import TabHost.Protocol.Fault

/-!
# Replay scripts

A script is a byte stream of lines. Lines are numbered from one, blank lines and comments
included, and the first line that cannot be read decides the error.
`parseLines_append`: a script is read piece by piece, each piece numbered on from where
the one before ended.
-/

namespace TabHost

/-- Why a script ends early. -/
inductive ScriptError where
  /-- A line is not valid UTF-8. -/
  | unreadable
  /-- A line is no step. -/
  | line (number : Nat) (e : DecodeError)
  /-- A step was refused. -/
  | host (e : HostError)
  deriving DecidableEq

namespace ScriptError

/-- The wording of a failure to read. -/
def unreadableMessage : String := "failed to read script: stream did not contain valid UTF-8"

end ScriptError

namespace Script

/-- The step of a line with its number. -/
def parseLine (number : Nat) (line : List Char) : Except ScriptError (Option Step) :=
  (Step.parse line).mapError (.line number)

/-- The step of a line given by its bytes. -/
def parseBytes (number : Nat) (bytes : List UInt8) : Except ScriptError (Option Step) :=
  match Text.decode? bytes with
  | none => .error .unreadable
  | some line => parseLine number line

/-- The steps of lines, the first of which has the given number. -/
def parseLines (number : Nat) : List (List UInt8) → Except ScriptError (List Step)
  | [] => .ok []
  | bytes :: rest =>
    match parseBytes number bytes with
    | .error e => .error e
    | .ok step => (parseLines (number + 1) rest).map (step.toList ++ ·)

/-- The steps of a script. -/
def parse (bytes : List UInt8) : Except ScriptError (List Step) :=
  parseLines 1 (Text.lines bytes)

theorem parseLines_append (number : Nat) (b : List (List UInt8)) :
    ∀ a : List (List UInt8), parseLines number (a ++ b) =
      match parseLines number a with
      | .error e => .error e
      | .ok steps => (parseLines (number + a.length) b).map (steps ++ ·)
  | [] => by cases h : parseLines number b <;> simp [parseLines, h, Except.map]
  | bytes :: a => by
    cases hb : parseBytes number bytes with
    | error e => simp [parseLines, hb]
    | ok step =>
      have ih := parseLines_append (number + 1) b a
      have hn : number + (bytes :: a).length = number + 1 + a.length := by
        simp only [List.length_cons]
        omega
      rw [hn]
      cases ha : parseLines (number + 1) a with
      | error e => simp [parseLines, hb, ih, ha, Except.map]
      | ok steps =>
        cases hr : parseLines (number + 1 + a.length) b <;>
          simp [parseLines, hb, ih, ha, hr, Except.map]

end Script

end TabHost
