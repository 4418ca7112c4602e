import Mathlib.Data.List.Forall2
import TabHost.Replay.Script

/-!
# Lines of a script

`Text.Ruled` tells what the lines of a byte stream are without reading it byte by byte: the
stream is the lines with their ends put back behind them. Every stream is ruled in one way only
(`Text.lines_eq_iff`), so the place of a line among the lines is its number on the page, blank
lines and comments included, and whichever way the lines end.

A script is read by its lines. It holds the steps of those that are neither blank nor a comment
(`Script.parseLines_eq_ok_iff`), or the first of these that holds no step is to blame
(`Script.parseLines_eq_error_iff`). The number of the first line goes into the error only
(`Script.parseLines_later`), so a script can be cut between two lines, and the part behind the
cut is read as if it stood alone (`Script.parses_by_line`).
-/

namespace TabHost

namespace Text

/-! ## Lines and their ends -/

/-- The lines that a byte stream is ruled into. A line ends with a line feed, or with a carriage
return and a line feed; the last one may go without. -/
inductive Ruled : List (List UInt8) → List UInt8 → Prop
  | nil : Ruled [] []
  | openEnded {line : List UInt8} (inked : line ≠ []) (whole : lineFeed ∉ line) : Ruled [line] line
  | fed {line bytes : List UInt8} {ls : List (List UInt8)} (whole : lineFeed ∉ line)
      (bare : line.getLast? ≠ some carriageReturn) (rest : Ruled ls bytes) :
      Ruled (line :: ls) (line ++ lineFeed :: bytes)
  | returned {line bytes : List UInt8} {ls : List (List UInt8)} (whole : lineFeed ∉ line)
      (rest : Ruled ls bytes) :
      Ruled (line :: ls) (line ++ carriageReturn :: lineFeed :: bytes)

variable {line bytes : List UInt8} {ls : List (List UInt8)}

/-- Up to the next line feed all belongs to the current line. -/
theorem linesFrom_fed (whole : lineFeed ∉ line) (current rest : List UInt8) :
    linesFrom current (line ++ lineFeed :: rest) =
      endLine (line.reverse ++ current) :: lines rest := by
  induction line generalizing current with
  | nil => simp [linesFrom, lines]
  | cons b line ih =>
    obtain ⟨other, whole⟩ := not_or.mp (mt List.mem_cons.mpr whole)
    rw [List.cons_append, linesFrom, if_neg (Ne.symm other), ih whole, List.reverse_cons,
      List.append_assoc, List.singleton_append]

theorem linesFrom_openEnded (whole : lineFeed ∉ line) (current : List UInt8)
    (inked : line.reverse ++ current ≠ []) :
    linesFrom current line = [current.reverse ++ line] := by
  induction line generalizing current with
  | nil =>
    rw [linesFrom, if_neg (by simpa using inked), List.append_nil]
  | cons b line ih =>
    obtain ⟨other, whole⟩ := not_or.mp (mt List.mem_cons.mpr whole)
    rw [linesFrom, if_neg (Ne.symm other), ih whole (b :: current) (by simp), List.reverse_cons,
      List.append_assoc, List.singleton_append]

/-- A line without a carriage return at its end is kept as it is. -/
theorem endLine_reverse (bare : line.getLast? ≠ some carriageReturn) :
    endLine line.reverse = line := by
  rw [List.getLast?_eq_head?_reverse] at bare
  cases h : line.reverse with
  | nil => exact (List.reverse_eq_nil_iff.mp h).symm
  | cons b rest =>
    rw [h, List.head?_cons, ne_eq, Option.some.injEq] at bare
    rw [endLine, if_neg bare, ← h, List.reverse_reverse]

theorem Ruled.lines_eq (h : Ruled ls bytes) : lines bytes = ls := by
  induction h with
  | nil => rfl
  | openEnded inked whole =>
    exact linesFrom_openEnded whole [] (by simpa using inked)
  | fed whole bare _ ih =>
    rw [lines, linesFrom_fed whole, List.append_nil, endLine_reverse bare, ih]
  | @returned line bytes ls whole _ ih =>
    have whole' : lineFeed ∉ line ++ [carriageReturn] := by simpa [whole] using by decide
    have fed := linesFrom_fed whole' [] bytes
    rw [List.append_nil, List.reverse_append, List.append_assoc] at fed
    rw [lines, ← List.singleton_append, fed, ih]
    simp [endLine]

/-- Every byte stream is ruled into its lines. -/
theorem ruled_lines (bytes : List UInt8) : Ruled (lines bytes) bytes := by
  by_cases fed : lineFeed ∈ bytes
  · obtain ⟨line, rest, rfl, whole⟩ := List.eq_append_cons_of_mem fed
    have later := ruled_lines rest
    by_cases bare : line.getLast? = some carriageReturn
    · obtain ⟨line, rfl⟩ := List.getLast?_eq_some_iff.mp bare
      rw [List.append_assoc, List.singleton_append]
      have ruled := Ruled.returned (fun hm => whole (List.mem_append_left _ hm)) later
      rwa [ruled.lines_eq]
    · have ruled := Ruled.fed whole bare later
      rwa [ruled.lines_eq]
  · by_cases inked : bytes = []
    · subst inked
      exact .nil
    · have ruled := Ruled.openEnded inked fed
      rwa [ruled.lines_eq]
termination_by bytes.length
decreasing_by
  subst_vars
  simp only [List.length_append, List.length_cons]
  omega

/-- The lines of a byte stream are what it is ruled into. -/
theorem lines_eq_iff : lines bytes = ls ↔ Ruled ls bytes :=
  ⟨fun h => h ▸ ruled_lines bytes, Ruled.lines_eq⟩

/-- Where the last line is ended, there are as many lines as line feeds. -/
theorem length_linesFrom (current bytes : List UInt8) :
    (linesFrom current (bytes ++ [lineFeed])).length = (bytes ++ [lineFeed]).count lineFeed := by
  induction bytes generalizing current with
  | nil => simp [linesFrom]
  | cons b bytes ih =>
    rw [List.cons_append, linesFrom]
    split
    · next same => rw [List.length_cons, ih, same, List.count_cons_self]
    · next other => rw [ih, List.count_cons_of_ne other]

end Text

/-! ## What a line holds -/

namespace ScriptError

/-- The error as told with so many lines more in front. -/
def later (n : Nat) : ScriptError → ScriptError
  | .line number e => .line (n + number) e
  | e => e

end ScriptError

namespace Script

/-- Whether a line is blank or a comment, the blanks at its ends aside. -/
def isSkipped (line : List UInt8) : Bool :=
  (Text.decode? line).any fun text =>
    (Text.trim text).isEmpty || (Text.trim text).head? = some '#'

/-- The text of a line, the blanks at its ends aside, is that of a step. -/
def Holds (line : List UInt8) (step : Step) : Prop :=
  ∃ text, Text.decode? line = some text ∧ Decode.text Step.decode (Text.trim text) = .ok step

/-- What is wrong with a line of the given number: it is no text, or its text, the blanks at its
ends aside, is none of a step. -/
inductive Fails (number : Nat) (line : List UInt8) : ScriptError → Prop
  | unreadable (undecoded : Text.decode? line = none) : Fails number line .unreadable
  | refused {text : List Char} {e : DecodeError} (decoded : Text.decode? line = some text)
      (refused : Decode.text Step.decode (Text.trim text) = .error e) :
      Fails number line (.line number e)

variable {number : Nat} {line : List UInt8} {ls : List (List UInt8)} {step : Step}
  {steps : List Step} {e : ScriptError}

/-- What is wrong with a line is its encoding, or is told with its number. -/
theorem Fails.told (fails : Fails number line e) : e = .unreadable ∨ ∃ d, e = .line number d := by
  cases fails with
  | unreadable => exact Or.inl rfl
  | refused => exact Or.inr ⟨_, rfl⟩

theorem parseBytes_skipped (skipped : isSkipped line = true) :
    parseBytes number line = .ok none := by
  obtain ⟨text, decoded, skipped⟩ := (Option.any_eq_true _ _).mp skipped
  rw [parseBytes, decoded]
  simp only [parseLine, Step.parse, skipped, if_true]
  rfl

/-- What a line that is not skipped is read as. -/
theorem parseBytes_of_held (held : isSkipped line = false) : parseBytes number line =
    match Text.decode? line with
    | none => .error .unreadable
    | some text =>
      match Decode.text Step.decode (Text.trim text) with
      | .error e => .error (.line number e)
      | .ok step => .ok (some step) := by
  rw [parseBytes]
  cases decoded : Text.decode? line with
  | none => rfl
  | some text =>
    have here : ((Text.trim text).isEmpty || (Text.trim text).head? = some '#') = false := by
      rwa [isSkipped, decoded, Option.any_some] at held
    simp only [parseLine, Step.parse, here, Bool.false_eq_true, if_false]
    cases Decode.text Step.decode (Text.trim text) <;> rfl

theorem parseBytes_ne_none (held : isSkipped line = false) :
    parseBytes number line ≠ .ok none := by
  rw [parseBytes_of_held held]
  split
  · simp
  · split <;> simp

theorem parseBytes_eq_some_iff (number : Nat) (held : isSkipped line = false) :
    parseBytes number line = .ok (some step) ↔ Holds line step := by
  rw [parseBytes_of_held held]
  constructor
  · intro h
    split at h
    · cases h
    · next text decoded =>
      split at h
      · cases h
      · next step' parsed =>
        cases h
        exact ⟨text, decoded, parsed⟩
  · rintro ⟨text, decoded, parsed⟩
    simp only [decoded, parsed]

theorem parseBytes_eq_error_iff (number : Nat) (held : isSkipped line = false) :
    parseBytes number line = .error e ↔ Fails number line e := by
  rw [parseBytes_of_held held]
  constructor
  · intro h
    split at h
    · next undecoded =>
      cases h
      exact .unreadable undecoded
    · next text decoded =>
      split at h
      · next e' refused =>
        cases h
        exact .refused decoded refused
      · cases h
  · rintro (undecoded | ⟨decoded, refused⟩)
    · simp only [undecoded]
    · simp only [decoded, refused]

/-! ## Line by line -/

theorem parseLines_skipped (skipped : isSkipped line = true) :
    parseLines number (line :: ls) = parseLines (number + 1) ls := by
  rw [parseLines, parseBytes_skipped skipped]
  exact congrFun Except.map_id _

theorem parseLines_held_eq_ok_iff (held : isSkipped line = false) :
    parseLines number (line :: ls) = .ok steps ↔ ∃ step rest,
      Holds line step ∧ parseLines (number + 1) ls = .ok rest ∧ steps = step :: rest := by
  simp only [← parseBytes_eq_some_iff number held, parseLines]
  cases h : parseBytes number line with
  | error e => simp
  | ok found =>
    cases found with
    | none => exact absurd h (parseBytes_ne_none held)
    | some step => cases parseLines (number + 1) ls <;> simp [Except.map, eq_comm]

theorem parseLines_held_eq_error_iff (held : isSkipped line = false) :
    parseLines number (line :: ls) = .error e ↔
      Fails number line e ∨ (∃ step, Holds line step) ∧ parseLines (number + 1) ls = .error e := by
  simp only [← parseBytes_eq_some_iff number held,
    ← parseBytes_eq_error_iff number held, parseLines]
  cases h : parseBytes number line with
  | error e' => simp
  | ok found =>
    cases found with
    | none => exact absurd h (parseBytes_ne_none held)
    | some step => cases parseLines (number + 1) ls <;> simp [Except.map]

/-- The steps of lines are those of the lines that are not skipped, in their order. -/
theorem parseLines_eq_ok_iff : parseLines number ls = .ok steps ↔
    List.Forall₂ Holds (ls.filter fun line => !isSkipped line) steps := by
  induction ls generalizing number steps with
  | nil =>
    rw [List.filter_nil, List.forall₂_nil_left_iff, parseLines, Except.ok.injEq]
    exact eq_comm
  | cons line ls ih =>
    cases held : isSkipped line with
    | true => rw [parseLines_skipped held, List.filter_cons_of_neg (by simp [held]), ih]
    | false =>
      rw [List.filter_cons_of_pos (by simp [held]), List.forall₂_cons_left_iff,
        parseLines_held_eq_ok_iff held]
      simp only [ih, exists_and_left]

/-- Lines can be parsed where each of them that is not skipped holds a step. -/
theorem exists_steps_iff : (∃ steps, parseLines number ls = .ok steps) ↔
    ∀ line ∈ ls, isSkipped line = false → ∃ step, Holds line step := by
  induction ls generalizing number with
  | nil => exact ⟨fun _ line hm => absurd hm List.not_mem_nil, fun _ => ⟨[], rfl⟩⟩
  | cons line ls ih =>
    rw [List.forall_mem_cons, ← @ih (number + 1)]
    cases held : isSkipped line with
    | true => simp [parseLines_skipped held]
    | false => simp [parseLines_held_eq_ok_iff held]

/-- Where the first line can be read, the others are to blame. -/
theorem parseLines_eq_error_iff_of_readable
    (readable : isSkipped line = false → ∃ step, Holds line step) :
    parseLines number (line :: ls) = .error e ↔ parseLines (number + 1) ls = .error e := by
  cases held : isSkipped line with
  | true => rw [parseLines_skipped held]
  | false =>
    obtain ⟨step, holds⟩ := readable held
    have parsed := (parseBytes_eq_some_iff number held).mpr holds
    rw [parseLines, parsed]
    cases parseLines (number + 1) ls <;> simp [Except.map]

/-- Lines cannot be parsed where one of them fails; the first one that does is to blame. -/
theorem parseLines_eq_error_iff : parseLines number ls = .error e ↔
    ∃ before line after, ls = before ++ line :: after ∧
      (∀ l ∈ before, isSkipped l = false → ∃ step, Holds l step) ∧
      isSkipped line = false ∧ Fails (number + before.length) line e := by
  induction ls generalizing number with
  | nil => simp [parseLines]
  | cons first ls ih =>
    have next : ∀ before : List (List UInt8),
        number + (first :: before).length = number + 1 + before.length := fun before => by
      rw [List.length_cons]
      omega
    constructor
    · intro h
      by_cases readable : isSkipped first = false → ∃ step, Holds first step
      · obtain ⟨before, line, after, rfl, good, held, fails⟩ :=
          ih.mp ((parseLines_eq_error_iff_of_readable readable).mp h)
        exact ⟨first :: before, line, after, rfl, List.forall_mem_cons.mpr ⟨readable, good⟩, held,
          next before ▸ fails⟩
      · obtain ⟨held, unreadable⟩ := Classical.not_imp.mp readable
        rcases (parseLines_held_eq_error_iff held).mp h with fails | ⟨holds, -⟩
        · exact ⟨[], first, ls, rfl, fun l hm => absurd hm List.not_mem_nil, held, fails⟩
        · exact absurd holds unreadable
    · rintro ⟨before, line, after, split, good, held, fails⟩
      cases before with
      | nil =>
        cases split
        exact (parseLines_held_eq_error_iff held).mpr (Or.inl fails)
      | cons l before =>
        cases split
        obtain ⟨readable, good⟩ := List.forall_mem_cons.mp good
        exact (parseLines_eq_error_iff_of_readable readable).mpr
          (ih.mpr ⟨before, line, after, rfl, good, held, next before ▸ fails⟩)

theorem parseBytes_later (n number : Nat) (line : List UInt8) :
    parseBytes (n + number) line = (parseBytes number line).mapError (.later n) := by
  rw [parseBytes, parseBytes]
  cases Text.decode? line with
  | none => rfl
  | some text =>
    simp only [parseLine]
    cases Step.parse text <;> rfl

/-- The number of the first line goes into the error only. -/
theorem parseLines_later (n number : Nat) (ls : List (List UInt8)) :
    parseLines (n + number) ls = (parseLines number ls).mapError (.later n) := by
  induction ls generalizing number with
  | nil => rfl
  | cons line ls ih =>
    rw [parseLines, parseLines, parseBytes_later, Nat.add_assoc, ih]
    cases parseBytes number line with
    | error e => rfl
    | ok step => cases parseLines (number + 1) ls <;> rfl

/-! ## The whole script -/

/-- How a script comes by its lines. -/
structure ParsesByLine (bytes : List UInt8) : Prop where
  /-- Its lines are what it is ruled into, whatever they end with. -/
  lines : ∀ ls, Text.lines bytes = ls ↔ Text.Ruled ls bytes
  /-- It can be parsed where each line that is neither blank nor a comment holds a step. -/
  succeeds : (∃ steps, parse bytes = .ok steps) ↔
    ∀ line ∈ Text.lines bytes, isSkipped line = false → ∃ step, Holds line step
  /-- Its steps are those of these lines, in their order. -/
  steps : ∀ steps, parse bytes = .ok steps ↔
    List.Forall₂ Holds ((Text.lines bytes).filter fun line => !isSkipped line) steps
  /-- Else the first line that fails is to blame, and its number is told that it has among all
  lines. -/
  blames : ∀ e, parse bytes = .error e ↔ ∃ before line after,
    Text.lines bytes = before ++ line :: after ∧
    (∀ l ∈ before, isSkipped l = false → ∃ step, Holds l step) ∧
    isSkipped line = false ∧ Fails (before.length + 1) line e
  /-- Behind the end of a line, what follows is parsed as if it stood alone; only the number of
  the line to blame is higher, by as many lines as have ended before. -/
  composes : bytes.getLast? = some Text.lineFeed → ∀ more, parse (bytes ++ more) =
    match parse bytes, parse more with
    | .error e, _ => .error e
    | .ok steps, .ok steps' => .ok (steps ++ steps')
    | .ok _, .error e => .error (e.later (bytes.count Text.lineFeed))

/-- A script is parsed line by line, whatever its bytes. -/
theorem parses_by_line (bytes : List UInt8) : ParsesByLine bytes := by
  refine ⟨fun ls => Text.lines_eq_iff, exists_steps_iff, fun steps => parseLines_eq_ok_iff,
    fun e => ?_, fun ended more => ?_⟩
  · simp only [Nat.add_comm _ 1]
    exact parseLines_eq_error_iff
  · obtain ⟨front, rfl⟩ := List.getLast?_eq_some_iff.mp ended
    have cut := parseLines_append 1 (Text.lines more) (Text.lines (front ++ [Text.lineFeed]))
    have count : (Text.lines (front ++ [Text.lineFeed])).length = _ :=
      Text.length_linesFrom [] front
    rw [count, Nat.add_comm 1, parseLines_later, ← Text.lines_append] at cut
    rw [parse, List.append_assoc, List.singleton_append, cut]
    simp only [parse]
    cases parseLines 1 (Text.lines (front ++ [Text.lineFeed])) with
    | error e => rfl
    | ok steps => cases parseLines 1 (Text.lines more) <;> rfl

end Script

end TabHost
