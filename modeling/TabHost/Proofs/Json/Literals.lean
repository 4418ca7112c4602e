import Mathlib.Data.List.TakeDrop
import Mathlib.Data.List.TakeWhile
import TabHost.Json.Reader

/-!
# Literals are read as they are written

Numbers: a literal that is read from a text of its own is read in the same way from any text that
begins with it, as long as no further character could be part of it (`Apart`,
`readMagnitude_append`); a whole number is read from its decimal digits. Strings: every character
is one piece of the literal (`exists_piece`), so the pieces of a whole literal join to the string.
-/

namespace TabHost

namespace Fragment

variable {cs rest : List Char} {v : Fragment}

/-- A text does not go on with what could be part of a number. -/
def Apart (rest : List Char) : Prop :=
  ∀ c ∈ rest.head?, c.isDigit = false ∧ c ≠ '.' ∧ c ≠ 'e' ∧ c ≠ 'E'

theorem apart_nil : Apart [] := fun c hc => by cases hc

theorem apart_cons {c : Char} (h : c.isDigit = false ∧ c ≠ '.' ∧ c ≠ 'e' ∧ c ≠ 'E') :
    Apart (c :: rest) := fun _ hc => Option.some.inj hc ▸ h

/-! ## Numbers -/

/-- The digits at the start of a text, before a text that does not start with one. -/
theorem span_append (apart : Apart rest) (cs : List Char) :
    (cs ++ rest).span Char.isDigit =
      (cs.takeWhile Char.isDigit, cs.dropWhile Char.isDigit ++ rest) := by
  rw [List.span_eq_takeWhile_dropWhile]
  induction cs with
  | nil =>
    cases rest with
    | nil => rfl
    | cons c rest => simp [(apart c rfl).1]
  | cons c cs ih =>
    cases hc : c.isDigit <;> simp_all

theorem readFraction_of_ne {c : Char} (h : c ≠ '.') (cs : List Char) :
    readFraction (c :: cs) = some (none, c :: cs) := by
  unfold readFraction
  split
  · next heq => exact absurd (List.cons.inj heq).1 h
  · rfl

theorem readFraction_append (apart : Apart rest) {fraction : Option (List Char)}
    {cs' : List Char} (h : readFraction cs = some (fraction, cs')) :
    readFraction (cs ++ rest) = some (fraction, cs' ++ rest) := by
  cases cs with
  | nil =>
    cases h
    cases rest with
    | nil => rfl
    | cons c rest => exact readFraction_of_ne (apart c rfl).2.1 rest
  | cons c cs =>
    by_cases point : c = '.'
    · subst point
      simp only [readFraction, List.cons_append, span_append apart,
        List.span_eq_takeWhile_dropWhile] at h ⊢
      split at h
      · cases h
      · next digits =>
        cases h
        rw [if_neg digits]
    · rw [readFraction_of_ne point] at h
      cases h
      exact readFraction_of_ne point _

/-- The digits of an exponent and what is read of them. -/
def readPower (negative : Bool) (cs : List Char) : Option (Option Int × List Char) :=
  let (ds, rest) := cs.span Char.isDigit
  if ds.isEmpty then none
  else some (some (if negative then -(natOfDigits ds) else natOfDigits ds), rest)

theorem readPower_append (apart : Apart rest) {negative : Bool} {exponent : Option Int}
    {cs' : List Char} (h : readPower negative cs = some (exponent, cs')) :
    readPower negative (cs ++ rest) = some (exponent, cs' ++ rest) := by
  simp only [readPower, span_append apart, List.span_eq_takeWhile_dropWhile] at h ⊢
  split at h
  · cases h
  · next digits =>
    cases h
    rw [if_neg digits]

theorem readExponent_append (apart : Apart rest) {exponent : Option Int} {cs' : List Char}
    (h : readExponent cs = some (exponent, cs')) :
    readExponent (cs ++ rest) = some (exponent, cs' ++ rest) := by
  cases cs with
  | nil =>
    cases h
    cases rest with
    | nil => rfl
    | cons c rest => simp [readExponent, (apart c rfl).2.2]
  | cons c cs =>
    by_cases mark : (c = 'e' || c = 'E') = true
    · simp only [List.cons_append, readExponent, if_pos mark] at h ⊢
      split at h
      · exact readPower_append apart h
      · exact readPower_append apart h
      · next minus plus =>
        cases cs with
        | nil => cases h
        | cons d ds =>
          split
          · next heq => exact absurd ((List.cons.inj heq).1 ▸ rfl) (minus ds)
          · next heq => exact absurd ((List.cons.inj heq).1 ▸ rfl) (plus ds)
          · exact readPower_append apart h
    · simp only [List.cons_append, readExponent, if_neg mark] at h ⊢
      cases h
      rfl

/-- A number is read in the same way where more text follows. -/
theorem readMagnitude_append (apart : Apart rest) {negative : Bool} {cs' : List Char}
    (h : readMagnitude negative cs = (v, cs')) (hv : v ≠ .broken) :
    readMagnitude negative (cs ++ rest) = (v, cs' ++ rest) := by
  simp only [readMagnitude, span_append apart, List.span_eq_takeWhile_dropWhile] at h ⊢
  split at h
  · cases h
    exact absurd rfl hv
  · next whole =>
    rw [if_neg whole]
    cases fraction : readFraction (cs.dropWhile Char.isDigit) with
    | none =>
      rw [fraction] at h
      cases h
      exact absurd rfl hv
    | some r =>
      obtain ⟨f, cs₁⟩ := r
      rw [fraction] at h
      rw [readFraction_append apart fraction]
      cases exponent : readExponent cs₁ with
      | none =>
        simp only [exponent] at h
        cases h
        exact absurd rfl hv
      | some r =>
        simp only [exponent] at h
        cases h
        simp only [readExponent_append apart exponent]

theorem natOfDigits_toDigits (n : Nat) : natOfDigits (Nat.toDigits 10 n) = n :=
  Nat.ofDigitChars_eq_foldl.symm.trans Nat.ofDigitChars_ten_toDigits

/-- Only the number zero is written with a zero in front. -/
theorem head_toDigits {n : Nat} (h : (Nat.toDigits 10 n).head? = some '0') : n = 0 := by
  induction n using Nat.strongRecOn with
  | ind n ih =>
    rw [Nat.toDigits_eq_if (by decide)] at h
    split at h
    · exact Nat.digitChar_eq_zero.mp (Option.some.inj h)
    · next large =>
      rw [List.head?_append, List.head?_eq_some_head Nat.toDigits_ne_nil, Option.some_or,
        ← List.head?_eq_some_head] at h
      have := ih (n / 10) (by omega) h
      omega

/-- A whole number is read from its decimal digits. -/
theorem readMagnitude_toDigits (apart : Apart rest) (negative : Bool) (n : Nat) :
    readMagnitude negative (Nat.toDigits 10 n ++ rest) =
      (number negative (Nat.toDigits 10 n) [] 0 true, rest) := by
  have digits : ∀ c ∈ Nat.toDigits 10 n, c.isDigit = true := fun c hc =>
    Nat.isDigit_of_mem_toDigits (by decide) (by decide) hc
  have whole : ¬((Nat.toDigits 10 n).isEmpty || ((Nat.toDigits 10 n).head? = some '0' &&
      1 < (Nat.toDigits 10 n).length)) = true := by
    by_cases zero : (Nat.toDigits 10 n).head? = some '0'
    · rw [head_toDigits zero]
      decide
    · simp [zero, Nat.toDigits_ne_nil]
  have fraction := readFraction_append apart (show readFraction [] = some (none, []) from rfl)
  have exponent := readExponent_append apart (show readExponent [] = some (none, []) from rfl)
  rw [List.nil_append] at fraction exponent
  simp only [readMagnitude, span_append apart, List.takeWhile_eq_self_iff.mpr digits,
    List.dropWhile_eq_nil_iff.mpr digits, List.nil_append, if_neg whole, fraction, exponent]
  rfl

/-! ## Strings -/

theorem joinPieces_unit {n : Nat} (h : n < 0xD800) (ps : List Piece) :
    joinPieces (.unit n :: ps) = (joinPieces ps).map (Char.ofNat n :: ·) := by
  have high : isHighSurrogate n = false := by simp [isHighSurrogate]; omega
  have low : isLowSurrogate n = false := by simp [isLowSurrogate]; omega
  rcases ps with _ | ⟨_ | m, ps⟩ <;> simp [joinPieces, high, low]

/-- What is escaped with its number is read off two digits. -/
theorem unit?_control : ∀ n < 0x20,
    unit? '0' '0' (Nat.digitChar (n / 16)) (Nat.digitChar (n % 16)) = some n := by decide

/-- A character of a string is one piece of its literal. -/
theorem exists_piece (c : Char) : ∃ p,
    (∀ cs, readPieces (Json.escape c ++ cs) = (readPieces cs).map fun r => (p :: r.1, r.2)) ∧
      ∀ ps, joinPieces (p :: ps) = (joinPieces ps).map (c :: ·) := by
  -- a letter behind a backslash stands for the character
  have letter : ∀ e, e ≠ 'u' → unescape? e = some c → ∀ cs,
      readPieces (['\\', e] ++ cs) = (readPieces cs).map fun r => (.char c :: r.1, r.2) := by
    intro e plain means cs
    show readPieces ('\\' :: e :: cs) = _
    rw [readPieces, means]
    exact fun _ _ _ _ _ heq => absurd heq plain
  have named : ∀ n, c.toNat = n → c = Char.ofNat n := fun n h => h ▸ (Char.ofNat_toNat c).symm
  unfold Json.escape
  split
  · next heq => exact ⟨.char c, letter '"' (by decide) (by rw [heq]; rfl), fun _ => rfl⟩
  split
  · next heq => exact ⟨.char c, letter '\\' (by decide) (by rw [heq]; rfl), fun _ => rfl⟩
  split
  · next control =>
    split
    · next heq => exact ⟨.char c, letter 'b' (by decide) (named _ heq ▸ rfl), fun _ => rfl⟩
    · next heq => exact ⟨.char c, letter 't' (by decide) (named _ heq ▸ rfl), fun _ => rfl⟩
    · next heq => exact ⟨.char c, letter 'n' (by decide) (named _ heq ▸ rfl), fun _ => rfl⟩
    · next heq => exact ⟨.char c, letter 'f' (by decide) (named _ heq ▸ rfl), fun _ => rfl⟩
    · next heq => exact ⟨.char c, letter 'r' (by decide) (named _ heq ▸ rfl), fun _ => rfl⟩
    · refine ⟨.unit c.toNat, fun cs => ?_, fun ps => ?_⟩
      · simp only [List.cons_append, List.nil_append, readPieces, unit?_control _ control]
      · rw [joinPieces_unit (by omega), Char.ofNat_toNat]
  · next quote slash control =>
    refine ⟨.char c, fun cs => ?_, fun _ => rfl⟩
    show readPieces (c :: cs) = _
    rw [readPieces, if_neg (by simp [control, slash])]
    · exact quote
    · exact fun _ _ _ _ _ heq => absurd heq slash
    · exact fun _ _ heq => absurd heq slash

/-- The literal of a string is read as the string. -/
theorem readString_escape (cs rest : List Char) :
    readString (cs.flatMap Json.escape ++ '"' :: rest) = (.string (String.ofList cs), rest) := by
  have pieces : ∃ ps, readPieces (cs.flatMap Json.escape ++ '"' :: rest) = some (ps, rest) ∧
      joinPieces ps = some cs := by
    induction cs with
    | nil => exact ⟨[], rfl, rfl⟩
    | cons c cs ih =>
      obtain ⟨p, read, join⟩ := exists_piece c
      obtain ⟨ps, reads, joins⟩ := ih
      refine ⟨p :: ps, ?_, ?_⟩
      · rw [List.flatMap_cons, List.append_assoc, read, reads]
        rfl
      · rw [join, joins]
        rfl
  obtain ⟨ps, read, join⟩ := pieces
  simp only [readString, read, join]

end Fragment

end TabHost
