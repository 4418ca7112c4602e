import Mathlib.Data.List.DropRight
import TabHost.Proofs.Json.Literals

/-!
# Values are read as they are written

The text of a value is read as the value (`read_render`) if it is `Legible`: its whole numbers fit
a word, with a sign or without one, and its doubles are read as they are printed. What is read of
a value does not depend on the text that follows, and that carries the induction: behind an item
of an array or a member of an object stands a comma or a bracket.
-/

namespace TabHost

/-- A double that is read as it is printed. -/
def PrintsBack (x : Float) : Prop := Fragment.read (Json.renderFloat x) = (.float x, [])

namespace Json

mutual

/-- A value whose numbers are read as they are printed. -/
def Legible : Json → Prop
  | .int i => -UInt64.size ≤ 2 * i ∧ i < UInt64.size
  | .float x => PrintsBack x
  | .array items => LegibleItems items
  | .object members => LegibleMembers members
  | _ => True

def LegibleItems : List Json → Prop
  | [] => True
  | v :: vs => v.Legible ∧ LegibleItems vs

def LegibleMembers : List (String × Json) → Prop
  | [] => True
  | (_, v) :: ms => v.Legible ∧ LegibleMembers ms

end

end Json

namespace Fragment

variable {cs rest : List Char} {v : Fragment} {steps : Nat}

@[simp] theorem ended_ofJson (v : Json) : (ofJson v).ended = true := by
  cases v <;> rfl

theorem skipBlanks_skipBlanks (cs : List Char) : skipBlanks (skipBlanks cs) = skipBlanks cs :=
  List.dropWhile_idempotent ..

/-- Blanks in front of a value do not matter. -/
theorem readValue_skipBlanks (steps : Nat) (cs : List Char) :
    readValue (steps + 1) (skipBlanks cs) = readValue (steps + 1) cs := by
  simp only [readValue, skipBlanks_skipBlanks]

theorem readItems_skipBlanks (steps : Nat) (cs : List Char) :
    readItems (steps + 2) (skipBlanks cs) = readItems (steps + 2) cs := by
  simp only [readItems, readValue_skipBlanks]

/-! ## Numbers -/

theorem readValue_minus (steps : Nat) (cs : List Char) :
    readValue (steps + 1) ('-' :: cs) = readMagnitude true cs := rfl

theorem readValue_digit {c : Char} (h : c.isDigit = true) (steps : Nat) (cs : List Char) :
    readValue (steps + 1) (c :: cs) = readMagnitude false (c :: cs) := by
  have other : ∀ {c' : Char} {cs' : List Char}, c'.isDigit = false → c :: cs ≠ c' :: cs' := by
    intro c' cs' hc' heq
    rw [(List.cons.inj heq).1, hc'] at h
    cases h
  have here : skipBlanks (c :: cs) = c :: cs := by
    refine List.dropWhile_cons_of_neg fun blank => ?_
    simp only [Bool.or_eq_true, decide_eq_true_eq] at blank
    rcases blank with ((rfl | rfl) | rfl) | rfl <;> exact absurd h (by decide)
  rw [readValue, here]
  split
  · next heq => cases heq
  · next heq => exact absurd heq (other (by decide))
  · next heq => exact absurd heq (other (by decide))
  · next heq => exact absurd heq (other (by decide))
  · next heq => exact absurd heq (other (by decide))
  · next heq =>
    cases heq
    exact if_pos h

theorem readString_ne_float (cs : List Char) (x : Float) : (readString cs).1 ≠ .float x := by
  unfold readString
  split
  · simp
  · split <;> simp

theorem readWord_ne_float (cs : List Char) (x : Float) : (readWord cs).1 ≠ .float x := by
  unfold readWord
  split <;> simp

/-- A double is read off a literal with a sign or without one. -/
theorem exists_literal_of_readValue {x : Float} (h : readValue (steps + 1) cs = (.float x, rest)) :
    ∃ c tl, skipBlanks cs = c :: tl ∧
      ((c = '-' ∧ readMagnitude true tl = (.float x, rest)) ∨
        (c.isDigit = true ∧ readMagnitude false (c :: tl) = (.float x, rest))) := by
  rw [readValue] at h
  split at h
  · cases h
  · exact absurd (congrArg Prod.fst h) (readString_ne_float _ _)
  · split at h <;> cases h
  · split at h <;> cases h
  · next heq => exact ⟨_, _, heq, .inl ⟨rfl, h⟩⟩
  · next heq =>
    split at h
    · next digit => exact ⟨_, _, heq, .inr ⟨digit, h⟩⟩
    · exact absurd (congrArg Prod.fst h) (readWord_ne_float _ _)

/-- A double is read in the same way where more text follows. -/
theorem readValue_append {x : Float} (apart : Apart rest)
    (h : readValue (steps + 1) cs = (.float x, [])) (steps' : Nat) :
    readValue (steps' + 1) (cs ++ rest) = (.float x, rest) := by
  obtain ⟨c, tl, here, literal⟩ := exists_literal_of_readValue h
  have skip : skipBlanks (cs ++ rest) = c :: (tl ++ rest) := by
    rw [skipBlanks] at here ⊢
    rw [List.dropWhile_append, here]
    rfl
  rw [← readValue_skipBlanks, skip]
  rcases literal with ⟨rfl, number⟩ | ⟨digit, number⟩
  · exact readMagnitude_append apart number (by simp)
  · rw [readValue_digit digit]
    exact readMagnitude_append apart number (by simp)

/-- A whole number is read in the same way where more text follows. -/
theorem readValue_renderInt {i : Int} (low : -UInt64.size ≤ 2 * i) (high : i < UInt64.size)
    (apart : Apart rest) (steps : Nat) :
    readValue (steps + 1) (Json.renderInt i ++ rest) = (.int i, rest) := by
  cases i with
  | ofNat n =>
    obtain ⟨c, ds, digits⟩ := List.exists_cons_of_ne_nil (Nat.toDigits_ne_nil (n := n) (b := 10))
    have digit : c.isDigit = true :=
      Nat.isDigit_of_mem_toDigits (b := 10) (n := n) (by decide) (by decide) (by simp [digits])
    have fits : n < UInt64.size := Int.ofNat_lt.mp high
    have read := readMagnitude_toDigits apart false n
    rw [digits] at read
    rw [Json.renderInt, digits, List.cons_append, readValue_digit digit]
    refine read.trans ?_
    simp [number, ← digits, natOfDigits_toDigits, fits]
  | negSucc n =>
    have fits : 2 * (n + 1) ≤ UInt64.size := by
      rw [Int.negSucc_eq] at low
      omega
    rw [Json.renderInt, List.cons_append, readValue_minus, readMagnitude_toDigits apart]
    simp [number, natOfDigits_toDigits, fits, Int.negSucc_eq]

/-! ## Values -/

theorem renderString_append (s : String) (rest : List Char) :
    Json.renderString s ++ rest = '"' :: (s.toList.flatMap Json.escape ++ '"' :: rest) := by
  simp [Json.renderString]

/-- In front of a value stands no bracket that closes an array. -/
theorem skipBlanks_ne_of_readValue (h : readValue (steps + 1) cs = (v, rest)) (hv : v ≠ .broken)
    (cs' : List Char) : skipBlanks cs ≠ ']' :: cs' := by
  intro closing
  rw [readValue, closing] at h
  exact hv (congrArg Prod.fst h).symm

theorem readValue_items {vs : List Fragment} (goesOn : ∀ cs', skipBlanks cs ≠ ']' :: cs')
    (items : readItems (steps + 2) cs = (vs, true, rest)) :
    readValue (steps + 3) ('[' :: cs) = (.array vs true, rest) := by
  rw [← readItems_skipBlanks] at items
  rw [readValue, show skipBlanks ('[' :: cs) = '[' :: cs from rfl]
  split
  · next heq => cases heq
  · next heq => exact absurd heq (by simp)
  · next heq =>
    cases heq
    split
    · next closing => exact absurd closing (goesOn _)
    · rw [items]
  · next heq => exact absurd heq (by simp)
  · next heq => exact absurd heq (by simp)
  · next other _ _ heq => exact absurd (List.cons.inj heq).1.symm other

theorem readValue_members {ms : List (MemberKey × Fragment)}
    (members : readMembers steps ('"' :: cs) = (ms, true, rest)) :
    readValue (steps + 1) ('{' :: '"' :: cs) = (.object ms true, rest) := by
  have object : readValue (steps + 1) ('{' :: '"' :: cs) =
      (.object (readMembers steps ('"' :: cs)).1 (readMembers steps ('"' :: cs)).2.1,
        (readMembers steps ('"' :: cs)).2.2) := rfl
  rw [object, members]

section

variable {k : String} {cs' : List Char} (key : readString cs = (.string k, ':' :: cs'))
  (ended : v.ended = true)

include key ended

theorem readMembers_last (value : readValue steps cs' = (v, '}' :: rest)) :
    readMembers (steps + 1) ('"' :: cs) = ([(.name k, v)], true, rest) := by
  rw [readMembers, show skipBlanks ('"' :: cs) = '"' :: cs from rfl]
  simp only [key, asKey]
  rw [show skipBlanks (':' :: cs') = ':' :: cs' from rfl]
  simp only [value, ended, if_true]
  rfl

theorem readMembers_more {ms : List (MemberKey × Fragment)} {cs'' : List Char}
    (value : readValue steps cs' = (v, ',' :: cs''))
    (members : readMembers steps cs'' = (ms, true, rest)) :
    readMembers (steps + 1) ('"' :: cs) = ((.name k, v) :: ms, true, rest) := by
  rw [readMembers, show skipBlanks ('"' :: cs) = '"' :: cs from rfl]
  simp only [key, asKey]
  rw [show skipBlanks (':' :: cs') = ':' :: cs' from rfl]
  simp only [value, ended, if_true]
  exact congrArg (fun r => ((.name k, v) :: r.1, r.2.1, r.2.2)) members

end

theorem apart_renderItems (vs : List Json) (rest : List Char) :
    Apart (Json.renderItems vs ++ rest) := by
  cases vs <;> exact apart_cons (by decide)

theorem apart_renderMembers (ms : List (String × Json)) (rest : List Char) :
    Apart (Json.renderMembers ms ++ rest) := by
  cases ms with
  | nil => exact apart_cons (by decide)
  | cons m ms => exact apart_cons (by decide)

theorem length_renderItems_pos (vs : List Json) : 0 < (Json.renderItems vs).length := by
  cases vs <;> simp [Json.renderItems]

theorem length_renderMembers_pos (ms : List (String × Json)) :
    0 < (Json.renderMembers ms).length := by
  cases ms with
  | nil => simp [Json.renderMembers]
  | cons m ms => simp [Json.renderMembers]

theorem ofJson_ne_broken (v : Json) : ofJson v ≠ .broken := by
  cases v <;> simp [ofJson]

mutual

/-- A value is read in the same way where more text follows. -/
theorem readValue_render (v : Json) (rest : List Char) (steps : Nat) (legible : v.Legible)
    (apart : Apart rest) (enough : 2 * v.render.length ≤ steps + 1) :
    readValue (steps + 1) (v.render ++ rest) = (ofJson v, rest) := by
  match v, legible with
  | .null, _ => rfl
  | .bool true, _ => rfl
  | .bool false, _ => rfl
  | .int i, legible => exact readValue_renderInt legible.1 legible.2 apart steps
  | .float x, legible => exact readValue_append apart legible steps
  | .string s, _ =>
    rw [Json.render, renderString_append]
    refine (readString_escape s.toList rest).trans ?_
    rw [String.ofList_toList]
    rfl
  | .array [], _ => rfl
  | .array (v :: vs), ⟨legible, others⟩ =>
    have behind := length_renderItems_pos vs
    simp only [Json.render, List.cons_append, List.length_cons, List.length_append] at enough
    obtain ⟨steps, rfl⟩ : ∃ n, steps = n + 2 := ⟨steps - 2, by omega⟩
    have items := readItems_render v vs rest (steps + 1) legible others
      (by rw [List.length_append]; omega)
    have first := readValue_render v _ steps legible (apart_renderItems vs rest) (by omega)
    have text : (Json.array (v :: vs)).render ++ rest =
        '[' :: (v.render ++ (Json.renderItems vs ++ rest)) := by simp [Json.render]
    rw [text]
    exact readValue_items (skipBlanks_ne_of_readValue first (ofJson_ne_broken v)) items
  | .object [], _ => rfl
  | .object ((k, v) :: ms), ⟨legible, others⟩ =>
    have behind := length_renderMembers_pos ms
    simp only [Json.render, List.cons_append, List.length_cons, List.length_append] at enough
    obtain ⟨steps, rfl⟩ : ∃ n, steps = n + 1 := ⟨steps - 1, by omega⟩
    have members := readMembers_render k v ms rest steps legible others
      (by simp only [List.length_append, List.length_cons]; omega)
    have text : (Json.object ((k, v) :: ms)).render ++ rest =
        '{' :: (Json.renderString k ++ ':' :: (v.render ++ (Json.renderMembers ms ++ rest))) := by
      simp [Json.render]
    rw [renderString_append] at members
    rw [text, renderString_append]
    exact readValue_members members
termination_by steps

theorem readItems_render (v : Json) (vs : List Json) (rest : List Char) (steps : Nat)
    (legible : v.Legible) (others : Json.LegibleItems vs)
    (enough : 2 * (v.render ++ Json.renderItems vs).length ≤ steps + 1) :
    readItems (steps + 1) (v.render ++ (Json.renderItems vs ++ rest)) =
      (ofJson v :: ofItems vs, true, rest) := by
  have behind := length_renderItems_pos vs
  rw [List.length_append] at enough
  obtain ⟨steps, rfl⟩ : ∃ n, steps = n + 1 := ⟨steps - 1, by omega⟩
  have first := readValue_render v _ steps legible (apart_renderItems vs rest) (by omega)
  rw [readItems, first]
  simp only [ended_ofJson, if_true]
  match vs, others with
  | [], _ => rfl
  | v' :: vs, ⟨legible', others⟩ =>
    simp only [Json.renderItems, List.cons_append, List.length_cons] at enough
    have items := readItems_render v' vs rest steps legible' others (by omega)
    have text : Json.renderItems (v' :: vs) ++ rest =
        ',' :: (v'.render ++ (Json.renderItems vs ++ rest)) := by simp [Json.renderItems]
    rw [text]
    exact congrArg (fun r => (ofJson v :: r.1, r.2.1, r.2.2)) items
termination_by steps

theorem readMembers_render (k : String) (v : Json) (ms : List (String × Json)) (rest : List Char)
    (steps : Nat) (legible : v.Legible) (others : Json.LegibleMembers ms)
    (enough : 2 * (Json.renderString k ++ ':' :: (v.render ++ Json.renderMembers ms)).length ≤
      steps + 1) :
    readMembers (steps + 1)
        (Json.renderString k ++ ':' :: (v.render ++ (Json.renderMembers ms ++ rest))) =
      ((.name k, ofJson v) :: ofMembers ms, true, rest) := by
  have behind := length_renderMembers_pos ms
  simp only [List.length_append, List.length_cons] at enough
  obtain ⟨steps, rfl⟩ : ∃ n, steps = n + 1 := ⟨steps - 1, by omega⟩
  have first := readValue_render v _ steps legible (apart_renderMembers ms rest) (by omega)
  have key : readString (k.toList.flatMap Json.escape ++
      '"' :: ':' :: (v.render ++ (Json.renderMembers ms ++ rest))) =
        (.string k, ':' :: (v.render ++ (Json.renderMembers ms ++ rest))) :=
    (readString_escape ..).trans (by rw [String.ofList_toList])
  rw [renderString_append]
  match ms, others with
  | [], _ => exact readMembers_last key (ended_ofJson v) first
  | (k', v') :: ms, ⟨legible', others⟩ =>
    simp only [Json.renderMembers, List.cons_append, List.length_cons, List.length_append] at enough
    have members := readMembers_render k' v' ms rest steps legible' others
      (by simp only [List.length_append, List.length_cons]; omega)
    have text : Json.renderMembers ((k', v') :: ms) ++ rest =
        ',' :: (Json.renderString k' ++ ':' :: (v'.render ++ (Json.renderMembers ms ++ rest))) := by
      simp [Json.renderMembers]
    rw [text] at first key ⊢
    exact readMembers_more key (ended_ofJson v) first members
termination_by steps

end

/-- A value is read from its text. -/
theorem read_render {v : Json} (legible : v.Legible) : read v.render = (ofJson v, []) := by
  have whole := readValue_render v [] (2 * v.render.length + 1) legible apart_nil (by omega)
  rwa [List.append_nil] at whole

end Fragment

end TabHost
