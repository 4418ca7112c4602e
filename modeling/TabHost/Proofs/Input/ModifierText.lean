import Mathlib.Data.List.DropRight
import TabHost.Input.Modifiers

/-!
# The text of modifiers

The text of modifiers is read as the modifiers (`ofText_text`), whichever of the 32 flags are set.
A word of the text has neither bars nor blanks in it (`IsWord`), so cutting the text at its bars
and trimming the parts gives the words back (`readFlags_splitBars`). A word with a name stands for
one flag, the word at the end for all flags without a name, and together they are the flags
(`flags_eq`).
-/

namespace TabHost

namespace Modifiers

open Text (trim isBlank hexValue? natOfHex?)

/-! ## Words between bars -/

/-- A text with neither bars nor blanks. -/
def IsWord (w : List Char) : Prop := w ≠ [] ∧ ∀ c ∈ w, c ≠ '|' ∧ isBlank c = false

theorem dropWhile_pad {before cs : List Char} (hb : ∀ c ∈ before, isBlank c = true)
    (hc : ∀ c ∈ cs.head?, isBlank c = false) : (before ++ cs).dropWhile isBlank = cs := by
  rw [List.dropWhile_append_of_pos hb]
  cases cs with
  | nil => rfl
  | cons c cs => exact List.dropWhile_cons_of_neg (by simp [hc c rfl])

/-- Blanks around a word are trimmed. -/
theorem trim_pad {before w after : List Char} (hb : ∀ c ∈ before, isBlank c = true)
    (hw : IsWord w) (ha : ∀ c ∈ after, isBlank c = true) : trim (before ++ (w ++ after)) = w := by
  obtain ⟨filled, word⟩ := hw
  have first : ∀ c ∈ (w ++ after).head?, isBlank c = false := fun c hc => by
    rw [List.head?_append_of_ne_nil w filled] at hc
    exact (word c (List.mem_of_mem_head? hc)).2
  have last : ∀ c ∈ w.reverse.head?, isBlank c = false := fun c hc =>
    (word c (List.mem_reverse.mp (List.mem_of_mem_head? hc))).2
  rw [trim, dropWhile_pad hb first, List.reverse_append,
    dropWhile_pad (fun c hc => ha c (List.mem_reverse.mp hc)) last, List.reverse_reverse]

theorem trim_word {w : List Char} (hw : IsWord w) : trim w = w := by
  have bare : trim ([] ++ (w ++ [])) = w := trim_pad (by simp) hw (by simp)
  rwa [List.nil_append, List.append_nil] at bare

theorem trim_ne_nil {w cs : List Char} (hw : IsWord w) (begins : w <+: cs) : trim cs ≠ [] := by
  obtain ⟨rest, rfl⟩ := begins
  obtain ⟨c, w, rfl⟩ := List.exists_cons_of_ne_nil hw.1
  have first := (hw.2 c List.mem_cons_self).2
  rw [trim, List.cons_append, List.dropWhile_cons_of_neg (by simp [first])]
  intro none
  have blank := List.dropWhile_eq_nil_iff.mp (List.reverse_eq_nil_iff.mp none) c (by simp)
  rw [first] at blank
  cases blank

theorem splitBars_cons {c : Char} (h : c ≠ '|') {cs part : List Char} {parts : List (List Char)}
    (hs : splitBars cs = part :: parts) : splitBars (c :: cs) = (c :: part) :: parts := by
  rw [splitBars] at hs ⊢
  rw [List.foldr_cons, hs]
  split
  · exact absurd rfl h
  · next heq =>
    cases heq
    rfl
  · next heq => cases heq

/-- What stands before the first bar belongs to the first part. -/
theorem splitBars_append {cs tl part : List Char} {parts : List (List Char)}
    (hc : ∀ c ∈ cs, c ≠ '|') (hs : splitBars tl = part :: parts) :
    splitBars (cs ++ tl) = (cs ++ part) :: parts := by
  induction cs with
  | nil => exact hs
  | cons c cs ih =>
    exact splitBars_cons (hc c List.mem_cons_self)
      (ih fun c' hc' => hc c' (List.mem_cons_of_mem _ hc'))

theorem readFlag_pad {before w after : List Char} (hb : ∀ c ∈ before, isBlank c = true)
    (hw : IsWord w) (ha : ∀ c ∈ after, isBlank c = true) :
    readFlag (before ++ (w ++ after)) = readFlag w := by
  simp only [readFlag, trim_pad hb hw ha, trim_word hw]

theorem readFlags_cons_congr {part part' : List Char} {parts parts' : List (List Char)}
    (h : readFlag part = readFlag part') (hs : readFlags parts = readFlags parts') :
    readFlags (part :: parts) = readFlags (part' :: parts') := by
  rw [readFlags, readFlags, h, hs]

/-- Words between bars are read one by one, with a blank before the first one or without. -/
theorem readFlags_splitBars {w : List Char} {ws : List (List Char)}
    (words : ∀ v ∈ w :: ws, IsWord v) {before : List Char} (hb : ∀ c ∈ before, c = ' ') :
    readFlags (splitBars (before ++ [' ', '|', ' '].intercalate (w :: ws))) =
      readFlags (w :: ws) := by
  have blank : ∀ c ∈ before, isBlank c = true := fun c hc => hb c hc ▸ rfl
  have bars : ∀ c ∈ before, c ≠ '|' := fun c hc => by simp [hb c hc]
  have word := words w List.mem_cons_self
  induction ws generalizing w before with
  | nil =>
    have noBar : ∀ c ∈ before ++ w, c ≠ '|' := fun c hc =>
      (List.mem_append.mp hc).elim (bars c) fun hc => (word.2 c hc).1
    have one : splitBars ((before ++ w) ++ []) = [(before ++ w) ++ []] := splitBars_append noBar rfl
    have same : readFlag (before ++ (w ++ [])) = readFlag w := readFlag_pad blank word (by simp)
    rw [List.append_nil] at same one
    rw [List.intercalate_singleton, one]
    exact readFlags_cons_congr same rfl
  | cons w' ws ih =>
    have text : before ++ [' ', '|', ' '].intercalate (w :: w' :: ws) =
        (before ++ (w ++ [' '])) ++ '|' :: ([' '] ++ [' ', '|', ' '].intercalate (w' :: ws)) := by
      simp [List.intercalate_cons_cons]
    have noBar : ∀ c ∈ before ++ (w ++ [' ']), c ≠ '|' := fun c hc => by
      rcases List.mem_append.mp hc with hc | hc
      · exact bars c hc
      · rcases List.mem_append.mp hc with hc | hc
        · exact (word.2 c hc).1
        · simp_all
    have space : ∀ c ∈ [' '], isBlank c = true := fun c hc => List.mem_singleton.mp hc ▸ rfl
    have later : readFlags (splitBars ([' '] ++ [' ', '|', ' '].intercalate (w' :: ws))) =
        readFlags (w' :: ws) :=
      ih (fun v hv => words v (List.mem_cons_of_mem _ hv)) (by simp) space (by simp)
        (words w' (by simp))
    have cut : splitBars ((before ++ (w ++ [' '])) ++
        '|' :: ([' '] ++ [' ', '|', ' '].intercalate (w' :: ws))) =
          ((before ++ (w ++ [' '])) ++ []) ::
            splitBars ([' '] ++ [' ', '|', ' '].intercalate (w' :: ws)) :=
      splitBars_append noBar rfl
    rw [text, cut, List.append_nil]
    exact readFlags_cons_congr (readFlag_pad blank word space) later

/-! ## Flags -/

/-- The flags that some words stand for together. -/
theorem readFlags_append {ws vs : List (List Char)} {bits bits' : UInt32}
    (hw : readFlags ws = .ok bits) (hv : readFlags vs = .ok bits') :
    readFlags (ws ++ vs) = .ok (bits ||| bits') := by
  induction ws generalizing bits with
  | nil =>
    cases hw
    rw [List.nil_append, UInt32.zero_or]
    exact hv
  | cons w ws ih =>
    rw [readFlags] at hw
    rw [List.cons_append, readFlags]
    cases first : readFlag w with
    | error e =>
      rw [first] at hw
      cases hw
    | ok b =>
      rw [first] at hw
      cases others : readFlags ws with
      | error e =>
        rw [others] at hw
        cases hw
      | ok bs =>
        rw [others] at hw
        cases hw
        simp only [ih others, Except.map, UInt32.or_assoc]

theorem isWord_names : ∀ n ∈ names, IsWord n.1.toList := by
  have all : names.all (fun n => !n.1.toList.isEmpty &&
      n.1.toList.all fun c => c != '|' && !isBlank c) = true := by decide +kernel
  intro n hn
  simpa [IsWord] using List.all_eq_true.mp all n hn

theorem readFlag_names : ∀ n ∈ names, readFlag n.1.toList = .ok n.2 := by
  decide

theorem hexValue?_digitChar : ∀ d < 16, hexValue? (Nat.digitChar d) = some d := by decide

theorem natOfHex?_toDigits (n : Nat) : natOfHex? (Nat.toDigits 16 n) = some n := by
  have values : ∃ vs, (Nat.toDigits 16 n).mapM hexValue? = some vs ∧
      vs.foldl (fun n v => 16 * n + v) 0 = n := by
    induction n using Nat.strongRecOn with
    | ind n ih =>
      rw [Nat.toDigits_eq_if (by decide)]
      split
      · next small =>
        exact ⟨[n], by simp [hexValue?_digitChar n small], by simp⟩
      · next large =>
        obtain ⟨vs, read, sum⟩ := ih (n / 16) (by omega)
        refine ⟨vs ++ [n % 16], ?_, ?_⟩
        · simp [List.mapM_append, read, hexValue?_digitChar (n % 16) (by omega)]
        · rw [List.foldl_append, sum]
          simp only [List.foldl_cons, List.foldl_nil]
          omega
  obtain ⟨vs, read, sum⟩ := values
  simp only [natOfHex?, read, Option.map_some, sum]

/-- The digits of a hexadecimal number. -/
theorem exists_of_mem_toDigits {c : Char} {n : Nat} (h : c ∈ Nat.toDigits 16 n) :
    ∃ d < 16, c = Nat.digitChar d := by
  induction n using Nat.strongRecOn with
  | ind n ih =>
    rw [Nat.toDigits_eq_if (by decide)] at h
    split at h
    · next small => exact ⟨n, small, List.mem_singleton.mp h⟩
    · next large =>
      rcases List.mem_append.mp h with h | h
      · exact ih (n / 16) (by omega) h
      · exact ⟨n % 16, by omega, List.mem_singleton.mp h⟩

theorem digitChar_plain : ∀ d < 16, Nat.digitChar d ≠ '|' ∧ isBlank (Nat.digitChar d) = false ∧
    Nat.digitChar d ≠ '+' := by decide

theorem isWord_hex (n : Nat) : IsWord ('0' :: 'x' :: Nat.toDigits 16 n) := by
  refine ⟨by simp, fun c hc => ?_⟩
  rcases List.mem_cons.mp hc with rfl | hc
  · decide
  rcases List.mem_cons.mp hc with rfl | hc
  · decide
  obtain ⟨d, small, rfl⟩ := exists_of_mem_toDigits hc
  exact ⟨(digitChar_plain d small).1, (digitChar_plain d small).2.1⟩

theorem readFlag_hex (bits : UInt32) :
    readFlag ('0' :: 'x' :: Nat.toDigits 16 bits.toNat) = .ok bits := by
  have word : hexWord? (Nat.toDigits 16 bits.toNat) = some bits := by
    have digits : ∀ rest, Nat.toDigits 16 bits.toNat ≠ '+' :: rest := fun rest heq => by
      obtain ⟨d, small, hd⟩ := exists_of_mem_toDigits (heq ▸ List.mem_cons_self)
      exact (digitChar_plain d small).2.2 hd.symm
    have fits : bits.toNat < UInt32.size := bits.toNat_lt
    unfold hexWord?
    split
    · next heq => exact absurd heq (digits _)
    · simp [Nat.toDigits_ne_nil, natOfHex?_toDigits, fits]
  simp only [readFlag, trim_word (isWord_hex bits.toNat), word]

/-! ## All flags -/

theorem and_or_distrib (a b c : UInt32) : a &&& (b ||| c) = a &&& b ||| a &&& c := by
  apply UInt32.toBitVec_inj.mp
  ext i hi
  simp [Bool.and_or_distrib_left]

/-- A flag with a name is set or not. -/
theorem and_names (bits : UInt32) : ∀ n ∈ names, bits &&& n.2 = 0 ∨ bits &&& n.2 = n.2 := by
  have one : ∀ n ∈ names, ∃ i < 32, n.2.toBitVec = BitVec.twoPow 32 i := by decide
  intro n hn
  obtain ⟨i, -, hi⟩ := one n hn
  have bit := BitVec.and_twoPow bits.toBitVec i
  rw [← hi] at bit
  split at bit
  · exact .inr (UInt32.toBitVec_inj.mp bit)
  · exact .inl (UInt32.toBitVec_inj.mp bit)

/-- The set ones among some flags, together. -/
theorem foldr_filter_and (bits : UInt32) (ns : List (String × UInt32))
    (hn : ∀ n ∈ ns, bits &&& n.2 = 0 ∨ bits &&& n.2 = n.2) :
    ((ns.filter fun n => bits &&& n.2 ≠ 0).map Prod.snd).foldr (· ||| ·) 0 =
      bits &&& (ns.map Prod.snd).foldr (· ||| ·) 0 := by
  induction ns with
  | nil => simp
  | cons n ns ih =>
    have rest := ih fun n' hn' => hn n' (List.mem_cons_of_mem _ hn')
    rw [List.map_cons, List.foldr_cons, and_or_distrib, ← rest]
    by_cases off : bits &&& n.2 = 0
    · simp [off]
    · have on := (hn n List.mem_cons_self).resolve_left off
      rw [List.filter_cons_of_pos (by simpa using off), on]
      rfl

/-- The flags with a name and the others are all flags. -/
theorem flags_eq (bits : UInt32) :
    ((names.filter fun n => bits &&& n.2 ≠ 0).map Prod.snd).foldr (· ||| ·) 0 ||| unnamed bits =
      bits := by
  have named : (names.map Prod.snd).foldr (· ||| ·) 0 ||| ~~~(0x3FFF) = -1 := by decide
  rw [foldr_filter_and bits names (and_names bits), unnamed, ← and_or_distrib, named,
    UInt32.and_neg_one]

theorem readFlags_named (ns : List (String × UInt32)) (hn : ∀ n ∈ ns, n ∈ names) :
    readFlags (ns.map (·.1.toList)) = .ok ((ns.map Prod.snd).foldr (· ||| ·) 0) := by
  induction ns with
  | nil => rfl
  | cons n ns ih =>
    rw [List.map_cons, readFlags, readFlag_names n (hn n List.mem_cons_self)]
    simp only [ih fun n' hn' => hn n' (List.mem_cons_of_mem _ hn'), Except.map, List.map_cons,
      List.foldr_cons]

/-- The words of the text of modifiers stand for all their flags. -/
theorem readFlags_words (m : Modifiers) : readFlags m.words = .ok m.bits := by
  have named := readFlags_named (names.filter fun n => m.bits &&& n.2 ≠ 0)
    fun n hn => (List.mem_filter.mp hn).1
  have others : readFlags (if unnamed m.bits = 0 then []
      else ['0' :: 'x' :: Nat.toDigits 16 (unnamed m.bits).toNat]) = .ok (unnamed m.bits) := by
    split
    · next none => rw [none, readFlags]
    · simp [readFlags, readFlag_hex, Except.map]
  rw [words, readFlags_append named others, flags_eq]

theorem isWord_of_mem_words {m : Modifiers} {w : List Char} (h : w ∈ m.words) : IsWord w := by
  rcases List.mem_append.mp h with named | other
  · obtain ⟨n, hn, rfl⟩ := List.mem_map.mp named
    exact isWord_names n (List.mem_filter.mp hn).1
  · split at other
    · cases other
    · exact List.mem_singleton.mp other ▸ isWord_hex _

/-- The text of modifiers is read as the modifiers. -/
theorem ofText_text (m : Modifiers) : ofText m.text = .ok m := by
  have flags := readFlags_words m
  have word : ∀ w ∈ m.words, IsWord w := fun _ => isWord_of_mem_words
  rw [ofText, text, String.toList_ofList]
  cases hw : m.words with
  | nil =>
    rw [hw] at flags
    cases m
    cases flags
    rfl
  | cons w ws =>
    rw [hw] at flags word
    have read : readFlags (splitBars ([] ++ [' ', '|', ' '].intercalate (w :: ws))) =
        readFlags (w :: ws) := readFlags_splitBars word (by simp)
    rw [List.nil_append] at read
    have begins : w <+: [' ', '|', ' '].intercalate (w :: ws) := by
      cases ws with
      | nil => simp
      | cons w' ws => simp [List.intercalate_cons_cons]
    rw [if_neg (by simp [trim_ne_nil (word w List.mem_cons_self) begins]), read, flags]
    rfl

end Modifiers

end TabHost
