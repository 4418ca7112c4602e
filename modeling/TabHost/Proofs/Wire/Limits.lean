import TabHost.Replay.Script

/-!
# How long durations from the wire can be

What is read is put together from what is read of its parts, so a property of the parts becomes
one of the whole (`Fields.Yields`, `Decode.Yields`). A duration that is read is at most the
longest one on the wire; so are the timestamp of a wheel event, the time that content takes and
the time that a step lets pass, in all steps of a script (`Script.limited_of_parse`).
-/

namespace TabHost

open Fields (required optional)

variable {α β : Type} {P : α → Prop} {Q : β → Prop}

/-! ## Properties of what is read -/

/-- What is read and then changed is what was read, changed. -/
theorem exists_of_map_eq_ok {ε : Type} {x : Except ε α} {f : α → β} {b : β}
    (h : x.map f = .ok b) : ∃ a, x = .ok a ∧ f a = b := by
  cases x with
  | error e => cases h
  | ok a =>
    cases h
    exact ⟨a, rfl, rfl⟩

/-- What is read in two steps is read in the first one and then in the second one. -/
theorem exists_of_bind_eq_ok {ε : Type} {x : Except ε α} {f : α → Except ε β} {b : β}
    (h : x.bind f = .ok b) : ∃ a, x = .ok a ∧ f a = .ok b := by
  cases x with
  | error e => cases h
  | ok a => exact ⟨a, rfl, h⟩

namespace Fields

theorem build_ap (fs : Fields (α → β)) (gs : Fields α) (place : Place)
    (look : String → Option Fragment) :
    (fs <*> gs).build place look =
      (fs.build place look).bind fun f => (gs.build place look).map f := by
  simp only [Seq.seq, ap]
  cases fs.build place look <;> rfl

theorem sequence_ap (fs : Fields (α → β)) (gs : Fields α) (place : Place) (closed : Bool)
    (items : List Fragment) :
    (fs <*> gs).sequence place closed items =
      (fs.sequence place closed items).bind fun r =>
        (gs.sequence place closed r.2).map fun r' => (r.1 r'.1, r'.2) := by
  simp only [Seq.seq, ap]
  cases fs.sequence place closed items <;> rfl

end Fields

/-- What is read has a property, if anything is read. -/
def Decode.Yields (P : α → Prop) (decode : Decoder α) : Prop :=
  ∀ place v a, decode place v = .ok a → P a

/-- A record has a property, if one is read. -/
structure Fields.Yields (P : α → Prop) (fs : Fields α) : Prop where
  build : ∀ place look a, fs.build place look = .ok a → P a
  sequence : ∀ place closed items a rest, fs.sequence place closed items = .ok (a, rest) → P a

namespace Fields.Yields

theorem one {decode : Decoder α} (h : Decode.Yields P decode) {absent : Option α}
    (ha : ∀ a ∈ absent, P a) (name : String) : (Fields.one name decode absent).Yields P := by
  constructor
  · intro place look a ho
    simp only [Fields.one] at ho
    split at ho
    · exact h _ _ _ ho
    · next a' _ =>
      cases ho
      exact ha _ rfl
    · cases ho
  · intro place closed items a rest ho
    cases items with
    | cons v items =>
      obtain ⟨a', hd, heq⟩ := exists_of_map_eq_ok (x := decode place v) ho
      cases heq
      exact h _ _ _ hd
    | nil =>
      cases absent with
      | none => cases ho
      | some a' =>
        have ho : (if closed then .ok (a', []) else .error DecodeError.malformed) =
            Except.ok (a, rest) := ho
        split at ho
        · cases ho
          exact ha _ rfl
        · cases ho

theorem required {decode : Decoder α} (h : Decode.Yields P decode) (name : String) :
    (Fields.required name decode).Yields P :=
  one h (fun _ ha => by cases ha) name

theorem optional {decode : Decoder α} (h : Decode.Yields P decode) {absent : α} (ha : P absent)
    (name : String) : (Fields.optional name decode absent).Yields P :=
  one h (fun _ hm => Option.some.inj hm ▸ ha) name

/-- The property of a record may be one of what it is made from. -/
theorem map {f : α → β} {fs : Fields α} (h : fs.Yields fun a => Q (f a)) : (f <$> fs).Yields Q := by
  constructor
  · intro place look b ho
    obtain ⟨a, ha, rfl⟩ := exists_of_map_eq_ok (x := fs.build place look) ho
    exact h.build _ _ _ ha
  · intro place closed items b rest ho
    obtain ⟨r, hr, heq⟩ := exists_of_map_eq_ok (x := fs.sequence place closed items) ho
    cases heq
    exact h.sequence _ _ _ _ _ hr

/-- Further fields, of which a property may be known. -/
theorem ap {fs : Fields (α → β)} {gs : Fields α} (h : fs.Yields fun f => ∀ a, P a → Q (f a))
    (hg : gs.Yields P) : (fs <*> gs).Yields Q := by
  constructor
  · intro place look b ho
    rw [build_ap] at ho
    obtain ⟨f, hf, ho⟩ := exists_of_bind_eq_ok ho
    obtain ⟨a, ha, rfl⟩ := exists_of_map_eq_ok ho
    exact h.build _ _ _ hf a (hg.build _ _ _ ha)
  · intro place closed items b rest ho
    rw [sequence_ap] at ho
    obtain ⟨r, hf, ho⟩ := exists_of_bind_eq_ok ho
    obtain ⟨r', ha, heq⟩ := exists_of_map_eq_ok ho
    cases heq
    exact h.sequence _ _ _ _ _ hf r'.1 (hg.sequence _ _ _ _ _ ha)

theorem trivial (fs : Fields α) : fs.Yields fun _ => True :=
  ⟨fun _ _ _ _ => True.intro, fun _ _ _ _ _ _ => True.intro⟩

/-- Further fields that do not matter. -/
theorem before {fs : Fields (α → β)} {gs : Fields α} (h : fs.Yields fun f => ∀ a, Q (f a)) :
    (fs <*> gs).Yields Q := by
  refine ap (P := fun _ => True) ⟨fun place look f hf a _ => ?_, fun _ _ _ f _ hf a _ => ?_⟩
    (trivial gs)
  · exact h.build place look f hf a
  · exact h.sequence _ _ _ _ _ hf a

/-- Fields that do not matter. -/
theorem of_forall {fs : Fields α} (h : ∀ a, P a) : fs.Yields P :=
  ⟨fun _ _ a _ => h a, fun _ _ _ a _ _ => h a⟩

theorem record {fs : Fields α} (h : fs.Yields P) : Decode.Yields P fs.record := by
  intro place v a ho
  unfold Fields.record at ho
  split at ho
  · unfold decodeObject at ho
    split at ho
    · cases ho
    · split at ho
      · exact h.build _ _ _ ho
      · cases ho
  · unfold decodeArray at ho
    split at ho
    · cases ho
    · next hs =>
      split at ho
      · cases ho
        exact h.sequence _ _ _ _ _ hs
      · cases ho
  · cases ho

end Fields.Yields

namespace Decode

/-- What stands beside a tag has a property. -/
def Payload.Yields (P : α → Prop) : Payload α → Prop
  | .nothing a => P a
  | .fields fs => fs.Yields P

theorem Payload.Yields.decode {payload : Payload α} (h : payload.Yields P) {v : Fragment} {a : α}
    (ho : payload.decode v = .ok a) : P a := by
  unfold Payload.decode at ho
  split at ho
  · cases ho
  · cases ho
    exact h
  · exact (Fields.Yields.record h) _ _ _ ho

/-- A tag names one of the variants. -/
theorem Variants.mem_of_select {vs : Variants α} {place : Place} {v : Fragment}
    {payload : Payload α} (ho : vs.select place v = .ok payload) : ∃ n ∈ vs, n.2 = payload := by
  unfold Variants.select at ho
  split at ho
  · split at ho
    · next n hn =>
      cases ho
      exact ⟨n, List.mem_of_find?_eq_some hn, rfl⟩
    · cases ho
  · split at ho
    · next n hn =>
      cases ho
      exact ⟨n, List.mem_of_getElem? hn, rfl⟩
    · cases ho
  · cases ho

theorem Variants.mem_of_scan {vs : Variants α} {tag : String} {place : Place}
    {members : List (MemberKey × Fragment)} {found : Option (Payload α)} {payload : Payload α}
    (hf : ∀ p ∈ found, ∃ n ∈ vs, n.2 = p)
    (ho : vs.scan tag place found members = .ok (some payload)) : ∃ n ∈ vs, n.2 = payload := by
  induction members generalizing found with
  | nil =>
    cases ho
    exact hf payload rfl
  | cons m rest ih =>
    obtain ⟨key, v⟩ := m
    cases key with
    | name n =>
      rw [Variants.scan] at ho
      split at ho
      · split at ho
        · cases ho
        · split at ho
          · cases ho
          · next p hp =>
            refine ih (fun q hq => ?_) ho
            cases hq
            exact mem_of_select hp
      · split at ho
        · exact ih hf ho
        · cases ho
    | _ => cases ho

theorem yields_tagged {tag : String} {vs : Variants α} (h : ∀ n ∈ vs, n.2.Yields P) :
    Yields P (tagged tag vs) := by
  have all : ∀ {payload : Payload α}, (∃ n ∈ vs, n.2 = payload) → payload.Yields P := by
    rintro payload ⟨n, hn, rfl⟩
    exact h n hn
  intro place v a ho
  unfold tagged at ho
  split at ho
  · split at ho
    · cases ho
    · next found hs =>
      split at ho
      · split at ho
        · cases ho
        · next payload =>
          exact (all (Variants.mem_of_scan (fun _ hq => by cases hq) hs)).decode ho
      · cases ho
  · cases ho
  · split at ho
    · cases ho
    · next payload hs =>
      split at ho
      · exact (all (Variants.mem_of_select hs)).decode ho
      · cases ho
  · cases ho

theorem Yields.text {decode : Decoder α} (h : Yields P decode) {cs : List Char} {a : α}
    (ho : text decode cs = .ok a) : P a := by
  unfold Decode.text at ho
  dsimp only at ho
  split at ho
  · cases ho
  · next hd =>
    split at ho
    · cases ho
      exact h _ _ _ hd
    · cases ho

end Decode

/-! ## Durations that are read -/

/-- A duration is no longer than the longest one on the wire. -/
abbrev Duration.IsLimited (d : Duration) : Prop := d.nanos ≤ Duration.wireLimit

theorem Duration.yields_decode : Decode.Yields Duration.IsLimited Duration.decode := by
  intro place v d ho
  unfold Duration.decode at ho
  split at ho
  · cases ho
  · split at ho
    · next hd =>
      cases ho
      exact nanos_ofMillis?_le hd
    · cases ho

theorem WheelEvent.yields_fields : WheelEvent.fields.Yields fun e => e.timestamp.IsLimited :=
  .before <| .before <| .ap (P := Duration.IsLimited)
    (.before <| .before <| .before <| .before <| .before <| .before <|
      .map <| .of_forall fun _ _ _ _ _ _ _ _ h _ _ => h)
    (.optional Duration.yields_decode (Nat.zero_le _) _)

/-- A wheel event has a timestamp that can be told on the wire. -/
def Request.IsLimited : Request → Prop
  | .wheel e => e.timestamp.IsLimited
  | _ => True

theorem Request.yields_decode : Decode.Yields Request.IsLimited Request.decode := by
  refine Decode.yields_tagged ?_
  simp only [variants, List.forall_mem_cons, Decode.Payload.Yields, IsLimited, true_and]
  refine ⟨?_, ?_, ?_, ?_, ?_, ?_, ?_, ?_, ?_, fun _ hn => absurd hn List.not_mem_nil⟩
  · exact .before (.before (.map (.of_forall fun _ _ _ => trivial)))
  · exact .before (.map (.of_forall fun _ _ => trivial))
  · exact .map (.of_forall fun _ => trivial)
  · exact .map (.of_forall fun _ => trivial)
  · exact .map (.of_forall fun _ => trivial)
  · exact .map (.of_forall fun _ => trivial)
  · exact .map (.of_forall fun _ => trivial)
  · exact .map WheelEvent.yields_fields
  · exact .map (.of_forall fun _ => trivial)

theorem Envelope.yields_fields : Envelope.fields.Yields fun e => e.request.IsLimited :=
  .ap (P := Request.IsLimited)
    (.before <| .before <| .map <| .of_forall fun _ _ _ _ h => h)
    (.required Request.yields_decode _)

/-- The durations of a step can be told on the wire. -/
def Step.IsLimited : Step → Prop
  | .createTab _ _ cost => cost.IsLimited
  | .send e => e.request.IsLimited
  | .advance time => time.IsLimited
  | _ => True

theorem Step.yields_decode : Decode.Yields Step.IsLimited Step.decode := by
  refine Decode.yields_tagged ?_
  simp only [variants, List.forall_mem_cons, Decode.Payload.Yields, IsLimited]
  refine ⟨?_, ?_, ?_, ?_, ?_, ?_, trivial, fun _ hn => absurd hn List.not_mem_nil⟩
  · exact .ap (P := Duration.IsLimited) (.before (.map (.of_forall fun _ _ _ h => h)))
      (.optional Duration.yields_decode (Nat.zero_le _) _)
  · exact .map Envelope.yields_fields
  · exact .map (.of_forall fun _ => trivial)
  · exact .map (.of_forall fun _ => trivial)
  · exact .map (.of_forall fun _ => trivial)
  · exact .map (.required Duration.yields_decode _)

/-- The step of a line has durations that can be told on the wire. -/
theorem Step.limited_of_parse {line : List Char} {step : Step}
    (ho : parse line = .ok (some step)) : step.IsLimited := by
  unfold parse at ho
  dsimp only at ho
  split at ho
  · cases ho
  · obtain ⟨step', hd, heq⟩ := exists_of_map_eq_ok ho
    cases heq
    exact yields_decode.text hd

theorem Script.limited_of_parseBytes {number : Nat} {bytes : List UInt8} {step : Step}
    (ho : parseBytes number bytes = .ok (some step)) : step.IsLimited := by
  unfold parseBytes at ho
  split at ho
  · cases ho
  · next line _ =>
    unfold parseLine at ho
    cases hp : Step.parse line with
    | error e =>
      rw [hp] at ho
      cases ho
    | ok s =>
      rw [hp] at ho
      cases ho
      exact Step.limited_of_parse hp

/-- So have all steps of a script. -/
theorem Script.limited_of_parseLines {number : Nat} {lines : List (List UInt8)}
    {steps : List Step} (ho : parseLines number lines = .ok steps) :
    ∀ step ∈ steps, step.IsLimited := by
  induction lines generalizing number steps with
  | nil =>
    cases ho
    exact fun _ hm => absurd hm List.not_mem_nil
  | cons line rest ih =>
    rw [parseLines] at ho
    split at ho
    · cases ho
    · next first hl =>
      obtain ⟨later, hr, rfl⟩ := exists_of_map_eq_ok ho
      intro step hm
      rcases List.mem_append.mp hm with hm | hm
      · obtain rfl : first = some step := Option.mem_toList.mp hm
        exact limited_of_parseBytes hl
      · exact ih hr step hm

theorem Script.limited_of_parse {bytes : List UInt8} {steps : List Step}
    (ho : parse bytes = .ok steps) : ∀ step ∈ steps, step.IsLimited :=
  limited_of_parseLines ho

end TabHost
