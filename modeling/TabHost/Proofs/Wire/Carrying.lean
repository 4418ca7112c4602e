import Mathlib.Data.List.Forall2
import Mathlib.Data.List.Nodup
import TabHost.Proofs.Wire.Variations

/-!
# Values that come back from their texts

A decoder carries a value (`Decode.Carries`) if it takes every variation of its JSON value for it,
that one itself among them, and if the JSON value is read from its text (`Variation.Stands`). It
then takes every text that is read as a variation (`Decode.Carries.roundTrips`). Records carry what
their fields carry (`Fields.Carries`), and so do records with a tag, as long as the value is not too
deep for the place where it is read.
-/

namespace TabHost

open Variation

variable {α β : Type}

/-! ## Depth -/

/-- Values of a depth can be read as a whole at a place. -/
def Place.Admits (depth : Nat) : Place → Prop
  | .text d => d + depth ≤ maxDepth
  | .held => True

theorem Place.Admits.inner {depth : Nat} : ∀ {place : Place}, place.Admits (depth + 1) →
    place.inner.Admits depth
  | .text d, h => by
    simp only [Place.inner, Admits] at h ⊢
    omega
  | .held, _ => trivial

theorem Place.Admits.holds {depth : Nat} {f : Fragment}
    (h : ∀ room, depth ≤ room → f.whole room = true) :
    ∀ {place : Place}, place.Admits depth → place.holds f = true
  | .text d, admits => h _ (by simp only [Admits] at admits; omega)
  | .held, _ => rfl

/-! ## Values that are variations of themselves -/

/-- A value is a variation of itself, can be read as a whole and is read from its text. -/
structure Variation.Stands (varies : Variation) (depth : Nat) (v : Json) : Prop where
  self : ∀ place, place.Admits depth → varies place v (.ofJson v)
  whole : ∀ room, depth ≤ room → (Fragment.ofJson v).whole room = true
  legible : v.Legible

/-- The members of a record, each with its field. -/
def Variation.StandMembers (depth : Nat) : List Member → List (String × Json) → Prop :=
  List.Forall₂ fun d m => d.name = m.1 ∧ d.varies.Stands depth m.2

section

variable {place : Place} {depth : Nat} {ds : List Member} {ms : List (String × Json)}

namespace Variation.StandMembers

theorem keeps (h : StandMembers depth ds ms) (admits : place.Admits depth) :
    Keeps place ds ms (Fragment.ofMembers ms) := by
  induction h with
  | nil => exact .nil
  | @cons d m ds ms first _ ih =>
    obtain ⟨n, v⟩ := m
    obtain ⟨name, stands⟩ := first
    cases name
    exact .keep (stands.self place admits) ih

theorem members (h : StandMembers depth ds ms) (admits : place.Admits depth) :
    Members ds place ms (Fragment.ofMembers ms) :=
  ⟨_, [], h.keeps admits, fun _ hm => (by cases hm), by rw [List.append_nil]⟩

theorem whole (h : StandMembers depth ds ms) {room : Nat} (enough : depth ≤ room) :
    Fragment.wholeMembers room (Fragment.ofMembers ms) = true := by
  induction h with
  | nil => rfl
  | @cons d m ds ms first _ ih =>
    simp only [Fragment.ofMembers, Fragment.wholeMembers, first.2.whole room enough, ih,
      Bool.and_self]

theorem legible (h : StandMembers depth ds ms) : Json.LegibleMembers ms := by
  induction h with
  | nil => trivial
  | cons first _ ih => exact ⟨first.2.legible, ih⟩

theorem plain (h : StandMembers depth ds ms) {tag : String} (untagged : tag ∉ ds.map Member.name)
    (admits : place.Admits depth) :
    ∀ m ∈ Fragment.ofMembers ms, m.1 ≠ .name tag ∧ place.holds m.2 = true := by
  induction h with
  | nil => exact fun _ hm => by cases hm
  | @cons d m ds ms first _ ih =>
    obtain ⟨other, untagged⟩ := List.ne_and_not_mem_of_not_mem_cons untagged
    intro m' hm
    rcases List.mem_cons.mp hm with rfl | hm
    · refine ⟨fun same => other ?_, admits.holds first.2.whole⟩
      cases same
      exact first.1.symm
    · exact ih untagged m' hm

end Variation.StandMembers

theorem Variation.stands_record (h : StandMembers depth ds ms) :
    (record ds).Stands (depth + 1) (.object ms) where
  self _ admits := ⟨ms, _, rfl, rfl, h.members admits.inner⟩
  whole room enough := by
    obtain ⟨room, rfl⟩ : ∃ n, room = n + 1 := ⟨room - 1, by omega⟩
    exact h.whole (by omega)
  legible := h.legible

theorem Variation.stands_tagged {tag name : String} {variants : List (String × List Member)}
    (h : StandMembers depth ds ms) (variant : (name, ds) ∈ variants)
    (untagged : tag ∉ ds.map Member.name) :
    (tagged tag variants).Stands (depth + 1) (.object ((tag, .string name) :: ms)) where
  self _ admits := ⟨name, ds, ms, _, _, rfl, variant, rfl, .refl _, h.plain untagged admits.inner,
    h.members trivial⟩
  whole room enough := by
    obtain ⟨room, rfl⟩ : ∃ n, room = n + 1 := ⟨room - 1, by omega⟩
    exact h.whole (by omega)
  legible := ⟨trivial, h.legible⟩

end

/-! ## What is carried -/

/-- A decoder takes every variation of a value for the same, and the value is one of them. -/
structure Decode.Carries (decode : Decoder α) (varies : Variation) (depth : Nat) (v : Json)
    (a : α) : Prop where
  reads : Reads decode varies v a
  stands : varies.Stands depth v

/-- The fields of a record take every variation of some members for the same record. -/
structure Fields.Carries (fs : Fields α) (ds : List Member) (depth : Nat)
    (ms : List (String × Json)) (a : α) : Prop where
  reads : fs.Reads ds ms a
  stand : StandMembers depth ds ms

section

variable {depth : Nat} {ds ds' : List Member} {ms ms' : List (String × Json)}
  {decode : Decoder α} {varies : Variation} {v v₀ : Json} {a a₀ : α}

/-- A value of which there is only one JSON text but for its blanks. -/
theorem Decode.Carries.scalar (reads : ∀ place, decode place (.ofJson v) = .ok a)
    (whole : ∀ room, depth ≤ room → (Fragment.ofJson v).whole room = true) (legible : v.Legible) :
    Carries decode itself depth v a where
  reads := fun place _ same => same ▸ reads place
  stands := ⟨fun _ _ => rfl, whole, legible⟩

theorem Decode.Carries.map (h : Carries decode varies depth v a) (f : α → β) :
    Carries (fun place v => (decode place v).map f) varies depth v (f a) where
  reads place g hg := congrArg (Except.map f) (h.reads place g hg)
  stands := h.stands

/-- Values with the same JSON value are the same. -/
theorem Decode.Carries.inj (h : Carries decode varies depth v a)
    (h₀ : Carries decode varies depth v a₀) : a = a₀ :=
  Except.ok.inj ((h.reads .held _ (h.stands.self .held trivial)).symm.trans
    (h₀.reads .held _ (h₀.stands.self .held trivial)))

namespace Fields.Carries

theorem one (h : Decode.Carries decode varies depth v a) {absent : Option α}
    {absent' : Option Json} (default : absent' = some v → absent = some a) (name : String) :
    (Fields.one name decode absent).Carries [⟨name, absent', varies⟩] depth [(name, v)] a where
  reads := .one h.reads default name
  stand := .cons ⟨rfl, h.stands⟩ .nil

theorem required (h : Decode.Carries decode varies depth v a) (name : String) :
    (Fields.required name decode).Carries [⟨name, none, varies⟩] depth [(name, v)] a :=
  one h (fun none => by cases none) name

theorem optional (h : Decode.Carries decode varies depth v a)
    (h₀ : Decode.Carries decode varies depth v₀ a₀) (name : String) :
    (Fields.optional name decode a₀).Carries [⟨name, some v₀, varies⟩] depth [(name, v)] a :=
  one h (fun same => by cases same; rw [h₀.inj h]) name

theorem map {fs : Fields α} (h : fs.Carries ds depth ms a) (f : α → β) :
    (f <$> fs).Carries ds depth ms (f a) :=
  ⟨h.reads.map f, h.stand⟩

theorem ap {fs : Fields (α → β)} {gs : Fields α} {f : α → β} (h : fs.Carries ds depth ms f)
    (h' : gs.Carries ds' depth ms' a) :
    (fs <*> gs).Carries (ds ++ ds') depth (ms ++ ms') (f a) :=
  ⟨h.reads.ap h'.reads, List.rel_append h.stand h'.stand⟩

theorem record {fs : Fields α} (h : fs.Carries ds depth ms a)
    (nodup : (ds.map Member.name).Nodup) :
    Decode.Carries fs.record (Variation.record ds) (depth + 1) (.object ms) a :=
  ⟨h.reads.record nodup, stands_record h.stand⟩

end Fields.Carries

namespace Decode

section

variable {tag name : String} {vs : Variants α} {variants : List (String × List Member)}

/-- A variant of a record with a tag is carried if what stands beside the tag is. -/
theorem Payload.Reads.carries {payload : Payload α} (h : payload.Reads ds ms a)
    (stand : StandMembers depth ds ms) (untagged : tag ∉ ds.map Member.name)
    (named : vs.find? (fun n => n.1 = name) = some (name, payload))
    (variant : variants.find? (fun n => n.1 = name) = some (name, ds))
    (distinct : (variants.map Prod.fst).Nodup) :
    Carries (tagged tag vs) (Variation.tagged tag variants) (depth + 1)
      (.object ((tag, .string name) :: ms)) a where
  reads := reads_tagged named h fun _ other => congrArg Prod.snd
    (List.inj_on_of_nodup_map distinct other (List.mem_of_find?_eq_some variant) rfl)
  stands := stands_tagged stand (List.mem_of_find?_eq_some variant) untagged

/-- A variant with nothing beside its tag. -/
theorem carries_nothing
    (named : vs.find? (fun n => n.1 = name) = some (name, .nothing a))
    (variant : variants.find? (fun n => n.1 = name) = some (name, []))
    (distinct : (variants.map Prod.fst).Nodup) :
    Carries (tagged tag vs) (Variation.tagged tag variants) (depth + 1)
      (.object [(tag, .string name)]) a :=
  (Payload.reads_nothing a [] []).carries .nil List.not_mem_nil named variant distinct

/-- A variant with the fields of a record beside its tag. -/
theorem carries_fields {fs : Fields α} (h : fs.Carries ds depth ms a)
    (named : vs.find? (fun n => n.1 = name) = some (name, .fields fs))
    (variant : variants.find? (fun n => n.1 = name) = some (name, ds))
    (fresh : (tag :: ds.map Member.name).Nodup) (distinct : (variants.map Prod.fst).Nodup) :
    Carries (tagged tag vs) (Variation.tagged tag variants) (depth + 1)
      (.object ((tag, .string name) :: ms)) a :=
  have ⟨untagged, nodup⟩ := List.nodup_cons.mp fresh
  (Payload.reads_fields h.reads nodup).carries h.stand untagged named variant distinct

end

/-! ## From text to value -/

/-- A value comes back from its text, from every text that is read as a variation of it, and so
from the text of every variation whose numbers print and parse back. -/
structure RoundTrips (decode : Decoder α) (varies : Variation) (v : Json) (a : α) : Prop where
  self : Decode.text decode v.render = .ok a
  varied : ∀ cs f rest, Fragment.read cs = (f, rest) → Fragment.skipBlanks rest = [] →
    varies (.text 0) v f → Decode.text decode cs = .ok a
  written : ∀ w : Json, w.Legible → varies (.text 0) v (.ofJson w) →
    Decode.text decode w.render = .ok a

theorem Carries.roundTrips (depth : Nat) (h : Decode.Carries decode varies depth v a)
    (shallow : depth ≤ Place.maxDepth) : RoundTrips decode varies v a := by
  have varied : ∀ cs f rest, Fragment.read cs = (f, rest) → Fragment.skipBlanks rest = [] →
      varies (.text 0) v f → Decode.text decode cs = .ok a := by
    intro cs f rest read blank hf
    simp only [Decode.text, read, h.reads _ f hf, blank, List.isEmpty_nil, if_true]
  have written : ∀ w : Json, w.Legible → varies (.text 0) v (.ofJson w) →
      Decode.text decode w.render = .ok a :=
    fun w legible hw => varied _ _ _ (Fragment.read_render legible) rfl hw
  have admits : (Place.text 0).Admits depth := by
    rwa [Place.Admits, Nat.zero_add]
  exact ⟨written v h.stands.legible (h.stands.self _ admits), varied, written⟩

end Decode

end

end TabHost
