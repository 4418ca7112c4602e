import TabHost.Proofs.Json.Reading
import TabHost.Proofs.Wire.Limits

/-!
# Texts that stand for the same value

The members of a record may come in any order, members with unknown names may be added, and a
member may be left out if its value is the one that stands for it (`Variation.Members`). The same
holds of a record with a tag, but that one is read to its end before its members are looked at, so
all that is added must be readable as a whole (`Variation.tagged`). Records in records vary too.

A decoder that takes the value of each field in every variation (`Decode.Reads`, `Fields.Reads`)
takes the record in every variation: what it makes of members depends on the value of each name
alone, and no known name comes twice.
-/

namespace TabHost

variable {α β : Type}

/-- Which fragments stand for a value, by the place where they are read. -/
abbrev Variation := Place → Json → Fragment → Prop

namespace Variation

/-- Nothing but the value itself. -/
def itself : Variation := fun _ v f => f = .ofJson v

/-- A field of a record: the value that stands for it where it is left out, if it may be left out,
and how its value varies. -/
structure Member where
  name : String
  absent : Option Json
  varies : Variation

/-- What is kept of the members of a record: each of them with its value varied, unless it is left
out. -/
inductive Keeps (place : Place) :
    List Member → List (String × Json) → List (MemberKey × Fragment) → Prop where
  | nil : Keeps place [] [] []
  | keep {d : Member} {ds ms kept} {v : Json} {f : Fragment} : d.varies place v f →
      Keeps place ds ms kept → Keeps place (d :: ds) ((d.name, v) :: ms) ((.name d.name, f) :: kept)
  | leave {d : Member} {ds ms kept} {v : Json} : d.absent = some v →
      Keeps place ds ms kept → Keeps place (d :: ds) ((d.name, v) :: ms) kept

/-- A member with a name that no field has, and a value that can be passed over. -/
def Unknown (ds : List Member) (m : MemberKey × Fragment) : Prop :=
  ∃ n, m.1 = .name n ∧ n ∉ ds.map Member.name ∧ m.2.grammatical = true

/-- The members of a record in any order, some of them left out and others added. -/
def Members (ds : List Member) (place : Place) (ms : List (String × Json))
    (members : List (MemberKey × Fragment)) : Prop :=
  ∃ kept added, Keeps place ds ms kept ∧ (∀ m ∈ added, Unknown ds m) ∧
    members.Perm (kept ++ added)

/-- The variations of a record. -/
def record (ds : List Member) : Variation := fun place v f =>
  ∃ ms members, v = .object ms ∧ f = .object members true ∧ Members ds place.inner ms members

/-- The variations of a record with a tag: its variant tells the fields, and all members can be
read as a whole. -/
def tagged (tag : String) (variants : List (String × List Member)) : Variation := fun place v f =>
  ∃ name ds ms members rest, v = .object ((tag, .string name) :: ms) ∧ (name, ds) ∈ variants ∧
    f = .object members true ∧ members.Perm ((.name tag, .string name) :: rest) ∧
    (∀ m ∈ rest, m.1 ≠ .name tag ∧ place.inner.holds m.2 = true) ∧ Members ds .held ms rest

end Variation

open Variation

/-! ## Decoders that take every variation -/

/-- A decoder takes every variation of a value for the same. -/
def Decode.Reads (decode : Decoder α) (varies : Variation) (v : Json) (a : α) : Prop :=
  ∀ place f, varies place v f → decode place f = .ok a

/-- The values that a look-up finds for the fields of a record. -/
def Variation.Fits (place : Place) (look : String → Option Fragment) :
    List Member → List (String × Json) → Prop :=
  List.Forall₂ fun d m => d.name = m.1 ∧ (∀ f, look d.name = some f → d.varies place m.2 f) ∧
    (look d.name = none → d.absent = some m.2)

theorem Variation.Fits.of_append {place : Place} {look : String → Option Fragment}
    {ds ds' : List Member} {ms ms' : List (String × Json)} (same : ds.length = ms.length)
    (h : Fits place look (ds ++ ds') (ms ++ ms')) :
    Fits place look ds ms ∧ Fits place look ds' ms' := by
  induction ds generalizing ms with
  | nil =>
    cases List.length_eq_zero_iff.mp same.symm
    exact ⟨.nil, h⟩
  | cons d ds ih =>
    obtain ⟨m, ms, rfl⟩ := List.exists_cons_of_length_eq_add_one same.symm
    obtain ⟨first, rest⟩ := List.forall₂_cons.mp h
    obtain ⟨here, there⟩ := ih (Nat.succ.inj same) rest
    exact ⟨.cons first here, there⟩

/-- The fields of a record take every variation of some members for the same record. -/
structure Fields.Reads (fs : Fields α) (ds : List Member) (ms : List (String × Json)) (a : α) :
    Prop where
  length : ds.length = ms.length
  names : fs.checks.map Prod.fst = ds.map Member.name
  checks : ∀ place look, Fits place look ds ms → ∀ c ∈ fs.checks, ∀ f, look c.1 = some f →
    c.2 place f = .ok ()
  build : ∀ place look, Fits place look ds ms → fs.build place look = .ok a

namespace Fields.Reads

variable {ds ds' : List Member} {ms ms' : List (String × Json)}

theorem one {decode : Decoder α} {varies : Variation} {v : Json} {a : α}
    (h : Decode.Reads decode varies v a) {absent : Option α} {absent' : Option Json}
    (default : absent' = some v → absent = some a) (name : String) :
    (Fields.one name decode absent).Reads [⟨name, absent', varies⟩] [(name, v)] a where
  length := rfl
  names := rfl
  checks place look fits c hc f hf := by
    cases List.mem_singleton.mp hc
    obtain ⟨-, there, -⟩ := (List.forall₂_cons.mp fits).1
    show (decode place f).map _ = _
    rw [h place f (there f hf)]
    rfl
  build place look fits := by
    obtain ⟨-, there, missing⟩ := (List.forall₂_cons.mp fits).1
    simp only [Fields.one]
    cases hf : look name with
    | some f => exact h place f (there f hf)
    | none => rw [default (missing hf)]

theorem map {fs : Fields α} {a : α} (h : fs.Reads ds ms a) (f : α → β) :
    (f <$> fs).Reads ds ms (f a) where
  length := h.length
  names := h.names
  checks := h.checks
  build place look fits := congrArg (Except.map f) (h.build place look fits)

theorem ap {fs : Fields (α → β)} {gs : Fields α} {f : α → β} {a : α} (h : fs.Reads ds ms f)
    (h' : gs.Reads ds' ms' a) : (fs <*> gs).Reads (ds ++ ds') (ms ++ ms') (f a) where
  length := by rw [List.length_append, List.length_append, h.length, h'.length]
  names := by
    show (fs.checks ++ gs.checks).map Prod.fst = _
    rw [List.map_append, List.map_append, h.names, h'.names]
  checks place look fits c hc := by
    obtain ⟨here, there⟩ := fits.of_append h.length
    exact (List.mem_append.mp hc).elim (h.checks place look here c) (h'.checks place look there c)
  build place look fits := by
    obtain ⟨here, there⟩ := fits.of_append h.length
    rw [build_ap, h.build place look here]
    exact congrArg (Except.map f) (h'.build place look there)

end Fields.Reads

/-! ## Records -/

section

variable {place : Place} {ds : List Member} {ms : List (String × Json)}
  {kept members : List (MemberKey × Fragment)} {n : String}

theorem Fields.mem_of_valueOf {n : String} {f : Fragment} (h : Fields.valueOf members n = some f) :
    (.name n, f) ∈ members := by
  obtain ⟨m, hm, rfl⟩ := Option.map_eq_some_iff.mp h
  have key := List.find?_some hm
  exact of_decide_eq_true key ▸ List.mem_of_find?_eq_some hm

theorem Fields.not_mem_of_valueOf {n : String} (h : Fields.valueOf members n = none)
    (f : Fragment) : (.name n, f) ∉ members := fun hm => by
  have none := List.find?_eq_none.mp (Option.map_eq_none_iff.mp h) _ hm
  exact none (decide_eq_true rfl)

namespace Variation

theorem Keeps.name_mem (hk : Keeps place ds ms kept) {m : MemberKey × Fragment} (hm : m ∈ kept) :
    ∃ n ∈ ds.map Member.name, m.1 = .name n := by
  induction hk with
  | nil => cases hm
  | keep _ _ ih =>
    rcases List.mem_cons.mp hm with rfl | hm
    · exact ⟨_, List.mem_cons_self, rfl⟩
    · obtain ⟨n, hn, key⟩ := ih hm
      exact ⟨n, List.mem_cons_of_mem _ hn, key⟩
  | leave _ _ ih =>
    obtain ⟨n, hn, key⟩ := ih hm
    exact ⟨n, List.mem_cons_of_mem _ hn, key⟩

/-- What is looked up among the members that are kept fits the fields. -/
theorem Keeps.fits (hk : Keeps place ds ms kept) (nodup : (ds.map Member.name).Nodup)
    {look : String → Option Fragment}
    (found : ∀ n ∈ ds.map Member.name, ∀ f, look n = some f → (.name n, f) ∈ kept)
    (missing : ∀ n ∈ ds.map Member.name, look n = none → ∀ f, (.name n, f) ∉ kept) :
    Fits place look ds ms := by
  induction hk with
  | nil => exact .nil
  | @keep d ds ms kept v f varies hk ih =>
    obtain ⟨fresh, nodup⟩ := List.nodup_cons.mp nodup
    have others : ∀ f', (.name d.name, f') ∉ kept := fun f' hm => by
      obtain ⟨n, hn, key⟩ := hk.name_mem hm
      cases key
      exact fresh hn
    refine .cons ⟨rfl, fun f' hf' => ?_, fun none => ?_⟩ (ih nodup (fun n hn f' hf' => ?_)
      fun n hn none f' hm => ?_)
    · rcases List.mem_cons.mp (found d.name List.mem_cons_self f' hf') with heq | hm
      · cases heq
        exact varies
      · exact absurd hm (others f')
    · exact absurd List.mem_cons_self (missing d.name List.mem_cons_self none f)
    · rcases List.mem_cons.mp (found n (List.mem_cons_of_mem _ hn) f' hf') with heq | hm
      · cases heq
        exact absurd hn fresh
      · exact hm
    · exact missing n (List.mem_cons_of_mem _ hn) none f' (List.mem_cons_of_mem _ hm)
  | @leave d ds ms kept v absent hk ih =>
    obtain ⟨fresh, nodup⟩ := List.nodup_cons.mp nodup
    refine .cons ⟨rfl, fun f' hf' => ?_, fun _ => absent⟩ (ih nodup
      (fun n hn => found n (List.mem_cons_of_mem _ hn))
      fun n hn => missing n (List.mem_cons_of_mem _ hn))
    obtain ⟨n, hn, key⟩ := hk.name_mem (found d.name List.mem_cons_self f' hf')
    cases key
    exact absurd hn fresh

theorem Members.of_perm (h : Members ds place ms members) {members' : List (MemberKey × Fragment)}
    (perm : members'.Perm members) : Members ds place ms members' := by
  obtain ⟨kept, added, hk, unknown, perm'⟩ := h
  exact ⟨kept, added, hk, unknown, perm.trans perm'⟩

/-- Every member of a varied record has a name. -/
theorem Members.name_of_mem (h : Members ds place ms members) {m : MemberKey × Fragment}
    (hm : m ∈ members) : ∃ n, m.1 = .name n := by
  obtain ⟨kept, added, hk, unknown, perm⟩ := h
  rcases List.mem_append.mp (perm.mem_iff.mp hm) with hm | hm
  · obtain ⟨n, -, key⟩ := hk.name_mem hm
    exact ⟨n, key⟩
  · obtain ⟨n, key, -⟩ := unknown m hm
    exact ⟨n, key⟩

/-- No name of a field comes twice. -/
def Once (ds : List Member) : List (MemberKey × Fragment) → Prop :=
  List.Pairwise fun m m' => m.1 = m'.1 → ∀ n ∈ ds.map Member.name, m.1 ≠ .name n

theorem Keeps.once (hk : Keeps place ds ms kept) (nodup : (ds.map Member.name).Nodup) :
    kept.Pairwise fun m m' => m.1 ≠ m'.1 := by
  induction hk with
  | nil => exact .nil
  | keep _ hk ih =>
    obtain ⟨fresh, nodup⟩ := List.nodup_cons.mp nodup
    refine List.pairwise_cons.mpr ⟨fun m hm key => ?_, ih nodup⟩
    obtain ⟨n, hn, key'⟩ := hk.name_mem hm
    cases key.trans key'
    exact fresh hn
  | leave _ _ ih => exact ih (List.nodup_cons.mp nodup).2

theorem Members.once (h : Members ds place ms members) (nodup : (ds.map Member.name).Nodup) :
    Once ds members := by
  obtain ⟨kept, added, hk, unknown, perm⟩ := h
  have other : ∀ m ∈ added, ∀ n ∈ ds.map Member.name, m.1 ≠ .name n := fun m hm n hn key => by
    obtain ⟨n', key', fresh, -⟩ := unknown m hm
    cases key.symm.trans key'
    exact fresh hn
  refine (perm.pairwise_iff fun same key n hn key' =>
    same key.symm n hn (key.symm.trans key')).mpr ?_
  refine List.pairwise_append.mpr ⟨(hk.once nodup).imp fun ne key => absurd key ne,
    List.pairwise_of_forall_mem_list fun m hm _ _ _ n hn => other m hm n hn,
    fun m _ m' hm' key n hn key' => other m' hm' n hn (key.symm.trans key')⟩

/-- The value of a name that is among the members. -/
theorem Once.valueOf_of_mem (once : Once ds members) {n : String} (hn : n ∈ ds.map Member.name)
    {f : Fragment} (hm : (.name n, f) ∈ members) : Fields.valueOf members n = some f := by
  induction members with
  | nil => cases hm
  | cons m members ih =>
    obtain ⟨first, once⟩ := List.pairwise_cons.mp once
    rcases List.mem_cons.mp hm with rfl | hm
    · simp [Fields.valueOf]
    · have ne : m.1 ≠ .name n := fun key => first _ hm key n hn key
      have rest := ih once hm
      rw [Fields.valueOf] at rest ⊢
      rw [List.find?_cons_of_neg (by simpa using ne), rest]

end Variation

namespace Fields

/-- Members pass if every value is of the right kind and no known name comes twice. -/
theorem checkMembers_eq_ok {fs : Fields α} (seen : List String)
    (passes : ∀ m ∈ members, ∃ n, m.1 = .name n ∧ (fs.check? n = none → m.2.grammatical = true) ∧
      ∀ decode, fs.check? n = some decode → n ∉ seen ∧ decode place m.2 = .ok ())
    (once : members.Pairwise fun m m' => m.1 = m'.1 → ∀ n, fs.check? n ≠ none → m.1 ≠ .name n) :
    fs.checkMembers place seen members = .ok () := by
  induction members generalizing seen with
  | nil => rfl
  | cons m members ih =>
    obtain ⟨n, key, free, known⟩ := passes m List.mem_cons_self
    obtain ⟨key', f⟩ := m
    cases key
    obtain ⟨first, once⟩ := List.pairwise_cons.mp once
    rw [checkMembers]
    cases hc : fs.check? n with
    | none =>
      rw [if_pos (free hc)]
      exact ih seen (fun m hm => passes m (List.mem_cons_of_mem _ hm)) once
    | some decode =>
      obtain ⟨fresh, fine⟩ := known decode hc
      simp only [fresh, fine, if_false]
      refine ih (n :: seen) (fun m hm => ?_) once
      obtain ⟨n', key', free', known'⟩ := passes m (List.mem_cons_of_mem _ hm)
      refine ⟨n', key', free', fun decode' hc' => ⟨fun again => ?_, (known' decode' hc').2⟩⟩
      rcases List.mem_cons.mp again with rfl | again
      · exact first m hm key'.symm n' (by simp [hc']) rfl
      · exact (known' decode' hc').1 again

theorem not_mem_of_check? {fs : Fields α} (h : fs.check? n = none) :
    n ∉ fs.checks.map Prod.fst := fun hn => by
  obtain ⟨c, hc, rfl⟩ := List.mem_map.mp hn
  have none := List.find?_eq_none.mp (Option.map_eq_none_iff.mp h) c hc
  exact none (decide_eq_true rfl)

theorem mem_of_check? {fs : Fields α} {decode : Decoder Unit} (h : fs.check? n = some decode) :
    (n, decode) ∈ fs.checks := by
  obtain ⟨c, hc, rfl⟩ := Option.map_eq_some_iff.mp h
  have key := List.find?_some hc
  exact of_decide_eq_true key ▸ List.mem_of_find?_eq_some hc

/-- A record is read from its members in every variation. -/
theorem Reads.decodeObject {fs : Fields α} {a : α} (h : fs.Reads ds ms a)
    (nodup : (ds.map Member.name).Nodup) (hm : Members ds place ms members) :
    fs.decodeObject place members true = .ok a := by
  have once := hm.once nodup
  obtain ⟨kept, added, hk, unknown, perm⟩ := hm
  have known : ∀ n ∈ ds.map Member.name, ∀ f, (.name n, f) ∈ members → (.name n, f) ∈ kept := by
    intro n hn f hm
    refine (List.mem_append.mp (perm.mem_iff.mp hm)).resolve_right fun hm => ?_
    obtain ⟨n', key, fresh, -⟩ := unknown _ hm
    cases key
    exact fresh hn
  have fits : Fits place (valueOf members) ds ms :=
    hk.fits nodup (fun n hn f hf => known n hn f (mem_of_valueOf hf)) fun n _ none f hm =>
      not_mem_of_valueOf none f (perm.mem_iff.mpr (List.mem_append_left _ hm))
  have passes : fs.checkMembers place [] members = .ok () := by
    refine checkMembers_eq_ok [] (fun m hm => ?_) (once.imp fun same key n hn => ?_)
    · rcases List.mem_append.mp (perm.mem_iff.mp hm) with hk' | ha
      · obtain ⟨n, hn, key⟩ := hk.name_mem hk'
        refine ⟨n, key, fun hc => absurd (h.names ▸ hn) (not_mem_of_check? hc),
          fun decode hc => ⟨List.not_mem_nil, ?_⟩⟩
        have found := once.valueOf_of_mem hn (f := m.2) (key ▸ hm)
        exact h.checks place _ fits _ (mem_of_check? hc) _ found
      · obtain ⟨n, key, fresh, free⟩ := unknown m ha
        refine ⟨n, key, fun _ => free, fun decode hc => absurd ?_ fresh⟩
        exact h.names ▸ List.mem_map_of_mem (mem_of_check? hc)
    · refine same key n (h.names ▸ ?_)
      obtain ⟨decode, hc⟩ := Option.ne_none_iff_exists'.mp hn
      exact List.mem_map_of_mem (mem_of_check? hc)
  rw [Fields.decodeObject, passes]
  exact h.build place _ fits

theorem Reads.record {fs : Fields α} {a : α} (h : fs.Reads ds ms a)
    (nodup : (ds.map Member.name).Nodup) :
    Decode.Reads fs.record (Variation.record ds) (.object ms) a := by
  rintro place f ⟨ms', members, heq, rfl, hm⟩
  cases heq
  exact h.decodeObject nodup hm

end Fields

/-! ## Records with a tag -/

namespace Decode

variable {tag name : String} {vs : Variants α} {payload : Payload α}
  {rest : List (MemberKey × Fragment)}

/-- What stands beside the tag of a variant is taken in every variation. -/
def Payload.Reads (payload : Payload α) (ds : List Member) (ms : List (String × Json)) (a : α) :
    Prop :=
  ∀ rest, Members ds .held ms rest → payload.decode (.object rest true) = .ok a

theorem Payload.reads_nothing (a : α) (ds : List Member) (ms : List (String × Json)) :
    (Payload.nothing a).Reads ds ms a := fun _ _ => rfl

theorem Payload.reads_fields {fs : Fields α} {a : α} (h : fs.Reads ds ms a)
    (nodup : (ds.map Member.name).Nodup) : (Payload.fields fs).Reads ds ms a :=
  fun _ hm => h.decodeObject nodup hm

/-- Members beside the tag are only read as a whole. -/
theorem scan_append {before : List (MemberKey × Fragment)}
    (plain : ∀ m ∈ before, (∃ n, m.1 = .name n ∧ n ≠ tag) ∧ place.holds m.2 = true)
    (found : Option (Payload α)) :
    vs.scan tag place found (before ++ rest) = vs.scan tag place found rest := by
  induction before with
  | nil => rfl
  | cons m before ih =>
    obtain ⟨⟨n, key, other⟩, whole⟩ := plain m List.mem_cons_self
    obtain ⟨key', f⟩ := m
    cases key
    rw [List.cons_append, Variants.scan, if_neg other, if_pos whole]
    exact ih fun m hm => plain m (List.mem_cons_of_mem _ hm)

/-- The variant is found wherever its tag stands. -/
theorem scan_eq_ok (named : vs.find? (fun n => n.1 = name) = some (name, payload))
    (perm : members.Perm ((.name tag, .string name) :: rest))
    (plain : ∀ m ∈ rest, (∃ n, m.1 = .name n ∧ n ≠ tag) ∧ place.holds m.2 = true) :
    vs.scan tag place none members = .ok (some payload) := by
  obtain ⟨before, after, rfl⟩ := List.append_of_mem (perm.mem_iff.mpr List.mem_cons_self)
  have others : (before ++ after).Perm rest :=
    (List.perm_cons _).mp (List.perm_middle.symm.trans perm)
  have plain' : ∀ m ∈ before ++ after, (∃ n, m.1 = .name n ∧ n ≠ tag) ∧ place.holds m.2 = true :=
    fun m hm => plain m (others.mem_iff.mp hm)
  have select : vs.select place (.string name) = .ok payload := by
    simp only [Variants.select, named]
  rw [scan_append fun m hm => plain' m (List.mem_append_left _ hm), Variants.scan, if_pos rfl,
    select]
  have behind : vs.scan tag place (some payload) (after ++ []) = .ok (some payload) :=
    scan_append (fun m hm => plain' m (List.mem_append_right _ hm)) (some payload)
  rw [List.append_nil] at behind
  exact behind

/-- A record with a tag is read from its members in every variation. -/
theorem reads_tagged {variants : List (String × List Member)} {a : α}
    (named : vs.find? (fun n => n.1 = name) = some (name, payload)) (h : payload.Reads ds ms a)
    (only : ∀ ds', (name, ds') ∈ variants → ds' = ds) :
    Reads (tagged tag vs) (Variation.tagged tag variants)
      (.object ((tag, .string name) :: ms)) a := by
  rintro place f ⟨name', ds', ms', members, rest, heq, variant, rfl, perm, plain, hm⟩
  cases heq
  cases only _ variant
  have keys : ∀ m ∈ rest, (∃ n, m.1 = .name n ∧ n ≠ tag) ∧ place.inner.holds m.2 = true := by
    intro m hm'
    obtain ⟨n, key⟩ := hm.name_of_mem hm'
    exact ⟨⟨n, key, fun same => (plain m hm').1 (same ▸ key)⟩, (plain m hm').2⟩
  have untagged : (members.filter fun m => m.1 ≠ .name tag).Perm rest := by
    have filtered := perm.filter fun m => decide (m.1 ≠ .name tag)
    rwa [List.filter_cons_of_neg (by simp),
      List.filter_eq_self.mpr fun m hm => decide_eq_true (plain m hm).1] at filtered
  rw [tagged, scan_eq_ok named perm keys]
  exact h _ (hm.of_perm untagged)

end Decode

end

end TabHost
