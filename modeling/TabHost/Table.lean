/-!
# Finite maps in key order

A host keeps its tabs by tab id and its surfaces by surface id, and everything it shows
of them is shown in ascending order of the id. `Table κ α` is a finite map kept as the
list of its bindings in strictly ascending key order, so two tables with the same
bindings are equal, and going through a table is going through its list.

`Table.get?` is the view of a table; `get?_insert`, `get?_erase` and `get?_modify` say
what each operation does to it, and `ext_get?` that it determines the table.
-/

namespace TabHost

/-- A type of keys ordered by a natural number that tells its elements apart. -/
class Ranked (κ : Type) where
  rank : κ → Nat
  rank_inj : ∀ a b, rank a = rank b → a = b

export Ranked (rank)

/-- A finite map, as its bindings in strictly ascending key order. -/
structure Table (κ α : Type) [Ranked κ] where
  entries : List (κ × α)
  ascending : entries.Pairwise fun a b => rank a.1 < rank b.1

namespace Table

variable {κ α : Type} [Ranked κ]

/-! ## Bindings in a list -/

/-- The value bound to a key in a list of bindings. -/
def find (k : κ) : List (κ × α) → Option α
  | [] => none
  | b :: rest => if rank b.1 = rank k then some b.2 else find k rest

/-- The bindings with one key bound to a new value, in its place in the order. -/
def insertIn (k : κ) (a : α) : List (κ × α) → List (κ × α)
  | [] => [(k, a)]
  | b :: rest =>
    if rank k < rank b.1 then (k, a) :: b :: rest
    else if rank b.1 = rank k then (k, a) :: rest
    else b :: insertIn k a rest

/-- The bindings of all other keys. -/
def eraseIn (k : κ) (bs : List (κ × α)) : List (κ × α) :=
  bs.filter fun b => rank b.1 ≠ rank k

/-- The bindings with the value of one key changed by a function. -/
def modifyIn (k : κ) (f : α → α) (bs : List (κ × α)) : List (κ × α) :=
  bs.map fun b => if rank b.1 = rank k then (b.1, f b.2) else b

theorem mem_insertIn {k : κ} {a : α} {b : κ × α} :
    ∀ {bs : List (κ × α)}, b ∈ insertIn k a bs → b = (k, a) ∨ b ∈ bs
  | [], h => by simpa [insertIn] using h
  | c :: rest, h => by
    unfold insertIn at h
    split at h
    · simpa using h
    · split at h
      · rcases List.mem_cons.mp h with h | h
        · exact Or.inl h
        · exact Or.inr (List.mem_cons_of_mem _ h)
      · rcases List.mem_cons.mp h with h | h
        · exact Or.inr (h ▸ List.mem_cons_self)
        · exact (mem_insertIn h).imp id (List.mem_cons_of_mem _)

theorem pairwise_insertIn {k : κ} {a : α} :
    ∀ {bs : List (κ × α)}, bs.Pairwise (fun a b => rank a.1 < rank b.1) →
      (insertIn k a bs).Pairwise fun a b => rank a.1 < rank b.1
  | [], _ => by simp [insertIn]
  | b :: rest, h => by
    have hb := List.pairwise_cons.mp h
    unfold insertIn
    split
    · next hk =>
      refine List.pairwise_cons.mpr ⟨fun c hc => ?_, h⟩
      rcases List.mem_cons.mp hc with rfl | hc
      · exact hk
      · exact Nat.lt_trans hk (hb.1 c hc)
    · split
      · next hk =>
        exact List.pairwise_cons.mpr ⟨fun c hc => hk ▸ hb.1 c hc, hb.2⟩
      · next h1 h2 =>
        refine List.pairwise_cons.mpr ⟨fun c hc => ?_, pairwise_insertIn hb.2⟩
        rcases mem_insertIn hc with rfl | hc
        · show rank b.1 < rank k
          omega
        · exact hb.1 c hc

theorem find_insertIn (k j : κ) (a : α) :
    ∀ bs : List (κ × α), find j (insertIn k a bs) = if rank k = rank j then some a else find j bs
  | [] => by simp [insertIn, find]
  | b :: rest => by
    unfold insertIn
    split
    · simp [find]
    · split
      · next h => by_cases hj : rank k = rank j <;> simp [find, h, hj]
      · next h =>
        by_cases hb : rank b.1 = rank j
        · have : rank k ≠ rank j := fun e => h (hb.trans e.symm)
          simp [find, hb, this]
        · simp [find, hb, find_insertIn k j a rest]

theorem find_eraseIn (k j : κ) :
    ∀ bs : List (κ × α), find j (eraseIn k bs) = if rank k = rank j then none else find j bs
  | [] => by simp [eraseIn, find]
  | b :: rest => by
    have ih := find_eraseIn k j rest
    unfold eraseIn at ih ⊢
    by_cases hb : rank b.1 = rank k
    · by_cases hj : rank k = rank j
      · simp_all
      · have : rank b.1 ≠ rank j := fun e => hj (hb.symm.trans e)
        simp_all [find]
    · by_cases hj : rank b.1 = rank j
      · have : rank k ≠ rank j := fun e => hb (hj.trans e.symm)
        simp_all [find]
      · simp_all [find]

theorem find_modifyIn (k j : κ) (f : α → α) :
    ∀ bs : List (κ × α),
      find j (modifyIn k f bs) = if rank k = rank j then (find j bs).map f else find j bs
  | [] => by simp [modifyIn, find]
  | b :: rest => by
    have ih := find_modifyIn k j f rest
    unfold modifyIn at ih ⊢
    by_cases hb : rank b.1 = rank k
    · by_cases hj : rank k = rank j
      · simp [find, hb, hj]
      · have : rank b.1 ≠ rank j := fun e => hj (hb.symm.trans e)
        simp_all [find]
    · by_cases hj : rank b.1 = rank j
      · have : rank k ≠ rank j := fun e => hb (hj.trans e.symm)
        simp_all [find]
      · simp_all [find]

theorem pairwise_modifyIn (k : κ) (f : α → α) {bs : List (κ × α)}
    (h : bs.Pairwise fun a b => rank a.1 < rank b.1) :
    (modifyIn k f bs).Pairwise fun a b => rank a.1 < rank b.1 := by
  refine List.pairwise_map.mpr (h.imp fun {a b} hab => ?_)
  split <;> split <;> exact hab

theorem find_eq_none_of_lt {k : κ} :
    ∀ {bs : List (κ × α)}, (∀ b ∈ bs, rank k < rank b.1) → find k bs = none
  | [], _ => rfl
  | b :: rest, h => by
    have hb : rank b.1 ≠ rank k := Nat.ne_of_gt (h b List.mem_cons_self)
    simp only [find, hb, if_false]
    exact find_eq_none_of_lt fun c hc => h c (List.mem_cons_of_mem _ hc)

theorem eq_of_find_eq :
    ∀ {as bs : List (κ × α)}, as.Pairwise (fun a b => rank a.1 < rank b.1) →
      bs.Pairwise (fun a b => rank a.1 < rank b.1) → (∀ k, find k as = find k bs) → as = bs
  | [], [], _, _, _ => rfl
  | [], b :: bs, _, _, h => by simpa [find] using h b.1
  | a :: as, [], _, _, h => by simpa [find] using h a.1
  | a :: as, b :: bs, ha, hb, h => by
    have ha' := List.pairwise_cons.mp ha
    have hb' := List.pairwise_cons.mp hb
    have key : rank a.1 = rank b.1 := by
      rcases Nat.lt_trichotomy (rank a.1) (rank b.1) with hlt | heq | hgt
      · have : find a.1 (b :: bs) = none := find_eq_none_of_lt fun c hc => by
          rcases List.mem_cons.mp hc with rfl | hc
          · exact hlt
          · exact Nat.lt_trans hlt (hb'.1 c hc)
        exact absurd ((h a.1).trans this) (by simp [find])
      · exact heq
      · have : find b.1 (a :: as) = none := find_eq_none_of_lt fun c hc => by
          rcases List.mem_cons.mp hc with rfl | hc
          · exact hgt
          · exact Nat.lt_trans hgt (ha'.1 c hc)
        exact absurd ((h b.1).symm.trans this) (by simp [find])
    have hval : a.2 = b.2 := by simpa [find, key] using h a.1
    have hab : a = b := Prod.ext (Ranked.rank_inj _ _ key) hval
    subst hab
    refine congrArg _ (eq_of_find_eq ha'.2 hb'.2 fun k => ?_)
    by_cases hk : rank a.1 = rank k
    · rw [find_eq_none_of_lt fun c hc => hk ▸ ha'.1 c hc,
        find_eq_none_of_lt fun c hc => hk ▸ hb'.1 c hc]
    · simpa [find, hk] using h k

/-! ## Operations -/

/-- The map without bindings. -/
def empty : Table κ α := ⟨[], List.Pairwise.nil⟩

instance : Inhabited (Table κ α) := ⟨empty⟩

/-- The value bound to a key. -/
def get? (t : Table κ α) (k : κ) : Option α := find k t.entries

/-- Whether a key is bound. -/
def contains (t : Table κ α) (k : κ) : Bool := (t.get? k).isSome

/-- Binds a key, in place of an earlier binding of it. -/
def insert (t : Table κ α) (k : κ) (a : α) : Table κ α :=
  ⟨insertIn k a t.entries, pairwise_insertIn t.ascending⟩

/-- Removes the binding of a key, if there is one. -/
def erase (t : Table κ α) (k : κ) : Table κ α :=
  ⟨eraseIn k t.entries, t.ascending.filter _⟩

/-- Changes the value of a key, if it is bound. -/
def modify (t : Table κ α) (k : κ) (f : α → α) : Table κ α :=
  ⟨modifyIn k f t.entries, pairwise_modifyIn k f t.ascending⟩

/-- The bound keys, ascending. -/
def keys (t : Table κ α) : List κ := t.entries.map Prod.fst

/-- The bound values, in the order of their keys. -/
def values (t : Table κ α) : List α := t.entries.map Prod.snd

/-- The number of bindings. -/
def size (t : Table κ α) : Nat := t.entries.length

/-! ## The view -/

@[simp] theorem get?_empty (k : κ) : (empty : Table κ α).get? k = none := rfl

theorem get?_insert (t : Table κ α) (k j : κ) (a : α) :
    (t.insert k a).get? j = if rank k = rank j then some a else t.get? j :=
  find_insertIn k j a t.entries

@[simp] theorem get?_insert_self (t : Table κ α) (k : κ) (a : α) :
    (t.insert k a).get? k = some a := by
  simp [get?_insert]

theorem get?_erase (t : Table κ α) (k j : κ) :
    (t.erase k).get? j = if rank k = rank j then none else t.get? j :=
  find_eraseIn k j t.entries

@[simp] theorem get?_erase_self (t : Table κ α) (k : κ) : (t.erase k).get? k = none := by
  simp [get?_erase]

theorem get?_modify (t : Table κ α) (k j : κ) (f : α → α) :
    (t.modify k f).get? j = if rank k = rank j then (t.get? j).map f else t.get? j :=
  find_modifyIn k j f t.entries

/-- A table is determined by the values it binds. -/
theorem ext_get? {t u : Table κ α} (h : ∀ k, t.get? k = u.get? k) : t = u := by
  cases t
  cases u
  congr
  exact eq_of_find_eq ‹_› ‹_› h

theorem get?_insert_of_ne {k j : κ} (h : j ≠ k) (t : Table κ α) (a : α) :
    (t.insert k a).get? j = t.get? j := by
  rw [get?_insert, if_neg fun e => h (Ranked.rank_inj _ _ e.symm)]

theorem get?_erase_of_ne {k j : κ} (h : j ≠ k) (t : Table κ α) : (t.erase k).get? j = t.get? j := by
  rw [get?_erase, if_neg fun e => h (Ranked.rank_inj _ _ e.symm)]

/-- Changing a value is binding the changed one. -/
theorem modify_eq_insert {t : Table κ α} {k : κ} {a : α} (h : t.get? k = some a) (f : α → α) :
    t.modify k f = t.insert k (f a) := by
  refine ext_get? fun j => ?_
  rw [get?_modify, get?_insert]
  by_cases hj : rank k = rank j
  · rw [if_pos hj, if_pos hj, ← Ranked.rank_inj _ _ hj, h]
    rfl
  · rw [if_neg hj, if_neg hj]

theorem modify_of_get?_eq_none {t : Table κ α} {k : κ} (h : t.get? k = none) (f : α → α) :
    t.modify k f = t := by
  refine ext_get? fun j => ?_
  rw [get?_modify]
  by_cases hj : rank k = rank j
  · rw [if_pos hj, ← Ranked.rank_inj _ _ hj, h]
    rfl
  · rw [if_neg hj]

/-- Binding a key to the value that it has changes nothing. -/
theorem insert_of_get?_eq_some {t : Table κ α} {k : κ} {a : α} (h : t.get? k = some a) :
    t.insert k a = t := by
  refine ext_get? fun j => ?_
  rw [get?_insert]
  by_cases hj : rank k = rank j
  · rw [if_pos hj, ← Ranked.rank_inj _ _ hj, h]
  · rw [if_neg hj]

/-- Binding a key twice, the last value counts. -/
theorem insert_insert (t : Table κ α) (k : κ) (a b : α) :
    (t.insert k a).insert k b = t.insert k b :=
  ext_get? fun j => by
    rw [get?_insert, get?_insert, get?_insert]
    split <;> rfl

theorem contains_eq_false_iff {t : Table κ α} {k : κ} :
    t.contains k = false ↔ t.get? k = none := by
  simp [contains]

theorem find_isSome_of_mem {k : κ} :
    ∀ {bs : List (κ × α)}, k ∈ bs.map Prod.fst → (find k bs).isSome = true
  | b :: rest, h => by
    unfold find
    split
    · rfl
    · next hne =>
      rcases List.mem_cons.mp h with rfl | h
      · exact absurd rfl hne
      · exact find_isSome_of_mem h

theorem mem_map_fst_of_find {k : κ} {a : α} :
    ∀ {bs : List (κ × α)}, find k bs = some a → k ∈ bs.map Prod.fst
  | b :: rest, h => by
    unfold find at h
    split at h
    · next hk => exact List.mem_cons.mpr (Or.inl (Ranked.rank_inj _ _ hk).symm)
    · exact List.mem_cons_of_mem _ (mem_map_fst_of_find h)

theorem mem_keys_iff {t : Table κ α} {k : κ} : k ∈ t.keys ↔ (t.get? k).isSome = true := by
  refine ⟨find_isSome_of_mem, fun h => ?_⟩
  obtain ⟨a, ha⟩ := Option.isSome_iff_exists.mp h
  exact mem_map_fst_of_find ha

theorem find_eq_some_iff {k : κ} {a : α} :
    ∀ {bs : List (κ × α)}, bs.Pairwise (fun a b => rank a.1 < rank b.1) →
      (find k bs = some a ↔ (k, a) ∈ bs)
  | [], _ => by simp [find]
  | b :: rest, h => by
    obtain ⟨hb, hrest⟩ := List.pairwise_cons.mp h
    have ih := find_eq_some_iff (k := k) (a := a) hrest
    unfold find
    split
    · next hk =>
      have key : b.1 = k := Ranked.rank_inj _ _ hk
      have behind : (k, a) ∉ rest := by
        intro hm
        have := hb _ hm
        rw [key] at this
        exact Nat.lt_irrefl _ this
      constructor
      · intro heq
        cases heq
        exact List.mem_cons.mpr (Or.inl (Prod.ext key.symm rfl))
      · intro hm
        rcases List.mem_cons.mp hm with heq | hm
        · rw [← heq]
        · exact absurd hm behind
    · next hk =>
      rw [ih, List.mem_cons]
      constructor
      · exact Or.inr
      · rintro (heq | hm)
        · exact absurd (congrArg (fun b => rank b.1) heq).symm hk
        · exact hm

/-- The bindings of a table are those that it is asked for. -/
theorem mem_entries_iff {t : Table κ α} {k : κ} {a : α} :
    (k, a) ∈ t.entries ↔ t.get? k = some a :=
  (find_eq_some_iff t.ascending).symm

/-- A key is bound once. -/
theorem nodup_keys (t : Table κ α) : t.keys.Nodup := by
  refine List.pairwise_map.mpr (t.ascending.imp ?_)
  intro a b hlt heq
  rw [heq] at hlt
  exact Nat.lt_irrefl _ hlt

@[simp] theorem get?_modify_self (t : Table κ α) (k : κ) (f : α → α) :
    (t.modify k f).get? k = (t.get? k).map f := by
  simp [get?_modify]

theorem get?_modify_of_ne {k j : κ} (h : j ≠ k) (t : Table κ α) (f : α → α) :
    (t.modify k f).get? j = t.get? j := by
  rw [get?_modify, if_neg fun e => h (Ranked.rank_inj _ _ e.symm)]

end Table

end TabHost
