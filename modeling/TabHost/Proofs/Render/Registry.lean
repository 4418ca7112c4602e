import Mathlib.Data.List.Basic
import TabHost.Render.Surfaces

/-!
# The registry of surfaces, told by history

Whoever uses the registry asks it, and holds leases on handles meanwhile (`SurfaceAsk`). What was
asked, with the answers, is a log, and all that the registry answers next can be told from the log
alone (`Surfaces.answers_by_history`): which handle was registered for a surface last and not
removed since (`SurfaceLog.Registers`), whether somebody still holds a lease on it
(`SurfaceLog.Holds`), and how the surface was marked last since it was registered
(`SurfaceLog.Marks`).

These three are independent of each other. A registered handle that nobody holds any more still
occupies its surface, and nothing brings it back; a mark does not outlive the entry that it was
set on.
-/

set_option linter.unusedSectionVars false

namespace TabHost

/-! ## What happened since -/

/-- Something of one kind is in a list, and all that comes behind it is of another kind. -/
def HappensSince {α : Type} (mark since : α → Prop) (xs : List α) : Prop :=
  ∃ before x after, xs = before ++ x :: after ∧ mark x ∧ ∀ y ∈ after, since y

section HappensSince

variable {α : Type} {mark since : α → Prop} {xs : List α} {x : α}

theorem not_happensSince_nil : ¬HappensSince mark since [] := by
  rintro ⟨before, x, after, h, -⟩
  simp at h

/-- One more element is what is looked for, or comes behind it. -/
theorem happensSince_concat :
    HappensSince mark since (xs ++ [x]) ↔ mark x ∨ HappensSince mark since xs ∧ since x := by
  constructor
  · rintro ⟨before, y, after, heq, hmark, hsince⟩
    rcases List.eq_nil_or_concat after with rfl | ⟨after', z, rfl⟩
    · obtain ⟨-, rfl⟩ : xs = before ∧ x = y := by simpa using heq
      exact Or.inl hmark
    · rw [List.concat_eq_append, ← List.cons_append, ← List.append_assoc] at heq
      obtain ⟨rfl, hz⟩ := List.append_inj' heq rfl
      cases hz
      exact Or.inr ⟨⟨before, y, after', rfl, hmark, fun w hw => hsince w (by simp [hw])⟩,
        hsince x (by simp)⟩
  · rintro (hmark | ⟨⟨before, y, after, rfl, hmark, hsince⟩, hx⟩)
    · exact ⟨xs, x, [], rfl, hmark, fun y hy => absurd hy List.not_mem_nil⟩
    · refine ⟨before, y, after ++ [x], by simp, hmark, fun z hz => ?_⟩
      rcases List.mem_append.mp hz with hz | hz
      · exact hsince z hz
      · rw [List.mem_singleton.mp hz]
        exact hx

end HappensSince

/-! ## Questions and answers -/

/-- Something that is asked of the registry, or done with a handle by who holds a lease on it. -/
inductive SurfaceAsk where
  /-- A new handle of a tab, with a lease on it. -/
  | issue (tab : TabId) (surface : SurfaceId)
  /-- One more lease on a handle. -/
  | retain (h : Handle)
  /-- A lease on a handle is given up. -/
  | release (h : Handle)
  | register (surface : SurfaceId) (h : Handle)
  | unregister (surface : SurfaceId)
  | setVisible (surface : SurfaceId) (visible : Bool)
  | clear
  /-- The handle of a surface, with a lease on it. -/
  | lookup (surface : SurfaceId)
  | isVisible (surface : SurfaceId)
  | visible
  | size
  deriving DecidableEq

/-- The handle that is used, which takes a lease on it. -/
def SurfaceAsk.uses? : SurfaceAsk → Option Handle
  | .retain h => some h
  | .release h => some h
  | .register _ h => some h
  | _ => none

/-- What the registry answers. -/
inductive SurfaceAnswer where
  | done
  | handle (h : Option Handle)
  /-- Whether it was done, or is so. -/
  | yes (b : Bool)
  | surfaces (xs : List SurfaceId)
  | count (n : Nat)
  deriving DecidableEq

namespace Surfaces

/-- The answer to something that is asked, and the registry after it. -/
def answer : SurfaceAsk → Surfaces → SurfaceAnswer × Surfaces
  | .issue tab surface, s => (.handle (some (s.issue tab surface).1), (s.issue tab surface).2)
  | .retain h, s => (.done, s.retain h)
  | .release h, s => (.done, s.release h)
  | .register surface h, s =>
    match s.register? surface h with
    | none => (.yes false, s)
    | some s' => (.yes true, s')
  | .unregister surface, s => (.yes (s.isOccupied surface), s.unregister surface)
  | .setVisible surface visible, s => (.yes (s.isOccupied surface), s.setVisible surface visible)
  | .clear, s => (.done, s.clear)
  | .lookup surface, s =>
    match s.lookup surface with
    | none => (.handle none, s)
    | some h => (.handle (some h), s.retain h)
  | .isVisible surface, s => (.yes (s.isVisible surface), s)
  | .visible, s => (.surfaces s.visible, s)
  | .size, s => (.count s.size, s)

end Surfaces

/-! ## Logs -/

/-- What was asked, with the answers, oldest first. -/
abbrev SurfaceLog := List (SurfaceAsk × SurfaceAnswer)

namespace SurfaceLog

/-- Whether a handle was registered for a surface. -/
def registers (surface : SurfaceId) : SurfaceAsk × SurfaceAnswer → Bool
  | (.register surface' _, .yes true) => surface' = surface
  | _ => false

/-- Whether a surface was freed. -/
def frees (surface : SurfaceId) : SurfaceAsk × SurfaceAnswer → Bool
  | (.unregister surface', _) => surface' = surface
  | (.clear, _) => true
  | _ => false

/-- Whether somebody got a lease on a handle. -/
def acquires (h : Handle) : SurfaceAsk × SurfaceAnswer → Bool
  | (.issue _ _, .handle (some h')) => h' = h
  | (.lookup _, .handle (some h')) => h' = h
  | (.retain h', _) => h' = h
  | _ => false

/-- Whether somebody gave a lease on a handle up. -/
def releases (h : Handle) : SurfaceAsk × SurfaceAnswer → Bool
  | (.release h', _) => h' = h
  | _ => false

/-- The last handle that was registered for a surface, which was not freed since. -/
def Registers (log : SurfaceLog) (surface : SurfaceId) (h : Handle) : Prop :=
  HappensSince (fun e => e = (.register surface h, .yes true))
    (fun e => registers surface e = false ∧ frees surface e = false) log

/-- Somebody holds a lease on a handle. -/
def Holds (log : SurfaceLog) (h : Handle) : Prop :=
  log.countP (releases h) < log.countP (acquires h)

/-- A surface was last marked visible, and no handle was registered for it since. -/
def Marks (log : SurfaceLog) (surface : SurfaceId) : Prop :=
  HappensSince (fun e => e.1 = .setVisible surface true)
    (fun e => registers surface e = false ∧ e.1 ≠ .setVisible surface false) log

/-- The logs of a new registry, and the registry after them. Handles are used by those only who
hold them. -/
inductive Of : SurfaceLog → Surfaces → Prop
  | new : Of [] {}
  | ask {log : SurfaceLog} {s : Surfaces} (past : Of log s) (a : SurfaceAsk)
      (holds : ∀ h ∈ a.uses?, log.Holds h) : Of (log ++ [(a, (s.answer a).1)]) (s.answer a).2

variable {log : SurfaceLog} {s : Surfaces} {a : SurfaceAsk} {e : SurfaceAsk × SurfaceAnswer}
  {surface : SurfaceId} {h h' : Handle}

/-! ### One more entry -/

theorem registers_concat : Registers (log ++ [e]) surface h ↔
    e = (.register surface h, .yes true) ∨
      log.Registers surface h ∧ registers surface e = false ∧ frees surface e = false :=
  happensSince_concat

theorem marks_concat : Marks (log ++ [e]) surface ↔
    e.1 = .setVisible surface true ∨
      log.Marks surface ∧ registers surface e = false ∧ e.1 ≠ .setVisible surface false :=
  happensSince_concat

theorem not_registers_nil : ¬Registers [] surface h := not_happensSince_nil

/-- Whether anybody ever got a lease on a handle. -/
def Acquired (log : SurfaceLog) (h : Handle) : Prop := 0 < log.countP (acquires h)

instance : Decidable (log.Holds h) := inferInstanceAs (Decidable (_ < _))

theorem Holds.acquired (hh : log.Holds h) : log.Acquired h := Nat.zero_lt_of_lt hh

theorem acquired_concat : Acquired (log ++ [e]) h ↔ log.Acquired h ∨ acquires h e = true := by
  unfold Acquired
  cases he : acquires h e <;> simp [List.countP_append, he]

/-! ## Entries -/

/-- The entries of the registry are those that the log tells of. -/
structure TellsEntries (log : SurfaceLog) (s : Surfaces) : Prop where
  registers : ∀ surface h,
    (s.entries.get? surface).map SurfaceEntry.handle = some h ↔ log.Registers surface h
  marks : ∀ surface e, s.entries.get? surface = some e → (e.visible = true ↔ log.Marks surface)

namespace TellsEntries

theorem nil : TellsEntries [] {} :=
  ⟨fun surface h => by simp [not_registers_nil], fun surface e he => by simp at he⟩

/-- What concerns no entry leaves them alone. -/
theorem same (ht : TellsEntries log s) {s' : Surfaces} (entries : s'.entries = s.entries)
    (registers : ∀ surface, SurfaceLog.registers surface e = false)
    (frees : ∀ surface, SurfaceLog.frees surface e = false)
    (marks : ∀ surface visible, e.1 ≠ .setVisible surface visible) :
    TellsEntries (log ++ [e]) s' := by
  have unregistered : ∀ surface h, e ≠ (.register surface h, .yes true) := by
    rintro surface h rfl
    simpa [SurfaceLog.registers] using registers surface
  refine ⟨fun surface h => ?_, fun surface e' he' => ?_⟩
  · rw [registers_concat, entries]
    simp [ht.registers, unregistered, registers, frees]
  · rw [marks_concat]
    rw [entries] at he'
    simp [ht.marks surface e' he', registers, marks]

theorem register (ht : TellsEntries log s) {s' : Surfaces}
    (hr : s.register? surface h = some s') :
    TellsEntries (log ++ [(.register surface h, .yes true)]) s' := by
  unfold Surfaces.register? at hr
  split at hr
  · cases hr
  cases hr
  refine ⟨fun other h' => ?_, fun other e' he' => ?_⟩
  · rw [registers_concat]
    by_cases hk : other = surface
    · subst hk
      simp [SurfaceLog.registers]
    · simp [Table.get?_insert_of_ne hk, ht.registers, SurfaceLog.registers, frees, Ne.symm hk]
  · rw [marks_concat]
    by_cases hk : other = surface
    · subst hk
      obtain rfl : _ = e' := Option.some.inj ((Table.get?_insert_self _ _ _).symm.trans he')
      simp [SurfaceLog.registers]
    · have before := (Table.get?_insert_of_ne hk _ _).symm.trans he'
      simp [ht.marks other e' before, SurfaceLog.registers, Ne.symm hk]

theorem unregister (ht : TellsEntries log s) (answer : SurfaceAnswer) :
    TellsEntries (log ++ [(.unregister surface, answer)]) (s.unregister surface) := by
  refine ⟨fun other h' => ?_, fun other e' he' => ?_⟩
  · rw [registers_concat, Surfaces.unregister]
    by_cases hk : other = surface
    · subst hk
      simp [frees]
    · simp [Table.get?_erase_of_ne hk, ht.registers, SurfaceLog.registers, frees, Ne.symm hk]
  · rw [marks_concat]
    have hk : other ≠ surface := by
      rintro rfl
      cases (Table.get?_erase_self _ _).symm.trans he'
    have before := (Table.get?_erase_of_ne hk _).symm.trans he'
    simp [ht.marks other e' before, SurfaceLog.registers]

theorem clear (log : SurfaceLog) (s : Surfaces) (answer : SurfaceAnswer) :
    TellsEntries (log ++ [(.clear, answer)]) s.clear := by
  refine ⟨fun other h' => ?_, fun other e' he' => by cases he'⟩
  rw [registers_concat]
  simp [Surfaces.clear, frees]

theorem setVisible (ht : TellsEntries log s) (visible : Bool) (answer : SurfaceAnswer) :
    TellsEntries (log ++ [(.setVisible surface visible, answer)])
      (s.setVisible surface visible) := by
  refine ⟨fun other h' => ?_, fun other e' he' => ?_⟩
  · rw [registers_concat, Surfaces.setVisible, Table.get?_modify]
    have handle : ((s.entries.get? other).map fun e => { e with visible := visible }).map
        SurfaceEntry.handle = (s.entries.get? other).map SurfaceEntry.handle := by
      rw [Option.map_map]
      rfl
    split
    · rw [handle]
      simp [ht.registers, SurfaceLog.registers, frees]
    · simp [ht.registers, SurfaceLog.registers, frees]
  · rw [marks_concat]
    by_cases hk : other = surface
    · subst hk
      rw [Surfaces.setVisible, Table.get?_modify_self] at he'
      obtain ⟨e, he, rfl⟩ := Option.map_eq_some_iff.mp he'
      cases visible <;> simp [SurfaceLog.registers]
    · have before := (Table.get?_modify_of_ne hk _ _).symm.trans he'
      simp [ht.marks other e' before, SurfaceLog.registers, Ne.symm hk]

/-- Whatever is asked of the registry, the log goes on telling of its entries. -/
theorem ask (ht : TellsEntries log s) (a : SurfaceAsk) :
    TellsEntries (log ++ [(a, (s.answer a).1)]) (s.answer a).2 := by
  cases a with
  | register surface h =>
    rw [Surfaces.answer]
    cases hr : s.register? surface h with
    | none => exact ht.same rfl (by simp [SurfaceLog.registers]) (by simp [frees]) (by simp)
    | some s' => exact ht.register hr
  | unregister surface => exact ht.unregister _
  | setVisible surface visible => exact ht.setVisible visible _
  | clear => exact .clear log s _
  | lookup surface =>
    rw [Surfaces.answer]
    cases s.lookup surface <;>
      exact ht.same rfl (by simp [SurfaceLog.registers]) (by simp [frees]) (by simp)
  | _ => exact ht.same rfl (by simp [SurfaceLog.registers]) (by simp [frees]) (by simp)

end TellsEntries

/-! ## Leases -/

/-- The leases are those that the log tells of, on handles that are told apart. -/
structure TellsLeases (log : SurfaceLog) (s : Surfaces) : Prop where
  count : ∀ h, log.Acquired h →
    s.leases.count h.serial + log.countP (releases h) = log.countP (acquires h)
  distinct : ∀ h h', log.Acquired h → log.Acquired h' → h.serial = h'.serial → h = h'
  issued : ∀ h, log.Acquired h → h.serial < s.nextSerial
  leased : ∀ n ∈ s.leases, n < s.nextSerial
  /-- A handle that was never held was never used. -/
  unused : ∀ h, ¬log.Acquired h → log.countP (releases h) = 0

namespace TellsLeases

theorem nil : TellsLeases [] {} :=
  ⟨fun _ h => absurd h (by simp [Acquired]), fun _ _ h => absurd h (by simp [Acquired]),
    fun _ h => absurd h (by simp [Acquired]), fun _ h => absurd h List.not_mem_nil,
    fun _ _ => rfl⟩

/-- A handle is alive as long as somebody holds a lease on it. -/
theorem isAlive_iff (ht : TellsLeases log s) (ha : log.Acquired h) :
    s.isAlive h = true ↔ log.Holds h := by
  have count := ht.count h ha
  have alive : s.isAlive h = true ↔ 0 < s.leases.count h.serial := by
    simp [Surfaces.isAlive, List.count_pos_iff]
  rw [alive, Holds]
  omega

/-- What concerns no lease leaves them alone. -/
theorem same (ht : TellsLeases log s) {s' : Surfaces} (leases : s'.leases = s.leases)
    (next : s'.nextSerial = s.nextSerial) (acquires : ∀ h, SurfaceLog.acquires h e = false)
    (releases : ∀ h, SurfaceLog.releases h e = false) : TellsLeases (log ++ [e]) s' := by
  have acquired : ∀ h, Acquired (log ++ [e]) h ↔ log.Acquired h := by
    simp [acquired_concat, acquires]
  refine ⟨?_, ?_, ?_, ?_, ?_⟩
  all_goals
    simp only [acquired, leases, next, List.countP_append, List.countP_singleton, acquires,
      releases, Bool.false_eq_true, if_false, Nat.add_zero]
  · exact ht.count
  · exact ht.distinct
  · exact ht.issued
  · exact ht.leased
  · exact ht.unused

/-- One more lease on a handle that somebody held before. -/
theorem retain (ht : TellsLeases log s) (ha : log.Acquired h)
    (acquires : ∀ h', SurfaceLog.acquires h' e = decide (h = h'))
    (releases : ∀ h', SurfaceLog.releases h' e = false) :
    TellsLeases (log ++ [e]) (s.retain h) := by
  have acquired : ∀ h', Acquired (log ++ [e]) h' ↔ log.Acquired h' := by
    intro h'
    rw [acquired_concat, acquires, decide_eq_true_eq, or_iff_left_iff_imp]
    rintro rfl
    exact ha
  refine ⟨fun h' ha' => ?count, ?distinct, ?issued, fun n hn => ?leased, ?unused⟩
  case count =>
    have ha' := (acquired h').mp ha'
    have count := ht.count h' ha'
    have same : h.serial = h'.serial ↔ h = h' := ⟨ht.distinct h h' ha ha', by rintro rfl; rfl⟩
    simp only [Surfaces.retain, List.count_cons, List.countP_append, List.countP_singleton,
      acquires, releases, Bool.false_eq_true, if_false, beq_iff_eq, same, decide_eq_true_eq]
    omega
  case distinct =>
    simpa only [acquired] using ht.distinct
  case issued =>
    exact fun h' ha' => ht.issued h' ((acquired h').mp ha')
  case leased =>
    rcases List.mem_cons.mp hn with rfl | hn
    · exact ht.issued h ha
    · exact ht.leased n hn
  case unused =>
    simpa only [acquired, List.countP_append, List.countP_singleton, releases,
      Bool.false_eq_true, if_false, Nat.add_zero] using ht.unused

theorem issue (ht : TellsLeases log s) (tab : TabId) (surface : SurfaceId) :
    TellsLeases (log ++ [(.issue tab surface, .handle (some (s.issue tab surface).1))])
      (s.issue tab surface).2 := by
  -- a handle was held before, or it is the new one, which was not
  have cases : ∀ h, Acquired (log ++ [(.issue tab surface,
      .handle (some (s.issue tab surface).1))]) h →
      log.Acquired h ∧ h.serial < s.nextSerial ∧ (s.issue tab surface).1 ≠ h ∨
        ¬log.Acquired h ∧ (s.issue tab surface).1 = h := by
    intro h ha
    have new : ∀ h, log.Acquired h → (s.issue tab surface).1 ≠ h := by
      rintro h ha rfl
      exact Nat.lt_irrefl _ (ht.issued _ ha)
    rw [acquired_concat] at ha
    rcases ha with ha | ha
    · exact Or.inl ⟨ha, ht.issued h ha, new h ha⟩
    · have ha : (s.issue tab surface).1 = h := by simpa [acquires] using ha
      exact Or.inr ⟨fun before => new h before ha, ha⟩
  have fresh : s.leases.count s.nextSerial = 0 :=
    List.count_eq_zero.mpr fun hm => Nat.lt_irrefl _ (ht.leased _ hm)
  refine ⟨fun h ha => ?count, fun h h' ha ha' heq => ?distinct, fun h ha => ?issued,
    fun n hn => ?leased, fun h ha => ?unused⟩
  case count =>
    show (s.nextSerial :: s.leases).count h.serial + _ = _
    simp only [List.countP_append, List.countP_singleton, List.count_cons, acquires, releases,
      beq_iff_eq, decide_eq_true_eq, Bool.false_eq_true, if_false]
    rcases cases h ha with ⟨before, issued, other⟩ | ⟨before, rfl⟩
    · have count := ht.count h before
      rw [if_neg (Nat.ne_of_gt issued), if_neg other]
      omega
    · have none : log.countP (acquires (s.issue tab surface).1) = 0 := by
        simpa [Acquired] using before
      have unused := ht.unused _ before
      have serial : (s.issue tab surface).1.serial = s.nextSerial := rfl
      simp only [serial, if_true]
      omega
  case distinct =>
    rcases cases h ha with ⟨before, issued, -⟩ | ⟨-, rfl⟩ <;>
      rcases cases h' ha' with ⟨before', issued', -⟩ | ⟨-, rfl⟩
    · exact ht.distinct h h' before before' heq
    · exact absurd heq (Nat.ne_of_lt issued)
    · exact absurd heq.symm (Nat.ne_of_lt issued')
    · rfl
  case issued =>
    rcases cases h ha with ⟨-, issued, -⟩ | ⟨-, rfl⟩
    · exact Nat.lt_succ_of_lt issued
    · exact Nat.lt_succ_self _
  case leased =>
    rcases List.mem_cons.mp hn with rfl | hn
    · exact Nat.lt_succ_self _
    · exact Nat.lt_succ_of_lt (ht.leased n hn)
  case unused =>
    have before : ¬log.Acquired h := fun before => ha (acquired_concat.mpr (Or.inl before))
    simpa [List.countP_append, releases] using ht.unused h before

theorem release (ht : TellsLeases log s) (hh : log.Holds h) (answer : SurfaceAnswer) :
    TellsLeases (log ++ [(.release h, answer)]) (s.release h) := by
  have acquired : ∀ h', Acquired (log ++ [(.release h, answer)]) h' ↔ log.Acquired h' := by
    simp [acquired_concat, acquires]
  have leased : 0 < s.leases.count h.serial := by
    have count := ht.count h hh.acquired
    unfold Holds at hh
    omega
  refine ⟨fun h' ha' => ?count, ?distinct, ?issued,
    fun n hn => ht.leased n (List.mem_of_mem_erase hn), fun h' ha' => ?unused⟩
  case count =>
    have ha' := (acquired h').mp ha'
    have count := ht.count h' ha'
    have same : h.serial = h'.serial ↔ h = h' :=
      ⟨ht.distinct h h' hh.acquired ha', by rintro rfl; rfl⟩
    simp only [Surfaces.release, List.count_erase, List.countP_append, List.countP_singleton,
      acquires, releases, Bool.false_eq_true, if_false, beq_iff_eq, same, decide_eq_true_eq]
    by_cases hk : h = h'
    · subst hk
      simp only [if_true]
      omega
    · simp only [hk, if_false]
      omega
  case distinct =>
    simpa only [acquired] using ht.distinct
  case issued =>
    exact fun h' ha' => ht.issued h' ((acquired h').mp ha')
  case unused =>
    have ha' := mt (acquired h').mpr ha'
    have other : h ≠ h' := by
      rintro rfl
      exact ha' hh.acquired
    simpa [List.countP_append, releases, other] using ht.unused h' ha'

end TellsLeases

/-! ## Both -/

/-- A log tells of the registry. -/
structure Tells (log : SurfaceLog) (s : Surfaces) : Prop where
  entries : TellsEntries log s
  leases : TellsLeases log s
  /-- What is registered was held once. -/
  entered : ∀ surface h, log.Registers surface h → log.Acquired h

namespace Tells

theorem handle_of_lookup (ht : Tells log s) (hl : s.lookup surface = some h) :
    log.Registers surface h := by
  rw [← ht.entries.registers]
  unfold Surfaces.lookup at hl
  split at hl
  · cases hl
  · next e he =>
    split at hl
    · rw [he, Option.map_some, Option.some.inj hl]
    · cases hl

/-- Looking up finds the handle that is registered, as long as somebody holds it. -/
theorem lookup_eq_some_iff (ht : Tells log s) :
    s.lookup surface = some h ↔ log.Registers surface h ∧ log.Holds h := by
  constructor
  · intro hl
    have registered := ht.handle_of_lookup hl
    refine ⟨registered, (ht.leases.isAlive_iff (ht.entered surface h registered)).mp ?_⟩
    unfold Surfaces.lookup at hl
    split at hl
    · cases hl
    · split at hl
      · next alive => exact Option.some.inj hl ▸ alive
      · cases hl
  · rintro ⟨registered, held⟩
    have alive := (ht.leases.isAlive_iff held.acquired).mpr held
    obtain ⟨e, he, rfl⟩ :=
      Option.map_eq_some_iff.mp ((ht.entries.registers surface h).mpr registered)
    rw [Surfaces.lookup, he]
    exact if_pos alive

theorem isOccupied_iff (ht : Tells log s) :
    s.isOccupied surface = true ↔ ∃ h, log.Registers surface h := by
  simp only [← ht.entries.registers, Option.map_eq_some_iff, Surfaces.isOccupied, Table.contains,
    Option.isSome_iff_exists]
  constructor
  · rintro ⟨e, he⟩
    exact ⟨e.handle, e, he, rfl⟩
  · rintro ⟨h, e, he, -⟩
    exact ⟨e, he⟩

/-- A surface is visible if looking it up finds a handle, and it is marked so. -/
theorem isVisible_iff (ht : Tells log s) :
    s.isVisible surface = true ↔ (s.lookup surface).isSome = true ∧ log.Marks surface := by
  unfold Surfaces.isVisible Surfaces.lookup
  cases he : s.entries.get? surface with
  | none => simp
  | some e =>
    rw [← ht.entries.marks surface e he]
    cases alive : s.isAlive e.handle <;> simp [Surfaces.shows, alive]

/-- Whatever is asked of the registry, the log goes on telling of its leases. -/
theorem leases_ask (ht : Tells log s) (a : SurfaceAsk) (holds : ∀ h ∈ a.uses?, log.Holds h) :
    TellsLeases (log ++ [(a, (s.answer a).1)]) (s.answer a).2 := by
  cases a with
  | issue tab surface => exact ht.leases.issue tab surface
  | retain h => exact ht.leases.retain (holds h rfl).acquired (fun _ => rfl) fun _ => rfl
  | release h => exact ht.leases.release (holds h rfl) _
  | register surface h =>
    rw [Surfaces.answer]
    cases hr : s.register? surface h with
    | none => exact ht.leases.same rfl rfl (fun _ => rfl) fun _ => rfl
    | some s' =>
      unfold Surfaces.register? at hr
      split at hr
      · cases hr
      · cases hr
        exact ht.leases.same rfl rfl (fun _ => rfl) fun _ => rfl
  | lookup surface =>
    rw [Surfaces.answer]
    cases hl : s.lookup surface with
    | none => exact ht.leases.same rfl rfl (fun _ => rfl) fun _ => rfl
    | some h =>
      exact ht.leases.retain (ht.entered surface h (ht.handle_of_lookup hl)) (fun _ => rfl)
        fun _ => rfl
  | _ => exact ht.leases.same rfl rfl (fun _ => rfl) fun _ => rfl

theorem ask (ht : Tells log s) (a : SurfaceAsk) (holds : ∀ h ∈ a.uses?, log.Holds h) :
    Tells (log ++ [(a, (s.answer a).1)]) (s.answer a).2 := by
  refine ⟨ht.entries.ask a, ht.leases_ask a holds, fun surface h registered => ?_⟩
  rw [acquired_concat]
  rw [registers_concat] at registered
  refine Or.inl ?_
  rcases registered with heq | ⟨before, -⟩
  · cases (Prod.mk.inj heq).1
    exact (holds h rfl).acquired
  · exact ht.entered surface h before

end Tells

/-- Every log of a registry tells of it. -/
theorem Of.tells (past : Of log s) : Tells log s := by
  induction past with
  | new => exact ⟨.nil, .nil, fun _ _ registered => absurd registered not_registers_nil⟩
  | ask _ a holds ih => exact ih.ask a holds

end SurfaceLog

/-! ## Visible surfaces -/

namespace Surfaces

theorem mem_visible_iff {s : Surfaces} {surface : SurfaceId} :
    surface ∈ s.visible ↔ s.isVisible surface = true := by
  rw [visible, List.mem_map, isVisible]
  constructor
  · rintro ⟨⟨surface, e⟩, hm, rfl⟩
    obtain ⟨hm, hshows⟩ := List.mem_filter.mp hm
    rw [Table.mem_entries_iff.mp hm]
    exact hshows
  · intro hs
    split at hs
    · cases hs
    · next e he =>
      exact ⟨(surface, e), List.mem_filter.mpr ⟨Table.mem_entries_iff.mpr he, hs⟩, rfl⟩

theorem pairwise_visible (s : Surfaces) : s.visible.Pairwise fun a b => a.value < b.value := by
  refine List.pairwise_map.mpr ((s.entries.ascending.filter _).imp ?_)
  intro a b hlt
  exact UInt64.lt_iff_toNat_lt.mpr hlt

/-! ## What is answered -/

theorem register?_eq_none_iff {s : Surfaces} {surface : SurfaceId} {h : Handle} :
    s.register? surface h = none ↔ s.isOccupied surface = true := by
  unfold register? isOccupied
  split <;> simp [*]

/-- A newly registered surface is hidden. -/
theorem isVisible_register? {s s' : Surfaces} {surface : SurfaceId} {h : Handle}
    (hr : s.register? surface h = some s') : s'.isVisible surface = false := by
  unfold register? at hr
  split at hr
  · cases hr
  · cases hr
    simp [isVisible, shows]

/-- Whatever is there, after removing the entry of a surface there is none to remove. -/
theorem unregister_unregister (s : Surfaces) (surface : SurfaceId) :
    (s.unregister surface).answer (.unregister surface) =
      (.yes false, s.unregister surface) := by
  have vacant : (s.unregister surface).isOccupied surface = false := by
    simp [isOccupied, unregister, Table.contains]
  have same : (s.unregister surface).unregister surface = s.unregister surface := by
    have entries : (s.entries.erase surface).erase surface = s.entries.erase surface := by
      refine Table.ext_get? fun k => ?_
      rw [Table.get?_erase]
      split
      · next hk => rw [Table.get?_erase, if_pos hk]
      · rfl
    simp [unregister, entries]
  rw [answer, vacant, same]

/-- The answers of a registry, told from a log of what it was asked before. -/
structure AnswersBy (log : SurfaceLog) (s : Surfaces) : Prop where
  /-- Looking up finds the handle that was registered last and not removed since, if somebody
  holds it. -/
  lookup : ∀ surface h, s.lookup surface = some h ↔ log.Registers surface h ∧ log.Holds h
  /-- Registering is refused, and changes nothing, where a handle is registered, held or not. -/
  refused : ∀ surface h, s.answer (.register surface h) = (.yes false, s) ↔
    ∃ h', log.Registers surface h'
  /-- Elsewhere it is done, and whatever the surface was marked before, it is hidden. -/
  hidden : ∀ surface h, (¬∃ h', log.Registers surface h') →
    ∃ s', s.answer (.register surface h) = (.yes true, s') ∧ s'.isVisible surface = false ∧
      surface ∉ s'.visible
  ascending : s.visible.Pairwise fun a b => a.value < b.value
  visible : ∀ surface, surface ∈ s.visible ↔
    (s.lookup surface).isSome = true ∧ log.Marks surface
  isVisible : ∀ surface, s.isVisible surface = true ↔ surface ∈ s.visible
  /-- Removing twice is removing once. -/
  removed : ∀ surface, (s.answer (.unregister surface)).1 = .yes (s.isOccupied surface) ∧
    (s.answer (.unregister surface)).2.answer (.unregister surface) =
      (.yes false, (s.answer (.unregister surface)).2)
  size : ∃ occupied : List SurfaceId, occupied.Nodup ∧ s.size = occupied.length ∧
    ∀ surface, surface ∈ occupied ↔ ∃ h, log.Registers surface h

/-- Whatever a registry was asked before, with leases taken and given up meanwhile in any order,
what it answers next is told by that log alone. -/
theorem answers_by_history {log : SurfaceLog} {s : Surfaces} (past : SurfaceLog.Of log s) :
    AnswersBy log s := by
  have tells := past.tells
  refine ⟨fun _ _ => tells.lookup_eq_some_iff, fun surface h => ?_, fun surface h free => ?_,
    s.pairwise_visible, fun surface => ?_, fun surface => mem_visible_iff.symm,
    fun surface => ⟨rfl, s.unregister_unregister surface⟩, s.entries.keys, s.entries.nodup_keys,
    ?_, fun surface => ?_⟩
  · rw [← tells.isOccupied_iff, ← register?_eq_none_iff (h := h), answer]
    cases s.register? surface h <;> simp
  · rw [← tells.isOccupied_iff, ← register?_eq_none_iff (h := h)] at free
    obtain ⟨s', hr⟩ := Option.ne_none_iff_exists'.mp free
    have hides := isVisible_register? hr
    refine ⟨s', by rw [answer, hr], hides, ?_⟩
    rw [mem_visible_iff, hides]
    exact Bool.false_ne_true
  · rw [mem_visible_iff, tells.isVisible_iff]
  · simp [size, Table.size, Table.keys]
  · rw [Table.mem_keys_iff, ← tells.isOccupied_iff]
    rfl

/-- A handle that was given up occupies its surface and is not found, though it is marked visible;
what is registered there next is found and hidden. -/
theorem answers_by_history_abandoned : ∃ log s, SurfaceLog.Of log s ∧ AnswersBy log s ∧
    s.lookup ⟨7⟩ = none ∧ s.visible = [] ∧
      s.answer (.register ⟨7⟩ ⟨1, ⟨2⟩, ⟨7⟩⟩) = (.yes false, s) ∧
      ((s.unregister ⟨7⟩).answer (.register ⟨7⟩ ⟨1, ⟨2⟩, ⟨7⟩⟩)).2.lookup ⟨7⟩ =
        some ⟨1, ⟨2⟩, ⟨7⟩⟩ ∧
      ((s.unregister ⟨7⟩).answer (.register ⟨7⟩ ⟨1, ⟨2⟩, ⟨7⟩⟩)).2.visible = [] := by
  have issued := SurfaceLog.Of.new.ask (.issue ⟨1⟩ ⟨7⟩) (by decide)
  have registered := issued.ask (.register ⟨7⟩ ⟨0, ⟨1⟩, ⟨7⟩⟩) (by decide)
  have marked := registered.ask (.setVisible ⟨7⟩ true) (by decide)
  have two := marked.ask (.issue ⟨2⟩ ⟨7⟩) (by decide)
  have past := two.ask (.release ⟨0, ⟨1⟩, ⟨7⟩⟩) (by decide)
  exact ⟨_, _, past, answers_by_history past, by decide, by decide, rfl, by decide, by decide⟩

end Surfaces

end TabHost
