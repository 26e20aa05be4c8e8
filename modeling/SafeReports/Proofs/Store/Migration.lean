import Mathlib.Logic.Function.Iterate
import SafeReports.Store.Migration

/-!
# Migrations in order

A call compares the number of each migration with the version that it found, and sets the
version as it goes. It runs those above that version one after the other, and leaves nothing
to a further call.
-/

namespace SafeReports.Store

-- ---------------------------------------------------------------------------
-- Which migrations are run
-- ---------------------------------------------------------------------------

theorem filter_zipIdx (ms : List α) (n start : Nat) :
    (ms.zipIdx start).filter (fun m => n < m.2) =
      (ms.drop (n + 1 - start)).zipIdx (max start (n + 1)) := by
  induction ms generalizing start with
  | nil => simp
  | cons m ms ih =>
    rw [List.zipIdx_cons]
    by_cases h : n < start
    · rw [List.filter_cons_of_pos (by simpa using h), ih]
      simp [show n + 1 - start = 0 by omega, show n + 1 - (start + 1) = 0 by omega,
        show max start (n + 1) = start by omega, show max (start + 1) (n + 1) = start + 1 by omega]
    · rw [List.filter_cons_of_neg (by simpa using h), ih,
        show n + 1 - start = n + 1 - (start + 1) + 1 by omega, List.drop_succ_cons,
        show max (start + 1) (n + 1) = max start (n + 1) by omega]

/-- The migrations behind the first `n`, numbered on from there. -/
theorem pending_eq (ms : List Migration) (n : Nat) :
    pending ms n = (ms.drop n).zipIdx (n + 1) := by
  have h := filter_zipIdx ms n 1
  rw [Nat.add_sub_cancel, Nat.max_eq_right (by omega)] at h
  simpa [pending] using h

theorem pending_eq_nil {ms : List Migration} {n : Nat} (h : ms.length ≤ n) :
    pending ms n = [] := by
  rw [pending_eq, List.drop_eq_nil_of_le h, List.zipIdx_nil]

-- ---------------------------------------------------------------------------
-- Calls
-- ---------------------------------------------------------------------------

/-- What calls have done so far: the database, the migrations that they ran, and the versions
that it had, also between a migration and its number. -/
structure Progress where
  database : Database
  ran : List (Migration × Nat)
  versions : List Int

namespace Progress

def start (db : Database) : Progress := ⟨db, [], [db.version]⟩

def run (p : Progress) (m : Migration × Nat) : Progress where
  database := runMigration p.database m
  ran := p.ran ++ [m]
  versions := p.versions ++ [(m.1 p.database).version, (runMigration p.database m).version]

/-- Looks at one migration, with the version that was found at the start. -/
def turn (found : Int) (p : Progress) (m : Migration × Nat) : Progress :=
  if found < m.2 then p.run m else p

def call (ms : List Migration) (p : Progress) : Progress :=
  (ms.zipIdx 1).foldl (turn p.database.version) p

theorem call_eq (ms : List Migration) (p : Progress) :
    p.call ms = (pending ms p.database.version).foldl run p := by
  rw [pending, List.foldl_filter, call]
  simp only [decide_eq_true_eq]
  rfl

theorem database_foldl_run (l : List (Migration × Nat)) (p : Progress) :
    (l.foldl run p).database = l.foldl runMigration p.database := by
  induction l generalizing p with
  | nil => rfl
  | cons m l ih => exact ih (p.run m)

theorem ran_foldl_run (l : List (Migration × Nat)) (p : Progress) :
    (l.foldl run p).ran = p.ran ++ l := by
  induction l generalizing p with
  | nil => simp
  | cons m l ih => rw [List.foldl_cons, ih, run, List.append_assoc, List.singleton_append]

/-- A call does to the database what migrating does. -/
theorem database_call (ms : List Migration) (p : Progress) :
    (p.call ms).database = migrate ms p.database := by
  rw [call_eq, database_foldl_run, migrate]

/-- The version has never been above the one of now, nor above one that came later. -/
structure Rising (p : Progress) : Prop where
  sorted : p.versions.Pairwise (· ≤ ·)
  le : ∀ v ∈ p.versions, v ≤ p.database.version

theorem rising_start (db : Database) : (start db).Rising where
  sorted := List.pairwise_singleton _ _
  le := by simp [start]

theorem Rising.run {p : Progress} (h : p.Rising) {m : Migration} {number : Nat}
    (untouched : ∀ db, (m db).version = db.version) (next : p.database.version ≤ number) :
    (p.run (m, number)).Rising where
  sorted := by
    refine List.pairwise_append.mpr ⟨h.sorted, ?_, fun v hv w hw => ?_⟩
    · simpa [runMigration, untouched] using next
    · have hv := h.le v hv
      simp only [runMigration, untouched, List.mem_cons, List.not_mem_nil, or_false] at hw
      omega
  le v hv := by
    rw [Progress.run] at hv ⊢
    simp only [runMigration, untouched, List.mem_append, List.mem_cons, List.not_mem_nil,
      or_false] at hv ⊢
    rcases hv with old | rfl | rfl
    · exact Int.le_trans (h.le v old) next
    · exact next
    · exact Int.le_refl _

/-- Migrations that are numbered on from the version bring it up by one each. -/
theorem Rising.foldl {p : Progress} (h : p.Rising) {ms : List Migration}
    (untouched : ∀ m ∈ ms, ∀ db, (m db).version = db.version) {n : Nat}
    (at_n : p.database.version = n) :
    ((ms.zipIdx (n + 1)).foldl Progress.run p).Rising ∧
      ((ms.zipIdx (n + 1)).foldl Progress.run p).database.version = (n + ms.length : Nat) := by
  induction ms generalizing p n with
  | nil => exact ⟨h, at_n⟩
  | cons m ms ih =>
    have first : (p.run (m, n + 1)).Rising := h.run (untouched m List.mem_cons_self) (by omega)
    have rest := ih first (fun m hm => untouched m (List.mem_cons_of_mem _ hm)) rfl
    rwa [List.zipIdx_cons, List.foldl_cons, List.length_cons, show n + (ms.length + 1) =
      n + 1 + ms.length by omega]

/-- After a call, another one finds nothing to do. -/
theorem call_call {p : Progress} {ms : List Migration}
    (done : (ms.length : Int) ≤ (p.call ms).database.version) :
    (p.call ms).call ms = p.call ms := by
  obtain ⟨n, hn⟩ := Int.eq_ofNat_of_zero_le (Int.le_trans (Int.natCast_nonneg _) done)
  rw [call_eq ms (p.call ms), hn, pending_eq_nil (by omega), List.foldl_nil]

end Progress

-- ---------------------------------------------------------------------------
-- The tables
-- ---------------------------------------------------------------------------

/-- A table is as it was, or it is new and empty. -/
def Kept (empty : α) (before after : Option α) : Prop :=
  after = before ∨ before = none ∧ after = some empty

theorem kept_getD (empty : α) (table : Option α) :
    Kept empty table (some (table.getD empty)) := by
  cases table with
  | none => exact .inr ⟨rfl, rfl⟩
  | some t => exact .inl rfl

theorem Kept.trans {empty : α} {a b c : Option α} (h : Kept empty a b) (h' : Kept empty b c) :
    Kept empty a c := by
  rcases h with rfl | ⟨rfl, rfl⟩
  · exact h'
  · rcases h' with rfl | ⟨h', -⟩
    · exact .inr ⟨rfl, rfl⟩
    · cases h'

/-- The tables of reports and of the audit trail are kept. -/
structure TablesKept (before after : Database) : Prop where
  reports : Kept {} before.reports after.reports
  audit : Kept {} before.audit after.audit

theorem TablesKept.refl (db : Database) : TablesKept db db := ⟨.inl rfl, .inl rfl⟩

theorem TablesKept.trans {a b c : Database} (h : TablesKept a b) (h' : TablesKept b c) :
    TablesKept a c :=
  ⟨h.reports.trans h'.reports, h.audit.trans h'.audit⟩

theorem TablesKept.foldl {l : List (Migration × Nat)}
    (each : ∀ m ∈ l, ∀ db, TablesKept db (m.1 db)) (db : Database) :
    TablesKept db (l.foldl runMigration db) := by
  induction l generalizing db with
  | nil => exact .refl db
  | cons m l ih =>
    have first := each m List.mem_cons_self db
    have numbered : TablesKept db (runMigration db m) := ⟨first.reports, first.audit⟩
    exact numbered.trans (ih (fun m hm => each m (List.mem_cons_of_mem _ hm)) _)

/-- Migrations keep the tables if each of them does. -/
theorem TablesKept.migrate {ms : List Migration} (each : ∀ m ∈ ms, ∀ db, TablesKept db (m db))
    (db : Database) : TablesKept db (migrate ms db) :=
  .foldl (fun m hm => each m.1 (List.fst_mem_of_mem_zipIdx (List.mem_filter.mp hm).1)) db

theorem tablesKept_createTables (db : Database) : TablesKept db (createTables db) :=
  ⟨kept_getD {} db.reports, kept_getD {} db.audit⟩

theorem tablesKept_migrations (db : Database) : TablesKept db (migrate migrations db) :=
  .migrate (fun _ hm => List.mem_singleton.mp hm ▸ tablesKept_createTables) db

theorem tablesKept_iterate (k : Nat) (db : Database) :
    TablesKept db ((Store.migrate migrations)^[k] db) := by
  induction k with
  | zero => exact .refl db
  | succ k ih => exact Function.iterate_succ_apply' _ k db ▸ ih.trans (tablesKept_migrations _)

-- ---------------------------------------------------------------------------
-- Calls in a row
-- ---------------------------------------------------------------------------

/-- Any number of calls in a row run the migrations above the version that the first of them
found, each once and in order, and all of them in that call. The version ends at the number of
migrations, unless it was above, and it never falls; the migrations that there are keep the
tables of reports and of the audit trail. -/
theorem migrations_run_once (ms : List Migration)
    (untouched : ∀ m ∈ ms, ∀ db, (m db).version = db.version) (db : Database)
    (found : 0 ≤ db.version) (k : Nat) :
    let p := (Progress.call ms)^[k + 1] (.start db)
    p.ran = (ms.drop db.version.toNat).zipIdx (db.version.toNat + 1) ∧
      p = Progress.call ms (.start db) ∧ p.database = (migrate ms)^[k + 1] db ∧
      p.database.version = max db.version ms.length ∧ p.versions.Pairwise (· ≤ ·) ∧
      TablesKept db ((migrate migrations)^[k + 1] db) := by
  obtain ⟨n, hn⟩ := Int.eq_ofNat_of_zero_le found
  have first : Progress.call ms (.start db) =
      ((ms.drop n).zipIdx (n + 1)).foldl Progress.run (.start db) := by
    rw [Progress.call_eq, ← pending_eq, ← hn]
    rfl
  obtain ⟨rising, version⟩ := (Progress.rising_start db).foldl
    (fun m hm => untouched m (List.mem_of_mem_drop hm)) hn
  rw [← first] at rising version
  have version : (Progress.call ms (.start db)).database.version = max db.version ms.length := by
    rw [version, List.length_drop, hn]
    omega
  have again : (Progress.call ms)^[k + 1] (.start db) = Progress.call ms (.start db) := by
    rw [Function.iterate_succ_apply]
    exact Function.iterate_fixed (Progress.call_call (version ▸ Int.le_max_right ..)) k
  have database : Function.Semiconj Progress.database (Progress.call ms) (migrate ms) :=
    Progress.database_call ms
  refine ⟨?_, again, database.iterate_right (k + 1) (.start db), again ▸ version,
    again ▸ rising.sorted, tablesKept_iterate (k + 1) db⟩
  rw [again, first, Progress.ran_foldl_run, hn]
  rfl

/-- Three migrations, the first of which the database has seen; called three times. -/
theorem migrations_run_once_seen :
    let ms := [createTables, id, fun db => { db with audit := none }]
    let p := (Progress.call ms)^[3] (.start { version := 1, audit := some {} })
    p.ran.map (·.2) = [2, 3] ∧ p.database.version = 3 ∧ p.versions.Pairwise (· ≤ ·) := by
  have untouched : ∀ m ∈ [createTables, id, fun db => { db with audit := none }],
      ∀ db : Database, (m db).version = db.version := by
    simp [createTables]
  obtain ⟨ran, -, -, version, sorted, -⟩ :=
    migrations_run_once _ untouched { version := 1, audit := some {} } (by decide) 2
  exact ⟨congrArg (List.map (·.2)) ran, version, sorted⟩

end SafeReports.Store
