import SafeReports.Store.Disk.File

/-!
# Migrating on disk

A connection that has its database to itself migrates it on disk as the database is migrated:
no step fails, and each version is set as long as it has 32 bits.
-/

namespace SafeReports.Store

namespace Disk

open DiskM

-- ---------------------------------------------------------------------------
-- One connection
-- ---------------------------------------------------------------------------

/-- With a connection under its number. -/
def put (disk : Disk) (n : Nat) (c : Connection) : Disk :=
  { disk with connections := (n, c) :: disk.connections.filter (·.1 != n) }

theorem run_setConnection (n : Nat) (c : Connection) (disk : Disk) :
    run (setConnection n c) disk = (.ok ⟨⟩, disk.put n c) := rfl

/-- A place where a database can be kept. -/
def HasRoom (disk : Disk) : Place → Prop
  | .memory m => m < disk.memory.length
  | .file f _ => f < disk.tree.contents.length

theorem committed_setCommitted {disk : Disk} {place : Place} (room : disk.HasRoom place)
    (db : Database) : (disk.setCommitted db place).committed place = .ok db := by
  cases place with
  | memory m => simp [committed, setCommitted, List.getElem?_set_self room]
  | file f path =>
    simp [committed, setCommitted, FileTree.content?, FileTree.setContent,
      List.getElem?_set_self room]

theorem connections_setCommitted (disk : Disk) (db : Database) (place : Place) :
    (disk.setCommitted db place).connections = disk.connections := by
  cases place <;> rfl

/-- A connection that is the only one to its place, and sees the database. -/
structure Sole (disk : Disk) (n : Nat) (c : Connection) (db : Database) : Prop where
  found : disk.connections.lookup n = some c
  others : ∀ m ∈ disk.connections, m.1 ≠ n → m.2.place ≠ c.place
  room : disk.HasRoom c.place
  sees : (c.working?.map .ok).getD (disk.committed c.place) = .ok db

namespace Sole

variable {disk : Disk} {n : Nat} {c c' : Connection} {db db' : Database}

theorem run_connection (h : disk.Sole n c db) : run (connection n) disk = (.ok c, disk) := by
  rw [connection, run_bind, run_get]
  simp only [h.found]
  rfl

theorem run_anyOther (h : disk.Sole n c db) (state : Connection → Bool) :
    run (anyOther n state) disk = (.ok false, disk) := by
  have none : (disk.connections.any fun m =>
      m.1 != n && m.2.place == c.place && state m.2) = false := by
    refine List.any_eq_false.mpr fun m hm => ?_
    by_cases same : m.1 = n
    · simp [same]
    · simp [h.others m hm same]
  rw [anyOther, run_bind, h.run_connection]
  simp only [run_bind, run_get]
  exact congrArg (fun some => (Except.ok some, disk)) none

theorem run_view (h : disk.Sole n c db) : run (view n) disk = (.ok db, disk) := by
  have sees := h.sees
  rw [view, run_bind, h.run_connection]
  cases hw : c.working? with
  | some d =>
    rw [hw] at sees
    cases sees
    simp only [hw, run_pure]
  | none =>
    rw [hw] at sees
    simp only [hw, run_bind, run_get]
    exact congrArg (fun r => run (ofExcept r) disk) sees

theorem put (h : disk.Sole n c db) (place : c'.place = c.place)
    (sees : (c'.working?.map .ok).getD (disk.committed c.place) = .ok db') :
    (disk.put n c').Sole n c' db' where
  found := by simp [Disk.put]
  others m hm other := by
    rw [place]
    rcases List.mem_cons.mp hm with rfl | hm
    · exact absurd rfl other
    · exact h.others m (List.mem_filter.mp hm).1 other
  room := by rw [place]; cases hp : c.place <;> exact hp ▸ h.room
  sees := by rw [place]; cases hp : c.place <;> exact hp ▸ sees

-- ---------------------------------------------------------------------------
-- Transactions
-- ---------------------------------------------------------------------------

theorem run_write (h : disk.Sole n c db) (db' : Database) (changed : Bool) :
    run (write n db' changed) disk = (.ok ⟨⟩, disk.put n (c.write db' changed)) := by
  rw [write, run_bind, h.run_anyOther]
  simp only [Bool.false_eq_true, if_false, run_bind, h.run_connection, run_setConnection]

theorem store (h : disk.Sole n c db) (working : c.working? = some db) :
    (disk.setCommitted db c.place).Sole n c db where
  found := connections_setCommitted disk db c.place ▸ h.found
  others := connections_setCommitted disk db c.place ▸ h.others
  room := by
    cases hp : c.place with
    | memory m => simpa [HasRoom, setCommitted, hp] using h.room
    | file f path => simpa [HasRoom, setCommitted, hp, FileTree.setContent] using h.room
  sees := by rw [working]; rfl

theorem working_of_isChanged (h : disk.Sole n c db) (changed : c.isChanged = true) :
    c.working? = some db := by
  have sees := h.sees
  rw [Connection.isChanged] at changed
  rw [Connection.working?] at sees ⊢
  split at changed
  · next d _ _ transaction =>
    rw [transaction] at sees
    cases sees
    rfl
  · cases changed

/-- A commit keeps the changes, and ends the transaction. -/
theorem run_commit (h : disk.Sole n c db) (ready : c.isChanged = true ∨ c.transaction = none) :
    ∃ after, run (commit n) disk = (.ok ⟨⟩, after) ∧ after.Sole n c.endTransaction db := by
  cases changed : c.isChanged with
  | false =>
    have idle := ready.resolve_left (by simp [changed])
    have sees := h.sees
    rw [Connection.working?, idle] at sees
    refine ⟨disk.put n c.endTransaction, ?_, h.put rfl sees⟩
    rw [commit, run_bind, h.run_connection]
    simp [changed, run_setConnection]
  | true =>
    have working := h.working_of_isChanged changed
    refine ⟨(disk.setCommitted db c.place).put n c.endTransaction, ?_,
      (h.store working).put rfl (committed_setCommitted h.room db)⟩
    rw [commit, run_bind, h.run_connection]
    simp only [changed, if_true, run_bind, h.run_anyOther, working]
    rfl

/-- A change is committed, or is in a transaction that can be. -/
theorem run_change (h : disk.Sole n c db) (f : Database → Database) :
    ∃ after c', run (change n fun db => .ok (f db)) disk = (.ok ⟨⟩, after) ∧
      after.Sole n c' (f db) ∧ (c'.isChanged = true ∨ c'.transaction = none) := by
  have written : (disk.put n (c.write (f db) true)).Sole n (c.write (f db) true) (f db) :=
    h.put rfl rfl
  have changed : (c.write (f db) true).isChanged = true := by
    simp [Connection.write, Connection.isChanged]
  obtain ⟨after, done, sole⟩ := written.run_commit (.inl changed)
  have viewed : run (ofExcept (.ok (f db) : Except DiskError Database)) disk =
      (.ok (f db), disk) := rfl
  cases alone : c.transaction.isNone with
  | true =>
    refine ⟨after, _, ?_, sole, .inr rfl⟩
    rw [change, run_bind, h.run_connection]
    simp only [run_bind, h.run_view, viewed, h.run_write, alone, if_true, run_tryCatch, done]
  | false =>
    refine ⟨_, _, ?_, written, .inl changed⟩
    rw [change, run_bind, h.run_connection]
    simp only [run_bind, h.run_view, viewed, h.run_write, alone, Bool.false_eq_true, if_false]
    rfl

theorem run_setVersion (h : disk.Sole n c db) {version : Int}
    (fits : versionOf version = version) :
    ∃ after c', run (setVersion n version) disk = (.ok ⟨⟩, after) ∧
      after.Sole n c' { db with version := version } ∧
        (c'.isChanged = true ∨ c'.transaction = none) := by
  rw [setVersion, fits]
  exact h.run_change fun db => { db with version := version }

theorem run_read (h : disk.Sole n c db) :
    run (read n) disk = (.ok db, disk.put n c.read) ∧ (disk.put n c.read).Sole n c.read db := by
  constructor
  · rw [read, run_bind, h.run_connection]
    simp only [run_bind, h.run_anyOther, Bool.and_false, Bool.false_eq_true, if_false, h.run_view]
    rfl
  · have same : c.read.place = c.place ∧ c.read.working? = c.working? := by
      rw [Connection.read, Connection.working?, Connection.working?]
      split
      · next begun => simp [begun]
      · exact ⟨rfl, rfl⟩
    exact h.put same.1 (same.2 ▸ h.sees)

end Sole

-- ---------------------------------------------------------------------------
-- Migrations
-- ---------------------------------------------------------------------------

theorem Sole.run_applyMigration (h : disk.Sole n c db) {m : Migration × Nat}
    (fits : versionOf m.2 = m.2) :
    ∃ after c', run (applyMigration n m) disk = (.ok ⟨⟩, after) ∧
      after.Sole n c' (runMigration db m) ∧ c'.transaction = none := by
  obtain ⟨d₁, c₁, migrated, s₁, ready₁⟩ := h.run_change m.1
  obtain ⟨d₂, kept, s₂⟩ := s₁.run_commit ready₁
  obtain ⟨d₃, c₃, numbered, s₃, ready₃⟩ := s₂.run_setVersion fits
  obtain ⟨d₄, done, s₄⟩ := s₃.run_commit ready₃
  refine ⟨d₄, _, ?_, s₄, rfl⟩
  rw [applyMigration, run_bind, migrated]
  simp only [run_bind, kept, numbered, done]

theorem Sole.run_forIn (h : disk.Sole n c db) {l : List (Migration × Nat)}
    (fit : ∀ m ∈ l, versionOf m.2 = m.2) :
    ∃ after c', run (forIn l ⟨⟩ fun m _ => do applyMigration n m; return .yield ⟨⟩) disk =
        (.ok (⟨⟩ : PUnit), after) ∧
      after.Sole n c' (l.foldl runMigration db) ∧
        (l ≠ [] ∨ c.transaction = none → c'.transaction = none) := by
  induction l generalizing disk c db with
  | nil => exact ⟨disk, c, rfl, h, fun idle => idle.resolve_left (absurd rfl)⟩
  | cons m l ih =>
    obtain ⟨d₁, c₁, first, s₁, idle⟩ := h.run_applyMigration (fit m List.mem_cons_self)
    obtain ⟨d₂, c₂, rest, s₂, still⟩ := ih s₁ fun m hm => fit m (List.mem_cons_of_mem _ hm)
    refine ⟨d₂, c₂, ?_, s₂, fun _ => still (.inr idle)⟩
    rw [List.forIn_cons, run_bind, run_bind, first]
    exact rest

theorem versionOf_pending {ms : List Migration} (short : ms.length < 2147483648) {version : Int} :
    ∀ m ∈ pending ms version, versionOf m.2 = m.2 := by
  intro m hm
  have number := List.mem_zipIdx (List.mem_filter.mp hm).1
  rw [versionOf, if_pos (by omega)]

/-- A connection that has its database to itself applies migrations without fail, and the
database is then the migrated one. If there was a migration to run, it is committed. -/
theorem Sole.run_migrateWith (h : disk.Sole n c db) {ms : List Migration}
    (short : ms.length < 2147483648) :
    ∃ after c', run (migrateWith ms n) disk = (.ok ⟨⟩, after) ∧
      after.Sole n c' (Store.migrate ms db) ∧
        (pending ms db.version ≠ [] → after.committed c'.place = .ok (Store.migrate ms db)) := by
  obtain ⟨seen, sole⟩ := h.run_read
  obtain ⟨after, c', done, s, idle⟩ := sole.run_forIn (versionOf_pending short)
  refine ⟨after, c', ?_, s, fun some => ?_⟩
  · rw [migrateWith, run_bind, seen]
    simp only [run_bind, done]
    rfl
  · have sees := s.sees
    rwa [Connection.working?, idle (.inl some)] at sees

/-- A new database in memory has one connection. -/
example : (run connectMemory {}).2.Sole 0 ⟨.memory 0, [], none⟩ {} where
  found := rfl
  others _ hm other := absurd (List.mem_singleton.mp hm ▸ rfl) other
  room := Nat.zero_lt_one
  sees := rfl

end Disk

end SafeReports.Store
