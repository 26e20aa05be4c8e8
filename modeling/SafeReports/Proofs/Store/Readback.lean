import SafeReports.Proofs.Store.Refusal

/-!
# Reading back what was saved

A saved report is handed back as it is stored, with one exception: the store keeps
the time of creation of a report that is changed, and its owner is handed back the
one that came with it.
-/

namespace SafeReports

open Decimal (fitsWord)

-- ---------------------------------------------------------------------------
-- Equal reports
-- ---------------------------------------------------------------------------

/-- What is compared of times: one with an offset is never the same as one without. -/
def Timestamp.instant (t : Timestamp) : Bool × Int := (t.offset.isSome, t.epochMicros)

/-- Reports are equal when all their fields are. -/
structure Report.Agrees (r r' : Report) : Prop where
  id : r.id = r'.id
  name : r.name = r'.name
  query : r.query = r'.query
  createdAt : r.createdAt.map Timestamp.instant = r'.createdAt.map Timestamp.instant
  updatedAt : r.updatedAt.map Timestamp.instant = r'.updatedAt.map Timestamp.instant

theorem Report.agrees_createdAt_iff {r : Report} : Agrees { r with createdAt := created } r ↔
    created.map Timestamp.instant = r.createdAt.map Timestamp.instant :=
  ⟨Agrees.createdAt, fun h => ⟨rfl, rfl, rfl, h, rfl⟩⟩

namespace Store

-- ---------------------------------------------------------------------------
-- Report tables
-- ---------------------------------------------------------------------------

/-- The ids of the rows were given, and their times of creation can be read. -/
structure Legible (t : ReportTable) : Prop where
  below : ∀ row ∈ t.rows, row.id < t.nextId
  created : ∀ row ∈ t.rows, ∃ time : Timestamp, row.createdAt = time.text

section
variable {t t' : ReportTable} {query : String} {time : Timestamp}

theorem legible_empty : Legible {} := ⟨nofun, nofun⟩

theorem Legible.insert (h : Legible t) (name query : String) (time : Timestamp) :
    Legible (t.insert name query time) := by
  constructor
  · intro row hr
    rcases List.mem_append.mp hr with hr | hr
    · exact Int.lt_add_one_of_le (Int.le_of_lt (h.below row hr))
    · obtain rfl := List.mem_singleton.mp hr
      exact Int.lt_succ _
  · intro row hr
    rcases List.mem_append.mp hr with hr | hr
    · exact h.created row hr
    · obtain rfl := List.mem_singleton.mp hr
      exact ⟨time, rfl⟩

theorem Legible.update (h : Legible t) (id : Int) (name query : String) (time : Timestamp) :
    Legible (t.update id name query time) := by
  have kept : ∀ row ∈ (t.update id name query time).rows,
      ∃ row' ∈ t.rows, row.id = row'.id ∧ row.createdAt = row'.createdAt := by
    intro row hr
    obtain ⟨row', hr', rfl⟩ := List.mem_map.mp hr
    refine ⟨row', hr', ?_⟩
    split
    · exact ⟨rfl, rfl⟩
    · exact ⟨rfl, rfl⟩
  constructor
  · intro row hr
    obtain ⟨row', hr', hid, -⟩ := kept row hr
    rw [hid]
    exact h.below row' hr'
  · intro row hr
    obtain ⟨row', hr', -, hc⟩ := kept row hr
    rw [hc]
    exact h.created row' hr'

theorem Legible.erase (h : Legible t) (id : Int) : Legible (t.erase id) :=
  ⟨fun row hr => h.below row (List.mem_filter.mp hr).1,
    fun row hr => h.created row (List.mem_filter.mp hr).1⟩

theorem Legible.written (h : Legible t) (hw : Writes t d query time d' t') : Legible t' := by
  cases hw with
  | new => exact h.insert _ _ _
  | old => exact h.update _ _ _ _

theorem Legible.find?_nextId (h : Legible t) : t.find? t.nextId = none := by
  refine List.find?_eq_none.mpr fun row hr he => ?_
  exact Int.ne_of_lt (h.below row hr) (by simpa using he)

theorem Legible.find?_insert (h : Legible t) (name query : String) (time : Timestamp) :
    (t.insert name query time).find? t.nextId =
      some ⟨t.nextId, name, query, time.text, time.text⟩ := by
  have old : t.rows.find? (·.id == t.nextId) = none := h.find?_nextId
  simp [ReportTable.find?, ReportTable.insert, List.find?_append, old]

theorem find?_update (t : ReportTable) (k id : Int) (name query : String) (time : Timestamp) :
    (t.update k name query time).find? id = (t.find? id).map fun row =>
      if id = k then ⟨k, name, query, row.createdAt, time.text⟩ else row := by
  have keeps : (fun row : ReportRow => row.id == id) ∘ (fun row => if row.id = k then
      { row with name := name, query := query, updatedAt := time.text } else row) =
        fun row => row.id == id := by
    funext row
    dsimp only [Function.comp]
    split <;> rfl
  rw [ReportTable.find?, ReportTable.update, List.find?_map, keeps]
  refine Option.map_congr fun row hr => ?_
  obtain rfl : row.id = id := by simpa using List.find?_some hr
  split
  · rename_i hk
    rw [hk]
  · rfl

end

-- ---------------------------------------------------------------------------
-- Stores on a new database
-- ---------------------------------------------------------------------------

/-- What a store on a new database comes to be, whatever is saved, deleted or
configured, and the stores that are opened on its database. -/
inductive Grown : Store → Prop
  | created (config : Config) (guard : Option Sql.Guard) (executor : Option Engine.Executor)
      (session : Engine.Session) (clock : Nat → Timestamp) :
      Grown (create (migrate migrations {}) config guard executor session clock)
  | opened {st : Store} (h : Grown st) (config : Config) (guard : Option Sql.Guard)
      (executor : Option Engine.Executor) (session : Engine.Session) (clock : Nat → Timestamp) :
      Grown (create st.database config guard executor session clock)
  | saved {st : Store} (h : Grown st) (d : Draft) : Grown (st.save d).store
  | deleted {st : Store} (h : Grown st) (id : Json) : Grown (st.delete id).2
  | configured {st : Store} (h : Grown st) (field : String) (value : Json) :
      Grown { st with policy := st.policy.set field value }
  | elsewhere {st : Store} (h : Grown st) (session : Engine.Session) :
      Grown { st with session := session }

structure Sound (db : Database) : Prop where
  complete : Complete db
  legible : ∀ t, db.reports = some t → Legible t

theorem save_writes {st : Store} {d : Draft} (complete : Complete st.database)
    (saved : (st.save d).result = .ok ()) :
    ∃ text t t', d.query = .str text ∧ st.database.reports = some t ∧
      Writes t { d with query := .str (String.ofList (Sql.stored text.toList)) }
        (String.ofList (Sql.stored text.toList)) (st.clock st.ticks) (st.save d).draft t' ∧
      (st.save d).store.database.reports = some t' ∧
      ∀ trail, st.database.audit = some trail → ∃ time, (st.save d).store.database.audit =
        some (trail.append (.saved (st.save d).draft.id (st.save d).draft.name) time) := by
  obtain ⟨trail, trails⟩ := Option.isSome_iff_exists.mp complete.audit
  obtain ⟨t, reports⟩ := Option.isSome_iff_exists.mp complete.reports
  have unfailed : ∀ f, ¬ st.Fails d f := by
    intro f hf
    simp [(save_fails trails hf).1] at saved
  rcases st.refuses_or_passes d.query with ⟨f, hf⟩ | ⟨text, passes, clears⟩
  · exact absurd (.refused hf) (unfailed f)
  rcases unwritable_or_writable t d.id d.name with ⟨f, hf⟩ | writable
  · exact absurd (.unwritable passes clears reports hf) (unfailed f)
  obtain ⟨s, log, ha⟩ := accept_passed passes clears d.name
  have kept : (now { st with session := s }).2.database.reports = some t := reports
  obtain ⟨d', t', hp⟩ := persist_writable
    (d := { d with query := .str (String.ofList (Sql.stored text.toList)) })
    (String.ofList (Sql.stored text.toList)) (st.clock st.ticks) kept writable
  obtain ⟨t₀, t₁, h₀, hw, h₁⟩ := persist_writes hp
  obtain rfl : t = t₀ := Option.some.inj (kept.symm.trans h₀)
  obtain rfl : t' = t₁ := Option.some.inj (congrArg (·.database.reports) h₁)
  obtain ⟨-, hdraft, hstore⟩ := save_written ha hp complete.audit
  refine ⟨text, t, t', passes.isText, reports, ?_, ?_, fun trail' trails' => ?_⟩
  · rw [hdraft]
    exact hw
  · rw [hstore, (keeps_record _ _).reports]
    rfl
  · have kept : ((now { st with session := s }).2.withReports t').database.audit = some trail' :=
      trails'
    rw [hstore, hdraft]
    exact ⟨_, congrArg Database.audit (record_noting kept _)⟩

theorem Sound.save {st : Store} (h : Sound st.database) (d : Draft) :
    Sound (st.save d).store.database := by
  rcases save_cases h.complete d with ⟨f, hf⟩ | ⟨saved, complete⟩
  · obtain ⟨trail, trails⟩ := Option.isSome_iff_exists.mp h.complete.audit
    rw [(save_fails trails hf).2]
    exact ⟨⟨h.complete.reports, rfl⟩, h.legible⟩
  · obtain ⟨text, t, t', -, reports, hw, reports', -⟩ := save_writes h.complete saved
    refine ⟨complete, fun t'' h'' => ?_⟩
    obtain rfl := Option.some.inj (reports'.symm.trans h'')
    exact (h.legible t reports).written hw

theorem Sound.delete {st : Store} (h : Sound st.database) (id : Json) :
    Sound (st.delete id).2.database := by
  rcases delete_cases h.complete id with ⟨f, hf⟩ | ⟨-, complete⟩
  · rw [hf]
    exact h
  · refine ⟨complete, fun t' ht' => ?_⟩
    obtain ⟨t, reports⟩ := Option.isSome_iff_exists.mp h.complete.reports
    simp only [Store.delete, reportTable, reports] at ht'
    split at ht'
    · exact h.legible t' ht'
    · split at ht'
      · exact h.legible t' ht'
      · rw [(keeps_record _ _).reports] at ht'
        obtain rfl := Option.some.inj ht'
        exact (h.legible t reports).erase _

theorem Grown.sound {st : Store} (h : Grown st) : Sound st.database := by
  induction h with
  | created =>
    refine ⟨complete_migrate, fun t ht => ?_⟩
    obtain rfl := Option.some.inj ht
    exact legible_empty
  | opened _ _ _ _ _ _ ih => exact ih
  | saved _ d ih => exact ih.save d
  | deleted _ id ih => exact ih.delete id
  | configured _ _ _ ih => exact ih
  | elsewhere _ _ ih => exact ih

-- ---------------------------------------------------------------------------
-- Reading back
-- ---------------------------------------------------------------------------

/-- The time of creation that is kept of a report. -/
def createdAt? (st : Store) (id : Int) : Option Timestamp :=
  (st.database.reports.bind (·.find? id)).bind fun row => Timestamp.ofText? row.createdAt

section
variable {st : Store} {t t' : ReportTable} {r read : Report} {d' : Draft} {id : Int}

theorem createdAt?_eq_none (reports : st.database.reports = some t) (hn : t.find? id = none) :
    st.createdAt? id = none := by
  rw [createdAt?, reports, Option.bind_some, hn, Option.bind_none]

theorem createdAt?_eq_some {created : Timestamp} (reports : st.database.reports = some t)
    (hr : t.find? id = some row) (hc : row.createdAt = created.text) :
    st.createdAt? id = some created := by
  rw [createdAt?, reports, Option.bind_some, hr, Option.bind_some, hc, Timestamp.ofText?_text]

theorem get_eq_ok_iff {e : Entry} (reports : st.database.reports = some t)
    (hr : t.find? id = some (e.row id)) :
    st.get (.int id) = .ok read ↔ fitsWord id = true ∧ read = e.report id := by
  have table : st.reportTable = .ok t := by rw [reportTable, reports]
  cases fits : fitsWord id with
  | false =>
    refine iff_of_false ?_ fun h => Bool.false_ne_true h.1
    simp [get, table, keyOf, fits, bound, bind, Except.bind]
  | true =>
    simp only [get, table, bound_key fits, bind, Except.bind, Option.bind_some, hr, e.load_row,
      Except.ok.injEq, true_and, eq_comm]

theorem id_of_null (new : (Draft.ofReport r).id = .null) : r.id = none := by
  cases hid : r.id with
  | none => rfl
  | some i => simp [Draft.ofReport, hid] at new

theorem id_of_key (old : (Draft.ofReport r).id ≠ .null)
    (key : keyOf 4 (Draft.ofReport r).id = .ok (some id)) : r.id = some id := by
  rw [Draft.ofReport] at old key
  cases hid : r.id with
  | none => simp [hid] at old
  | some i =>
    simp only [hid, Option.map_some, Option.getD_some, keyOf] at key
    split at key
    · exact Except.ok.inj key
    · cases key

/-- A report that is written, as its owner has it then and as its row has it. -/
theorem written_row (legible : Legible t) (reports : st.database.reports = some t)
    (built : r.IsBuilt)
    (hw : Writes t { Draft.ofReport r with query := .str query } query time d' t') :
    ∃ (id : Int) (returned : Report) (e : Entry), d' = .ofReport returned ∧
      t'.find? id = some (e.row id) ∧ returned.id = some id ∧
      e.report id = { returned with createdAt := (st.createdAt? id).or returned.createdAt } ∧
      (r.id = none ∧ st.createdAt? id = none ∨
        r.id = some id ∧ (st.createdAt? id).isSome = true ∧ returned.createdAt = r.createdAt) := by
  cases hw with
  | @new n new text =>
    obtain rfl : r.name = n := Option.some.inj (Except.ok.inj text)
    -- No row has the next id yet.
    have unkept := createdAt?_eq_none reports legible.find?_nextId
    refine ⟨t.nextId, ⟨some t.nextId, r.name, query, some time, some time⟩,
      ⟨nameOf r built, query, time, time⟩, rfl, legible.find?_insert _ _ _, rfl, ?_,
      .inl ⟨id_of_null new, unkept⟩⟩
    rw [unkept, Option.none_or]
    rfl
  | @old n k old text key there =>
    obtain rfl : r.name = n := Option.some.inj (Except.ok.inj text)
    have hid : r.id = some k := id_of_key old key
    rw [ReportTable.has, ← List.isSome_find?] at there
    obtain ⟨row, hr⟩ := Option.isSome_iff_exists.mp there
    obtain ⟨created, hc⟩ := legible.created row (List.mem_of_find?_eq_some hr)
    have kept := createdAt?_eq_some reports hr hc
    refine ⟨k, { r with query := query, updatedAt := some time },
      ⟨nameOf r built, query, created, time⟩, rfl, ?_, hid, ?_, .inr ⟨hid, by rw [kept]; rfl, rfl⟩⟩
    · have hf : t.find? k = some row := hr
      rw [find?_update, hf, Option.map_some, if_pos rfl, hc]
      rfl
    · rw [kept, Option.some_or, hid]
      rfl

end

/-- What a save returns is read back, except that the time of creation that was kept
before comes in place of the one that is returned. Both reports are equal when the
report is new or came with the time of creation that is kept. -/
theorem saved_reads_back {st : Store} (grown : Grown st) {r : Report} (built : r.IsBuilt)
    (saved : (st.save (.ofReport r)).result = .ok ()) :
    ∃ id returned, (st.save (.ofReport r)).draft = .ofReport returned ∧ returned.id = some id ∧
      (∀ read, (st.save (.ofReport r)).store.get (.int id) = .ok read ↔ fitsWord id = true ∧
        read = { returned with createdAt := (st.createdAt? id).or returned.createdAt }) ∧
      ((∃ read, (st.save (.ofReport r)).store.get (.int id) = .ok read ∧ read.Agrees returned) ↔
        fitsWord id = true ∧ (r.id = none ∨
          (st.createdAt? id).map Timestamp.instant = r.createdAt.map Timestamp.instant)) := by
  obtain ⟨complete, legible⟩ := grown.sound
  obtain ⟨text, t, t', isText, reports, hw, reports', -⟩ := save_writes complete saved
  obtain ⟨id, returned, e, hd, hr, hid, he, whose⟩ :=
    written_row (legible t reports) reports built hw
  have read_iff : ∀ read, (st.save (.ofReport r)).store.get (.int id) = .ok read ↔
      fitsWord id = true ∧
        read = { returned with createdAt := (st.createdAt? id).or returned.createdAt } := by
    intro read
    rw [get_eq_ok_iff reports' hr, he]
  have agrees_iff : ((st.createdAt? id).or returned.createdAt).map Timestamp.instant =
      returned.createdAt.map Timestamp.instant ↔ r.id = none ∨
        (st.createdAt? id).map Timestamp.instant = r.createdAt.map Timestamp.instant := by
    rcases whose with ⟨new, unkept⟩ | ⟨old, kept, own⟩
    · rw [unkept, Option.none_or]
      exact iff_of_true rfl (.inl new)
    · obtain ⟨created, hc⟩ := Option.isSome_iff_exists.mp kept
      rw [hc, Option.some_or, own, old, or_iff_right (Option.some_ne_none id)]
  refine ⟨id, returned, hd, hid, read_iff, ?_⟩
  rw [← agrees_iff, ← Report.agrees_createdAt_iff]
  constructor
  · rintro ⟨read, hread, agrees⟩
    obtain ⟨fits, rfl⟩ := (read_iff read).mp hread
    exact ⟨fits, agrees⟩
  · rintro ⟨fits, agrees⟩
    exact ⟨_, (read_iff _).mpr ⟨fits, rfl⟩, agrees⟩

def keeping : Store := (fresh.save (.ofReport orders)).store

def renamed (created : Option Timestamp) : Report :=
  ⟨some 1, "Invoices", "SELECT 1", created, none⟩

theorem grown_keeping : Grown keeping := .saved (.created _ _ _ _ _) _

theorem saved_reads_back_renamed :
    Grown keeping ∧ (renamed (some .epoch)).IsBuilt ∧
      (keeping.save (.ofReport (renamed (some .epoch)))).result = .ok () ∧
      ∃ returned read,
        (keeping.save (.ofReport (renamed (some .epoch)))).draft = .ofReport returned ∧
        (keeping.save (.ofReport (renamed (some .epoch)))).store.get (.int 1) = .ok read ∧
          read.Agrees returned := by
  have built : (renamed (some .epoch)).IsBuilt :=
    ⟨[("report_id", .int 1), ("report_name", .str "Invoices"),
      ("query_definition", .str "SELECT 1"), ("created_at", .str "1970-01-01T00:00:00Z")], rfl⟩
  have saved : (keeping.save (.ofReport (renamed (some .epoch)))).result = .ok () := rfl
  obtain ⟨id, returned, told, hid, -, agrees⟩ := saved_reads_back grown_keeping built saved
  have same : (Draft.ofReport returned).id = .int 1 := congrArg Draft.id told.symm
  obtain rfl : id = 1 := by simpa [Draft.ofReport, hid] using same
  obtain ⟨read, hread, agrees⟩ := agrees.mpr (by decide +kernel)
  exact ⟨grown_keeping, built, saved, returned, read, told, hread, agrees⟩

/-- Without a time of creation none is returned, and another is kept. -/
theorem creation_not_returned :
    Grown keeping ∧ (renamed none).IsBuilt ∧
      (keeping.save (.ofReport (renamed none))).result = .ok () ∧
      ∃ returned read, (keeping.save (.ofReport (renamed none))).draft = .ofReport returned ∧
        (keeping.save (.ofReport (renamed none))).store.get (.int 1) = .ok read ∧
          ¬ read.Agrees returned := by
  have built : (renamed none).IsBuilt :=
    ⟨[("report_id", .int 1), ("report_name", .str "Invoices"),
      ("query_definition", .str "SELECT 1")], rfl⟩
  refine ⟨grown_keeping, built, rfl, ⟨some 1, "Invoices", "SELECT 1", none, some .epoch⟩,
    ⟨some 1, "Invoices", "SELECT 1", some .epoch, some .epoch⟩, rfl, rfl, fun h => ?_⟩
  exact absurd h.createdAt (by decide)

end Store

end SafeReports
