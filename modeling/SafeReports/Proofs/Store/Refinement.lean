import SafeReports.Proofs.Store.Operation
import SafeReports.Store.Migration

/-!
# The store as a catalog

A store that represents a catalog answers any operations as the catalog does, and
represents what the catalog comes to be. A refused save leaves the reports alone,
and a saved one is read back from its row as it was written.
-/

namespace SafeReports.Store

open Decimal (fitsWord)

-- ---------------------------------------------------------------------------
-- What is left alone
-- ---------------------------------------------------------------------------

/-- The same reports, with the audit trail in place and the clock looked at no
less often. -/
structure Keeps (st st' : Store) : Prop where
  reports : st'.database.reports = st.database.reports
  audit : st'.database.audit.isSome = st.database.audit.isSome
  clock : st'.clock = st.clock
  ticks : st.ticks ≤ st'.ticks

theorem Keeps.refl (st : Store) : Keeps st st := ⟨rfl, rfl, rfl, Nat.le_refl _⟩

theorem Keeps.session (st : Store) (s : Engine.Session) : Keeps st { st with session := s } :=
  ⟨rfl, rfl, rfl, Nat.le_refl _⟩

theorem Keeps.trans (h : Keeps st st') (h' : Keeps st' st'') : Keeps st st'' :=
  ⟨h'.reports.trans h.reports, h'.audit.trans h.audit, h'.clock.trans h.clock,
    Nat.le_trans h.ticks h'.ticks⟩

theorem keeps_record (st : Store) (ev : AuditEvent) : Keeps st (st.record ev).2 := by
  simp only [record, now]
  cases h : st.database.audit with
  | none => exact ⟨rfl, rfl, rfl, Nat.le_succ _⟩
  | some t => exact ⟨rfl, by simp [h], rfl, Nat.le_succ _⟩

theorem record_ok {st : Store} (h : st.database.audit.isSome = true) (ev : AuditEvent) :
    (st.record ev).1 = .ok () := by
  obtain ⟨t, ht⟩ := Option.isSome_iff_exists.mp h
  simp [record, now, ht]

theorem keeps_refuse (st : Store) (ev : AuditEvent) (cause : Failure) :
    Keeps st (st.refuse ev cause : Except Failure α × Store).2 := by
  have h := st.keeps_record ev
  unfold refuse
  split <;> rename_i hr <;> rw [hr] at h <;> exact h

theorem refuse_error (st : Store) (ev : AuditEvent) (cause : Failure) (a : α) :
    (st.refuse ev cause).1 ≠ .ok a := by
  unfold refuse
  split <;> simp

/-- The verdict on a query: the store is kept, and when the query may be saved
only the session is another. -/
structure Judges (st : Store) (query : String)
    (o : Except Failure String × Store × List LogRecord) : Prop where
  keeps : Keeps st o.2.1
  passed : ∀ text, o.1 = .ok text → text = query ∧ ∃ s, o.2.1 = { st with session := s }

theorem judges_error {st st' : Store} (h : Keeps st st') (e : Failure) (log : List LogRecord) :
    Judges st query (.error e, st', log) :=
  ⟨h, nofun⟩

theorem judges_refuse {st st' : Store} (h : Keeps st st') (ev : AuditEvent) (cause : Failure)
    (log : List LogRecord) :
    Judges st query ((st'.refuse ev cause).1, (st'.refuse (α := String) ev cause).2, log) :=
  ⟨h.trans (st'.keeps_refuse ev cause), fun text ht => absurd ht (st'.refuse_error ev cause text)⟩

theorem judges_ok (st : Store) (s : Engine.Session) (query : String) (log : List LogRecord) :
    Judges st query (.ok query, { st with session := s }, log) :=
  ⟨.session st s, fun _ h => ⟨(Except.ok.inj h).symm, s, rfl⟩⟩

theorem judges_tryOut (st : Store) (name : Json) (query : String) (log : List LogRecord) :
    Judges st query
      ((st.tryOut name query).1, (st.tryOut name query).2.1,
        log ++ (st.tryOut name query).2.2) := by
  unfold tryOut
  split
  · exact judges_ok st st.session query _
  · rename_i e _
    split
    · have hs := Keeps.session st (e.check (some query) st.session).session
      dsimp only
      split
      · exact judges_ok st _ query _
      · exact judges_refuse hs _ _ _
      · exact judges_error hs _ _
    · exact judges_ok st st.session query _

theorem judges_accept (st : Store) (name : Json) (query : String) :
    Judges st query (st.accept name (.str query)) := by
  unfold accept
  split
  · split
    · exact judges_error (.refl st) _ _
    · exact judges_refuse (.refl st) _ _ _
    · dsimp only
      split
      · exact judges_refuse (.refl st) _ _ _
      · exact judges_tryOut st name query _
  · exact judges_error (.refl st) _ _

-- ---------------------------------------------------------------------------
-- The report table
-- ---------------------------------------------------------------------------

/-- The report table is that of the catalog, and there is an audit trail. -/
structure Represents (st : Store) (c : Catalog) : Prop where
  reports : st.database.reports = some c.table
  audit : st.database.audit.isSome = true

theorem Represents.of_keeps {st st' : Store} (h : st.Represents c) (hk : Keeps st st') :
    st'.Represents c :=
  ⟨hk.reports.trans h.reports, hk.audit.trans h.audit⟩

theorem Represents.withReports {st : Store} (h : st.Represents c) (c' : Catalog) :
    (st.withReports c'.table).Represents c' :=
  ⟨rfl, h.audit⟩

def written (r : Report) : Draft := { Draft.ofReport r with query := .str (storedText r) }

theorem written_new {r : Report} (h : r.id = none) : (written r).id = .null := by
  simp [written, Draft.ofReport, h]

theorem written_id {r : Report} {id : Int} (h : r.id = some id) : (written r).id = .int id := by
  simp [written, Draft.ofReport, h]

theorem persist_new {st : Store} (h : st.Represents c) {d : Draft} (new : d.id = .null)
    (name : ReportName) (named : d.name = .str name.text) (query : String) (time : Timestamp) :
    ∃ d', d'.id = .int (c.issued + 1) ∧ d'.name = d.name ∧ st.persist d query time =
      .ok (d', st.withReports (c.add ⟨name, query, time, time⟩).table) := by
  have hi : insertInto c.table (.str name.text) query time =
      .ok ((c.add ⟨name, query, time, time⟩).table, c.issued + 1) := by
    rw [← c.table_insert name]
    rfl
  refine ⟨{ d with
    id := .int (c.issued + 1), createdAt := .moment time, updatedAt := .moment time }, rfl, rfl, ?_⟩
  simp only [persist, h.reports, new, named, hi]

theorem bound_key {id : Int} (fits : fitsWord id = true) (parameter : Nat) :
    bound (keyOf parameter (.int id)) = .ok (some id) := by
  simp [keyOf, fits, bound]

theorem updateIn_table (c : Catalog) {id : Int} (fits : fitsWord id = true) (name : ReportName)
    (query : String) (time : Timestamp) :
    updateIn c.table (.int id) (.str name.text) query time =
      match c.entry id with
      | none => .error (unknown id)
      | some _ => .ok (c.change id fun e => e.revise name query time).table := by
  have hname : bound (columnText 1 (.str name.text)) = .ok (some name.text) := rfl
  simp only [updateIn, hname, bound_key fits, bind, Except.bind, c.table_has, c.table_update]
  cases c.entry id <;> rfl

theorem persist_old {st : Store} (h : st.Represents c) {d : Draft} {id : Int}
    (old : d.id = .int id) (fits : fitsWord id = true) (name : ReportName)
    (named : d.name = .str name.text) (query : String) (time : Timestamp) :
    st.persist d query time =
      match c.entry id with
      | none => .error (unknown id)
      | some _ => .ok ({ d with updatedAt := .moment time },
          st.withReports (c.change id fun e => e.revise name query time).table) := by
  have hu := updateIn_table c fits name query time
  simp only [persist, h.reports, old, named, hu]
  cases c.entry id <;> rfl

/-- What a draft becomes when it is written, and the table with it: it is a new row,
or it changes one. -/
inductive Writes (t : ReportTable) (d : Draft) (query : String) (time : Timestamp) :
    Draft → ReportTable → Prop
  | new (id : d.id = .null) (name : columnText 1 d.name = .ok (some n)) :
      Writes t d query time
        { d with id := .int t.nextId, createdAt := .moment time, updatedAt := .moment time }
        (t.insert n query time)
  | old (id : d.id ≠ .null) (name : columnText 1 d.name = .ok (some n))
      (key : keyOf 4 d.id = .ok (some k)) (there : t.has k = true) :
      Writes t d query time { d with updatedAt := .moment time } (t.update k n query time)

theorem bound_eq_ok (h : bound x = .ok a) : x = .ok a := by
  cases x with
  | error f => cases h
  | ok b =>
    obtain rfl := Except.ok.inj h
    rfl

section
variable {t t' : ReportTable} {id name : Json} {query : String} {time : Timestamp}

theorem insertInto_eq_ok (h : insertInto t name query time = .ok o) :
    ∃ n, columnText 1 name = .ok (some n) ∧ o = (t.insert n query time, t.nextId) := by
  obtain ⟨n?, text, h⟩ := bind_eq_ok.mp h
  cases n? with
  | none => cases h
  | some n => exact ⟨n, bound_eq_ok text, (Except.ok.inj h).symm⟩

theorem updateIn_eq_ok (h : updateIn t id name query time = .ok t') :
    ∃ n k, columnText 1 name = .ok (some n) ∧ keyOf 4 id = .ok (some k) ∧ t.has k = true ∧
      t' = t.update k n query time := by
  obtain ⟨n?, text, h⟩ := bind_eq_ok.mp h
  obtain ⟨k?, key, h⟩ := bind_eq_ok.mp h
  cases k? with
  | none => cases h
  | some k =>
    dsimp only at h
    split at h
    · rename_i there
      cases n? with
      | none => cases h
      | some n => exact ⟨n, k, bound_eq_ok text, bound_eq_ok key, there, (Except.ok.inj h).symm⟩
    · cases h

end

theorem persist_writes {st : Store} (h : st.persist d query time = .ok (d', st')) :
    ∃ t t', st.database.reports = some t ∧ Writes t d query time d' t' ∧
      st' = st.withReports t' := by
  unfold persist at h
  split at h
  · cases h
  · rename_i t reports
    refine ⟨t, ?_⟩
    split at h
    · rename_i new
      split at h
      · cases h
      · rename_i o id hi
        obtain ⟨n, name, ho⟩ := insertInto_eq_ok hi
        obtain ⟨rfl, rfl⟩ := Prod.mk.inj ho
        obtain ⟨rfl, rfl⟩ := Prod.mk.inj (Except.ok.inj h)
        exact ⟨_, reports, .new new name, rfl⟩
    · rename_i old
      split at h
      · cases h
      · rename_i t' hu
        obtain ⟨n, k, name, key, there, rfl⟩ := updateIn_eq_ok hu
        obtain ⟨rfl, rfl⟩ := Prod.mk.inj (Except.ok.inj h)
        exact ⟨_, reports, .old old name key there, rfl⟩

-- ---------------------------------------------------------------------------
-- Saving
-- ---------------------------------------------------------------------------

theorem save_refused {st : Store} {d : Draft}
    (h : st.accept d.name d.query = (.error e, st', log)) :
    st.save d = ⟨d, .error e, st', log⟩ := by
  rw [save, h]

section
variable {st accepted stored : Store} {d d' : Draft}

theorem save_stored (ha : st.accept d.name d.query = (.ok text, accepted, log))
    (hp : accepted.now.2.persist { d with query := .str (String.ofList (Sql.stored text.toList)) }
      (String.ofList (Sql.stored text.toList)) accepted.now.1 = .ok (d', stored)) :
    (st.save d).result = (stored.record (.saved d'.id d'.name)).1 ∧ (st.save d).draft = d' ∧
      (st.save d).store = (stored.record (.saved d'.id d'.name)).2 := by
  simp only [save, ha, hp]
  rcases stored.record (.saved d'.id d'.name) with ⟨_ | _, trail⟩ <;> exact ⟨rfl, rfl, rfl⟩

theorem save_written (ha : st.accept d.name d.query = (.ok text, accepted, log))
    (hp : accepted.now.2.persist { d with query := .str (String.ofList (Sql.stored text.toList)) }
      (String.ofList (Sql.stored text.toList)) accepted.now.1 = .ok (d', stored))
    (haudit : stored.database.audit.isSome = true) :
    (st.save d).result = .ok () ∧ (st.save d).draft = d' ∧
      (st.save d).store = (stored.record (.saved d'.id d'.name)).2 := by
  rw [← record_ok haudit (.saved d'.id d'.name)]
  exact save_stored ha hp

theorem save_unwritten (ha : st.accept d.name d.query = (.ok text, accepted, log))
    (hp : accepted.now.2.persist { d with query := .str (String.ofList (Sql.stored text.toList)) }
      (String.ofList (Sql.stored text.toList)) accepted.now.1 = .error e) :
    (st.save d).result = .error e ∧
      (st.save d).draft = { d with query := .str (String.ofList (Sql.stored text.toList)) } ∧
      (st.save d).store = accepted.now.2 := by
  simp [save, ha, hp]

end

-- ---------------------------------------------------------------------------
-- One operation
-- ---------------------------------------------------------------------------

/-- The answer and the store that an operation leaves are those of the catalog,
and the clock goes on. -/
structure Refines (st : Store) (o : α × Store) (o' : α × Catalog) : Prop where
  answer : o.1 = o'.1
  store : o.2.Represents o'.2
  clock : o.2.clock = st.clock
  ticks : st.ticks ≤ o.2.ticks

theorem refines_keeps {st st' : Store} (h : st.Represents c) (hk : Keeps st st') (a : α) :
    Refines st (a, st') (a, c) :=
  ⟨rfl, h.of_keeps hk, hk.clock, hk.ticks⟩

/-- With another report table, and a row in the audit trail. -/
theorem refines_record {st st' : Store} (h : st.Represents c) (hk : Keeps st st') (c' : Catalog)
    (ev : AuditEvent) (a : α) :
    Refines st (a, ((st'.withReports c'.table).record ev).2) (a, c') := by
  have hr := (st'.withReports c'.table).keeps_record ev
  exact ⟨rfl, ((h.of_keeps hk).withReports c').of_keeps hr, hr.clock.trans hk.clock,
    Nat.le_trans hk.ticks hr.ticks⟩

theorem perform_save {st : Store} (h : st.Represents c) (r : Report) (built : r.IsBuilt)
    (fits : ∀ id ∈ r.id, fitsWord id = true) :
    Refines st (st.perform (.save r built fits))
      (c.perform (st.event (.save r built fits))) := by
  have hj := st.judges_accept (.str r.name) r.query
  rcases ha : st.accept (.str r.name) (.str r.query) with ⟨verdict, accepted, log⟩
  rw [ha] at hj
  cases verdict with
  | error e =>
    have hs := save_refused (d := .ofReport r) ha
    simp only [perform, hs, event, ha]
    exact refines_keeps h hj.keeps _
  | ok text =>
    obtain ⟨rfl, s, rfl⟩ := hj.passed text rfl
    have hk : Keeps st (now { st with session := s }).2 := ⟨rfl, rfl, rfl, Nat.le_succ _⟩
    have hn := h.of_keeps hk
    cases hid : r.id with
    | none =>
      obtain ⟨d, hd, -, hp⟩ := persist_new hn (written_new hid) (nameOf r built) rfl
        (storedText r) (st.clock st.ticks)
      obtain ⟨h₁, h₂, h₃⟩ := save_written (d := .ofReport r) ha hp (hn.withReports _).audit
      simp only [perform, event, ha, hid, h₁, h₂, h₃, hd, Catalog.perform]
      exact refines_record h hk _ _ _
    | some id =>
      have hp := persist_old hn (written_id hid) (fits id hid) (nameOf r built) rfl (storedText r)
        (st.clock st.ticks)
      cases he : c.entry id with
      | none =>
        rw [he] at hp
        obtain ⟨h₁, -, h₂⟩ := save_unwritten (d := .ofReport r) ha hp
        simp only [perform, event, ha, hid, h₁, h₂, he, Catalog.perform]
        exact refines_keeps h hk _
      | some e =>
        rw [he] at hp
        obtain ⟨h₁, h₂, h₃⟩ := save_written (d := .ofReport r) ha hp (hn.withReports _).audit
        simp only [perform, event, ha, hid, h₁, h₂, h₃, he, Catalog.perform]
        rw [written_id hid]
        exact refines_record h hk _ _ _

theorem Represents.reportTable {st : Store} (h : st.Represents c) :
    st.reportTable = .ok c.table := by
  rw [Store.reportTable, h.reports]

theorem get_eq {st : Store} (h : st.Represents c) {id : Int} (fits : fitsWord id = true) :
    st.get (.int id) =
      match c.entry id with
      | none => .error (unknown id)
      | some e => .ok (e.report id) := by
  simp only [get, h.reportTable, bound_key fits, bind, Except.bind, Option.bind_some, c.table_find?]
  cases he : c.entry id with
  | none => rfl
  | some e => exact e.load_row id

theorem list_eq {st : Store} (h : st.Represents c) : st.list = .ok c.list := by
  simp only [list, h.reportTable, bind, Except.bind]
  exact c.mapM_load

theorem delete_eq {st : Store} (h : st.Represents c) {id : Int} (fits : fitsWord id = true) :
    st.delete (.int id) =
      match c.entry id with
      | none => (.error (unknown id), st)
      | some _ => (st.withReports (c.remove id).table).record (.deleted (.int id)) := by
  simp only [delete, h.reportTable, keyOf, fits, ↓reduceIte, Option.bind_some, c.table_has,
    c.table_erase]
  cases c.entry id <;> rfl

theorem perform_delete {st : Store} (h : st.Represents c) {id : Int} (fits : fitsWord id = true) :
    Refines st (st.perform (.delete id fits)) (c.perform (.delete id)) := by
  simp only [perform, delete_eq h fits, Catalog.perform]
  cases he : c.entry id with
  | none => exact refines_keeps h (.refl st) _
  | some e =>
    have hr := record_ok (h.withReports (c.remove id)).audit (.deleted (.int id))
    simp only [hr]
    exact refines_record h (.refl st) _ _ _

/-- One operation of the store is one event of the catalog. -/
theorem perform_refines {st : Store} (h : st.Represents c) (op : Operation) :
    Refines st (st.perform op) (c.perform (st.event op)) := by
  cases op with
  | save r built fits => exact perform_save h r built fits
  | get id fits =>
    simp only [perform, get_eq h fits, event, Catalog.perform]
    cases c.entry id <;> exact refines_keeps h (.refl st) _
  | list =>
    simp only [perform, list_eq h, event, Catalog.perform]
    exact refines_keeps h (.refl st) _
  | delete id fits => exact perform_delete h fits

-- ---------------------------------------------------------------------------
-- Runs
-- ---------------------------------------------------------------------------

theorem run_steps {st : Store} (h : st.Represents c) (ops : List Operation) :
    Refines st (st.run ops) (c.run (st.events ops)) := by
  induction ops generalizing st c with
  | nil => exact ⟨rfl, h, rfl, Nat.le_refl _⟩
  | cons op ops ih =>
    have hp := perform_refines h op
    have hr := ih hp.store
    refine ⟨?_, hr.store, hr.clock.trans hp.clock, Nat.le_trans hp.ticks hr.ticks⟩
    simp only [run, events, Catalog.run, hp.answer, hr.answer]

def NeverBack (clock : Nat → Timestamp) : Prop :=
  ∀ i j, i ≤ j → (clock i).epochMicros ≤ (clock j).epochMicros

/-- The time that the store will see next, in microseconds. -/
def micros (st : Store) : Int := (st.clock st.ticks).epochMicros

theorem event_within {st : Store} (h : st.Represents c) (hb : NeverBack st.clock)
    (op : Operation) : (st.event op).Within st.micros (st.perform op).2.micros := by
  have hp := perform_refines h op
  have hle : st.micros ≤ (st.perform op).2.micros := by
    rw [micros, micros, hp.clock]
    exact hb _ _ hp.ticks
  cases op with
  | save r built fits =>
    simp only [event]
    split
    · exact hle
    · exact ⟨Int.le_refl _, hle⟩
  | get | list | delete => exact hle

theorem run_inOrder {st : Store} (h : st.Represents c) (hb : NeverBack st.clock)
    (ho : c.InOrder st.micros) (ops : List Operation) :
    (c.run (st.events ops)).2.InOrder (st.run ops).2.micros := by
  induction ops generalizing st c with
  | nil => exact ho
  | cons op ops ih =>
    have hp := perform_refines h op
    exact ih hp.store (hp.clock ▸ hb) (ho.perform (event_within h hb op))

/-- Listing succeeds, in ascending order of the ids, with the reports that are
there to get. -/
def ListsAll (st : Store) : Prop :=
  ∃ (ids : List Int) (reports : List Report), st.list = .ok reports ∧
    reports.map Report.id = ids.map some ∧ ids.Pairwise (· < ·) ∧
      ∀ id r, fitsWord id = true → (st.get (.int id) = .ok r ↔ r ∈ reports ∧ r.id = some id)

theorem Represents.listsAll {st : Store} (h : st.Represents c) : st.ListsAll := by
  refine ⟨c.entries.map Prod.fst, c.list, list_eq h, ?_, Catalog.upTo_ascending _ _,
    fun id r fits => ?_⟩
  · simp [Catalog.list, Entry.report]
  · rw [get_eq h fits]
    constructor
    · intro hg
      cases he : c.entry id with
      | none => simp [he] at hg
      | some e =>
        obtain rfl : e.report id = r := by simpa [he] using hg
        exact ⟨List.mem_map.mpr ⟨(id, e), Catalog.mem_entries.mpr he, rfl⟩, rfl⟩
    · rintro ⟨hr, hid⟩
      obtain ⟨⟨k, e⟩, hk, rfl⟩ := List.mem_map.mp hr
      obtain rfl : k = id := by simpa [Entry.report] using hid
      simp [Catalog.mem_entries.mp hk]

/-- A store answers as the catalog it represents. -/
theorem run_refines {st : Store} (h : st.Represents c) (ops : List Operation) :
    (st.run ops).1 = (c.run (st.events ops)).1 ∧
      (st.run ops).2.Represents (c.run (st.events ops)).2 ∧
      ((newIds ops (st.run ops).1).Pairwise (· < ·) ∧
        ∀ n ∈ newIds ops (st.run ops).1, (c.issued : Int) < n) ∧
      (st.run ops).2.ListsAll ∧
      (NeverBack st.clock → c.InOrder st.micros →
        (c.run (st.events ops)).2.InOrder (st.run ops).2.micros) := by
  have hr := run_steps h ops
  refine ⟨hr.answer, hr.store, ?_, hr.store.listsAll, fun hb ho => run_inOrder h hb ho ops⟩
  rw [hr.answer]
  exact newIds_run st c ops

-- ---------------------------------------------------------------------------
-- A new store
-- ---------------------------------------------------------------------------

theorem represents_create (config : Config) (guard : Option Sql.Guard)
    (executor : Option Engine.Executor) (session : Engine.Session) (clock : Nat → Timestamp) :
    (create (migrate migrations {}) config guard executor session clock).Represents .empty :=
  ⟨rfl, rfl⟩

def fresh : Store := create (migrate migrations {}) {} none none ⟨[], 0, {}, []⟩ fun _ => .epoch

def orders : Report := ⟨none, "Orders", "SELECT 1", none, none⟩

theorem orders_isBuilt : orders.IsBuilt :=
  ⟨[("report_name", .str "Orders"), ("query_definition", .str "SELECT 1")], rfl⟩

def saveOrders : Operation := .save orders orders_isBuilt nofun

/-- The id of a deleted report is not given again. -/
theorem run_refines_deleted :
    fresh.Represents .empty ∧ NeverBack fresh.clock ∧ Catalog.empty.InOrder fresh.micros ∧
      (fresh.run [saveOrders, .delete 1 rfl, saveOrders]).1 =
        (Catalog.empty.run (fresh.events [saveOrders, .delete 1 rfl, saveOrders])).1 ∧
      (Catalog.empty.run (fresh.events [saveOrders, .delete 1 rfl, saveOrders])).2.InOrder
        (fresh.run [saveOrders, .delete 1 rfl, saveOrders]).2.micros ∧
      newIds [saveOrders, .delete 1 rfl, saveOrders]
        (fresh.run [saveOrders, .delete 1 rfl, saveOrders]).1 = [1, 2] := by
  have h : fresh.Represents .empty := represents_create _ _ _ _ _
  have hb : NeverBack fresh.clock := fun _ _ _ => Int.le_refl _
  have ho := Catalog.inOrder_empty fresh.micros
  obtain ⟨ha, -, -, -, hc⟩ := run_refines h [saveOrders, .delete 1 rfl, saveOrders]
  refine ⟨h, hb, ho, ha, hc hb ho, ?_⟩
  decide +kernel

end SafeReports.Store
