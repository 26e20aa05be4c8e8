import Mathlib.Data.List.Nodup
import SafeReports.Proofs.Store.Readback

/-!
# Replaying the audit trail

The rows of the audit trail, read in order of their ids, tell the ids and names
that are kept. Reports and trail are written one after the other, and every operation
that changes the one appends the row that says so to the other. Listed are the names
trimmed: those of the trail are listed as they are when they were saved so.
-/

namespace SafeReports.Store

open Decimal (fitsWord)

-- ---------------------------------------------------------------------------
-- Replay
-- ---------------------------------------------------------------------------

namespace AuditEvent

/-- The report that a row is about. -/
def reportId? (e : AuditEvent) : Option Int :=
  match Json.find? "report_id" e.details with
  | some (.int id) => some id
  | _ => none

def reportName? (e : AuditEvent) : Option String :=
  match Json.find? "report_name" e.details with
  | some (.str name) => some name
  | _ => none

/-- What a row makes of a map from ids to names: a saved report has its name, and
a deleted one is gone. -/
def replay (m : Int → Option String) (e : AuditEvent) (id : Int) : Option String :=
  if e.reportId? = some id then
    if e.action = "report_saved" then e.reportName?
    else if e.action = "report_deleted" then none
    else m id
  else m id

@[simp] theorem replay_saved (m : Int → Option String) (k : Int) (name : String) (id : Int) :
    (saved (.int k) (.str name)).replay m id = if id = k then some name else m id := by
  by_cases h : id = k
  · simp [replay, reportId?, reportName?, details, Json.find?, List.lookup_cons, action, h]
  · simp [replay, reportId?, details, Json.find?, h, Ne.symm h]

@[simp] theorem replay_deleted (m : Int → Option String) (k id : Int) :
    (deleted (.int k)).replay m id = if id = k then none else m id := by
  by_cases h : id = k
  · simp [replay, reportId?, details, Json.find?, action, h]
  · simp [replay, reportId?, details, Json.find?, h, Ne.symm h]

@[simp] theorem replay_rejected (m : Int → Option String) (name : Json) (reason : String)
    (message : Option String) (id : Int) : (rejected name reason message).replay m id = m id := by
  simp [replay, action]

end AuditEvent

/-- The map from ids to names that the rows of a trail make, one after the other. -/
def replay (trail : List AuditRow) : Int → Option String :=
  trail.foldl (fun m row => row.event.replay m) fun _ => none

theorem replay_append_row (trail : List AuditRow) (row : AuditRow) :
    replay (trail ++ [row]) = row.event.replay (replay trail) := by
  simp [replay]

-- ---------------------------------------------------------------------------
-- Rows in order
-- ---------------------------------------------------------------------------

/-- A new id stands behind all that were given before. -/
theorem ascending_concat {ids : List Int} {next : Int} (h : ids.Pairwise (· < ·))
    (below : ∀ id ∈ ids, id < next) : (ids ++ [next]).Pairwise (· < ·) := by
  rw [List.pairwise_append]
  refine ⟨h, List.pairwise_singleton _ _, fun id hid id' hid' => ?_⟩
  obtain rfl := List.mem_singleton.mp hid'
  exact below id hid

namespace AuditTable

/-- The ids of the rows ascend, up to the last one that was given. -/
structure InOrder (t : AuditTable) : Prop where
  ascending : (t.rows.map (·.id)).Pairwise (· < ·)
  below : ∀ row ∈ t.rows, row.id < t.nextId

theorem inOrder_empty : InOrder {} := ⟨.nil, nofun⟩

theorem InOrder.append {t : AuditTable} (h : t.InOrder) (ev : AuditEvent) (time : Timestamp) :
    (t.append ev time).InOrder := by
  constructor
  · rw [AuditTable.append, List.map_append]
    exact ascending_concat h.ascending (List.forall_mem_map.mpr h.below)
  · intro row hrow
    rcases List.mem_append.mp hrow with hrow | hrow
    · exact Int.lt_add_one_of_le (Int.le_of_lt (h.below row hrow))
    · obtain rfl := List.mem_singleton.mp hrow
      exact Int.lt_succ _

theorem InOrder.note {t : AuditTable} (h : t.InOrder) (ev : Option AuditEvent)
    (time : Timestamp) : (t.note ev time).InOrder := by
  cases ev with
  | none => exact h
  | some ev => exact h.append ev time

/-- At most one row is noted, behind those that are there. -/
theorem rows_note (t : AuditTable) (ev : Option AuditEvent) (time : Timestamp) :
    ∃ row? : Option AuditRow, (t.note ev time).rows = t.rows ++ row?.toList := by
  cases ev with
  | none => exact ⟨none, (List.append_nil _).symm⟩
  | some ev => exact ⟨some ⟨t.nextId, ev, time⟩, rfl⟩

end AuditTable

theorem replay_append (t : AuditTable) (ev : AuditEvent) (time : Timestamp) :
    replay (t.append ev time).rows = ev.replay (replay t.rows) :=
  replay_append_row t.rows ⟨t.nextId, ev, time⟩

/-- A failure leaves no row that changes the map. -/
theorem replay_note_failure (t : AuditTable) (f : Failure) (name : Json) (time : Timestamp) :
    replay (t.note (f.event? name) time).rows = replay t.rows := by
  have rejection : ∀ reason message,
      replay (t.append (.rejected name reason message) time).rows = replay t.rows := by
    intro reason message
    rw [replay_append]
    funext id
    exact AuditEvent.replay_rejected _ _ _ _ id
  cases f with
  | tooLarge => exact rejection _ _
  | rejected => exact rejection _ _
  | trial failure =>
    cases failure with
    | execution => exact rejection _ _
    | _ => rfl
  | _ => rfl

-- ---------------------------------------------------------------------------
-- Report tables
-- ---------------------------------------------------------------------------

/-- The ids of the rows ascend, and all their times can be read. -/
structure Listable (t : ReportTable) : Prop extends Legible t where
  ascending : (t.rows.map (·.id)).Pairwise (· < ·)
  updated : ∀ row ∈ t.rows, ∃ time : Timestamp, row.updatedAt = time.text

/-- The names in a table, by id. -/
def names (t : ReportTable) (id : Int) : Option String := (t.find? id).map (·.name)

section
variable {t t' : ReportTable} {d d' : Draft} {query : String} {time : Timestamp}

theorem listable_empty : Listable {} := ⟨legible_empty, .nil, nofun⟩

theorem Listable.insert (h : Listable t) (name query : String) (time : Timestamp) :
    Listable (t.insert name query time) where
  toLegible := h.toLegible.insert name query time
  ascending := by
    rw [ReportTable.insert, List.map_append]
    exact ascending_concat h.ascending (List.forall_mem_map.mpr h.below)
  updated row hr := by
    rcases List.mem_append.mp hr with hr | hr
    · exact h.updated row hr
    · obtain rfl := List.mem_singleton.mp hr
      exact ⟨time, rfl⟩

theorem Listable.update (h : Listable t) (id : Int) (name query : String) (time : Timestamp) :
    Listable (t.update id name query time) where
  toLegible := h.toLegible.update id name query time
  ascending := by
    have ids : (t.update id name query time).rows.map (·.id) = t.rows.map (·.id) := by
      rw [ReportTable.update, List.map_map]
      refine List.map_congr_left fun row _ => ?_
      simp only [Function.comp]
      split <;> rfl
    rw [ids]
    exact h.ascending
  updated row hr := by
    obtain ⟨row', hr', rfl⟩ := List.mem_map.mp hr
    split
    · exact ⟨time, rfl⟩
    · exact h.updated row' hr'

theorem Listable.erase (h : Listable t) (id : Int) : Listable (t.erase id) where
  toLegible := h.toLegible.erase id
  ascending := h.ascending.sublist (List.filter_sublist.map _)
  updated row hr := h.updated row (List.mem_filter.mp hr).1

theorem Listable.written (h : Listable t) (hw : Writes t d query time d' t') : Listable t' := by
  cases hw with
  | new => exact h.insert _ _ _
  | old => exact h.update _ _ _ _

theorem Listable.find?_eq_some_iff (h : Listable t) {id : Int} {row : ReportRow} :
    t.find? id = some row ↔ row ∈ t.rows ∧ row.id = id := by
  constructor
  · intro hf
    exact ⟨List.mem_of_find?_eq_some hf, by simpa using List.find?_some hf⟩
  · rintro ⟨hr, rfl⟩
    cases hf : t.find? row.id with
    | none => simpa using List.find?_eq_none.mp hf row hr
    | some row' =>
      have hr' := List.mem_of_find?_eq_some hf
      have hid : row'.id = row.id := by simpa using List.find?_some hf
      have nodup : (t.rows.map (·.id)).Nodup := h.ascending.imp Int.ne_of_lt
      rw [List.inj_on_of_nodup_map nodup hr' hr hid]

theorem Listable.names_eq_some_iff (h : Listable t) {id : Int} {name : String} :
    names t id = some name ↔ ∃ row ∈ t.rows, row.id = id ∧ row.name = name := by
  rw [names, Option.map_eq_some_iff]
  simp only [h.find?_eq_some_iff, and_assoc]

theorem Listable.names_insert (h : Listable t) (name query : String) (time : Timestamp) (id : Int) :
    names (t.insert name query time) id = if id = t.nextId then some name else names t id := by
  split
  · rename_i hid
    rw [names, hid, h.toLegible.find?_insert]
    rfl
  · rename_i hid
    simp [names, ReportTable.find?, ReportTable.insert, List.find?_append, Ne.symm hid]

theorem names_update (there : t.has k = true) (name query : String) (time : Timestamp) (id : Int) :
    names (t.update k name query time) id = if id = k then some name else names t id := by
  rw [names, find?_update]
  split
  · rename_i hid
    rw [ReportTable.has, ← List.isSome_find?] at there
    obtain ⟨row, hr⟩ := Option.isSome_iff_exists.mp there
    have hf : t.find? id = some row := hid ▸ hr
    rw [hf]
    rfl
  · rw [Option.map_id']
    rfl

theorem names_erase (t : ReportTable) (k id : Int) :
    names (t.erase k) id = if id = k then none else names t id := by
  simp only [names, ReportTable.find?, ReportTable.erase, List.find?_filter]
  split
  · rename_i hid
    simp [hid]
  · rename_i hid
    congr 2
    funext row
    by_cases h : row.id = id
    · simp [h, hid]
    · simp [h]

end

-- ---------------------------------------------------------------------------
-- Actions
-- ---------------------------------------------------------------------------

/-- What is asked of a store, with ids of any size. -/
inductive Action
  | save (d : Draft)
  | get (id : Int)
  | list
  | delete (id : Int)

/-- A name that is listed as it is kept. -/
def IsTidy (name : String) : Prop := Report.trimName name = name ∧ name ≠ ""

/-- A draft's id is an integer, if it has one, and its name a text of this kind. -/
structure IsTyped (P : String → Prop) (d : Draft) : Prop where
  id : d.id = .null ∨ ∃ i, d.id = .int i
  name : ∃ n, d.name = .str n ∧ P n

def Action.IsTyped (P : String → Prop) : Action → Prop
  | save d => Store.IsTyped P d
  | get _ | list | delete _ => True

theorem isTyped_ofReport {r : Report} (h : r.IsBuilt) : IsTyped IsTidy (.ofReport r) where
  id := by
    cases hid : r.id with
    | none => simp [Draft.ofReport, hid]
    | some i => simp [Draft.ofReport, hid]
  name := ⟨r.name, rfl, h.name⟩

theorem Action.IsTyped.mono {P Q : String → Prop} {a : Action} (h : a.IsTyped P)
    (sub : ∀ name, P name → Q name) : a.IsTyped Q := by
  cases a with
  | save d =>
    obtain ⟨name, named, hp⟩ := h.name
    exact ⟨h.id, name, named, sub name hp⟩
  | get | list | delete => trivial

/-- The store after an action; reading leaves it as it is. -/
def act (st : Store) : Action → Store
  | .save d => (st.save d).store
  | .get _ | .list => st
  | .delete id => (st.delete (.int id)).2

def actAll (st : Store) (actions : List Action) : Store := actions.foldl act st

section
variable {st : Store} {t t' : ReportTable} {trail : AuditTable} {d d' : Draft} {query : String}
  {time : Timestamp}

theorem Writes.names (hw : Writes t d query time d' t') (h : Listable t) (typed : IsTyped P d) :
    ∃ id name, d'.id = .int id ∧ d'.name = .str name ∧ P name ∧
      (∀ row ∈ t'.rows, row ∈ t.rows ∨ row.name = name) ∧
      ∀ k, Store.names t' k = if k = id then some name else Store.names t k := by
  obtain ⟨n, named, hn⟩ := typed.name
  cases hw with
  | @new n' new name =>
    obtain rfl : n = n' := by simpa [named, columnText] using name
    refine ⟨t.nextId, n, rfl, named, hn, fun row hr => ?_, h.names_insert n query time⟩
    refine (List.mem_append.mp hr).imp_right fun hr => ?_
    rw [List.mem_singleton.mp hr]
  | @old n' k old name key there =>
    obtain rfl : n = n' := by simpa [named, columnText] using name
    obtain ⟨i, hi⟩ := typed.id.resolve_left old
    rw [hi, keyOf] at key
    split at key
    · obtain rfl : i = k := by simpa using key
      refine ⟨i, n, hi, named, hn, fun row hr => ?_, names_update there n query time⟩
      obtain ⟨row', hr', rfl⟩ := List.mem_map.mp hr
      split
      · exact .inr rfl
      · exact .inl hr'
    · cases key

/-- A deletion does nothing, or removes one row and says so. -/
theorem delete_erases (reports : st.database.reports = some t)
    (trails : st.database.audit = some trail) (id : Json) : (st.delete id).2 = st ∨
      ∃ k time, keyOf 1 id = .ok (some k) ∧ (st.delete id).2.database =
        { st.database with
          reports := some (t.erase k), audit := some (trail.append (.deleted id) time) } := by
  simp only [delete, reportTable, reports]
  cases key : keyOf 1 id with
  | error fault => exact .inl rfl
  | ok k? =>
    dsimp only
    cases hk : k?.bind fun k => if t.has k then some k else none with
    | none => exact .inl rfl
    | some k =>
      obtain ⟨k', rfl, there⟩ := Option.bind_eq_some_iff.mp hk
      split at there
      · obtain rfl := Option.some.inj there
        have trails : (st.withReports (t.erase k')).database.audit = some trail := trails
        exact .inr ⟨k', st.clock st.ticks, rfl, record_noting trails _⟩
      · cases there

/-- At most one row is appended to the trail. -/
theorem act_appends (complete : Complete st.database) (a : Action) :
    ∃ row? : Option AuditRow, (st.act a).auditTrail = st.auditTrail ++ row?.toList := by
  obtain ⟨trail, trails⟩ := Option.isSome_iff_exists.mp complete.audit
  suffices noted : ∃ ev time, (st.act a).database.audit = some (trail.note ev time) by
    obtain ⟨ev, time, noted⟩ := noted
    rw [auditTrail, auditTrail, trails, noted]
    exact trail.rows_note ev time
  cases a with
  | get | list => exact ⟨none, .epoch, trails⟩
  | save d =>
    rcases save_cases complete d with ⟨f, hf⟩ | ⟨saved, -⟩
    · exact ⟨_, _, congrArg Database.audit (save_fails trails hf).2⟩
    · obtain ⟨-, -, -, -, -, -, -, appended⟩ := save_writes complete saved
      obtain ⟨time, appended⟩ := appended trail trails
      exact ⟨some _, time, appended⟩
  | delete id =>
    obtain ⟨t, reports⟩ := Option.isSome_iff_exists.mp complete.reports
    rcases delete_erases reports trails (.int id) with h | ⟨k, time, -, h⟩
    · exact ⟨none, .epoch, by rw [act, h, trails]; rfl⟩
    · exact ⟨some _, time, congrArg Database.audit h⟩

end

-- ---------------------------------------------------------------------------
-- One action
-- ---------------------------------------------------------------------------

/-- The trail replays to the names in the table, which are all of this kind. -/
structure Traced (P : String → Prop) (st : Store) (t : ReportTable) (trail : AuditTable) :
    Prop where
  reports : st.database.reports = some t
  audit : st.database.audit = some trail
  replays : ∀ id, replay trail.rows id = names t id
  kind : ∀ row ∈ t.rows, P row.name
  listable : Listable t
  inOrder : trail.InOrder

section
variable {P : String → Prop} {st : Store} {t : ReportTable} {trail : AuditTable}

theorem Traced.complete (h : Traced P st t trail) : Complete st.database :=
  ⟨by rw [h.reports]; rfl, by rw [h.audit]; rfl⟩

theorem Traced.auditTrail (h : Traced P st t trail) : st.auditTrail = trail.rows := by
  rw [Store.auditTrail, h.audit]

theorem Traced.save (h : Traced P st t trail) {d : Draft} (typed : IsTyped P d) :
    ∃ t' trail', Traced P (st.save d).store t' trail' := by
  rcases save_cases h.complete d with ⟨f, hf⟩ | ⟨saved, -⟩
  · have hdb := (save_fails h.audit hf).2
    refine ⟨t, trail.note (f.event? d.name) (st.clock st.ticks), ?_, ?_, ?_, h.kind, h.listable,
      h.inOrder.note _ _⟩
    · rw [hdb]
      exact h.reports
    · rw [hdb, noting]
    · rw [replay_note_failure]
      exact h.replays
  · obtain ⟨text, t₀, t', -, reports, hw, reports', appended⟩ := save_writes h.complete saved
    obtain rfl : t = t₀ := Option.some.inj (h.reports.symm.trans reports)
    obtain ⟨time, appended⟩ := appended trail h.audit
    have typed : IsTyped P { d with query := .str (String.ofList (Sql.stored text.toList)) } :=
      ⟨typed.id, typed.name⟩
    obtain ⟨id, name, hid, hname, hP, rows, names⟩ := hw.names h.listable typed
    refine ⟨t', _, reports', appended, fun k => ?_, fun row hr => ?_, h.listable.written hw,
      h.inOrder.append _ _⟩
    · rw [replay_append, hid, hname, AuditEvent.replay_saved, names, h.replays]
    · rcases rows row hr with hr | hn
      · exact h.kind row hr
      · exact hn ▸ hP

theorem Traced.delete (h : Traced P st t trail) (id : Int) :
    ∃ t' trail', Traced P (st.delete (.int id)).2 t' trail' := by
  rcases delete_erases h.reports h.audit (.int id) with hd | ⟨k, time, key, hd⟩
  · rw [hd]
    exact ⟨t, trail, h⟩
  · rw [keyOf] at key
    split at key
    · obtain rfl : id = k := by simpa using key
      refine ⟨t.erase id, trail.append (.deleted (.int id)) time, by rw [hd], by rw [hd],
        fun k => ?_, fun row hr => h.kind row (List.mem_filter.mp hr).1, h.listable.erase id,
        h.inOrder.append _ _⟩
      rw [replay_append, AuditEvent.replay_deleted, h.replays, names_erase]
    · cases key

theorem Traced.act (h : Traced P st t trail) {a : Action} (typed : a.IsTyped P) :
    ∃ t' trail', Traced P (st.act a) t' trail' := by
  cases a with
  | save d => exact h.save typed
  | get id => exact ⟨t, trail, h⟩
  | list => exact ⟨t, trail, h⟩
  | delete id => exact h.delete id

theorem Traced.actAll (h : Traced P st t trail) {actions : List Action}
    (typed : ∀ a ∈ actions, a.IsTyped P) : ∃ t' trail', Traced P (st.actAll actions) t' trail' := by
  induction actions generalizing st t trail with
  | nil => exact ⟨t, trail, h⟩
  | cons a actions ih =>
    obtain ⟨first, rest⟩ := List.forall_mem_cons.mp typed
    obtain ⟨t', trail', ha⟩ := h.act first
    exact ih ha rest

end

theorem traced_empty {st : Store} (reports : st.database.reports = some {})
    (audit : st.database.audit = some {}) (P : String → Prop) : Traced P st {} {} :=
  ⟨reports, audit, fun _ => rfl, nofun, listable_empty, AuditTable.inOrder_empty⟩

-- ---------------------------------------------------------------------------
-- Listing
-- ---------------------------------------------------------------------------

/-- One report for each id of the map is listed, under its name, the ids ascending. -/
def Lists (st : Store) (m : Int → Option String) : Prop :=
  ∃ (ids : List Int) (listed : List Report), st.list = .ok listed ∧
    listed.map Report.id = ids.map some ∧ ids.Pairwise (· < ·) ∧
    ∀ id name, m id = some name ↔ ∃ r ∈ listed, r.id = some id ∧ r.name = name

/-- The failure to list a report whose name is blank. -/
def blankName : Failure := .invalid [⟨"report_name", .blankName⟩]

def shown (row : ReportRow) : Report :=
  ⟨some row.id, Report.trimName row.name, row.query, Timestamp.ofText? row.createdAt,
    Timestamp.ofText? row.updatedAt⟩

section
variable {st : Store} {t : ReportTable}

theorem Listable.load (h : Listable t) {row : ReportRow} (hr : row ∈ t.rows) : Store.load row =
    if Report.trimName row.name = "" then .error blankName else .ok (shown row) := by
  obtain ⟨created, hc⟩ := h.created row hr
  obtain ⟨updated, hu⟩ := h.updated row hr
  simp only [Store.load, readTime, shown, hc, hu, Timestamp.ofText?_text, bind, Except.bind]
  split <;> rfl

/-- A row that cannot be shown fails the list, whatever stands before and behind it. -/
theorem mapM_load {rows : List ReportRow} (loads : ∀ row ∈ rows, load row =
    if Report.trimName row.name = "" then .error blankName else .ok (shown row)) :
    rows.mapM load = if ∃ row ∈ rows, Report.trimName row.name = "" then .error blankName
      else .ok (rows.map shown) := by
  induction rows with
  | nil => rfl
  | cons row rows ih =>
    obtain ⟨first, rest⟩ := List.forall_mem_cons.mp loads
    rw [List.mapM_cons, first, ih rest]
    simp only [List.exists_mem_cons_iff, bind, Except.bind]
    by_cases blank : Report.trimName row.name = ""
    · simp only [blank, ↓reduceIte, true_or]
    by_cases later : ∃ row ∈ rows, Report.trimName row.name = ""
    · simp only [blank, later, ↓reduceIte, or_true]
    · simp only [blank, later, ↓reduceIte, or_self]
      rfl

theorem Listable.list_eq (h : Listable t) (reports : st.database.reports = some t) :
    st.list = if ∃ row ∈ t.rows, Report.trimName row.name = "" then .error blankName
      else .ok (t.rows.map shown) := by
  have table : st.reportTable = .ok t := by rw [reportTable, reports]
  simp only [list, table, bind, Except.bind]
  exact mapM_load fun row hr => h.load hr

theorem Listable.lists (h : Listable t) (reports : st.database.reports = some t)
    (named : ∀ row ∈ t.rows, Report.trimName row.name ≠ "") :
    st.Lists fun id => (names t id).map Report.trimName := by
  refine ⟨t.rows.map (·.id), t.rows.map shown, ?_, ?_, h.ascending, fun id name => ?_⟩
  · rw [h.list_eq reports, if_neg]
    rintro ⟨row, hr, blank⟩
    exact named row hr blank
  · simp only [List.map_map]
    rfl
  · rw [Option.map_eq_some_iff]
    constructor
    · rintro ⟨kept, hk, rfl⟩
      obtain ⟨row, hr, rfl, rfl⟩ := h.names_eq_some_iff.mp hk
      exact ⟨shown row, List.mem_map_of_mem hr, rfl, rfl⟩
    · rintro ⟨r, hr, hid, rfl⟩
      obtain ⟨row, there, rfl⟩ := List.mem_map.mp hr
      exact ⟨row.name, h.names_eq_some_iff.mpr ⟨row, there, Option.some.inj hid, rfl⟩, rfl⟩

/-- Tidy names are listed as they are kept. -/
theorem Listable.names_tidy (h : Listable t) (tidy : ∀ row ∈ t.rows, IsTidy row.name) :
    (fun id => (names t id).map Report.trimName) = names t := by
  funext id
  cases hn : names t id with
  | none => rfl
  | some name =>
    obtain ⟨row, hr, -, rfl⟩ := h.names_eq_some_iff.mp hn
    rw [Option.map_some, (tidy row hr).1]

end

-- ---------------------------------------------------------------------------
-- Runs
-- ---------------------------------------------------------------------------

/-- After any actions on an empty store the audit trail, whose ids ascend, replays to
the ids and names that are kept. Listed are these names trimmed, and none when one of
them is blank: the trail replays to what is listed when all names that were saved are
trimmed and not blank. Whatever is done next appends at most one row to the trail. -/
theorem actAll_replays {st : Store} (reports : st.database.reports = some {})
    (audit : st.database.audit = some {}) {actions : List Action}
    (typed : ∀ a ∈ actions, a.IsTyped fun _ => True) :
    ((∀ a ∈ actions, a.IsTyped IsTidy) →
      (st.actAll actions).Lists (replay (st.actAll actions).auditTrail)) ∧
      ((∀ id, (replay (st.actAll actions).auditTrail id).map Report.trimName ≠ some "") →
        (st.actAll actions).Lists fun id =>
          (replay (st.actAll actions).auditTrail id).map Report.trimName) ∧
      ((∃ id, (replay (st.actAll actions).auditTrail id).map Report.trimName = some "") →
        (st.actAll actions).list = .error blankName) ∧
      ((st.actAll actions).auditTrail.map (·.id)).Pairwise (· < ·) ∧
      ∀ a, ∃ row? : Option AuditRow, ((st.actAll actions).act a).auditTrail =
        (st.actAll actions).auditTrail ++ row?.toList := by
  obtain ⟨t, trail, h⟩ := (traced_empty reports audit _).actAll typed
  have replays : replay (st.actAll actions).auditTrail = names t := by
    funext id
    rw [h.auditTrail, h.replays]
  refine ⟨fun tidy => ?_, fun named => ?_, fun blank => ?_, ?_, act_appends h.complete⟩
  · obtain ⟨t', trail', h'⟩ := (traced_empty reports audit _).actAll tidy
    obtain rfl : t = t' := Option.some.inj (h.reports.symm.trans h'.reports)
    rw [replays, ← h.listable.names_tidy h'.kind]
    refine h.listable.lists h.reports fun row hr => ?_
    rw [(h'.kind row hr).1]
    exact (h'.kind row hr).2
  · rw [replays] at named ⊢
    refine h.listable.lists h.reports fun row hr blank => named row.id ?_
    rw [h.listable.names_eq_some_iff.mpr ⟨row, hr, rfl, rfl⟩, Option.map_some, blank]
  · obtain ⟨id, blank⟩ := blank
    rw [replays, Option.map_eq_some_iff] at blank
    obtain ⟨name, hn, blank⟩ := blank
    obtain ⟨row, hr, -, rfl⟩ := h.listable.names_eq_some_iff.mp hn
    rw [h.listable.list_eq h.reports, if_pos ⟨row, hr, blank⟩]
  · rw [h.auditTrail]
    exact h.inOrder.ascending

def saveNew : Action := .save (.ofReport orders)

def invoices : Report := { orders with id := some 2, name := "Invoices" }

theorem invoices_isBuilt : invoices.IsBuilt :=
  ⟨[("report_id", .int 2), ("report_name", .str "Invoices"),
    ("query_definition", .str "SELECT 1")], rfl⟩

/-- Two reports of one name, of which one is renamed and the other deleted; one
deletion fails, of an id that no key can have. -/
def renameAndDelete : List Action :=
  [saveNew, saveNew, .save (.ofReport invoices), .delete 18446744073709551616, .delete 1]

theorem renameAndDelete_isTyped : ∀ a ∈ renameAndDelete, a.IsTyped IsTidy := by
  simp only [renameAndDelete, List.forall_mem_cons]
  exact ⟨isTyped_ofReport orders_isBuilt, isTyped_ofReport orders_isBuilt,
    isTyped_ofReport invoices_isBuilt, trivial, trivial, nofun⟩

/-- What is left is listed under its last name. -/
theorem actAll_replays_renamed :
    fresh.database.reports = some {} ∧ fresh.database.audit = some {} ∧
      (∀ a ∈ renameAndDelete, a.IsTyped IsTidy) ∧
      (fresh.actAll renameAndDelete).auditTrail.map (·.id) = [1, 2, 3, 4] ∧
      ∃ listed, (fresh.actAll renameAndDelete).list = .ok listed ∧
        (∃ r ∈ listed, r.id = some 2 ∧ r.name = "Invoices") ∧
        ∀ r ∈ listed, r.id ≠ some 1 := by
  have tidy := renameAndDelete_isTyped
  obtain ⟨lists, -⟩ := actAll_replays (rfl : fresh.database.reports = some {}) rfl
    fun a ha => (tidy a ha).mono fun _ _ => trivial
  obtain ⟨ids, listed, hl, -, -, hr⟩ := lists tidy
  have last : replay (fresh.actAll renameAndDelete).auditTrail 2 = some "Invoices" := by
    decide +kernel
  have gone : replay (fresh.actAll renameAndDelete).auditTrail 1 = none := by decide +kernel
  refine ⟨rfl, rfl, tidy, by decide +kernel, listed, hl, (hr 2 "Invoices").mp last,
    fun r hmem hid => ?_⟩
  have := (hr 1 r.name).mpr ⟨r, hmem, hid, rfl⟩
  simp [gone] at this

/-- A report whose owner has put spaces around its name. -/
def spaced : Draft := { Draft.ofReport orders with name := .str " Sales " }

/-- A name that is not trimmed is replayed as it was saved, and listed trimmed. -/
theorem actAll_spaced :
    fresh.database.reports = some {} ∧ fresh.database.audit = some {} ∧
      (∀ a ∈ [Action.save spaced], a.IsTyped fun _ => True) ∧
      replay (fresh.actAll [.save spaced]).auditTrail 1 = some " Sales " ∧
      (fresh.actAll [.save spaced]).list.map (·.map (·.name)) = .ok ["Sales"] ∧
      ¬ (fresh.actAll [.save spaced]).Lists (replay (fresh.actAll [.save spaced]).auditTrail) := by
  have kept : replay (fresh.actAll [.save spaced]).auditTrail 1 = some " Sales " := by
    decide +kernel
  have listed : (fresh.actAll [.save spaced]).list.map (·.map (·.name)) = .ok ["Sales"] := by
    rfl
  refine ⟨rfl, rfl, ?_, kept, listed, ?_⟩
  · rintro a ha
    obtain rfl := List.mem_singleton.mp ha
    exact ⟨.inl rfl, " Sales ", rfl, trivial⟩
  · rintro ⟨ids, reports, hl, -, -, hr⟩
    obtain ⟨r, hmem, -, hname⟩ := (hr 1 " Sales ").mp kept
    rw [hl] at listed
    have names : reports.map (·.name) = ["Sales"] := Except.ok.inj listed
    have shown : r.name ∈ reports.map (·.name) := List.mem_map_of_mem hmem
    simp [names, hname] at shown

end SafeReports.Store
