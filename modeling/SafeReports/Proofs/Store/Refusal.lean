import SafeReports.Proofs.Sql.Verdict
import SafeReports.Proofs.Store.Refinement

/-!
# Failed operations

A save fails for the first cause that applies, in a fixed order, and leaves the
reports as they were; so does a deletion. A query that is too long, rejected by
the guard or refused by the engine leaves one row in the audit trail, every other
failure none.
-/

namespace SafeReports.Store

open Engine (Executor)

/-- What the audit trail records of a failed save. -/
def Failure.event? (name : Json) : Failure → Option AuditEvent
  | .tooLarge _ => some (.rejected name "too_large" none)
  | .rejected v => some (.rejected name v.kind.name (some v.message))
  | .trial (.execution m) => some (.rejected name "execution" (some m))
  | _ => none

def AuditTable.note (t : AuditTable) (event : Option AuditEvent) (time : Timestamp) : AuditTable :=
  match event with
  | none => t
  | some ev => t.append ev time

-- ---------------------------------------------------------------------------
-- Causes
-- ---------------------------------------------------------------------------

/-- Whether a query lies above the ceiling, if that can be told. -/
def tooLong? (st : Store) (query : Json) : Option Bool :=
  query.length?.bind st.policy.exceeds?

def textOf? : Json → Option String
  | .str s => some s
  | _ => none

theorem textOf?_eq_some (h : textOf? query = some text) : query = .str text := by
  cases query with
  | str => exact congrArg Json.str (Option.some.inj h)
  | _ => cases h

structure Passes (st : Store) (query : Json) (text : String) : Prop where
  enabled : st.policy.enabled = true
  isText : query = .str text
  short : st.tooLong? query = some false
  accepted : (st.guard.validate (some text)).1 = none

/-- The trial of a query, where one is due, succeeds. -/
def Clears (st : Store) (text : String) : Prop :=
  ∀ e, st.executor = some e → st.policy.trial = true →
    (e.check (some text) st.session).result = .ok ()

/-- Why a query is refused, each cause where those before it do not apply. -/
inductive Refuses (st : Store) (query : Json) : Failure → Prop
  | disabled (off : st.policy.enabled = false) : Refuses st query .disabled
  | notComparable (on : st.policy.enabled = true) (length : st.tooLong? query = none) :
      Refuses st query .notComparable
  | tooLarge (on : st.policy.enabled = true) (length : st.tooLong? query = some true) :
      Refuses st query (.tooLarge st.policy.ceiling)
  | rejected (on : st.policy.enabled = true) (length : st.tooLong? query = some false)
      (verdict : (st.guard.validate (textOf? query)).1 = some v) : Refuses st query (.rejected v)
  | trial (passes : st.Passes query text) (executor : st.executor = some e)
      (due : st.policy.trial = true)
      (result : (e.check (some text) st.session).result = .error f) : Refuses st query (.trial f)

/-- Why a report of this id and name cannot be written. -/
inductive Unwritable (t : ReportTable) (id name : Json) : Failure → Prop
  | name (text : columnText 1 name = .error fault) : Unwritable t id name (.unbindable fault)
  | key (old : id ≠ .null) (text : columnText 1 name = .ok n) (key : keyOf 4 id = .error fault) :
      Unwritable t id name (.unbindable fault)
  | unknown (old : id ≠ .null) (text : columnText 1 name = .ok n) (key : keyOf 4 id = .ok k)
      (absent : ∀ i ∈ k, t.has i = false) : Unwritable t id name (.unknownId id)
  | nameless (text : columnText 1 name = .ok none)
      (there : id = .null ∨ ∃ i, keyOf 4 id = .ok (some i) ∧ t.has i = true) :
      Unwritable t id name .nullName

inductive Fails (st : Store) (d : Draft) : Failure → Prop
  | refused (query : st.Refuses d.query f) : Fails st d f
  | unwritable (passes : st.Passes d.query text) (clears : st.Clears text)
      (reports : st.database.reports = some t) (row : Unwritable t d.id d.name f) : Fails st d f

-- ---------------------------------------------------------------------------
-- Refusals
-- ---------------------------------------------------------------------------

section
variable {st : Store} {trail : AuditTable}

/-- The database of a store with the events of a failure in its audit trail. -/
def noting (st : Store) (trail : AuditTable) (event : Option AuditEvent) : Database :=
  { st.database with audit := some (trail.note event (st.clock st.ticks)) }

theorem noting_none (h : st.database.audit = some trail) : st.noting trail none = st.database := by
  rw [noting, AuditTable.note, ← h]

theorem record_noting (h : st.database.audit = some trail) (ev : AuditEvent) :
    (st.record ev).2.database = st.noting trail (some ev) := by
  simp only [record, now, h]
  rfl

theorem refuse_noting (st : Store) (h : st.database.audit = some trail) (ev : AuditEvent)
    (cause : Failure) :
    ∃ st', st.refuse ev cause = ((.error cause : Except Failure α), st') ∧
      st'.database = st.noting trail (some ev) := by
  simp only [refuse, record, now, h]
  exact ⟨_, rfl, rfl⟩

theorem tryOut_refused (h : st.database.audit = some trail) (executor : st.executor = some e)
    (due : st.policy.trial = true) (result : (e.check (some text) st.session).result = .error f)
    (name : Json) : ∃ st' log, st.tryOut name text = (.error (.trial f), st', log) ∧
      st'.database = st.noting trail ((Failure.trial f).event? name) := by
  simp only [tryOut, executor, due, ↓reduceIte, result]
  cases f with
  | execution m =>
    let tried : Store :=
      { st with executor := some e, session := (e.check (some text) st.session).session }
    obtain ⟨st', hs, hd⟩ := tried.refuse_noting (α := String) h
      (.rejected name "execution" (some m)) (.trial (.execution m))
    refine ⟨st', (e.check (some text) st.session).log, ?_, hd⟩
    dsimp only
    rw [hs]
  | rejected | unwrappable | raw | noDescription | widthMismatch =>
    exact ⟨_, _, rfl, (noting_none h).symm⟩

theorem accept_short (on : st.policy.enabled = true) (length : st.tooLong? query = some false)
    (name : Json) : st.accept name query =
      match st.guard.validate (textOf? query) with
      | (some v, log) =>
        let (result, st) := st.refuse (.rejected name v.kind.name (some v.message)) (.rejected v)
        (result, st, log)
      | (none, log) =>
        let (result, st, more) := st.tryOut name ((textOf? query).getD "")
        (result, st, log ++ more) := by
  rw [tooLong?] at length
  simp only [accept, on, length]
  rfl

/-- A query is refused with its cause, and nothing else is done than to record it. -/
theorem accept_refused (h : st.database.audit = some trail) (hr : st.Refuses query f)
    (name : Json) : ∃ st' log, st.accept name query = (.error f, st', log) ∧
      st'.database = st.noting trail (f.event? name) := by
  cases hr with
  | disabled off => exact ⟨st, [], by simp [accept, off], (noting_none h).symm⟩
  | notComparable on length =>
    rw [tooLong?] at length
    exact ⟨st, [], by simp [accept, on, length], (noting_none h).symm⟩
  | tooLarge on length =>
    rw [tooLong?] at length
    obtain ⟨st', hs, hd⟩ := st.refuse_noting (α := String) h (.rejected name "too_large" none)
      (.tooLarge st.policy.ceiling)
    exact ⟨st', [], by simp [accept, on, length, hs], hd⟩
  | @rejected v on length verdict =>
    rcases hv : st.guard.validate (textOf? query) with ⟨violation, log⟩
    obtain rfl : violation = some v := by simpa [hv] using verdict
    obtain ⟨st', hs, hd⟩ := st.refuse_noting (α := String) h
      (.rejected name v.kind.name (some v.message)) (.rejected v)
    exact ⟨st', log, by simp only [accept_short on length, hv, hs], hd⟩
  | @trial text e f passes executor due result =>
    obtain ⟨on, rfl, length, accepted⟩ := passes
    rcases hv : st.guard.validate (some text) with ⟨violation, log⟩
    obtain rfl : violation = none := by simpa [hv] using accepted
    obtain ⟨st', more, hs, hd⟩ := tryOut_refused h executor due result name
    exact ⟨st', log ++ more,
      by simp only [accept_short on length, textOf?, hv, Option.getD_some, hs], hd⟩

theorem tryOut_passed (h : st.Clears text) (name : Json) :
    ∃ s log, st.tryOut name text = (.ok text, { st with session := s }, log) := by
  unfold tryOut
  split
  · exact ⟨st.session, [], rfl⟩
  · rename_i e he
    split
    · rename_i ht
      simp only [h e he ht]
      exact ⟨_, _, rfl⟩
    · exact ⟨st.session, [], rfl⟩

theorem accept_passed (hp : st.Passes query text) (hc : st.Clears text) (name : Json) :
    ∃ s log, st.accept name query = (.ok text, { st with session := s }, log) := by
  obtain ⟨on, rfl, length, accepted⟩ := hp
  rcases hv : st.guard.validate (some text) with ⟨violation, log⟩
  obtain rfl : violation = none := by simpa [hv] using accepted
  obtain ⟨s, more, hs⟩ := tryOut_passed hc name
  exact ⟨s, log ++ more, by simp only [accept_short on length, textOf?, hv, Option.getD_some, hs]⟩

theorem refuses_or_passes (st : Store) (query : Json) :
    (∃ f, st.Refuses query f) ∨ ∃ text, st.Passes query text ∧ st.Clears text := by
  cases on : st.policy.enabled with
  | false => exact .inl ⟨_, .disabled on⟩
  | true =>
    match length : st.tooLong? query with
    | none => exact .inl ⟨_, .notComparable on length⟩
    | some true => exact .inl ⟨_, .tooLarge on length⟩
    | some false =>
      cases verdict : (st.guard.validate (textOf? query)).1 with
      | some v => exact .inl ⟨_, .rejected on length verdict⟩
      | none =>
        obtain ⟨text, ht⟩ := Sql.Guard.validate_text verdict
        have passes : st.Passes query text := ⟨on, textOf?_eq_some ht, length, ht ▸ verdict⟩
        by_cases hc : st.Clears text
        · exact .inr ⟨text, passes, hc⟩
        · simp only [Clears, Classical.not_forall] at hc
          obtain ⟨e, executor, due, hc⟩ := hc
          cases result : (e.check (some text) st.session).result with
          | ok => exact absurd result hc
          | error f => exact .inl ⟨_, .trial passes executor due result⟩

-- ---------------------------------------------------------------------------
-- Writing
-- ---------------------------------------------------------------------------

/-- A report that can be written: it has a name, and it is new or its id is there. -/
def Writable (t : ReportTable) (id name : Json) : Prop :=
  ∃ n, columnText 1 name = .ok (some n) ∧
    (id = .null ∨ ∃ i, keyOf 4 id = .ok (some i) ∧ t.has i = true)

theorem unwritable_or_writable (t : ReportTable) (id name : Json) :
    (∃ f, Unwritable t id name f) ∨ Writable t id name := by
  cases text : columnText 1 name with
  | error fault => exact .inl ⟨_, .name text⟩
  | ok n =>
    by_cases there : id = .null ∨ ∃ i, keyOf 4 id = .ok (some i) ∧ t.has i = true
    · cases n with
      | none => exact .inl ⟨_, .nameless text there⟩
      | some n => exact .inr ⟨n, text, there⟩
    · obtain ⟨old, hno⟩ := not_or.mp there
      cases key : keyOf 4 id with
      | error fault => exact .inl ⟨_, .key old text key⟩
      | ok k =>
        refine .inl ⟨_, .unknown old text key fun i hi => ?_⟩
        obtain rfl := Option.mem_def.mp hi
        exact Bool.eq_false_iff.mpr fun hi => hno ⟨i, key, hi⟩

section
variable {t : ReportTable} {id name : Json} (query : String) (time : Timestamp)

theorem insertInto_unwritable (h : Unwritable t .null name f) :
    insertInto t name query time = .error f := by
  cases h with
  | name text => simp [insertInto, text, bound, bind, Except.bind]
  | nameless text => simp only [insertInto, text, bound]; rfl
  | key old | unknown old => exact absurd rfl old

theorem insertInto_writable (h : Writable t .null name) :
    ∃ o, insertInto t name query time = .ok o := by
  obtain ⟨n, text, -⟩ := h
  simp only [insertInto, text, bound]
  exact ⟨_, rfl⟩

theorem updateIn_unwritable (old : id ≠ .null) (h : Unwritable t id name f) :
    updateIn t id name query time = .error f := by
  cases h with
  | name text => simp [updateIn, text, bound, bind, Except.bind]
  | key _ text key => simp [updateIn, text, key, bound, bind, Except.bind]
  | @unknown n k _ text key absent =>
    simp only [updateIn, text, key, bound, bind, Except.bind]
    cases k with
    | none => rfl
    | some i =>
      simp only [absent i rfl]
      rfl
  | nameless text there =>
    obtain ⟨i, key, hi⟩ := there.resolve_left old
    simp only [updateIn, text, key, bound, bind, Except.bind, hi]
    rfl

theorem updateIn_writable (old : id ≠ .null) (h : Writable t id name) :
    ∃ t', updateIn t id name query time = .ok t' := by
  obtain ⟨n, text, there⟩ := h
  obtain ⟨i, key, hi⟩ := there.resolve_left old
  simp only [updateIn, text, key, bound, bind, Except.bind, hi]
  exact ⟨_, rfl⟩

theorem persist_unwritable {d : Draft} (reports : st.database.reports = some t)
    (h : Unwritable t d.id d.name f) : st.persist d query time = .error f := by
  simp only [persist, reports]
  split
  · rename_i new
    rw [insertInto_unwritable query time (new ▸ h)]
  · rename_i old
    rw [updateIn_unwritable query time old h]

theorem persist_writable {d : Draft} (reports : st.database.reports = some t)
    (h : Writable t d.id d.name) :
    ∃ d' t', st.persist d query time = .ok (d', st.withReports t') := by
  simp only [persist, reports]
  split
  · rename_i new
    obtain ⟨o, ho⟩ := insertInto_writable query time (new ▸ h)
    rw [ho]
    exact ⟨_, _, rfl⟩
  · rename_i old
    obtain ⟨t', ht⟩ := updateIn_writable query time old h
    rw [ht]
    exact ⟨_, _, rfl⟩

end

-- ---------------------------------------------------------------------------
-- Saving and deleting
-- ---------------------------------------------------------------------------

/-- A save that fails is known by its cause, and so is the database it leaves. -/
theorem save_fails {d : Draft} (trails : st.database.audit = some trail) (h : st.Fails d f) :
    (st.save d).result = .error f ∧
      (st.save d).store.database = st.noting trail (f.event? d.name) := by
  cases h with
  | refused query =>
    obtain ⟨st', log, ha, hd⟩ := accept_refused trails query d.name
    rw [save_refused ha]
    exact ⟨rfl, hd⟩
  | @unwritable text t _ passes clears reports row =>
    obtain ⟨s, log, ha⟩ := accept_passed passes clears d.name
    have reports : (now { st with session := s }).2.database.reports = some t := reports
    have hp := persist_unwritable
      (d := { d with query := .str (String.ofList (Sql.stored text.toList)) })
      (String.ofList (Sql.stored text.toList)) (st.clock st.ticks) reports row
    obtain ⟨hresult, -, hstore⟩ := save_unwritten ha hp
    -- No failure to write is recorded, and the trial has used the session alone.
    have hn : f.event? d.name = none := by cases row <;> rfl
    rw [hn, noting_none trails, hstore]
    exact ⟨hresult, rfl⟩

structure Complete (db : Database) : Prop where
  reports : db.reports.isSome = true
  audit : db.audit.isSome = true

theorem save_writable {d : Draft} {t : ReportTable} (audit : st.database.audit.isSome = true)
    (passes : st.Passes d.query text) (clears : st.Clears text)
    (reports : st.database.reports = some t) (h : Writable t d.id d.name) :
    (st.save d).result = .ok () ∧ Complete (st.save d).store.database := by
  obtain ⟨s, log, ha⟩ := accept_passed passes clears d.name
  have reports : (now { st with session := s }).2.database.reports = some t := reports
  obtain ⟨d', t', hp⟩ := persist_writable
    (d := { d with query := .str (String.ofList (Sql.stored text.toList)) })
    (String.ofList (Sql.stored text.toList)) (st.clock st.ticks) reports h
  obtain ⟨hresult, -, hstore⟩ := save_written ha hp audit
  rw [hresult, hstore]
  generalize hst : withReports _ t' = stored
  have hk := stored.keeps_record (.saved d'.id d'.name)
  have haudit : stored.database.audit.isSome = true := hst ▸ audit
  have hreports : stored.database.reports.isSome = true := hst ▸ rfl
  exact ⟨rfl, hk.reports ▸ hreports, hk.audit.trans haudit⟩

theorem save_cases (h : Complete st.database) (d : Draft) :
    (∃ f, st.Fails d f) ∨ (st.save d).result = .ok () ∧ Complete (st.save d).store.database := by
  rcases st.refuses_or_passes d.query with ⟨f, hf⟩ | ⟨text, passes, clears⟩
  · exact .inl ⟨f, .refused hf⟩
  · obtain ⟨t, reports⟩ := Option.isSome_iff_exists.mp h.reports
    rcases unwritable_or_writable t d.id d.name with ⟨f, hf⟩ | hw
    · exact .inl ⟨f, .unwritable passes clears reports hf⟩
    · exact .inr (save_writable h.audit passes clears reports hw)

theorem save_error_iff (h : Complete st.database) (d : Draft) :
    (st.save d).result = .error f ↔ st.Fails d f := by
  obtain ⟨trail, trails⟩ := Option.isSome_iff_exists.mp h.audit
  constructor
  · intro hs
    rcases save_cases h d with ⟨g, hg⟩ | ⟨ho, -⟩
    · obtain rfl : g = f := by simpa [hs] using (save_fails trails hg).1.symm
      exact hg
    · simp [hs] at ho
  · intro hf
    exact (save_fails trails hf).1

theorem delete_cases (h : Complete st.database) (id : Json) :
    (∃ f, st.delete id = (.error f, st)) ∨
      (st.delete id).1 = .ok () ∧ Complete (st.delete id).2.database := by
  obtain ⟨t, reports⟩ := Option.isSome_iff_exists.mp h.reports
  simp only [delete, reportTable, reports]
  cases keyOf 1 id with
  | error fault => exact .inl ⟨_, rfl⟩
  | ok key =>
    dsimp only
    cases key.bind fun k => if t.has k then some k else none with
    | none => exact .inl ⟨_, rfl⟩
    | some k =>
      have hk := (st.withReports (t.erase k)).keeps_record (.deleted id)
      have audit : (st.withReports (t.erase k)).database.audit.isSome = true := h.audit
      exact .inr ⟨record_ok audit _, hk.reports ▸ rfl, hk.audit.trans audit⟩

end

-- ---------------------------------------------------------------------------
-- Reachable stores
-- ---------------------------------------------------------------------------

/-- What a store on a database with its tables comes to be, whatever is saved,
deleted or configured and whoever else uses the session. -/
inductive Reachable : Store → Prop
  | created (h : Complete db) (config : Config) (guard : Option Sql.Guard)
      (executor : Option Executor) (session : Engine.Session) (clock : Nat → Timestamp) :
      Reachable (create db config guard executor session clock)
  | saved {st : Store} (h : Reachable st) (d : Draft) : Reachable (st.save d).store
  | deleted {st : Store} (h : Reachable st) (id : Json) : Reachable (st.delete id).2
  | configured {st : Store} (h : Reachable st) (field : String) (value : Json) :
      Reachable { st with policy := st.policy.set field value }
  | elsewhere {st : Store} (h : Reachable st) (session : Engine.Session) :
      Reachable { st with session := session }

theorem Reachable.complete {st : Store} (h : Reachable st) : Complete st.database := by
  induction h with
  | created h => exact h
  | @saved st h d ih =>
    rcases save_cases ih d with ⟨f, hf⟩ | ⟨-, ho⟩
    · obtain ⟨trail, trails⟩ := Option.isSome_iff_exists.mp ih.audit
      rw [(save_fails trails hf).2]
      exact ⟨ih.reports, rfl⟩
    · exact ho
  | @deleted st h id ih =>
    rcases delete_cases ih id with ⟨f, hf⟩ | ⟨-, ho⟩
    · rw [hf]
      exact ih
    · exact ho
  | configured h field value ih => exact ih
  | elsewhere h session ih => exact ih

theorem complete_migrate : Complete (migrate migrations {}) := ⟨rfl, rfl⟩

/-- A save fails for the first cause that applies and changes the database by a
row in the audit trail at most, by one for a query that is too long, rejected or
refused by the engine; a deletion that fails changes nothing. -/
theorem failures_keep_reports {st : Store} (h : Reachable st) :
    (∀ d f, (st.save d).result = .error f ↔ st.Fails d f) ∧
      (∃ trail, st.database.audit = some trail ∧ ∀ d f, (st.save d).result = .error f →
        (st.save d).store.database =
          { st.database with audit := some (trail.note (f.event? d.name) (st.clock st.ticks)) }) ∧
      ∀ id f, (st.delete id).1 = .error f → (st.delete id).2 = st := by
  have hc := h.complete
  obtain ⟨trail, trails⟩ := Option.isSome_iff_exists.mp hc.audit
  refine ⟨fun d f => save_error_iff hc d, ⟨trail, trails, fun d f hs => ?_⟩, fun id f hd => ?_⟩
  · exact (save_fails trails ((save_error_iff hc d).mp hs)).2
  · rcases delete_cases hc id with ⟨g, hg⟩ | ⟨ho, -⟩
    · rw [hg]
    · simp [hd] at ho

/-- A new store that takes queries of five characters. -/
def narrow : Store := { fresh with policy := fresh.policy.set "max_query_length" (.int 5) }

/-- A draft under an id that is not there, with a query that is too long and forbidden. -/
def dropUnknown : Draft := ⟨.int 7, .str "Orders", .str "DROP TABLE t", .given .null, .given .null⟩

/-- Of several causes the first counts. -/
theorem failures_keep_reports_narrow :
    Reachable narrow ∧ (narrow.save dropUnknown).result = .error (.tooLarge (.int 5)) ∧
      (narrow.save dropUnknown).store.database.reports = narrow.database.reports ∧
      (narrow.save dropUnknown).store.auditTrail =
        [⟨1, .rejected (.str "Orders") "too_large" none, .epoch⟩] ∧
      (narrow.delete (.int 7)).1 = .error (.unknownId (.int 7)) ∧
      (narrow.delete (.int 7)).2 = narrow := by
  have h : Reachable narrow :=
    .configured (.created complete_migrate {} none none ⟨[], 0, {}, []⟩ fun _ => .epoch) _ _
  obtain ⟨hsave, ⟨trail, ht, hrow⟩, hdelete⟩ := failures_keep_reports h
  obtain rfl : {} = trail := Option.some.inj ht
  have hs : (narrow.save dropUnknown).result = .error (.tooLarge (.int 5)) :=
    (hsave _ _).mpr (.refused (.tooLarge rfl rfl))
  refine ⟨h, hs, ?_, ?_, rfl, hdelete _ _ rfl⟩
  · rw [hrow _ _ hs]
  · rw [auditTrail, hrow _ _ hs]
    rfl

end SafeReports.Store
