import SafeReports.Proofs.Store.Refusal

/-!
# What a failed save leaves of a draft

A save that is refused leaves the draft as it was. One that passes all checks puts
the stored query into the draft first and writes then, so a report that cannot be
written keeps that query: under an unknown id, say. The other fields are changed
with the row, and only a missing audit trail makes a save fail after that.
-/

namespace SafeReports

/-- A draft with a query as it is stored. -/
def Draft.storing (d : Draft) (text : String) : Draft :=
  { d with query := .str (String.ofList (Sql.stored text.toList)) }

theorem Draft.storing_eq_self_iff {d : Draft} (isText : d.query = .str text) :
    d.storing text = d ↔ Sql.stored text.toList = text.toList := by
  constructor
  · intro h
    have hq : (d.storing text).query = .str text := by rw [h, isText]
    have hs : String.ofList (Sql.stored text.toList) = text := Json.str.inj hq
    rw [← String.toList_ofList (l := Sql.stored text.toList), hs]
  · intro h
    obtain ⟨id, name, query, created, updated⟩ := d
    obtain rfl : query = .str text := isText
    rw [storing, h, String.ofList_toList]

namespace Store

-- ---------------------------------------------------------------------------
-- Writing to any database
-- ---------------------------------------------------------------------------

section
variable {st : Store} {d d' : Draft} {t t' : ReportTable}

theorem Writes.writable (h : Writes t d query time d' t') : Writable t d.id d.name := by
  cases h with
  | new id name => exact ⟨_, name, .inl id⟩
  | old id name key there => exact ⟨_, name, .inr ⟨_, key, there⟩⟩

/-- The draft is changed with its row: it gets the time, and a new one its id. -/
theorem Writes.eq_iff (h : Writes t (d.storing text) query time d' t') :
    d' = d ↔ d.storing text = d ∧ d.id ≠ .null ∧ d.updatedAt = .moment time := by
  obtain ⟨id, name, query, created, updated⟩ := d
  cases h with
  | new new =>
    obtain rfl : id = .null := new
    simp [Draft.storing]
  | old old =>
    have old : id ≠ .null := old
    simp [Draft.storing, old, eq_comm]

theorem not_writable_of_persist (h : st.persist d query time = .error f)
    (reports : st.database.reports = some t) : ¬ Writable t d.id d.name := by
  intro writable
  obtain ⟨d', t', written⟩ := persist_writable query time reports writable
  rw [h] at written
  cases written

end

-- ---------------------------------------------------------------------------
-- Failed saves
-- ---------------------------------------------------------------------------

/-- How far a failed save comes, and the draft that it leaves. -/
inductive Stops (st : Store) (d : Draft) : Draft → Prop
  | refused (unpassed : ∀ text, st.Passes d.query text → ¬ st.Clears text) : Stops st d d
  | unwritten (passes : st.Passes d.query text) (clears : st.Clears text)
      (row : ∀ t, st.database.reports = some t → ¬ Writable t d.id d.name) :
      Stops st d (d.storing text)
  | unrecorded (passes : st.Passes d.query text) (clears : st.Clears text)
      (trail : st.database.audit = none) (reports : st.database.reports = some t)
      (row : Writes t (d.storing text) query (st.clock st.ticks) d' t') : Stops st d d'

section
variable {st : Store} {d : Draft}

theorem tryOut_ok {query : String} (h : (st.tryOut name query).1 = .ok text) :
    text = query ∧ st.Clears query := by
  unfold tryOut at h
  split at h
  · rename_i without
    refine ⟨(Except.ok.inj h).symm, fun e executor => ?_⟩
    rw [without] at executor
    cases executor
  · rename_i e executor
    split at h
    · dsimp only at h
      split at h
      · rename_i result
        refine ⟨(Except.ok.inj h).symm, fun e' executor' _ => ?_⟩
        obtain rfl := Option.some.inj (executor.symm.trans executor')
        exact result
      · exact absurd h (refuse_error _ _ _ _)
      · cases h
    · rename_i off
      exact ⟨(Except.ok.inj h).symm, fun _ _ due => absurd due off⟩

theorem accept_ok (h : (st.accept name query).1 = .ok text) :
    st.Passes query text ∧ st.Clears text := by
  cases on : st.policy.enabled with
  | false => simp [accept, on] at h
  | true =>
    rcases length : st.tooLong? query with _ | ⟨_ | _⟩
    · rw [tooLong?] at length
      simp [accept, on, length] at h
    · rcases hv : st.guard.validate (textOf? query) with ⟨_ | v, log⟩
      · simp only [accept_short on length, hv] at h
        obtain ⟨rfl, clears⟩ := tryOut_ok h
        obtain ⟨q, ht⟩ := Sql.Guard.validate_text (congrArg Prod.fst hv)
        rw [ht] at hv clears ⊢
        exact ⟨⟨on, textOf?_eq_some ht, length, congrArg Prod.fst hv⟩, clears⟩
      · simp only [accept_short on length, hv] at h
        exact absurd h (refuse_error _ _ _ _)
    · rw [tooLong?] at length
      simp only [accept, on, length] at h
      exact absurd h (refuse_error _ _ _ _)

theorem stops_save (failed : (st.save d).result = .error f) : st.Stops d (st.save d).draft := by
  rcases ha : st.accept d.name d.query with ⟨_ | text, st', log⟩
  · rw [save_refused ha]
    refine .refused fun text passes clears => ?_
    obtain ⟨s, log, passed⟩ := accept_passed passes clears d.name
    rw [ha] at passed
    cases passed
  · obtain ⟨passes, clears⟩ := accept_ok (congrArg Prod.fst ha)
    obtain ⟨s, log, ha⟩ := accept_passed passes clears d.name
    cases hp : (now { st with session := s }).2.persist (d.storing text)
        (String.ofList (Sql.stored text.toList)) (st.clock st.ticks) with
    | error e =>
      obtain ⟨-, hdraft, -⟩ := save_unwritten ha hp
      rw [hdraft]
      exact .unwritten passes clears fun t reports =>
        not_writable_of_persist (d := d.storing text) hp reports
    | ok written =>
      obtain ⟨d', stored⟩ := written
      obtain ⟨hresult, hdraft, -⟩ := save_stored ha hp
      obtain ⟨t, t', reports, row, rfl⟩ := persist_writes hp
      have trail : st.database.audit = none := by
        cases trail : st.database.audit with
        | none => rfl
        | some trail' =>
          have audit : ((now { st with session := s }).2.withReports t').database.audit.isSome =
              true := by
            show st.database.audit.isSome = true
            rw [trail]
            rfl
          rw [hresult, record_ok audit] at failed
          cases failed
      rw [hdraft]
      exact .unrecorded passes clears trail reports row

/-- A save that fails leaves the draft as it was, unless its query passes and is not
stored as it stands, or only the audit trail fails. Where there is an audit trail, the
draft is left as it was or with the stored query. -/
theorem failed_save_keeps_iff (failed : (st.save d).result = .error f) :
    ((st.save d).draft = d ↔ ∀ text, st.Passes d.query text → st.Clears text →
        Sql.stored text.toList = text.toList ∧
          ∀ t, st.database.reports = some t → Writable t d.id d.name →
            d.id ≠ .null ∧ d.updatedAt = .moment (st.clock st.ticks)) ∧
      (st.database.audit.isSome = true →
        (st.save d).draft = d ∨
          ∃ text, st.Passes d.query text ∧ (st.save d).draft = d.storing text) := by
  have stops := stops_save failed
  generalize (st.save d).draft = left at stops ⊢
  cases stops with
  | refused unpassed =>
    refine ⟨⟨fun _ text passes clears => absurd clears (unpassed text passes), fun _ => rfl⟩, ?_⟩
    exact fun _ => .inl rfl
  | @unwritten text passes clears row =>
    refine ⟨?_, fun _ => .inr ⟨text, passes, rfl⟩⟩
    rw [Draft.storing_eq_self_iff passes.isText]
    constructor
    · intro stored text' passes' clears'
      obtain rfl : text = text' := Json.str.inj (passes.isText.symm.trans passes'.isText)
      exact ⟨stored, fun t reports writable => absurd writable (row t reports)⟩
    · exact fun h => (h text passes clears).1
  | @unrecorded text t query d' t' passes clears trail reports row =>
    refine ⟨?_, fun audit => by simp [trail] at audit⟩
    rw [row.eq_iff, Draft.storing_eq_self_iff passes.isText]
    constructor
    · rintro ⟨stored, changed⟩ text' passes' clears'
      obtain rfl : text = text' := Json.str.inj (passes.isText.symm.trans passes'.isText)
      exact ⟨stored, fun _ _ _ => changed⟩
    · intro h
      obtain ⟨stored, changed⟩ := h text passes clears
      exact ⟨stored, changed t reports row.writable⟩

end

/-- A report under an id that no report has. -/
def ghost (query : String) : Draft := .ofReport ⟨some 42, "Ghost", query, none, none⟩

theorem failed_save_keeps_iff_trimmed :
    (fresh.save (ghost "SELECT 1")).result = .error (.unknownId (.int 42)) ∧
      (fresh.save (ghost "SELECT 1")).draft = ghost "SELECT 1" := by
  have failed : (fresh.save (ghost "SELECT 1")).result = .error (.unknownId (.int 42)) := rfl
  refine ⟨failed, (failed_save_keeps_iff failed).1.mpr fun text passes _ => ?_⟩
  obtain rfl : "SELECT 1" = text := Json.str.inj passes.isText
  refine ⟨by decide +kernel, fun t reports writable => ?_⟩
  obtain rfl : {} = t := Option.some.inj reports
  obtain ⟨_, _, new | ⟨i, _, there⟩⟩ := writable
  · cases new
  · cases there

/-- The separator at the end of the query is gone, though nothing has been saved. -/
theorem unknown_id_alters_query :
    (fresh.save (ghost "SELECT 1;")).result = .error (.unknownId (.int 42)) ∧
      (fresh.save (ghost "SELECT 1;")).draft = ghost "SELECT 1" ∧
      (fresh.save (ghost "SELECT 1;")).draft ≠ ghost "SELECT 1;" := by
  have left : (fresh.save (ghost "SELECT 1;")).draft = ghost "SELECT 1" := rfl
  refine ⟨rfl, left, ?_⟩
  rw [left]
  simp [ghost, Draft.ofReport]

end Store

end SafeReports
