import SafeReports.Proofs.Engine.Checked

/-!
# Errors of the engine

A refusal of the engine is to be seen as a failed execution with a readable
message, any other error as it is. A trial sees to that wherever the engine fails.
A stream does so for the execution of its query alone: the error of a fetch,
the first or a later one, passes as it is, refusals too.
-/

namespace SafeReports.Engine

open Executor (Stream Pulled)
open Sql (Arrangement)

/-- Where the engine can fail while a query runs. -/
inductive Site
  | execute
  | fetch (number : Nat)

/-- The engine can fail there with nothing fetched before. -/
def Site.IsFirst : Site → Prop
  | execute => True
  | fetch number => number = 0

namespace Reply

/-- A cursor is to be had, and closing it succeeds. -/
structure Quiet (p : Reply) : Prop where
  cursor : p.cursorError = none
  close : p.closeError = none

def FailsAt (p : Reply) (err : Error) : Site → Prop
  | .execute => p.executeError = some err
  | .fetch number => p.executeError = none ∧ p.fetchError = some err ∧ p.fetchErrorAt = number

/-- Every batch that is fetched before has rows in it. -/
def Reaches (p : Reply) (batch : Int) : Site → Prop
  | .execute => True
  | .fetch number => ∀ i < number, (p.rows.drop (i * batch.toNat)).take batch.toNat ≠ []

end Reply

-- ---------------------------------------------------------------------------
-- What is seen of an error
-- ---------------------------------------------------------------------------

/-- What users of reports are to see of an error. -/
structure Error.IsSeenAs (err : Error) (f : Failure) : Prop where
  refusal : err.kind.isRefusal = true → f = .execution err.complaint.readable
  other : err.kind.isRefusal = false → f = .raw err

theorem Error.isSeenAs_failureOf (err : Error) : err.IsSeenAs (Executor.failureOf err) where
  refusal h := if_pos h
  other h := if_neg (by simp [h])

theorem Error.isSeenAs_raw_iff {err : Error} :
    err.IsSeenAs (.raw err) ↔ err.kind.isRefusal = false := by
  constructor
  · intro h
    by_contra hr
    exact nomatch h.refusal (by simpa using hr)
  · intro h
    exact ⟨fun hr => by simp [h] at hr, fun _ => rfl⟩

/-- What a stream passes on of an error. -/
def Site.failure (err : Error) : Site → Failure
  | execute => Executor.failureOf err
  | fetch _ => .raw err

theorem Site.isSeenAs_failure_iff {site : Site} {err : Error} :
    err.IsSeenAs (site.failure err) ↔ site = .execute ∨ err.kind.isRefusal = false := by
  cases site with
  | execute => exact iff_of_true err.isSeenAs_failureOf (.inl rfl)
  | fetch number => exact Error.isSeenAs_raw_iff.trans (by simp)

-- ---------------------------------------------------------------------------
-- One step of a stream
-- ---------------------------------------------------------------------------

namespace Executor

variable {e : Executor} {s : Session} {err : Error}

theorem prepare_of_allows (h : e.Allows query a) : ∃ sql, (e.prepare query a).1 = .ok sql := by
  obtain ⟨hv, hw⟩ := h
  obtain ⟨q, rfl⟩ := Sql.Guard.validate_text hv
  obtain ⟨sql, hw⟩ := (Sql.wrap_ok_iff (q := q) (a := e.limited a)).mpr hw
  exact ⟨sql, prepare_of_wrap hv hw⟩

theorem closeAfter_result {c : Cursor} (hc : c.reply.closeError = none)
    (result : Except Failure α) (s : Session) : (closeAfter c result s).1 = result := by
  simp [closeAfter, Cursor.close, Cursor.outcome, hc]

theorem finish_result {c : Cursor} (hc : c.reply.closeError = none)
    (result : Except Failure (Option Json.Members)) (s : Session) (log : List LogRecord) :
    (finish c result s log).1.result = result :=
  closeAfter_result hc result s

theorem pull_fault {c : Cursor} (hc : c.reply.closeError = none) (hf : c.fetchFault? = some err)
    (columns : List String) (batch : Int) (s : Session) (log : List LogRecord) :
    (pull c columns [] batch s log).1.result = .error (.raw err) := by
  simp only [pull, Cursor.fetchMany, hf]
  exact finish_result hc _ _ _

theorem next_fresh (h : e.Allows query a) (hc : s.opened.reply.cursorError = none) (batch : Int) :
    ∃ s' log, e.next (.fresh query a batch) s =
      match s.opened.reply.executeError with
      | some err => finish s.opened (.error (failureOf err)) s' log
      | none => pull s.opened (s.opened.reply.columns.getD []) [] batch s' log := by
  obtain ⟨sql, hp⟩ := prepare_of_allows h
  have hb := e.begins_next query a batch s
  generalize e.next (.fresh query a batch) s = o at hb ⊢
  cases hb with
  | unprepared prepared => simp [hp] at prepared
  | denied _ cursor => simp [hc] at cursor
  | refused _ _ executed | reads _ _ executed => exact ⟨_, _, by rw [executed]⟩

/-- The next step of a stream fails. -/
inductive FailsNext (e : Executor) (s : Session) (err : Error) : Stream → Site → Prop
  | fresh (allowed : e.Allows query a) (quiet : s.opened.reply.Quiet)
      (fails : s.opened.reply.FailsAt err site) (first : site.IsFirst) :
      FailsNext e s err (.fresh query a batch) site
  | reading (close : c.reply.closeError = none) (fault : c.fetchFault? = some err) :
      FailsNext e s err (.reading c columns [] batch) (.fetch c.fetches)

theorem next_fault (h : FailsNext e s err stream site) :
    (e.next stream s).1.result = .error (site.failure err) := by
  cases h with
  | reading close fault => exact pull_fault close fault _ _ _ _
  | fresh allowed quiet fails first =>
    obtain ⟨s', log, hn⟩ := next_fresh allowed quiet.cursor _
    rw [hn]
    cases site with
    | execute =>
      have hx : s.opened.reply.executeError = some err := fails
      rw [hx]
      exact finish_result quiet.close _ _ _
    | fetch number =>
      obtain ⟨hx, hf, hk⟩ := fails
      obtain rfl : number = 0 := first
      rw [hx]
      exact pull_fault quiet.close ((if_pos hk.symm).trans hf) _ _ _ _

-- ---------------------------------------------------------------------------
-- Streams up to an error
-- ---------------------------------------------------------------------------

/-- The fetches to come lead to the one that fails. -/
structure Dooms (err : Error) (batch : Int) (c : Cursor) : Prop where
  close : c.reply.closeError = none
  fetch : c.reply.fetchError = some err
  reached : ∃ m, c.reply.fetchErrorAt = c.fetches + m ∧
    ∀ i < m, (c.unread.drop (i * batch.toNat)).take batch.toNat ≠ []

/-- A step that fails, or gives a row with the failure still to come. -/
def Heads (err : Error) (batch : Int) (o : Pulled) : Prop :=
  o.1.result = .error (.raw err) ∨
    ∃ row c columns pending, o.1.result = .ok (some row) ∧
      o.2 = .reading c columns pending batch ∧ Dooms err batch c

theorem heads_pull {c : Cursor} (h : Dooms err batch c) (columns : List String)
    (pending : List Tuple) (s : Session) (log : List LogRecord) :
    Heads err batch (pull c columns pending batch s log) := by
  cases pending with
  | cons values rest => exact .inr ⟨_, c, columns, rest, rfl, rfl, h⟩
  | nil =>
    obtain ⟨hc, hf, m, hm, hrows⟩ := h
    -- The fetch that fails is this one, or this batch has rows and it is one nearer.
    cases m with
    | zero => exact .inl (pull_fault hc (by simp [Cursor.fetchFault?, hm, hf]) _ _ _ _)
    | succ m =>
      have hnone : c.fetchFault? = none := if_neg (by omega)
      obtain ⟨values, rest, hu⟩ : ∃ values rest, c.unread.take batch.toNat = values :: rest :=
        List.exists_cons_of_ne_nil (by simpa using hrows 0 (Nat.succ_pos m))
      simp only [pull, Cursor.fetchMany, hnone, hu]
      refine .inr ⟨_, _, columns, rest, rfl, rfl, hc, hf, m, by simp only; omega, fun i hi => ?_⟩
      simpa [Nat.add_mul, Nat.add_comm] using hrows (i + 1) (Nat.succ_lt_succ hi)

theorem drain_heads (h : Heads err batch (e.next stream s)) (hl : left s stream < fuel) :
    (e.drain fuel stream s).2.result = .error (.raw err) := by
  -- What is left bounds the rows that come before the fetch that fails.
  induction fuel generalizing s stream with
  | zero => omega
  | succ fuel ih =>
    have ha := advances_next e stream s
    rcases hn : e.next stream s with ⟨⟨result, s', log⟩, stream'⟩
    rw [hn] at h ha
    simp only [drain, hn]
    rcases h with hr | ⟨row, c, columns, pending, hr, hstream, hd⟩
    · obtain rfl : result = .error (.raw err) := hr
      rfl
    · obtain rfl : result = .ok (some row) := hr
      obtain rfl : stream' = .reading c columns pending batch := hstream
      rcases ha with ⟨-, -, -, hl'⟩ | ⟨-, ha⟩
      · exact ih (heads_pull hd columns pending s' [])
          (Nat.lt_of_lt_of_le hl' (Nat.le_of_lt_succ hl))
      · cases ha

theorem rows_fault (h : e.Allows query a) (hq : s.opened.reply.Quiet)
    (hf : s.opened.reply.FailsAt err site) (hr : s.opened.reply.Reaches batch site) :
    (e.rows query a batch s).2.result = .error (site.failure err) := by
  cases site with
  | execute =>
    have hn : (e.next (.fresh query a batch) s).1.result = _ := next_fault (.fresh h hq hf trivial)
    rcases ho : e.next (.fresh query a batch) s with ⟨⟨result, s', log⟩, stream'⟩
    obtain rfl : result = .error (Site.execute.failure err) := by simpa [ho] using hn
    simp only [rows, drain, ho]
  | fetch number =>
    obtain ⟨s', log, hn⟩ := next_fresh h hq.cursor batch
    obtain ⟨hx, hf, hk⟩ := hf
    have hd : Dooms err batch s.opened :=
      ⟨hq.close, hf, number, hk.trans (Nat.zero_add number).symm, hr⟩
    have hh : Heads err batch (e.next (.fresh query a batch) s) := by
      rw [hn, hx]
      exact heads_pull hd _ _ _ _
    exact drain_heads hh (Nat.lt_succ_self _)

theorem runAll_fault {c : Cursor} (hf : c.reply.FailsAt err site) (hs : site.IsFirst)
    (hc : c.fetches = 0) (sql : String) (s : Session) : (runAll c sql s).1 = .error err := by
  cases site with
  | execute =>
    have hf : c.reply.executeError = some err := hf
    simp [runAll, Cursor.execute, Cursor.outcome, hf]
  | fetch number =>
    obtain ⟨hx, hf, hk⟩ := hf
    obtain rfl : number = 0 := hs
    simp [runAll, Cursor.execute, Cursor.outcome, Cursor.fetchAll, Cursor.fetchFault?, hx, hf,
      hk, hc]

theorem check_fault (h : (e.guard.validate query).1 = none) (hq : s.opened.reply.Quiet)
    (hf : s.opened.reply.FailsAt err site) (hs : site.IsFirst) :
    (e.check query s).result = .error (failureOf err) := by
  have ha : e.Allows query ⟨some (.rows 1), none, some "DESC"⟩ := by
    refine ⟨h, ⟨_, rfl, .inr (by decide +kernel)⟩, fun l hl => ?_⟩
    obtain rfl : .rows 1 = l := Option.some.inj hl
    exact ⟨Int.zero_lt_one, by decide⟩
  obtain ⟨sql, hp⟩ := prepare_of_allows ha
  rcases hg : e.prepare query ⟨some (.rows 1), none, some "DESC"⟩ with ⟨prepared, log⟩
  obtain rfl : prepared = .ok sql := by simpa [hg] using hp
  have hrun := runAll_fault hf hs rfl sql s.advance
  simp only [check, hg, Session.cursor_eq, hq.cursor]
  rcases hr : runAll s.opened sql s.advance with ⟨fetched, s'⟩
  obtain rfl : fetched = .error err := by rw [hr] at hrun; exact hrun
  exact closeAfter_result hq.close _ _

end Executor

/-- What becomes of an error of the engine when closing succeeds: a trial shows it
as users are to see it, a stream does so unless a fetch was refused. -/
theorem faults_seen_iff (e : Executor) (s : Session) (err : Error) :
    (∀ query site, (e.guard.validate query).1 = none → s.opened.reply.Quiet →
      s.opened.reply.FailsAt err site → site.IsFirst →
        ∃ f, (e.check query s).result = .error f ∧ err.IsSeenAs f) ∧
      (∀ query a batch site, e.Allows query a → s.opened.reply.Quiet →
        s.opened.reply.FailsAt err site → s.opened.reply.Reaches batch site →
          ∃ f, (e.rows query a batch s).2.result = .error f ∧
            (err.IsSeenAs f ↔ site = .execute ∨ err.kind.isRefusal = false)) ∧
      ∀ stream site, Executor.FailsNext e s err stream site →
        ∃ f, (e.next stream s).1.result = .error f ∧
          (err.IsSeenAs f ↔ site = .execute ∨ err.kind.isRefusal = false) := by
  refine ⟨fun query site h hq hf hs => ?_, fun query a batch site h hq hf hr => ?_,
    fun stream site h => ?_⟩
  · exact ⟨_, Executor.check_fault h hq hf hs, err.isSeenAs_failureOf⟩
  · exact ⟨_, Executor.rows_fault h hq hf hr, Site.isSeenAs_failure_iff⟩
  · exact ⟨_, Executor.next_fault h, Site.isSeenAs_failure_iff⟩

def locked : Error := ⟨.operational, ⟨"database is locked", none, none⟩⟩

/-- A result of two rows of which a fetch is refused. -/
def lockedAt (number : Nat) : Reply :=
  { columns := some ["a"], rows := [[.int 1], [.int 2]], fetchError := some locked,
    fetchErrorAt := number }

theorem lockedAt_quiet (number : Nat) : (lockedAt number).Quiet := ⟨rfl, rfl⟩

theorem lockedAt_failsAt (number : Nat) : (lockedAt number).FailsAt locked (.fetch number) :=
  ⟨rfl, rfl, rfl⟩

theorem select_allowed : Executor.Allows {} (some "SELECT 1") ⟨none, none, some "DESC"⟩ :=
  ⟨by decide +kernel, ⟨_, rfl, .inr (by decide +kernel)⟩, nofun⟩

/-- A trial whose fetch is refused, a stream whose second fetch is, and the same
stream suspended before it. -/
theorem faults_seen_iff_locked :
    (({} : Executor).guard.validate (some "SELECT 1")).1 = none ∧ (lockedAt 0).Quiet ∧
      (lockedAt 0).FailsAt locked (.fetch 0) ∧ (Site.fetch 0).IsFirst ∧
      (∃ f, (({} : Executor).check (some "SELECT 1") (.ofScript [lockedAt 0])).result = .error f ∧
        locked.IsSeenAs f) ∧
      Executor.Allows {} (some "SELECT 1") ⟨none, none, some "DESC"⟩ ∧ (lockedAt 1).Quiet ∧
      (lockedAt 1).FailsAt locked (.fetch 1) ∧ (lockedAt 1).Reaches 1 (.fetch 1) ∧
      (∃ f, (({} : Executor).rows (some "SELECT 1") ⟨none, none, some "DESC"⟩ 1
          (.ofScript [lockedAt 1])).2.result = .error f ∧ ¬ locked.IsSeenAs f) ∧
      Executor.FailsNext {} (.ofScript []) locked
        (.reading ⟨0, lockedAt 1, [[.int 2]], 1⟩ ["a"] [] 1) (.fetch 1) ∧
      ∃ f, (({} : Executor).next (.reading ⟨0, lockedAt 1, [[.int 2]], 1⟩ ["a"] [] 1)
        (.ofScript [])).1.result = .error f ∧ ¬ locked.IsSeenAs f := by
  have hr : (lockedAt 1).Reaches 1 (.fetch 1) := fun i hi => by
    obtain rfl : i = 0 := by omega
    exact nofun
  have hn : Executor.FailsNext {} (.ofScript []) locked
      (.reading ⟨0, lockedAt 1, [[.int 2]], 1⟩ ["a"] [] 1) (.fetch 1) := .reading rfl rfl
  have hno : ¬ (Site.fetch 1 = .execute ∨ locked.kind.isRefusal = false) := by
    rintro (h | h) <;> cases h
  obtain ⟨hcheck, -, -⟩ := faults_seen_iff {} (.ofScript [lockedAt 0]) locked
  obtain ⟨-, hrows, -⟩ := faults_seen_iff {} (.ofScript [lockedAt 1]) locked
  obtain ⟨-, -, hnext⟩ := faults_seen_iff {} (.ofScript []) locked
  obtain ⟨f, hf, hseen⟩ :=
    hrows _ _ 1 (.fetch 1) select_allowed (lockedAt_quiet 1) (lockedAt_failsAt 1) hr
  obtain ⟨g, hg, hseen'⟩ := hnext _ _ hn
  exact ⟨select_allowed.1, lockedAt_quiet 0, lockedAt_failsAt 0, rfl,
    hcheck _ (.fetch 0) select_allowed.1 (lockedAt_quiet 0) (lockedAt_failsAt 0) rfl,
    select_allowed, lockedAt_quiet 1, lockedAt_failsAt 1, hr,
    ⟨f, hf, fun h => hno (hseen.mp h)⟩, hn, g, hg, fun h => hno (hseen'.mp h)⟩

/-- The refusal of the first fetch is seen as it is. -/
theorem fetch_refusal_raw :
    Executor.Allows {} (some "SELECT 1") ⟨none, none, some "DESC"⟩ ∧ (lockedAt 0).Quiet ∧
      (lockedAt 0).FailsAt locked (.fetch 0) ∧ locked.kind.isRefusal = true ∧
      (({} : Executor).rows (some "SELECT 1") ⟨none, none, some "DESC"⟩ 500
        (.ofScript [lockedAt 0])).2.result = .error (.raw locked) ∧
      ¬ locked.IsSeenAs (.raw locked) := by
  have hf := Executor.rows_fault (s := .ofScript [lockedAt 0]) select_allowed (lockedAt_quiet 0)
    (lockedAt_failsAt 0) (show (lockedAt 0).Reaches 500 (.fetch 0) from nofun)
  exact ⟨select_allowed, lockedAt_quiet 0, lockedAt_failsAt 0, rfl, hf,
    fun h => nomatch Error.isSeenAs_raw_iff.mp h⟩

end SafeReports.Engine
