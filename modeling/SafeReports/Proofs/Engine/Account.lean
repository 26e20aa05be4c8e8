import SafeReports.Engine.Workbench

/-!
# Accounts

A stream deals with the engine on one cursor: it takes it, executes a text once,
fetches, and closes it when it ends. The account of a stream is what it has
called and given so far, as its state tells it. Every step of a stream keeps the
account, whatever else is done on the session in between; a trial and a whole
table are streams that begin and end in one step.
-/

namespace SafeReports.Engine

open Executor (Stream rowOf)
open Sql (Arrangement)

def Call.isFetch : Call → Bool
  | .fetchAll | .fetchMany _ => true
  | _ => false

/-- Calls on the cursor of a number. -/
def callsOn (number : Nat) (calls : List Call) : List (Nat × Call) := calls.map (number, ·)

@[simp] theorem mem_callsOn {calls : List Call} :
    (n, call) ∈ callsOn number calls ↔ n = number ∧ call ∈ calls := by
  simp only [callsOn, List.mem_map, Prod.mk.injEq]
  constructor
  · rintro ⟨_, hc, rfl, rfl⟩
    exact ⟨rfl, hc⟩
  · rintro ⟨rfl, hc⟩
    exact ⟨call, hc, rfl, rfl⟩

/-- The reply that the cursor of a number has; behind the script it is empty. -/
def replyAt (script : List Reply) (number : Nat) : Reply := (script[number]?).getD {}

def Reply.results (p : Reply) : List Json.Members := p.rows.map (rowOf (p.columns.getD []))

-- ---------------------------------------------------------------------------
-- Sessions
-- ---------------------------------------------------------------------------

namespace Session

/-- The session has taken its cursors from the script. -/
def Follows (s : Session) (script : List Reply) : Prop := s.script = script.drop s.taken

def advance (s : Session) : Session :=
  ⟨s.script.tail, s.taken + 1, s.script.headD {}, s.trace ++ [(s.taken, .cursor)]⟩

/-- The cursor that is taken next. -/
def opened (s : Session) : Cursor := ⟨s.taken, s.script.headD {}, (s.script.headD {}).rows, 0⟩

theorem cursor_eq (s : Session) : s.cursor =
    (match s.opened.reply.cursorError with
      | some e => .error e
      | none => .ok s.opened,
    s.advance) := by
  simp only [cursor, advance, opened]
  cases (s.script.headD {}).cursorError <;> rfl

variable {script : List Reply}

theorem Follows.opened {s : Session} (h : s.Follows script) :
    s.opened.reply = replyAt script s.taken := by
  rw [Session.opened, h, List.headD_eq_head?_getD, List.head?_drop, replyAt]

theorem Follows.advance {s : Session} (h : s.Follows script) : s.advance.Follows script := by
  simp only [Follows, Session.advance] at h ⊢
  rw [h, List.tail_drop]

theorem Follows.record {s : Session} (h : s.Follows script) (n : Nat) (c : Call) :
    (s.record n c).Follows script := h

end Session

-- ---------------------------------------------------------------------------
-- Accounts
-- ---------------------------------------------------------------------------

namespace Request

/-- What is to be run for a request, if it is not about a stream that was begun
before. -/
def asked? : Request → Option (Option String × Arrangement)
  | check query => some (query, ⟨some (.rows 1), none, some "DESC"⟩)
  | rows query a _ | start _ query a _ | table query a => some (query, a)
  | next _ | close _ => none

def isTable : Request → Bool
  | table .. => true
  | _ => false

end Request

def Executor.Runs (e : Executor) (r : Request) (sql : String) : Prop :=
  ∃ query a, r.asked? = some (query, a) ∧ (e.prepare query a).1 = .ok sql

section
variable (e : Executor) (script : List Reply) (r : Request)

/-- The calls that were made and the rows that were given for a request, up to
the state of its stream. -/
inductive Account : Stream → List (Nat × Call) → List Json.Members → Prop
  | fresh (asked : r.asked? = some (query, a)) : Account (.fresh query a batch) [] []
  /-- It ended without a call. -/
  | idle : Account .over [] []
  /-- The engine had no cursor to give. -/
  | denied (runs : e.Runs r sql) (error : (replyAt script n).cursorError ≠ none) :
      Account .over (callsOn n [.cursor]) []
  | reading (runs : e.Runs r sql) (fetches : ∀ call ∈ calls, call.isFetch = true)
      (reply : c.reply = replyAt script c.number)
      (rows : given ++ (pending ++ c.unread).map (rowOf columns) =
        (replyAt script c.number).results) :
      Account (.reading c columns pending batch)
        (callsOn c.number (.cursor :: .execute sql :: calls)) given
  | closed (runs : e.Runs r sql) (fetches : ∀ call ∈ calls, call.isFetch = true)
      (rows : given <+: (replyAt script n).results) :
      Account .over (callsOn n (.cursor :: .execute sql :: calls ++ [.close])) given
  | table (runs : e.Runs r sql) (whole : r.isTable = true)
      (others : ∀ call ∈ calls, ∀ text, call ≠ .execute text) :
      Account .over (callsOn n (.cursor :: .execute sql :: calls)) []

/-- A step from one state of a stream to another keeps the account; cursors that
it takes are new. -/
structure Keeps (s s' : Session) (stream stream' : Stream) (calls : List (Nat × Call))
    (given : List Json.Members) : Prop where
  trace : s'.trace = s.trace ++ calls
  follows : s'.Follows script
  taken : s.taken ≤ s'.taken
  fresh : ∀ n, (n, .cursor) ∈ calls → s.taken ≤ n ∧ n < s'.taken
  account : ∀ before rows, Account e script r stream before rows →
    Account e script r stream' (before ++ calls) (rows ++ given)

end

variable {e : Executor} {script : List Reply} {r : Request}

theorem Keeps.refl {s : Session} (h : s.Follows script) (stream : Stream) :
    Keeps e script r s s stream stream [] [] :=
  ⟨by simp, h, Nat.le_refl _, nofun, fun before rows ha => by simpa using ha⟩

theorem Keeps.trans (h : Keeps e script r s s' σ σ' calls given)
    (h' : Keeps e script r s' s'' σ' σ'' calls' given') :
    Keeps e script r s s'' σ σ'' (calls ++ calls') (given ++ given') where
  trace := by rw [h'.trace, h.trace, List.append_assoc]
  follows := h'.follows
  taken := Nat.le_trans h.taken h'.taken
  fresh n hn := by
    rcases List.mem_append.mp hn with hn | hn
    · exact ⟨(h.fresh n hn).1, Nat.lt_of_lt_of_le (h.fresh n hn).2 h'.taken⟩
    · exact ⟨Nat.le_trans h.taken (h'.fresh n hn).1, (h'.fresh n hn).2⟩
  account before rows ha := by
    simpa only [List.append_assoc] using h'.account _ _ (h.account _ _ ha)

theorem Keeps.silent {s : Session} (h : s.Follows script)
    (account : ∀ before rows, Account e script r σ before rows →
      Account e script r σ' before rows) : Keeps e script r s s σ σ' [] [] :=
  ⟨by simp, h, Nat.le_refl _, nofun, fun before rows ha => by simpa using account before rows ha⟩

-- ---------------------------------------------------------------------------
-- Steps of a stream
-- ---------------------------------------------------------------------------

namespace Executor

theorem closeAfter_session (c : Cursor) (result : Except Failure α) (s : Session) :
    (closeAfter c result s).2 = s.record c.number .close := by
  simp only [closeAfter, Cursor.close]
  cases c.reply.closeError <;> rfl

/-- Calls on the next cursor, from a session that takes it. -/
theorem fresh_callsOn {s s' : Session} (ht : s'.taken = s.taken + 1)
    (h : (n, call) ∈ callsOn s.taken calls) : s.taken ≤ n ∧ n < s'.taken := by
  obtain ⟨rfl, -⟩ := mem_callsOn.mp h
  exact ⟨Nat.le_refl _, ht ▸ Nat.lt_succ_self _⟩

theorem keeps_execute {s : Session} (h : s.Follows script) (hp : (e.prepare query a).1 = .ok sql)
    (batch batch' : Int) :
    Keeps e script r s (s.advance.record s.taken (.execute sql)) (.fresh query a batch)
      (.reading s.opened (s.opened.reply.columns.getD []) [] batch')
      (callsOn s.taken [.cursor, .execute sql]) [] where
  trace := by simp [Session.record, Session.advance, callsOn]
  follows := h.advance.record _ _
  taken := Nat.le_succ _
  fresh _ := fresh_callsOn rfl
  account before rows ha := by
    cases ha with
    | fresh asked =>
      refine .reading ⟨query, a, asked, hp⟩ (List.forall_mem_nil _) h.opened ?_
      rw [show s.opened.number = s.taken from rfl, ← h.opened]
      rfl

theorem keeps_give {s : Session} (h : s.Follows script) (c : Cursor) (columns : List String)
    (values : Tuple) (rest : List Tuple) (batch : Int) :
    Keeps e script r s s (.reading c columns (values :: rest) batch) (.reading c columns rest batch)
      [] [rowOf columns values] where
  trace := by simp
  follows := h
  taken := Nat.le_refl _
  fresh := nofun
  account before rows ha := by
    cases ha with
    | reading runs fetches reply results =>
      rw [List.append_nil]
      exact .reading runs fetches reply (by simpa using results)

/-- A stream that fetches: what it then holds comes from the front of what was
unread. -/
theorem keeps_fetch {s : Session} (h : s.Follows script) {call : Call}
    (hcall : call.isFetch = true) (c c' : Cursor) (hn : c'.number = c.number)
    (hr : c'.reply = c.reply) (pending : List Tuple) (hu : pending ++ c'.unread = c.unread)
    (columns : List String) (batch : Int) :
    Keeps e script r s (s.record c.number call) (.reading c columns [] batch)
      (.reading c' columns pending batch) (callsOn c.number [call]) [] where
  trace := rfl
  follows := h.record _ _
  taken := Nat.le_refl _
  fresh n hn := by
    obtain ⟨-, rfl⟩ : n = c.number ∧ .cursor = call := by simpa [callsOn] using hn
    cases hcall
  account before rows ha := by
    cases ha with
    | reading runs fetches reply results =>
      rw [List.append_nil, callsOn, callsOn, ← List.map_append, ← hn]
      refine .reading runs ?_ (by rw [hr, hn, reply]) ?_
      · simpa [or_imp, forall_and] using ⟨fetches, hcall⟩
      · rw [hu, hn]
        simpa using results

theorem keeps_close {s : Session} (h : s.Follows script) (c : Cursor) (columns : List String)
    (pending : List Tuple) (batch : Int) :
    Keeps e script r s (s.record c.number .close) (.reading c columns pending batch) .over
      (callsOn c.number [.close]) [] where
  trace := rfl
  follows := h.record _ _
  taken := Nat.le_refl _
  fresh := by simp [callsOn]
  account before rows ha := by
    cases ha with
    | reading runs fetches reply results =>
      rw [List.append_nil, callsOn, callsOn, ← List.map_append]
      exact .closed runs fetches ⟨_, results⟩

theorem keeps_denied {s : Session} (h : s.Follows script) (hp : (e.prepare query a).1 = .ok sql)
    (he : s.opened.reply.cursorError ≠ none) (batch : Int) :
    Keeps e script r s s.advance (.fresh query a batch) .over (callsOn s.taken [.cursor]) [] where
  trace := rfl
  follows := h.advance
  taken := Nat.le_succ _
  fresh _ := fresh_callsOn rfl
  account before rows ha := by
    cases ha with
    | fresh asked => exact .denied ⟨query, a, asked, hp⟩ (h.opened ▸ he)

theorem keeps_idle {s : Session} (h : s.Follows script) (query : Option String) (a : Arrangement)
    (batch : Int) : Keeps e script r s s (.fresh query a batch) .over [] [] :=
  .silent h fun before rows ha => by
    cases ha with
    | fresh => exact .idle

/-- How a stream begins: it cannot be prepared, is denied a cursor, is refused by
the engine, or reads. -/
inductive Begins (e : Executor) (query : Option String) (a : Arrangement) (batch : Int)
    (s : Session) : Pulled → Prop
  | unprepared (prepared : (e.prepare query a).1 = .error f) :
      Begins e query a batch s (⟨.error f, s, log⟩, .over)
  | denied (prepared : (e.prepare query a).1 = .ok sql)
      (cursor : s.opened.reply.cursorError = some err) :
      Begins e query a batch s (⟨.error (.raw err), s.advance, log⟩, .over)
  | refused (prepared : (e.prepare query a).1 = .ok sql)
      (cursor : s.opened.reply.cursorError = none)
      (executed : s.opened.reply.executeError = some err) :
      Begins e query a batch s
        (finish s.opened (.error (failureOf err)) (s.advance.record s.taken (.execute sql)) log)
  | reads (prepared : (e.prepare query a).1 = .ok sql)
      (cursor : s.opened.reply.cursorError = none)
      (executed : s.opened.reply.executeError = none) :
      Begins e query a batch s
        (pull s.opened (s.opened.reply.columns.getD []) [] batch
          (s.advance.record s.taken (.execute sql)) log)

theorem begins_next (e : Executor) (query : Option String) (a : Arrangement) (batch : Int)
    (s : Session) : Begins e query a batch s (e.next (.fresh query a batch) s) := by
  simp only [next]
  rcases hp : e.prepare query a with ⟨prepared, log⟩
  replace hp : (e.prepare query a).1 = prepared := by rw [hp]
  cases prepared with
  | error f => exact .unprepared hp
  | ok sql =>
    rw [Session.cursor_eq]
    cases cursor : s.opened.reply.cursorError with
    | some err => exact .denied hp cursor
    | none =>
      simp only [Cursor.execute]
      cases executed : s.opened.reply.executeError with
      | some err => exact .refused hp cursor executed
      | none => exact .reads hp cursor executed

def rowsGiven : Except Failure (Option Json.Members) → List Json.Members
  | .ok (some row) => [row]
  | _ => []

theorem closeAfter_rowsGiven (c : Cursor) (hr : rowsGiven result = []) (s : Session) :
    rowsGiven (closeAfter c result s).1 = [] := by
  simp only [closeAfter, Cursor.close]
  cases c.reply.closeError with
  | none => exact hr
  | some => rfl

def Pulls (e : Executor) (script : List Reply) (r : Request) (stream : Stream) (s : Session)
    (o : Pulled) : Prop :=
  ∃ calls, Keeps e script r s o.1.session stream o.2 calls (rowsGiven o.1.result)

theorem pulls_finish {s s' : Session} {calls : List (Nat × Call)}
    (h : Keeps e script r s s' stream (.reading c columns pending batch) calls [])
    (hr : rowsGiven result = []) (log : List LogRecord) :
    Pulls e script r stream s (finish c result s' log) := by
  refine ⟨calls ++ callsOn c.number [.close], ?_⟩
  simp only [finish, closeAfter_session, closeAfter_rowsGiven c hr]
  exact h.trans (keeps_close h.follows c columns pending batch)

theorem pulls_pull {s s' : Session} {calls : List (Nat × Call)}
    (h : Keeps e script r s s' stream (.reading c columns pending batch) calls [])
    (log : List LogRecord) : Pulls e script r stream s (pull c columns pending batch s' log) := by
  cases pending with
  | cons values rest => exact ⟨_, h.trans (keeps_give h.follows c columns values rest batch)⟩
  | nil =>
    simp only [pull, Cursor.fetchMany]
    cases hf : c.fetchFault? with
    | some err =>
      have hc : (Call.fetchMany batch).isFetch = true := rfl
      have hk := h.trans (keeps_fetch h.follows hc c c rfl rfl [] rfl columns batch)
      exact pulls_finish hk rfl log
    | none =>
      have hc : (Call.fetchMany batch).isFetch = true := rfl
      have hk := h.trans <| keeps_fetch h.follows hc c
        { c with unread := c.unread.drop batch.toNat, fetches := c.fetches + 1 } rfl rfl
        (c.unread.take batch.toNat) (List.take_append_drop ..) columns batch
      cases hu : c.unread.take batch.toNat with
      | nil =>
        rw [hu] at hk
        exact pulls_finish hk rfl log
      | cons values rest =>
        rw [hu] at hk
        exact ⟨_, hk.trans (keeps_give hk.follows _ columns values rest batch)⟩

theorem pulls_next {s : Session} (h : s.Follows script) (stream : Stream) :
    Pulls e script r stream s (e.next stream s) := by
  cases stream with
  | «over» => exact ⟨[], .refl h _⟩
  | reading c columns pending batch => exact pulls_pull (.refl h _) []
  | fresh query a batch =>
    have hb := e.begins_next query a batch s
    generalize e.next (.fresh query a batch) s = o at hb
    cases hb with
    | unprepared => exact ⟨[], keeps_idle h query a batch⟩
    | denied prepared cursor => exact ⟨_, keeps_denied h prepared (by simp [cursor]) batch⟩
    | refused prepared => exact pulls_finish (keeps_execute h prepared batch batch) rfl _
    | reads prepared => exact pulls_pull (keeps_execute h prepared batch batch) _

-- ---------------------------------------------------------------------------
-- Streams up to their end
-- ---------------------------------------------------------------------------

/-- How many rows a stream can still give. -/
def left (s : Session) : Stream → Nat
  | .fresh .. => (s.script.headD {}).rows.length
  | .reading c _ pending _ => pending.length + c.unread.length
  | .over => 0

/-- A step gives a row and leaves fewer of them, or ends the stream. -/
def Advances (bound : Nat) (o : Pulled) : Prop :=
  (∃ row, o.1.result = .ok (some row) ∧ o.2 ≠ .over ∧ left o.1.session o.2 < bound) ∨
    rowsGiven o.1.result = [] ∧ o.2 = .over

theorem advances_finish (c : Cursor) (hr : rowsGiven result = []) (s : Session)
    (log : List LogRecord) (bound : Nat) : Advances bound (finish c result s log) :=
  .inr ⟨closeAfter_rowsGiven c hr s, rfl⟩

theorem advances_pull (c : Cursor) (columns : List String) (pending : List Tuple) (batch : Int)
    (s : Session) (log : List LogRecord) :
    Advances (pending.length + c.unread.length) (pull c columns pending batch s log) := by
  cases pending with
  | cons values rest => exact .inl ⟨_, rfl, nofun, by simp [pull, left]⟩
  | nil =>
    simp only [pull, Cursor.fetchMany]
    cases c.fetchFault? with
    | some err => exact advances_finish c rfl _ _ _
    | none =>
      cases hu : c.unread.take batch.toNat with
      | nil => exact advances_finish _ rfl _ _ _
      | cons values rest =>
        have hl := congrArg List.length (List.take_append_drop batch.toNat c.unread)
        refine .inl ⟨_, rfl, nofun, ?_⟩
        simp only [hu, List.length_append, List.length_cons, List.length_nil, left] at hl ⊢
        omega

theorem advances_next (e : Executor) (stream : Stream) (s : Session) :
    Advances (left s stream) (e.next stream s) := by
  cases stream with
  | «over» => exact .inr ⟨rfl, rfl⟩
  | reading c columns pending batch => exact advances_pull c columns pending batch s []
  | fresh query a batch =>
    have hb := e.begins_next query a batch s
    generalize e.next (.fresh query a batch) s = o at hb
    cases hb with
    | unprepared | denied => exact .inr ⟨rfl, rfl⟩
    | refused => exact advances_finish s.opened rfl _ _ _
    | reads =>
      have h := advances_pull s.opened (s.opened.reply.columns.getD []) [] batch
      simp only [List.length_nil, Nat.zero_add] at h
      exact h _ _

/-- Rows are taken off a stream, all of them if the fuel lasts. -/
theorem keeps_drain {s : Session} (h : s.Follows script) (stream : Stream) (fuel : Nat) :
    ∃ calls stream', Keeps e script r s (e.drain fuel stream s).2.session stream stream' calls
      (e.drain fuel stream s).1 ∧ (left s stream < fuel → stream' = .over) := by
  -- What the stream has left goes down with the fuel, from one session to the next.
  induction fuel generalizing s stream with
  | zero => exact ⟨[], stream, .refl h stream, nofun⟩
  | succ fuel ih =>
    obtain ⟨calls, hk⟩ := pulls_next (e := e) (r := r) h stream
    have ha := advances_next e stream s
    rcases hn : e.next stream s with ⟨⟨result, s', log⟩, stream'⟩
    rw [hn] at hk ha
    simp only [drain, hn]
    rcases ha with ⟨row, hrow, -, hl⟩ | ⟨hrow, rfl⟩
    · obtain rfl : result = .ok (some row) := hrow
      obtain ⟨calls', stream'', hk', hover⟩ := ih hk.follows stream'
      exact ⟨_, _, hk.trans hk', fun hf => hover (Nat.lt_of_lt_of_le hl (Nat.le_of_lt_succ hf))⟩
    · refine ⟨calls, .over, ?_, fun _ => rfl⟩
      dsimp only at hrow hk
      rw [hrow] at hk
      cases result with
      | error f => exact hk
      | ok given =>
        cases given with
        | none => exact hk
        | some row => cases hrow

theorem keeps_rows {s : Session} (h : s.Follows script) (query : Option String) (a : Arrangement)
    (batch : Int) :
    ∃ calls, Keeps e script r s (e.rows query a batch s).2.session (.fresh query a batch) .over
      calls (e.rows query a batch s).1 := by
  obtain ⟨calls, stream, hk, hover⟩ := keeps_drain (e := e) (r := r) h (.fresh query a batch) _
  obtain rfl := hover (Nat.lt_succ_self _)
  exact ⟨calls, hk⟩

theorem abandon_over (stream : Stream) (s : Session) : (abandon stream s).2 = .over := by
  cases stream <;> rfl

theorem keeps_abandon {s : Session} (h : s.Follows script) (stream : Stream) :
    ∃ calls, Keeps e script r s (abandon stream s).1.session stream .over calls [] := by
  cases stream with
  | «over» => exact ⟨[], .refl h _⟩
  | fresh query a batch => exact ⟨[], keeps_idle h query a batch⟩
  | reading c columns pending batch =>
    simp only [abandon, closeAfter_session]
    exact ⟨_, keeps_close h c columns pending batch⟩

-- ---------------------------------------------------------------------------
-- Trials and whole tables
-- ---------------------------------------------------------------------------

theorem keeps_runAll {s : Session} (h : s.Follows script) (hp : (e.prepare query a).1 = .ok sql) :
    ∃ calls, Keeps e script r s
      (runAll s.opened sql s.advance).2 (.fresh query a 0)
      (.reading s.opened (s.opened.reply.columns.getD []) [] 0) calls [] := by
  have hk := keeps_execute (r := r) h hp 0 0
  simp only [runAll, Cursor.execute]
  cases s.opened.reply.executeError with
  | some err => exact ⟨_, hk⟩
  | none =>
    have hc : Call.fetchAll.isFetch = true := rfl
    have hf := hk.trans <| keeps_fetch hk.follows hc s.opened _ rfl rfl [] rfl _ 0
    simp only [Cursor.outcome, Cursor.fetchAll]
    split <;> exact ⟨_, hf⟩

theorem keeps_check {s : Session} (h : s.Follows script) (query : Option String) :
    ∃ calls, Keeps e script r s (e.check query s).session
      (.fresh query ⟨some (.rows 1), none, some "DESC"⟩ 0) .over calls [] := by
  simp only [check]
  rcases hp : e.prepare query ⟨some (.rows 1), none, some "DESC"⟩ with ⟨prepared, log⟩
  replace hp : (e.prepare query ⟨some (.rows 1), none, some "DESC"⟩).1 = prepared := by rw [hp]
  cases prepared with
  | error f => exact ⟨[], keeps_idle h _ _ _⟩
  | ok sql =>
    rw [Session.cursor_eq]
    cases he : s.opened.reply.cursorError with
    | some err => exact ⟨_, keeps_denied h hp (by simp [he]) 0⟩
    | none =>
      obtain ⟨calls, hk⟩ := keeps_runAll (r := r) h hp
      have hc := hk.trans (keeps_close hk.follows _ _ _ 0)
      dsimp only
      rcases hr : runAll _ sql s.advance with ⟨fetched, s'⟩
      rw [hr] at hc
      cases fetched <;> simp only [closeAfter_session] <;> exact ⟨_, hc⟩

def extend (s : Session) (number : Nat) (calls : List Call) : Session :=
  { s with trace := s.trace ++ callsOn number calls }

theorem refuse_session (sql : String) (err : Error) (s : Session) :
    ∃ calls, (∀ call ∈ calls, call = .rollback) ∧
      (refuse sql err s).2 = extend s (s.taken - 1) calls := by
  have hs : s = extend s (s.taken - 1) [] := by simp [extend, callsOn]
  simp only [refuse]
  split
  · refine ⟨[.rollback], by simp, ?_⟩
    simp only [Session.rollback]
    cases s.last.rollbackError with
    | none => rfl
    | some r =>
      dsimp only
      split <;> rfl
  · exact ⟨[], nofun, hs⟩

theorem readTable_session (c : Cursor) (s : Session) :
    ∃ calls, (∀ call ∈ calls, call = .fetchAll ∨ call = .close) ∧
      (readTable c s).2 = extend s c.number calls := by
  simp only [readTable]
  cases c.reply.columns with
  | none => exact ⟨[], nofun, by simp [extend, callsOn]⟩
  | some columns =>
    simp only [Cursor.fetchAll]
    cases c.fetchFault? with
    | some err => exact ⟨[.fetchAll], by simp, rfl⟩
    | none =>
      refine ⟨[.fetchAll, .close], by simp, ?_⟩
      simp only [Cursor.close]
      cases c.reply.closeError <;> simp [Cursor.outcome, extend, Session.record, callsOn]

/-- A whole table, once its text is executed: what follows executes nothing. -/
theorem keeps_whole {s s' : Session} (h : s.Follows script) (hw : r.isTable = true)
    (hp : (e.prepare query a).1 = .ok sql)
    (hs : s' = extend (s.advance.record s.taken (.execute sql)) s.taken calls)
    (hc : ∀ call ∈ calls, call = .rollback ∨ call = .fetchAll ∨ call = .close) (batch : Int) :
    Keeps e script r s s' (.fresh query a batch) .over
      (callsOn s.taken (.cursor :: .execute sql :: calls)) [] where
  trace := by simp [hs, extend, Session.record, Session.advance, callsOn]
  follows := hs ▸ h.advance
  taken := hs ▸ Nat.le_succ _
  fresh _ := fresh_callsOn (by rw [hs]; rfl)
  account before rows ha := by
    cases ha with
    | fresh asked =>
      refine .table ⟨query, a, asked, hp⟩ hw fun call hmem text heq => ?_
      subst heq
      rcases hc _ hmem with h | h | h <;> cases h

theorem keeps_table {s : Session} (h : s.Follows script) (hw : r.isTable = true)
    (query : Option String) (a : Arrangement) :
    ∃ calls, Keeps e script r s (e.table query a s).session (.fresh query a 0) .over calls [] := by
  simp only [table]
  rcases hp : e.prepare query a with ⟨prepared, log⟩
  replace hp : (e.prepare query a).1 = prepared := by rw [hp]
  cases prepared with
  | error f => exact ⟨[], keeps_idle h _ _ _⟩
  | ok sql =>
    rw [Session.cursor_eq]
    cases he : s.opened.reply.cursorError with
    | some err => exact ⟨_, keeps_denied h hp (by simp [he]) 0⟩
    | none =>
      simp only [Cursor.execute]
      cases s.opened.reply.executeError with
      | some err =>
        obtain ⟨calls, hc, hs⟩ := refuse_session sql err (s.advance.record s.taken (.execute sql))
        exact ⟨_, keeps_whole h hw hp hs (fun call hm => .inl (hc call hm)) 0⟩
      | none =>
        obtain ⟨calls, hc, hs⟩ := readTable_session s.opened
          (s.advance.record s.taken (.execute sql))
        exact ⟨_, keeps_whole h hw hp hs (fun call hm => .inr (hc call hm)) 0⟩

end Executor

end SafeReports.Engine
