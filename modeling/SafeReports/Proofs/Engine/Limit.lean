import SafeReports.Proofs.Construction
import SafeReports.Proofs.Engine.Checked

/-!
# Row limits from the configuration

A configuration has positive limits, from whatever values it was read. So an
executor of a configuration always has a limit of the form that the wrapper takes:
what a stream executes ends with the limit that was asked for, or with the configured
one, and the only errors of the stream are those of the engine. A limit that is too
long to be written is the exception: with it nothing is called at all.
-/

namespace SafeReports

-- ---------------------------------------------------------------------------
-- The end of the wrapped query
-- ---------------------------------------------------------------------------

namespace Sql

open Text (Writable numeral)

theorem Limit.isPositive_iff {l : Limit} : l.IsPositive ↔ ∃ n : Nat, 1 ≤ n ∧ l = .rows n := by
  cases l with
  | rows count =>
    simp only [IsPositive, Limit.rows.injEq]
    constructor
    · intro h
      exact ⟨count.toNat, by omega, by omega⟩
    · rintro ⟨n, hn, rfl⟩
      omega
  | unusable given =>
    refine iff_of_false id ?_
    rintro ⟨n, -, h⟩
    cases h

theorem checkLimit_rows {n : Nat} (h : 1 ≤ n) : checkLimit (some (.rows n)) = .ok (some n) :=
  checkLimit_eq_ok_iff.mpr ⟨rfl, fun _ hm => Option.some.inj hm ▸ h⟩

section
variable {q : String} {a : Arrangement} {n : Nat}

theorem wrap_limited (direction : IsDirection a.direction) (limit : a.limit = some (.rows n))
    (h : 1 ≤ n) (writable : Writable n) :
    ∃ front : String, wrap (some q) a = .ok (front ++ " LIMIT " ++ toString n) := by
  obtain ⟨d, hd⟩ := checkDirection_ok_iff.mpr direction
  have hl : checkLimit a.limit = .ok (some n) := limit ▸ checkLimit_rows h
  have hw : writeLimit (some n) = .ok (some (numeral n)) :=
    writeLimit_eq_ok_iff.mpr ⟨rfl, fun _ hm => Option.some.inj hm ▸ writable⟩
  have hn : (toString n).toList = numeral n := by
    rw [Nat.toString_eq_ofList_toDigits, String.toList_ofList]
    rfl
  obtain ⟨front, hf⟩ : ∃ front, derived (stored q.toList) d (some (numeral n)) a.orderBy =
      front ++ (" LIMIT ".toList ++ (toString n).toList) := ⟨_, by rw [hn]; rfl⟩
  refine ⟨String.ofList front, wrap_eq_ok_iff.mpr ⟨d, some n, _, hd, hl, hw, ?_⟩⟩
  rw [hf, String.ofList_append, String.ofList_append, String.ofList_toList, String.ofList_toList,
    String.append_assoc]

theorem wrap_unwritable (direction : IsDirection a.direction) (limit : a.limit = some (.rows n))
    (h : 1 ≤ n) (unwritable : ¬ Writable n) : wrap (some q) a = .error .longLimit :=
  wrap_eq_error_iff.mpr (.inr ⟨direction, .inr ⟨some n, limit ▸ checkLimit_rows h,
    writeLimit_eq_error_iff.mpr ⟨rfl, n, rfl, unwritable⟩⟩⟩)

end

end Sql

namespace Engine

open Executor (Stream)
open Sql (Arrangement)

-- ---------------------------------------------------------------------------
-- Errors of a stream
-- ---------------------------------------------------------------------------

/-- An error that the engine raises on a cursor of this reply, or instead of it. -/
def Reply.Raises (p : Reply) (err : Error) : Prop :=
  p.cursorError = some err ∨ p.executeError = some err ∨ p.fetchError = some err ∨
    p.closeError = some err

/-- Failures of the kind that an unusable value has: of the query or its
arrangement, of a table that is too wide, or one that the engine raised itself. -/
def Failure.IsOfValue : Failure → Prop
  | .rejected _ | .widthMismatch => True
  | .unwrappable w => w ≠ .notText
  | .raw err => err.kind = .value
  | .execution _ | .noDescription => False

namespace Executor

/-- A failure is an error that the engine raised, as it was or made readable. -/
def Blames (p : Reply) (result : Except Failure α) : Prop :=
  ∀ f, result = .error f → ∃ err, p.Raises err ∧ (f = .raw err ∨ f = failureOf err)

theorem Blames.of_ok (p : Reply) (a : α) : Blames p (.ok a) := nofun

theorem Blames.raw {p : Reply} (h : p.Raises err) :
    Blames p (.error (.raw err) : Except Failure α) := by
  intro f hf
  obtain rfl := Except.error.inj hf
  exact ⟨err, h, .inl rfl⟩

theorem Blames.failureOf {p : Reply} (h : p.Raises err) :
    Blames p (.error (failureOf err) : Except Failure α) := by
  intro f hf
  obtain rfl := Except.error.inj hf
  exact ⟨err, h, .inr rfl⟩

theorem Blames.closeAfter {c : Cursor} {result : Except Failure α} (h : Blames c.reply result)
    (s : Session) : Blames c.reply (closeAfter c result s).1 := by
  simp only [Executor.closeAfter, Cursor.close]
  cases hc : c.reply.closeError with
  | none => exact h
  | some err => exact .raw (.inr (.inr (.inr hc)))

/-- The stream is over or reads what the cursor of a reply has. -/
def Stream.On (p : Reply) : Stream → Prop
  | .fresh .. => False
  | .reading c .. => c.reply = p
  | .over => True

/-- A step that stays on the reply, and fails through the reply alone. -/
structure StaysOn (p : Reply) (o : Pulled) : Prop where
  blames : Blames p o.1.result
  stream : o.2.On p

theorem staysOn_finish {c : Cursor} {result : Except Failure (Option Json.Members)}
    (h : Blames c.reply result) (s : Session) (log : List LogRecord) :
    StaysOn c.reply (finish c result s log) :=
  ⟨h.closeAfter s, trivial⟩

theorem staysOn_pull (c : Cursor) (columns : List String) (pending : List Tuple) (batch : Int)
    (s : Session) (log : List LogRecord) :
    StaysOn c.reply (pull c columns pending batch s log) := by
  cases pending with
  | cons values rest => exact ⟨.of_ok _ _, rfl⟩
  | nil =>
    simp only [pull, Cursor.fetchMany]
    cases hf : c.fetchFault? with
    | some err =>
      have hr : c.reply.fetchError = some err := by
        unfold Cursor.fetchFault? at hf
        split at hf
        · exact hf
        · cases hf
      exact staysOn_finish (.raw (.inr (.inr (.inl hr)))) _ _
    | none =>
      cases c.unread.take batch.toNat with
      | nil =>
        let after : Cursor :=
          { c with unread := c.unread.drop batch.toNat, fetches := c.fetches + 1 }
        exact staysOn_finish (Blames.of_ok after.reply none) _ _
      | cons values rest => exact ⟨.of_ok _ _, rfl⟩

section
variable {e : Executor} {s : Session} {p : Reply}

theorem staysOn_next (h : stream.On p) : StaysOn p (e.next stream s) := by
  cases stream with
  | fresh => exact h.elim
  | «over» => exact ⟨.of_ok _ _, trivial⟩
  | reading c columns pending batch =>
    obtain rfl : c.reply = p := h
    exact staysOn_pull c columns pending batch s []

theorem staysOn_begin (prepared : (e.prepare query a).1 = .ok sql) (batch : Int) :
    StaysOn s.opened.reply (e.next (.fresh query a batch) s) := by
  have hb := e.begins_next query a batch s
  generalize e.next (.fresh query a batch) s = o at hb
  cases hb with
  | unprepared unprepared => simp [prepared] at unprepared
  | denied _ cursor => exact ⟨.raw (.inl cursor), trivial⟩
  | refused _ _ executed => exact staysOn_finish (.failureOf (.inr (.inl executed))) _ _
  | reads => exact staysOn_pull s.opened _ _ _ _ _

theorem blames_drain_of_next (fuel : Nat) (h : StaysOn p (e.next stream s)) :
    Blames p (e.drain fuel stream s).2.result := by
  induction fuel generalizing s stream with
  | zero => exact .of_ok _ _
  | succ fuel ih =>
    rcases hn : e.next stream s with ⟨⟨result, s', log⟩, stream'⟩
    rw [hn] at h
    simp only [drain, hn]
    cases result with
    | error f => exact fun g hg => h.blames g (by rw [Except.error.inj hg])
    | ok given =>
      cases given with
      | none => exact .of_ok _ _
      | some row => exact ih (staysOn_next h.stream)

-- ---------------------------------------------------------------------------
-- What a stream executes
-- ---------------------------------------------------------------------------

/-- Every session goes on from some script. -/
theorem exists_follows (s : Session) : ∃ script, s.Follows script :=
  ⟨List.replicate s.taken ({} : Reply) ++ s.script, by
    rw [Session.Follows, List.drop_left' (List.length_replicate)]⟩

/-- A stream that is given a cursor executes its text in its first step. -/
theorem executes_next (prepared : (e.prepare query a).1 = .ok sql)
    (cursor : s.opened.reply.cursorError = none) (batch : Int) :
    ∃ after, (e.next (.fresh query a batch) s).1.session.trace =
      s.trace ++ (s.taken, .cursor) :: (s.taken, .execute sql) :: after := by
  have executed : (s.advance.record s.taken (.execute sql)).trace =
      s.trace ++ [(s.taken, .cursor), (s.taken, .execute sql)] := by
    simp [Session.record, Session.advance]
  have hb := e.begins_next query a batch s
  generalize e.next (.fresh query a batch) s = o at hb
  cases hb with
  | unprepared unprepared => simp [prepared] at unprepared
  | denied _ denied => simp [cursor] at denied
  | refused prepared' =>
    obtain rfl := Except.ok.inj (prepared.symm.trans prepared')
    refine ⟨[(s.taken, .close)], ?_⟩
    simp only [finish, closeAfter_session]
    rw [Session.record, executed, List.append_assoc]
    rfl
  | @reads _ log prepared' =>
    obtain rfl := Except.ok.inj (prepared.symm.trans prepared')
    obtain ⟨script, follows⟩ := exists_follows (s.advance.record s.taken (.execute sql))
    obtain ⟨calls, hk⟩ := pulls_pull (e := e) (r := .rows query a batch)
      (.refl follows (.reading s.opened (s.opened.reply.columns.getD []) [] batch)) log
    refine ⟨calls, ?_⟩
    rw [hk.trace, executed, List.append_assoc]
    rfl

theorem executes_drain (prepared : (e.prepare query a).1 = .ok sql)
    (cursor : s.opened.reply.cursorError = none) (batch : Int) (fuel : Nat) :
    ∃ after, (e.drain (fuel + 1) (.fresh query a batch) s).2.session.trace =
      s.trace ++ (s.taken, .cursor) :: (s.taken, .execute sql) :: after := by
  obtain ⟨after, hn⟩ := executes_next prepared cursor batch
  rcases ho : e.next (.fresh query a batch) s with ⟨⟨result, s', log⟩, stream⟩
  rw [ho] at hn
  simp only [drain, ho]
  rcases result with f | _ | row
  · exact ⟨after, hn⟩
  · exact ⟨after, hn⟩
  · -- behind the first row the rest is drained
    obtain ⟨script, follows⟩ := exists_follows s'
    obtain ⟨calls, _, hk, -⟩ :=
      keeps_drain (e := e) (r := .rows query a batch) follows stream fuel
    refine ⟨after ++ calls, ?_⟩
    rw [hk.trace, hn, List.append_assoc]
    rfl

/-- Nothing but its own text is executed for a stream. -/
theorem executes_only (prepared : (e.prepare query a).1 = .ok sql) (batch : Int) (fuel : Nat) :
    ∃ calls, (e.drain fuel (.fresh query a batch) s).2.session.trace = s.trace ++ calls ∧
      ∀ n text, (n, .execute text) ∈ calls → text = sql := by
  obtain ⟨script, follows⟩ := exists_follows s
  obtain ⟨calls, _, hk, -⟩ := keeps_drain (e := e) (r := .rows query a batch) follows
    (.fresh query a batch) fuel
  refine ⟨calls, hk.trace, fun n text hc => ?_⟩
  obtain ⟨query', a', hasked, hp⟩ := (hk.account [] [] (.fresh rfl)).executes hc
  obtain ⟨rfl, rfl⟩ := Prod.mk.inj (Option.some.inj hasked)
  exact Except.ok.inj (hp.symm.trans prepared)

end

/-- However many rows are taken off a stream of a query, all of them or a few, it
executes this text alone, in its first step if there is a cursor to be had, and
has no failure of a value but those that the engine raises. -/
structure Serves (e : Executor) (query : Option String) (a : Arrangement) (batch : Int)
    (s : Session) (sql : String) : Prop where
  only : ∀ fuel, ∃ calls,
    (e.drain fuel (.fresh query a batch) s).2.session.trace = s.trace ++ calls ∧
      ∀ n text, (n, .execute text) ∈ calls → text = sql
  first : s.opened.reply.cursorError = none → ∀ fuel, ∃ after,
    (e.drain (fuel + 1) (.fresh query a batch) s).2.session.trace =
      s.trace ++ (s.taken, .cursor) :: (s.taken, .execute sql) :: after
  failure : ∀ fuel f, (e.drain fuel (.fresh query a batch) s).2.result = .error f →
    f.IsOfValue → ∃ err, s.opened.reply.Raises err ∧ err.kind = .value ∧ f = .raw err

theorem Blames.of_value {p : Reply} {result : Except Failure α} (h : Blames p result)
    (hf : result = .error f) (value : f.IsOfValue) :
    ∃ err, p.Raises err ∧ err.kind = .value ∧ f = .raw err := by
  obtain ⟨err, raises, rfl | rfl⟩ := h f hf
  · exact ⟨err, raises, value, rfl⟩
  · unfold Executor.failureOf at value ⊢
    split at value
    · exact value.elim
    · exact ⟨err, raises, value, by simp [*]⟩

theorem serves_of_prepared {e : Executor} (prepared : (e.prepare query a).1 = .ok sql)
    (batch : Int) (s : Session) : e.Serves query a batch s sql where
  only := executes_only prepared batch
  first cursor := executes_drain prepared cursor batch
  failure fuel _ hf value :=
    (blames_drain_of_next fuel (staysOn_begin prepared batch)).of_value hf value

/-- The limit that was asked for, or that of the configuration. -/
theorem exists_limit {c : Config} (hc : c.IsLimited) {limit : Option Sql.Limit}
    (positive : ∀ l ∈ limit, l.IsPositive) :
    ∃ n : Nat, 1 ≤ n ∧ limit.getD (.rows c.defaultRowLimit) = .rows n := by
  cases limit with
  | none =>
    have h : (Sql.Limit.rows c.defaultRowLimit).IsPositive := hc.defaultRowLimit
    exact Sql.Limit.isPositive_iff.mp h
  | some l => exact Sql.Limit.isPositive_iff.mp (positive l rfl)

/-- A query that cannot be wrapped is not run. -/
theorem next_of_wrap_error {e : Executor} (accepted : (e.guard.validate query).1 = none)
    (hw : Sql.wrap query (e.limited a) = .error err) (batch : Int) (s : Session) :
    ∃ log, e.next (.fresh query a batch) s = (⟨.error (.unwrappable err), s, log⟩, .over) := by
  rcases hg : e.guard.validate query with ⟨violation, log⟩
  obtain rfl : violation = none := by simpa [hg] using accepted
  rw [limited] at hw
  cases hr : e.revalidate with
  | true => exact ⟨log, by simp [next, prepare, hr, hg, hw]⟩
  | false => exact ⟨[], by simp [next, prepare, hr, hw]⟩

end Executor

section
open Text (maxDigits)
open Sql (writable_iff)

/-- A configuration that can be read has positive limits. With an executor of it
every accepted query, under any order, direction and positive limit, is executed with
a positive limit at its end, and no limit or direction is found unusable, as long as
the limit can be written; with one that cannot nothing is called. -/
theorem ofConfig_limited {conv : Conversions}
    {build : Json.Members → Except (List FieldError) Config} (builder : Config.IsBuilder conv build)
    {members : Json.Members} {c : Config} (h : build members = .ok c) :
    (0 < c.maxQueryLength ∧ 0 < c.previewLength ∧ 0 < c.defaultRowLimit) ∧
      ∀ (revalidate : Bool) (q : String) (a : Arrangement),
        ((Executor.ofConfig c revalidate).guard.validate (some q)).1 = none →
        Sql.IsDirection a.direction → (∀ l ∈ a.limit, l.IsPositive) →
        ∃ n : Nat, 1 ≤ n ∧ a.limit.getD (.rows c.defaultRowLimit) = .rows n ∧
          (n < 10 ^ maxDigits → ∃ front : String, ∀ batch s,
            (Executor.ofConfig c revalidate).Serves (some q) a batch s
              (front ++ " LIMIT " ++ toString n)) ∧
          (10 ^ maxDigits ≤ n → ∀ batch s, ∃ log,
            (Executor.ofConfig c revalidate).next (.fresh (some q) a batch) s =
              (⟨.error (.unwrappable .longLimit), s, log⟩, .over)) := by
  have hc := builder.isLimited h
  refine ⟨⟨hc.maxQueryLength, hc.previewLength, hc.defaultRowLimit⟩,
    fun revalidate q a accepted direction positive => ?_⟩
  obtain ⟨n, hn, hl⟩ := Executor.exists_limit hc positive
  have limit : ((Executor.ofConfig c revalidate).limited a).limit = some (.rows n) := by
    rw [← hl]
    cases hlim : a.limit <;> simp [Executor.limited, Executor.ofConfig, hlim]
  have wrapped := Sql.wrap_limited (q := q) (a := Executor.limited _ a) direction limit hn
  have unwrapped := Sql.wrap_unwritable (q := q) (a := Executor.limited _ a) direction limit hn
  refine ⟨n, hn, hl, fun writable => ?_, fun long batch s => ?_⟩
  · obtain ⟨front, hw⟩ := wrapped (writable_iff.mpr writable)
    exact ⟨front, fun batch s =>
      Executor.serves_of_prepared (Executor.prepare_of_wrap accepted hw) batch s⟩
  · have hw := unwrapped fun writable => Nat.not_lt.mpr long (writable_iff.mp writable)
    exact Executor.next_of_wrap_error accepted hw batch s

/-- Limits as they are written by hand: a truth value, and a number in a text. -/
def handwritten : Json.Members :=
  [("max_query_length", .bool true), ("default_row_limit", .str " 7 ")]

def sevenRows : Config := { maxQueryLength := 1, defaultRowLimit := 7 }

theorem ofConfig_limited_handwritten :
    Config.IsBuilder .lax Config.ofMembers ∧ Config.ofMembers handwritten = .ok sevenRows ∧
      ((Executor.ofConfig sevenRows true).guard.validate (some "SELECT 1")).1 = none ∧
      Sql.IsDirection (some "asc") ∧ (7 < 10 ^ maxDigits) ∧
      ∃ front : String, ∀ batch s, (Executor.ofConfig sevenRows true).Serves (some "SELECT 1")
        ⟨none, some "id", some "asc"⟩ batch s (front ++ " LIMIT " ++ toString 7) := by
  have builder : Config.IsBuilder .lax Config.ofMembers := Config.isBuilder_build .lax
  have read : Config.ofMembers handwritten = .ok sevenRows := by rfl
  have accepted :
      ((Executor.ofConfig sevenRows true).guard.validate (some "SELECT 1")).1 = none := by
    decide +kernel
  have direction : Sql.IsDirection (some "asc") := ⟨_, rfl, .inl (by decide +kernel)⟩
  have short : 7 < 10 ^ maxDigits := writable_iff.mp (by decide)
  obtain ⟨-, serves⟩ := ofConfig_limited builder read
  obtain ⟨n, -, hn, h, -⟩ :=
    serves true "SELECT 1" ⟨none, some "id", some "asc"⟩ accepted direction nofun
  obtain rfl : n = 7 := by
    have hn : (7 : Int) = n := Sql.Limit.rows.inj hn
    omega
  exact ⟨builder, read, accepted, direction, short, h short⟩

end

end Engine

end SafeReports
