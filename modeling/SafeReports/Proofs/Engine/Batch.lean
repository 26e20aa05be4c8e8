import Mathlib.Algebra.Order.Floor.Div
import SafeReports.Proofs.Engine.Fault
import SafeReports.Proofs.Json.Dictionary

/-!
# Streams in batches

Rows are fetched some at a time and given one at a time. Nothing of that is to be
seen in what a stream gives: without an error of the engine these are its rows in
their order, each by column name, whatever the size of the batches. It can be told
from the calls alone, of which the last fetch is the one that finds nothing.
-/

namespace SafeReports

namespace Engine

open Executor (rowOf Pulled)
open Sql (Arrangement)

-- ---------------------------------------------------------------------------
-- Rows by column name
-- ---------------------------------------------------------------------------

theorem Executor.isDict_rowOf (columns : List String) (values : Tuple) :
    Json.IsDict (columns.zip values) (rowOf columns values) :=
  Json.isDict_nil.foldl_put (columns.zip values)

example : rowOf ["a", "b", "a"] [.int 1, .int 2, .int 3, .int 4] =
    [("a", .int 3), ("b", .int 2)] := rfl

-- ---------------------------------------------------------------------------
-- Streams to their end
-- ---------------------------------------------------------------------------

/-- Asked again and again from an outcome on, the stream gives these rows and then
ends, with this session. -/
inductive Executor.Consumes (e : Executor) : Pulled → List Json.Members → Session → Prop
  | ends : Consumes e (⟨.ok none, s, log⟩, .over) [] s
  | row (rest : Consumes e (e.next stream s) given s') :
      Consumes e (⟨.ok (some row), s, log⟩, stream) (row :: given) s'

/-- No call on the cursor fails. -/
structure Reply.Faultless (p : Reply) : Prop where
  cursor : p.cursorError = none
  execute : p.executeError = none
  fetch : p.fetchError = none
  close : p.closeError = none

namespace Executor

variable {e : Executor} {b : Nat}

theorem Consumes.drain (h : e.Consumes o given s') (ho : e.next stream s = o)
    (hf : given.length < fuel) : (e.drain fuel stream s).1 = given ∧
      (e.drain fuel stream s).2.result = .ok () ∧ (e.drain fuel stream s).2.session = s' := by
  induction h generalizing stream s fuel with
  | ends =>
    obtain ⟨fuel, rfl⟩ := Nat.exists_eq_succ_of_ne_zero (Nat.ne_of_gt hf)
    simp [Executor.drain, ho]
  | row _ ih =>
    obtain ⟨fuel, rfl⟩ := Nat.exists_eq_succ_of_ne_zero (Nat.ne_of_gt (Nat.zero_lt_of_lt hf))
    obtain ⟨hgiven, hresult, hsession⟩ := ih rfl (Nat.lt_of_succ_lt_succ hf)
    simp only [Executor.drain, ho]
    exact ⟨congrArg _ hgiven, hresult, hsession⟩

theorem ceilDiv_sub {n : Nat} (hb : 0 < b) (hn : 0 < n) : (n - b) ⌈/⌉ b + 1 = n ⌈/⌉ b := by
  rw [Nat.ceilDiv_eq_add_pred_div, Nat.ceilDiv_eq_add_pred_div, ← Nat.add_div_right _ hb]
  rcases Nat.le_total b n with h | h
  · congr 1
    omega
  · rw [Nat.sub_eq_zero_of_le h, Nat.div_eq_of_lt_le (k := 1), Nat.div_eq_of_lt_le (k := 1)] <;>
      omega

theorem extend_record (s : Session) (number : Nat) (call : Call) (calls : List Call) :
    extend (s.record number call) number calls = extend s number (call :: calls) := by
  simp [extend, Session.record, callsOn]

theorem finish_none {c : Cursor} (hc : c.reply.closeError = none) (s : Session)
    (log : List LogRecord) :
    finish c (.ok none) s log = (⟨.ok none, extend s c.number [.close], log⟩, .over) := by
  simp only [finish, closeAfter_result hc, closeAfter_session]
  rfl

/-- The cursor after a batch. -/
def fetched (c : Cursor) (b : Nat) : Cursor :=
  { c with unread := c.unread.drop b, fetches := c.fetches + 1 }

theorem fetched_number (c : Cursor) (b : Nat) : (fetched c b).number = c.number := rfl

theorem fetchMany_fetched {c : Cursor} (hf : c.reply.fetchError = none) (b : Nat) (s : Session) :
    c.fetchMany b s = (.ok (c.unread.take b, fetched c b), s.record c.number (.fetchMany b)) := by
  have hnone : c.fetchFault? = none := by simp [Cursor.fetchFault?, hf]
  simp only [Cursor.fetchMany, hnone, Int.toNat_natCast, fetched]

/-- The batches of a cursor are full, but for the last that has rows; the next has none
and is the last. -/
theorem consumes_pull {c : Cursor} (hf : c.reply.fetchError = none)
    (hc : c.reply.closeError = none) (hb : 0 < b) (columns : List String) (pending : List Tuple)
    (s : Session) (log : List LogRecord) :
    e.Consumes (pull c columns pending b s log) ((pending ++ c.unread).map (rowOf columns))
      (extend s c.number
        (List.replicate (c.unread.length ⌈/⌉ b + 1) (.fetchMany b) ++ [.close])) := by
  -- Rows that are pending are given first; then a batch makes what is unread shorter.
  induction hn : c.unread.length using Nat.strong_induction_on generalizing c pending s log with
  | _ n ih =>
    subst hn
    induction pending generalizing log with
    | cons values rest ihp => exact .row (ihp [])
    | nil =>
      simp only [pull, fetchMany_fetched hf]
      cases hu : c.unread.take b with
      | nil =>
        have hnil : c.unread = [] := (List.take_eq_nil_iff.mp hu).resolve_left (Nat.ne_of_gt hb)
        simp only [finish_none (c := fetched c b) hc, hnil, List.length_nil, zero_ceilDiv]
        rw [fetched_number, extend_record]
        exact .ends
      | cons values rest =>
        have hlen : 0 < c.unread.length := List.length_pos_iff.mpr fun h => by simp [h] at hu
        have hdrop : (fetched c b).unread.length = c.unread.length - b := List.length_drop
        have hrest := ih _ (hdrop ▸ Nat.sub_lt hlen hb) (c := fetched c b) hf hc rest
          (s.record c.number (.fetchMany b)) [] rfl
        rw [hdrop, ceilDiv_sub hb hlen, fetched_number, extend_record] at hrest
        have hrows : values :: (rest ++ (fetched c b).unread) = c.unread := by
          rw [← List.cons_append, ← hu]
          exact List.take_append_drop b c.unread
        rw [List.nil_append, ← hrows, List.map_cons, hrows]
        exact .row hrest

-- ---------------------------------------------------------------------------
-- From the query on
-- ---------------------------------------------------------------------------

/-- The executor takes the query: the guard accepts it if it is asked again, and
direction and row limit are valid. -/
structure Admits (e : Executor) (q : String) (a : Arrangement) : Prop where
  accepted : e.revalidate = true → (e.guard.validate (some q)).1 = none
  direction : Sql.IsDirection a.direction
  limit : ∀ l ∈ (e.limited a).limit, l.IsValid

theorem Admits.exists_prepare (h : e.Admits q a) : ∃ sql,
    Sql.wrap (some q) (e.limited a) = .ok sql ∧ (e.prepare (some q) a).1 = .ok sql := by
  obtain ⟨sql, hw⟩ := (Sql.wrap_ok_iff (q := q) (a := e.limited a)).mpr ⟨h.direction, h.limit⟩
  refine ⟨sql, hw, ?_⟩
  cases hr : e.revalidate with
  | true => exact prepare_of_wrap (h.accepted hr) hw
  | false =>
    rw [limited] at hw
    simp [prepare, hr, hw]

theorem consumes_fresh (hp : (e.prepare query a).1 = .ok sql)
    (hq : s.opened.reply.Faultless) (hb : 0 < b) :
    e.Consumes (e.next (.fresh query a b) s) s.opened.reply.results
      (extend s.advance s.taken (.execute sql ::
        (List.replicate (s.opened.reply.rows.length ⌈/⌉ b + 1) (.fetchMany b) ++ [.close]))) := by
  have hbegin := e.begins_next query a b s
  generalize e.next (.fresh query a b) s = o at hbegin
  cases hbegin with
  | unprepared prepared => simp [hp] at prepared
  | denied _ cursor => simp [hq.cursor] at cursor
  | refused _ _ executed => simp [hq.execute] at executed
  | reads prepared =>
    obtain rfl := Except.ok.inj (hp.symm.trans prepared)
    rw [← extend_record]
    exact consumes_pull hq.fetch hq.close hb _ [] _ _

end Executor

/-- Without an error of the engine a stream gives each row by column name, in order,
and ends. What is executed and given does not depend on the size of the batches; there
is one fetch for each of them and one more. -/
theorem rows_batched {e : Executor} (h : e.Admits q a) (s : Session)
    (hq : s.opened.reply.Faultless) :
    ∃ sql given, Sql.wrap (some q) (e.limited a) = .ok sql ∧
      List.Forall₂ (fun values row => Json.IsDict ((s.opened.reply.columns.getD []).zip values) row)
        s.opened.reply.rows given ∧
      ∀ b : Nat, 0 < b → ∃ s' : Session,
        e.Consumes (e.next (.fresh (some q) a b) s) given s' ∧
        s'.trace = s.trace ++ callsOn s.taken (.cursor :: .execute sql ::
          (List.replicate (s.opened.reply.rows.length ⌈/⌉ b + 1) (.fetchMany b) ++ [.close])) ∧
        (e.rows (some q) a b s).1 = given ∧ (e.rows (some q) a b s).2.result = .ok () ∧
        (e.rows (some q) a b s).2.session = s' := by
  obtain ⟨sql, hw, hp⟩ := h.exists_prepare
  refine ⟨sql, s.opened.reply.results, hw, ?_, fun b hb => ?_⟩
  · rw [Reply.results, List.forall₂_map_right_iff, List.forall₂_same]
    exact fun values _ => Executor.isDict_rowOf _ values
  · have hc := Executor.consumes_fresh hp hq hb
    refine ⟨_, hc, ?_, hc.drain rfl (by simp [Reply.results, Session.opened])⟩
    simp [Executor.extend, Session.advance, callsOn]

/-- Rows that are shorter and longer than there are columns, two of one name. -/
def ragged : Reply :=
  { columns := some ["a", "b", "a"],
    rows := [[.int 1, .int 2, .int 3], [.int 4], [.int 5, .int 6, .int 7, .int 8]] }

theorem rows_batched_ragged :
    Executor.Admits {} "SELECT 1" ⟨none, none, some "DESC"⟩ ∧
      (Session.ofScript [ragged]).opened.reply.Faultless ∧ 0 < 2 ∧ ∃ sql,
        (({} : Executor).rows (some "SELECT 1") ⟨none, none, some "DESC"⟩ (2 : Nat)
          (.ofScript [ragged])).2.session.trace = callsOn 0
            [.cursor, .execute sql, .fetchMany 2, .fetchMany 2, .fetchMany 2, .close] ∧
        List.Forall₂ (fun values row => Json.IsDict (["a", "b", "a"].zip values) row) ragged.rows
          (({} : Executor).rows (some "SELECT 1") ⟨none, none, some "DESC"⟩ (2 : Nat)
            (.ofScript [ragged])).1 := by
  have ha : Executor.Admits {} "SELECT 1" ⟨none, none, some "DESC"⟩ :=
    ⟨fun _ => select_allowed.1, select_allowed.2.1, nofun⟩
  have hq : (Session.ofScript [ragged]).opened.reply.Faultless := ⟨rfl, rfl, rfl, rfl⟩
  obtain ⟨sql, given, -, hgiven, hbatch⟩ := rows_batched ha (.ofScript [ragged]) hq
  obtain ⟨s', -, htrace, hrows, -, hs'⟩ := hbatch 2 (by decide)
  refine ⟨ha, hq, by decide, sql, ?_, hrows.symm ▸ hgiven⟩
  have hfetches : (Session.ofScript [ragged]).opened.reply.rows.length ⌈/⌉ 2 = 2 := rfl
  rw [hs', htrace, hfetches]
  rfl

end Engine

end SafeReports
