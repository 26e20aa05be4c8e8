import Mathlib.Data.List.Induction
import Mathlib.Logic.Function.Basic
import SafeReports.Proofs.Engine.Account

/-!
# Journals

A journal of a workbench tells for every request whose it was, what was answered
and which calls were made for it. A request belongs to itself when it is a call
of its own, and to the request that began the stream it is about otherwise.
-/

namespace SafeReports.Engine

open Executor (Stream rowsGiven)

namespace Answer

def given : Answer → List Json.Members
  | .rows given _ => given
  | .row result => rowsGiven result
  | _ => []

/-- Whether an answer is the last of its stream: anything but a row is. -/
def ends : Answer → Bool
  | row (.ok (some _)) => false
  | _ => true

theorem ends_row (result : Except Failure (Option Json.Members)) :
    (row result).ends = (rowsGiven result).isEmpty := by
  rcases result with _ | _ | _ <;> rfl

end Answer

namespace Request

def opening : Request → Stream
  | check query => .fresh query ⟨some (.rows 1), none, some "DESC"⟩ 0
  | rows query a batch | start _ query a batch => .fresh query a batch
  | table query a => .fresh query a 0
  | next _ | close _ => .over

/-- Whether a request asks for rows; the others only begin or give up streams. -/
def pulls : Request → Bool
  | start .. | close _ => false
  | _ => true

end Request

structure Entry where
  request : Request
  /-- The number of the request whose stream this one is about. -/
  owner : Option Nat
  answer : Answer
  calls : List (Nat × Call)

structure Journal where
  work : Workbench
  /-- The number of the request that began the stream of a name. -/
  origin : String → Option Nat
  entries : List Entry

namespace Journal

def ofScript (script : List Reply) : Journal := ⟨.ofScript script, fun _ => none, []⟩

/-- Whose a request is, as the next one of the journal. -/
def owner (j : Journal) : Request → Option Nat
  | .check _ | .rows .. | .table .. => some j.entries.length
  | .start name .. | .next name | .close name => j.origin name

def originAfter (j : Journal) : Request → String → Option Nat
  | .start name .. => Function.update j.origin name (some j.entries.length)
  | _ => j.origin

def entry (e : Executor) (j : Journal) (r : Request) : Entry :=
  let (answer, _, work) := j.work.handle e r
  ⟨r, j.owner r, answer, work.session.trace.drop j.work.session.trace.length⟩

def add (e : Executor) (j : Journal) (r : Request) : Journal :=
  ⟨(j.work.handle e r).2.2, j.originAfter r, j.entries ++ [j.entry e r]⟩

def keep (e : Executor) (script : List Reply) (requests : List Request) : Journal :=
  requests.foldl (add e) (ofScript script)

/-- What belongs to the request of a number. -/
def owned (j : Journal) (k : Nat) : List Entry := j.entries.filter (·.owner == some k)

def calls (j : Journal) (k : Nat) : List (Nat × Call) := (j.owned k).flatMap Entry.calls

def rows (j : Journal) (k : Nat) : List Json.Members := (j.owned k).flatMap (·.answer.given)

/-- Whether the stream of the request of a number is at its end. -/
def ended (j : Journal) (k : Nat) : Bool := (j.owned k).any (·.answer.ends)

def request? (j : Journal) (k : Nat) : Option Request := j.entries[k]?.map Entry.request

-- ---------------------------------------------------------------------------
-- The workbench of a journal
-- ---------------------------------------------------------------------------

theorem keep_append (e : Executor) (script : List Reply) (requests : List Request) (r : Request) :
    keep e script (requests ++ [r]) = (keep e script requests).add e r := by
  simp [keep]

theorem keep_work (e : Executor) (script : List Reply) (requests : List Request) :
    (keep e script requests).work = (Workbench.ofScript script).run e requests := by
  induction requests using List.reverseRecOn with
  | nil => rfl
  | append_singleton requests r ih =>
    simp only [Workbench.run, List.foldl_append, List.foldl_cons, List.foldl_nil] at ih ⊢
    rw [keep_append, ← ih]
    rfl

theorem keep_requests (e : Executor) (script : List Reply) (requests : List Request) :
    (keep e script requests).entries.map Entry.request = requests := by
  induction requests using List.reverseRecOn with
  | nil => rfl
  | append_singleton requests r ih =>
    rw [keep_append]
    simp [add, entry, ih]

theorem keep_request? (e : Executor) (script : List Reply) (requests : List Request) (k : Nat) :
    (keep e script requests).request? k = requests[k]? := by
  rw [request?, ← List.getElem?_map, keep_requests]

-- ---------------------------------------------------------------------------
-- One more entry
-- ---------------------------------------------------------------------------

section
variable (e : Executor) (j : Journal) (r : Request) (k : Nat)

theorem owned_add : (j.add e r).owned k =
    j.owned k ++ if j.owner r = some k then [j.entry e r] else [] := by
  have ho : (j.entry e r).owner = j.owner r := rfl
  by_cases h : j.owner r = some k <;> simp [owned, add, ho, h]

theorem owned_add_self (h : j.owner r = some k) :
    (j.add e r).owned k = j.owned k ++ [j.entry e r] := by
  rw [owned_add, if_pos h]

theorem owned_add_other (h : j.owner r ≠ some k) : (j.add e r).owned k = j.owned k := by
  rw [owned_add, if_neg h, List.append_nil]

theorem calls_add_self (h : j.owner r = some k) :
    (j.add e r).calls k = j.calls k ++ (j.entry e r).calls := by
  simp [calls, owned_add_self e j r k h]

theorem calls_add_other (h : j.owner r ≠ some k) : (j.add e r).calls k = j.calls k := by
  rw [calls, owned_add_other e j r k h, calls]

theorem rows_add_self (h : j.owner r = some k) :
    (j.add e r).rows k = j.rows k ++ (j.entry e r).answer.given := by
  simp [rows, owned_add_self e j r k h]

theorem rows_add_other (h : j.owner r ≠ some k) : (j.add e r).rows k = j.rows k := by
  rw [rows, owned_add_other e j r k h, rows]

theorem ended_add_self (h : j.owner r = some k) :
    (j.add e r).ended k = (j.ended k || (j.entry e r).answer.ends) := by
  simp [ended, owned_add_self e j r k h]

theorem ended_add_other (h : j.owner r ≠ some k) : (j.add e r).ended k = j.ended k := by
  rw [ended, owned_add_other e j r k h, ended]

theorem entry_calls : (j.entry e r).calls =
    (j.add e r).work.session.trace.drop j.work.session.trace.length := rfl

theorem request?_add : (j.add e r).request? k =
    if k = j.entries.length then some r else j.request? k := by
  have hr : (j.entry e r).request = r := rfl
  simp only [request?, add, List.getElem?_append, List.getElem?_singleton]
  by_cases h : k = j.entries.length
  · simp [h, hr]
  · by_cases hlt : k < j.entries.length
    · simp [h, hlt]
    · have hne : k - j.entries.length ≠ 0 := by omega
      simp [h, hlt, hne]

end

theorem request?_lt {j : Journal} (h : j.request? k = some r) : k < j.entries.length := by
  obtain ⟨entry, he, -⟩ := Option.map_eq_some_iff.mp h
  exact (List.getElem?_eq_some_iff.mp he).1

end Journal

-- ---------------------------------------------------------------------------
-- Streams by name
-- ---------------------------------------------------------------------------

namespace Workbench

theorem stream?_put (w : Workbench) (name : String) (stream : Stream) (s : Session)
    (other : String) : (w.put name stream s).stream? other =
      if other = name then some stream else w.stream? other := by
  simp only [stream?, put, List.lookup_cons]
  by_cases h : other = name
  · simp [h]
  · rw [if_neg h, show (other == name) = false by simpa using h]
    dsimp only
    induction w.streams with
    | nil => rfl
    | cons p rest ih =>
      by_cases hp : p.1 = name
      · have ho : (other == p.1) = false := by simpa [hp] using h
        rw [List.filter_cons_of_neg (by simpa using hp), List.lookup_cons, ho, ih]
      · rw [List.filter_cons_of_pos (by simpa using hp), List.lookup_cons, List.lookup_cons, ih]

end Workbench

end SafeReports.Engine
