import SafeReports.Proofs.Construction
import SafeReports.Proofs.Store.Catalog

/-!
# Operations

What is asked of a store, and what that is to a catalog. Whether a save is
refused is for the settings, the guard and the engine to decide; what the answers
are and what becomes of the reports is in the catalog. Its new ids count up past
all that were given before, and no report is changed before it was created as
long as times do not go back.
-/

namespace SafeReports

open Decimal (fitsWord)

-- ---------------------------------------------------------------------------
-- Definitions as they are built
-- ---------------------------------------------------------------------------

/-- A report as its constructor builds it. -/
def Report.IsBuilt (r : Report) : Prop := ∃ members, ofMembers members = .ok r

theorem Report.IsBuilt.name {r : Report} (h : r.IsBuilt) :
    trimName r.name = r.name ∧ r.name ≠ "" := by
  obtain ⟨members, h⟩ := h
  exact (isBuilder_build .lax).name h

namespace Store

def nameOf (r : Report) (h : r.IsBuilt) : ReportName := ⟨r.name, h.name.1, h.name.2⟩

-- ---------------------------------------------------------------------------
-- Operations
-- ---------------------------------------------------------------------------

/-- What is asked of a store: definitions as they are built, ids of 64 bits. -/
inductive Operation
  | save (r : Report) (built : r.IsBuilt) (fits : ∀ id ∈ r.id, fitsWord id = true)
  | get (id : Int) (fits : fitsWord id = true)
  | list
  | delete (id : Int) (fits : fitsWord id = true)

inductive Answer
  /-- The id that a saved report has. -/
  | id (result : Except Failure Json)
  | report (result : Except Failure Report)
  | reports (result : Except Failure (List Report))
  | done (result : Except Failure Unit)

def perform (st : Store) : Operation → Answer × Store
  | .save r _ _ =>
    let s := st.save (.ofReport r)
    (.id (s.result.map fun _ => s.draft.id), s.store)
  | .get id _ => (.report (st.get (.int id)), st)
  | .list => (.reports st.list, st)
  | .delete id _ => (.done (st.delete (.int id)).1, (st.delete (.int id)).2)

/-- The answers to operations one after the other, and the store after them. -/
def run (st : Store) : List Operation → List Answer × Store
  | [] => ([], st)
  | op :: ops =>
    let (answer, st) := st.perform op
    let (answers, st) := st.run ops
    (answer :: answers, st)

-- ---------------------------------------------------------------------------
-- What happens to a catalog
-- ---------------------------------------------------------------------------

inductive Event
  /-- A save that is refused before anything is written. -/
  | refuse (cause : Failure)
  | save (id : Option Int) (name : ReportName) (query : String) (time : Timestamp)
  | get (id : Int)
  | list
  | delete (id : Int)

def unknown (id : Int) : Failure := .unknownId (.int id)

def Catalog.perform (c : Catalog) : Event → Answer × Catalog
  | .refuse cause => (.id (.error cause), c)
  | .save none name query time =>
    (.id (.ok (.int (c.issued + 1))), c.add ⟨name, query, time, time⟩)
  | .save (some id) name query time =>
    match c.entry id with
    | none => (.id (.error (unknown id)), c)
    | some _ => (.id (.ok (.int id)), c.change id fun e => e.revise name query time)
  | .get id =>
    match c.entry id with
    | none => (.report (.error (unknown id)), c)
    | some e => (.report (.ok (e.report id)), c)
  | .list => (.reports (.ok c.list), c)
  | .delete id =>
    match c.entry id with
    | none => (.done (.error (unknown id)), c)
    | some _ => (.done (.ok ()), c.remove id)

def Catalog.run (c : Catalog) : List Event → List Answer × Catalog
  | [] => ([], c)
  | e :: es =>
    let (answer, c) := c.perform e
    let (answers, c) := c.run es
    (answer :: answers, c)

def storedText (r : Report) : String := String.ofList (Sql.stored r.query.toList)

/-- What an operation is to a catalog: a save is refused or comes with the
stored query and the time of the store. -/
def event (st : Store) : Operation → Event
  | .save r built _ =>
    match (st.accept (.str r.name) (.str r.query)).1 with
    | .error cause => .refuse cause
    | .ok _ => .save r.id (nameOf r built) (storedText r) (st.clock st.ticks)
  | .get id _ => .get id
  | .list => .list
  | .delete id _ => .delete id

def events (st : Store) : List Operation → List Event
  | [] => []
  | op :: ops => st.event op :: (st.perform op).2.events ops

-- ---------------------------------------------------------------------------
-- New ids
-- ---------------------------------------------------------------------------

/-- The id that a report without one was saved under. -/
def newId? : Operation → Answer → Option Int
  | .save r _ _, .id (.ok (.int n)) => if r.id = none then some n else none
  | _, _ => none

def newIds : List Operation → List Answer → List Int
  | op :: ops, answer :: answers => (newId? op answer).toList ++ newIds ops answers
  | _, _ => []

/-- A new id is the next, and otherwise none is given. -/
theorem newId?_perform (st : Store) (c : Catalog) (op : Operation) :
    let o := c.perform (st.event op)
    (newId? op o.1 = none ∧ o.2.issued = c.issued) ∨
      (newId? op o.1 = some ((c.issued : Int) + 1) ∧ o.2.issued = c.issued + 1) := by
  cases op with
  | save r built fits =>
    simp only [event]
    split
    · exact .inl ⟨rfl, rfl⟩
    · cases hid : r.id with
      | none => exact .inr ⟨by simp [Catalog.perform, newId?, hid], rfl⟩
      | some id =>
        simp only [Catalog.perform]
        cases c.entry id with
        | none => exact .inl ⟨rfl, rfl⟩
        | some e => exact .inl ⟨by simp [newId?, hid], rfl⟩
  | get id fits =>
    simp only [event, Catalog.perform]
    cases c.entry id <;> exact .inl ⟨rfl, rfl⟩
  | list => exact .inl ⟨rfl, rfl⟩
  | delete id fits =>
    simp only [event, Catalog.perform]
    cases c.entry id <;> exact .inl ⟨rfl, rfl⟩

/-- The new ids of a run ascend from the last one that was given before. -/
theorem newIds_run (st : Store) (c : Catalog) (ops : List Operation) :
    let o := c.run (st.events ops)
    (newIds ops o.1).Pairwise (· < ·) ∧ ∀ n ∈ newIds ops o.1, (c.issued : Int) < n := by
  induction ops generalizing st c with
  | nil => exact ⟨.nil, nofun⟩
  | cons op ops ih =>
    obtain ⟨hp, hm⟩ := ih (st.perform op).2 (c.perform (st.event op)).2
    simp only [events, Catalog.run, newIds]
    rcases st.newId?_perform c op with ⟨hn, hi⟩ | ⟨hn, hi⟩
    · rw [hi] at hm
      rw [hn]
      exact ⟨hp, hm⟩
    · rw [hi, Int.natCast_add, Int.natCast_one] at hm
      rw [hn]
      refine ⟨List.pairwise_cons.mpr ⟨fun n hmem => ?_, hp⟩, fun n hmem => ?_⟩
      · have := hm n hmem
        omega
      · rcases List.mem_cons.mp hmem with rfl | hmem
        · omega
        · have := hm n hmem
          omega

-- ---------------------------------------------------------------------------
-- Times
-- ---------------------------------------------------------------------------

/-- Every entry was changed after it was created and before now. -/
def Catalog.InOrder (c : Catalog) (now : Int) : Prop :=
  ∀ id e, c.entry id = some e →
    e.created.epochMicros ≤ e.updated.epochMicros ∧ e.updated.epochMicros ≤ now

theorem Catalog.inOrder_empty (now : Int) : Catalog.empty.InOrder now := by
  intro id e he
  cases he

/-- What is written is written between two times. -/
def Event.Within (earlier later : Int) : Event → Prop
  | .save _ _ _ time => earlier ≤ time.epochMicros ∧ time.epochMicros ≤ later
  | _ => earlier ≤ later

theorem Event.Within.le {e : Event} (h : e.Within a b) : a ≤ b := by
  cases e with
  | save => exact Int.le_trans h.1 h.2
  | _ => exact h

theorem Catalog.InOrder.mono {c : Catalog} (h : c.InOrder a) (hab : a ≤ b) : c.InOrder b :=
  fun id e he => ⟨(h id e he).1, Int.le_trans (h id e he).2 hab⟩

theorem Catalog.InOrder.perform {c : Catalog} {ev : Event} (h : c.InOrder a)
    (hev : ev.Within a b) : (c.perform ev).2.InOrder b := by
  have hc := h.mono hev.le
  cases ev with
  | refuse => exact hc
  | save id name query time =>
    obtain ⟨ha, hb⟩ := hev
    cases id with
    | none =>
      intro k e he
      simp only [Catalog.perform, Catalog.add] at he
      split at he
      · cases he
        exact ⟨Int.le_refl _, hb⟩
      · exact hc k e he
    | some id =>
      simp only [Catalog.perform]
      cases hid : c.entry id with
      | none => exact hc
      | some _ =>
        intro k e he
        simp only [Catalog.change] at he
        split at he
        · obtain ⟨e, hk, rfl⟩ := Option.map_eq_some_iff.mp he
          exact ⟨Int.le_trans (Int.le_trans (h k e hk).1 (h k e hk).2) ha, hb⟩
        · exact hc k e he
  | get id =>
    simp only [Catalog.perform]
    cases c.entry id <;> exact hc
  | list => exact hc
  | delete id =>
    simp only [Catalog.perform]
    cases c.entry id with
    | none => exact hc
    | some _ =>
      intro k e he
      simp only [Catalog.remove] at he
      split at he
      · cases he
      · exact hc k e he

end Store

end SafeReports
