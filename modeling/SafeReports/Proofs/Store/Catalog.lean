import SafeReports.Proofs.Text.Squeeze
import SafeReports.Store.Basic
import SafeReports.Timestamp.RoundTrip

/-!
# Catalogs

A catalog is what a report table stands for: a finite map from ids to reports,
and how many ids were ever given. A new report takes the next id, whatever was
removed. The table keeps its entries as rows in ascending order of their ids,
and times as text.
-/

namespace SafeReports

open Text

namespace Store

/-- A name that is trimmed and not blank. -/
structure ReportName where
  text : String
  trimmed : Report.trimName text = text
  notBlank : text ≠ ""

structure Entry where
  name : ReportName
  query : String
  created : Timestamp
  updated : Timestamp

namespace Entry

def row (e : Entry) (id : Int) : ReportRow :=
  ⟨id, e.name.text, e.query, e.created.text, e.updated.text⟩

def report (e : Entry) (id : Int) : Report :=
  ⟨some id, e.name.text, e.query, some e.created, some e.updated⟩

/-- With another name and query, changed at the time. -/
def revise (e : Entry) (name : ReportName) (query : String) (time : Timestamp) : Entry :=
  { e with name := name, query := query, updated := time }

/-- A row is read as the report that was written. -/
theorem load_row (e : Entry) (id : Int) : load (e.row id) = .ok (e.report id) := by
  simp [load, row, readTime, Timestamp.ofText?_text, e.name.trimmed, e.name.notBlank, report]
  rfl

end Entry

/-- A finite map from ids to entries; the ids given so far are those up to
`issued`. -/
structure Catalog where
  issued : Nat
  entry : Int → Option Entry
  bounded : ∀ {id e}, entry id = some e → 1 ≤ id ∧ id ≤ issued

namespace Catalog

def empty : Catalog := ⟨0, fun _ => none, nofun⟩

/-- Puts an entry under the next id. -/
def add (c : Catalog) (e : Entry) : Catalog where
  issued := c.issued + 1
  entry k := if k = c.issued + 1 then some e else c.entry k
  bounded {k e} h := by
    split at h
    · omega
    · have := c.bounded h
      omega

/-- Changes the entry of one id. -/
def change (c : Catalog) (id : Int) (f : Entry → Entry) : Catalog where
  issued := c.issued
  entry k := if k = id then (c.entry k).map f else c.entry k
  bounded {k e} h := by
    split at h
    · obtain ⟨_, hk, -⟩ := Option.map_eq_some_iff.mp h
      exact c.bounded hk
    · exact c.bounded h

def remove (c : Catalog) (id : Int) : Catalog where
  issued := c.issued
  entry k := if k = id then none else c.entry k
  bounded {k e} h := by
    split at h
    · cases h
    · exact c.bounded h

-- ---------------------------------------------------------------------------
-- Entries in order
-- ---------------------------------------------------------------------------

/-- The entries of the ids from one to `n`, in ascending order. -/
def upTo (entry : Int → Option Entry) : Nat → List (Int × Entry)
  | 0 => []
  | n + 1 => upTo entry n ++ ((entry (n + 1)).map fun e => ((n + 1 : Int), e)).toList

theorem mem_upTo {id : Int} {e : Entry} :
    (id, e) ∈ upTo f n ↔ (1 ≤ id ∧ id ≤ n) ∧ f id = some e := by
  induction n with
  | zero =>
    simp only [upTo, List.not_mem_nil, false_iff]
    omega
  | succ n ih =>
    simp only [upTo, List.mem_append, ih, Option.mem_toList, Option.map_eq_some_iff, Prod.mk.injEq]
    constructor
    · rintro (⟨h, he⟩ | ⟨e, he, rfl, rfl⟩)
      · exact ⟨by omega, he⟩
      · exact ⟨by omega, he⟩
    · rintro ⟨h, he⟩
      by_cases hid : id = n + 1
      · subst hid
        exact .inr ⟨e, he, rfl, rfl⟩
      · exact .inl ⟨by omega, he⟩

theorem upTo_ascending (f : Int → Option Entry) (n : Nat) :
    ((upTo f n).map Prod.fst).Pairwise (· < ·) := by
  induction n with
  | zero => exact .nil
  | succ n ih =>
    rw [upTo, List.map_append, List.pairwise_append]
    refine ⟨ih, ?_, ?_⟩
    · cases f (n + 1) <;> simp
    · intro a ha b hb
      obtain ⟨p₁, hp₁, rfl⟩ := List.mem_map.mp ha
      obtain ⟨p₂, hp₂, rfl⟩ := List.mem_map.mp hb
      obtain ⟨e', -, rfl⟩ := Option.map_eq_some_iff.mp (Option.mem_toList.mp hp₂)
      exact Int.lt_add_one_of_le (mem_upTo.mp hp₁).1.2

theorem upTo_congr {n : Nat} (h : ∀ id : Int, id ≤ n → f id = g id) : upTo f n = upTo g n := by
  induction n with
  | zero => rfl
  | succ n ih => rw [upTo, upTo, ih fun id hid => h id (by omega), h (n + 1) (by omega)]

theorem upTo_change (f : Int → Option Entry) (id : Int) (g : Entry → Entry) (n : Nat) :
    upTo (fun k => if k = id then (f k).map g else f k) n =
      (upTo f n).map fun p => if p.1 = id then (p.1, g p.2) else p := by
  induction n with
  | zero => rfl
  | succ n ih =>
    simp only [upTo, ih, List.map_append]
    congr 1
    cases f (n + 1) <;> by_cases hid : (n + 1 : Int) = id <;> simp [hid]

theorem upTo_remove (f : Int → Option Entry) (id : Int) (n : Nat) :
    upTo (fun k => if k = id then none else f k) n = (upTo f n).filter fun p => p.1 != id := by
  induction n with
  | zero => rfl
  | succ n ih =>
    simp only [upTo, ih, List.filter_append]
    congr 1
    cases f (n + 1) <;> by_cases hid : (n + 1 : Int) = id <;> simp [hid]

def entries (c : Catalog) : List (Int × Entry) := upTo c.entry c.issued

theorem mem_entries {c : Catalog} {id : Int} {e : Entry} :
    (id, e) ∈ c.entries ↔ c.entry id = some e := by
  rw [entries, mem_upTo]
  exact and_iff_right_of_imp c.bounded

theorem entries_add (c : Catalog) (e : Entry) :
    (c.add e).entries = c.entries ++ [((c.issued + 1 : Int), e)] := by
  simp only [entries, add, upTo, ↓reduceIte, Option.map_some, Option.toList_some]
  congr 1
  refine upTo_congr fun id hid => if_neg ?_
  omega

-- ---------------------------------------------------------------------------
-- The table of a catalog
-- ---------------------------------------------------------------------------

/-- The reports in ascending order of their ids. -/
def list (c : Catalog) : List Report := c.entries.map fun p => p.2.report p.1

def table (c : Catalog) : ReportTable := ⟨c.entries.map fun p => p.2.row p.1, c.issued + 1⟩

theorem table_insert (c : Catalog) (name : ReportName) (query : String) (time : Timestamp) :
    c.table.insert name.text query time = (c.add ⟨name, query, time, time⟩).table := by
  simp only [table, entries_add, List.map_append]
  rfl

theorem table_update (c : Catalog) (id : Int) (name : ReportName) (query : String)
    (time : Timestamp) : c.table.update id name.text query time =
      (c.change id fun e => e.revise name query time).table := by
  simp only [table, ReportTable.update, entries, change, upTo_change, List.map_map]
  congr 1
  refine List.map_congr_left fun p _ => ?_
  by_cases hp : p.1 = id <;> simp [hp, Entry.row, Entry.revise]

theorem table_erase (c : Catalog) (id : Int) : c.table.erase id = (c.remove id).table := by
  simp only [table, ReportTable.erase, entries, remove, upTo_remove, List.filter_map]
  rfl

theorem table_find? (c : Catalog) (id : Int) :
    c.table.find? id = (c.entry id).map fun e => e.row id := by
  have hrow : ∀ {r}, r ∈ c.table.rows → ∃ e, c.entry r.id = some e ∧ r = e.row r.id := by
    intro r hr
    obtain ⟨⟨k, e⟩, hk, rfl⟩ := List.mem_map.mp hr
    exact ⟨e, mem_entries.mp hk, rfl⟩
  cases hf : c.table.find? id with
  | none =>
    cases he : c.entry id with
    | none => rfl
    | some e =>
      have hm : e.row id ∈ c.table.rows := List.mem_map.mpr ⟨(id, e), mem_entries.mpr he, rfl⟩
      have hn : (e.row id).id ≠ id := by simpa using List.find?_eq_none.mp hf _ hm
      exact absurd rfl hn
  | some r =>
    obtain rfl : r.id = id := by simpa using List.find?_some hf
    obtain ⟨e, he, hr⟩ := hrow (List.mem_of_find?_eq_some hf)
    rw [he, Option.map_some, ← hr]

theorem table_has (c : Catalog) (id : Int) : c.table.has id = (c.entry id).isSome := by
  have h : c.table.has id = (c.table.find? id).isSome := List.isSome_find?.symm
  rw [h, table_find?, Option.isSome_map]

theorem mapM_load (c : Catalog) : c.table.rows.mapM load = .ok c.list := by
  have hl : load ∘ (fun p : Int × Entry => p.2.row p.1) = fun p => pure (p.2.report p.1) :=
    funext fun p => p.2.load_row p.1
  rw [table, List.mapM_map, hl, List.mapM_pure]
  rfl

end Catalog

end Store

end SafeReports
