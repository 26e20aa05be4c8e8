import SafeReports.Proofs.Sql.Enclosure
import SafeReports.Proofs.Sql.Restored
import SafeReports.Proofs.Store.Refinement

/-!
# Saving what was saved

A saved report is the stored form of what its owner wrote. It is saved again, and
run, in the stored form of that, and both are one only for a query that lasts.
-/

namespace SafeReports

open Sql

/-- The stored form is wrapped as the query is when it is stored as it is. -/
theorem Sql.wrap_stored_iff (h : wrap (some s) a = .ok w) :
    wrap (some (String.ofList (stored s.toList))) a = .ok w ↔ Lasting s.toList := by
  obtain ⟨d, l, digits, hd, hl, hw, rfl⟩ := wrap_eq_ok_iff.mp h
  rw [wrap_eq_ok_iff, String.toList_ofList, ← stored_stored_iff]
  constructor
  · rintro ⟨d', l', digits', hd', hl', hw', he⟩
    obtain rfl := Except.ok.inj (hd.symm.trans hd')
    obtain rfl := Except.ok.inj (hl.symm.trans hl')
    obtain rfl := Except.ok.inj (hw.symm.trans hw')
    exact (derived_inj.mp (String.ofList_injective he)).symm
  · intro he
    exact ⟨d, l, digits, hd, hl, hw, by rw [he]⟩

namespace Store

theorem persist_query {st : Store} (h : st.persist d text time = .ok (d', st')) :
    d'.query = d.query := by
  obtain ⟨t, t', -, hw, -⟩ := persist_writes h
  cases hw with
  | new | old => rfl

/-- A saved draft shows the stored form of its query. -/
theorem save_query {st : Store} {d : Draft} (hq : d.query = .str s)
    (h : (st.save d).result = .ok ()) :
    (st.save d).draft.query = .str (String.ofList (stored s.toList)) := by
  have hj := st.judges_accept d.name s
  rw [← hq] at hj
  cases ha : st.accept d.name d.query with
  | mk result o =>
    obtain ⟨accepted, log⟩ := o
    rw [ha] at hj
    cases result with
    | error e =>
      rw [save_refused ha] at h
      cases h
    | ok text =>
      obtain ⟨rfl, -⟩ := hj.passed text rfl
      simp only [save, ha] at h ⊢
      split at h
      · cases h
      · rename_i d' st' hp
        have hd := persist_query hp
        split at h
        · cases h
        · exact hd

/-- A saved report that is saved again keeps its query when that lasts. -/
theorem save_save_iff {st st' : Store} {d d' : Draft} (hq : d.query = .str s)
    (h : (st.save d).result = .ok ()) (hd : d'.query = (st.save d).draft.query)
    (h' : (st'.save d').result = .ok ()) :
    (st'.save d').draft.query = d'.query ↔ Lasting s.toList := by
  have hsaved := hd.trans (save_query hq h)
  rw [save_query hsaved h', hsaved, String.toList_ofList, ← stored_stored_iff, Json.str.injEq]
  exact ⟨fun he => String.ofList_injective he, fun he => by rw [he]⟩

end Store

/-- A query that lasts is stored, run and saved again as it was the first time,
and no other is. An accepted one lasts when its trimmed text does not end in a
separator, in particular when it closes its quoted spans. -/
theorem stored_again_iff (s : String) :
    (stored (stored s.toList) = stored s.toList ↔ Lasting s.toList) ∧
      (∀ a w, wrap (some s) a = .ok w →
        (wrap (some (String.ofList (stored s.toList))) a = .ok w ↔ Lasting s.toList)) ∧
      (∀ (st st' : Store) (d d' : Draft), d.query = .str s → (st.save d).result = .ok () →
        d'.query = (st.save d).draft.query → (st'.save d').result = .ok () →
          ((st'.save d').draft.query = d'.query ↔ Lasting s.toList)) ∧
      ∀ g : Guard, g.Accepts s.toList →
        (Lasting s.toList ↔ (trimSeparators s.toList).getLast? ≠ some ';') ∧
          ((Scan.start.run s.toList).quote = none → Lasting s.toList) :=
  ⟨stored_stored_iff, fun _ _ => wrap_stored_iff, fun _ _ _ _ => Store.save_save_iff,
    fun _ h => ⟨h.lasting_iff, h.lasting⟩⟩

theorem stored_again_iff_line :
    Guard.standard.Accepts "SELECT 1; -- all".toList ∧
      stored (stored "SELECT 1; -- all".toList) = stored "SELECT 1; -- all".toList :=
  have h : Guard.standard.Accepts "SELECT 1; -- all".toList := by decide +kernel
  have again := stored_again_iff "SELECT 1; -- all"
  ⟨h, again.1.mpr ((again.2.2.2 .standard h).2 (by decide +kernel))⟩

/-- One separator goes each time, from the beginning or from the end. -/
theorem stored_again_differs :
    stored (stored "; ; SELECT 1".toList) ≠ stored "; ; SELECT 1".toList ∧
      Guard.standard.Accepts "SELECT 1 -- ' ; ;".toList ∧
      stored (stored "SELECT 1 -- ' ; ;".toList) ≠ stored "SELECT 1 -- ' ; ;".toList := by
  decide +kernel

end SafeReports
