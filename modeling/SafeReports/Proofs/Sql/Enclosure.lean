import SafeReports.Proofs.Sql.Parenthesis
import SafeReports.Sql.Derived

/-!
# The parentheses of the wrapper

The wrapper puts a query between two parentheses, so that order and row limit
are its own to decide. They are a pair when the parentheses of the query are
balanced, which no check of the guard asks for: a query can close the wrapper's
parenthesis and open another for the one behind it.
-/

namespace SafeReports.Sql

open Text

/-- What the wrapper writes before a query, with its parenthesis. -/
def opening : List Char := "SELECT `t`.* FROM (".toList

/-- What the wrapper writes behind a query, before order and limit. -/
def closing : List Char := "\n) AS `t`".toList

/-- The parenthesis before the query is closed by the one behind it. -/
def Encloses (w q : List Char) : Prop :=
  ∃ t, w = opening ++ (q ++ '\n' :: ')' :: t) ∧
    partner? 0 (q ++ '\n' :: ')' :: t) = some (q ++ ['\n'], t)

/-- The parenthesis before the query is closed within it. -/
def BreaksOut (w q : List Char) : Prop :=
  ∃ u v t, w = opening ++ (q ++ '\n' :: ')' :: t) ∧ q = u ++ ')' :: v ∧
    partner? 0 (q ++ '\n' :: ')' :: t) = some (u, v ++ '\n' :: ')' :: t)

/-- The parenthesis before the query is closed behind the other one, if at all. -/
def RunsOn (w q : List Char) : Prop :=
  ∃ t, w = opening ++ (q ++ '\n' :: ')' :: t) ∧
    ∀ u v, partner? 0 (q ++ '\n' :: ')' :: t) = some (u, v) → q ++ ['\n', ')'] <+: u

/-- The text around a query is the same for every query. -/
theorem derived_closing (direction : List Char) (limit : Option (List Char))
    (orderBy : Option String) :
    ∃ rest, ∀ q, derived q direction limit orderBy = opening ++ (q ++ (closing ++ rest)) := by
  obtain ⟨order, bound, h⟩ : ∃ order bound, ∀ q, derived q direction limit orderBy =
      opening ++ q ++ closing ++ order ++ bound := ⟨_, _, fun _ => rfl⟩
  exact ⟨order ++ bound, fun q => by simp [h]⟩

theorem derived_around (direction : List Char) (limit : Option (List Char))
    (orderBy : Option String) :
    ∃ t, ∀ q, derived q direction limit orderBy = opening ++ (q ++ '\n' :: ')' :: t) := by
  obtain ⟨rest, h⟩ := derived_closing direction limit orderBy
  exact ⟨" AS `t`".toList ++ rest, h⟩

theorem derived_eq (q direction : List Char) (limit : Option (List Char))
    (orderBy : Option String) :
    ∃ t, derived q direction limit orderBy = opening ++ (q ++ '\n' :: ')' :: t) := by
  obtain ⟨t, h⟩ := derived_around direction limit orderBy
  exact ⟨t, h q⟩

theorem derived_inj : derived q d l o = derived q' d l o ↔ q = q' := by
  obtain ⟨t, h⟩ := derived_around d l o
  rw [h, h, List.append_right_inj, List.append_left_inj]

theorem wrap_eq_ok_iff : wrap (some q) a = .ok w ↔
    ∃ d l digits, checkDirection a.direction = .ok d ∧ checkLimit a.limit = .ok l ∧
      writeLimit l = .ok digits ∧
      w = String.ofList (derived (stored q.toList) d digits a.orderBy) := by
  simp only [wrap]
  cases checkDirection a.direction with
  | error e => exact ⟨nofun, nofun⟩
  | ok d =>
    cases checkLimit a.limit with
    | error e => exact ⟨nofun, nofun⟩
    | ok l =>
      cases hl : writeLimit l with
      | error e =>
        refine iff_of_false (by simp [bind, Except.bind, hl]) ?_
        rintro ⟨d, l', digits, -, hl', hd, -⟩
        obtain rfl := Except.ok.inj hl'
        cases hl.symm.trans hd
      | ok digits =>
        simp only [bind, Except.bind, hl]
        constructor
        · intro h
          exact ⟨d, l, digits, rfl, rfl, hl, (Except.ok.inj h).symm⟩
        · rintro ⟨d, l', digits', hd, hl', hdigits, rfl⟩
          obtain rfl := Except.ok.inj hd
          obtain rfl := Except.ok.inj hl'
          obtain rfl := Except.ok.inj (hl.symm.trans hdigits)
          rfl

theorem wrap_eq (h : wrap (some q) a = .ok w) :
    ∃ t, w.toList = opening ++ (stored q.toList ++ '\n' :: ')' :: t) := by
  obtain ⟨d, l, digits, -, -, -, rfl⟩ := wrap_eq_ok_iff.mp h
  rw [String.toList_ofList]
  exact derived_eq _ d digits a.orderBy

theorem encloses_iff (hw : w = opening ++ (q ++ '\n' :: ')' :: t)) :
    Encloses w q ↔ Balanced q := by
  have hb : Balanced (q ++ ['\n']) ↔ Balanced q := Balanced.of_filter_eq (by simp [isParenthesis])
  have hp (t) : partner? 0 (q ++ '\n' :: ')' :: t) = some (q ++ ['\n'], t) ↔ Balanced q := by
    rw [partner?_eq_some_iff (Int.le_refl 0), ← hb]
    constructor
    · rintro ⟨-, hs, hz⟩
      exact ⟨hs, by simpa using hz⟩
    · rintro ⟨hs, hz⟩
      exact ⟨by simp, hs, by simpa using hz⟩
  constructor
  · rintro ⟨t, -, h⟩
    exact (hp t).mp h
  · intro h
    exact ⟨t, hw, (hp t).mpr h⟩

theorem breaksOut_or_runsOn (hw : w = opening ++ (q ++ '\n' :: ')' :: t)) (h : ¬ Balanced q) :
    BreaksOut w q ∨ RunsOn w q := by
  cases hp : partner? 0 q with
  | some p =>
    obtain ⟨u, v⟩ := p
    obtain ⟨hq, -⟩ := (partner?_eq_some_iff (Int.le_refl 0)).mp hp
    refine .inl ⟨u, v, t, hw, hq, ?_⟩
    rw [partner?_append, hp]
  | none =>
    have hs : StaysOpen 0 q := (partner?_eq_none_iff (Int.le_refl 0)).mp hp
    have hd : 1 ≤ depth q := by
      have h₀ := hs q (List.prefix_refl q)
      have h₁ : depth q ≠ 0 := fun hz => h ⟨hs, hz⟩
      omega
    refine .inr ⟨t, hw, fun u v huv => ?_⟩
    have hq : partner? 0 (q ++ ['\n', ')']) = none := by
      rw [partner?_eq_none_iff (Int.le_refl 0), staysOpen_append_iff]
      refine ⟨hs, ?_⟩
      simp [nesting]
      omega
    rw [show q ++ '\n' :: ')' :: t = q ++ ['\n', ')'] ++ t by simp, partner?_append, hq] at huv
    obtain ⟨p, -, he⟩ := Option.map_eq_some_iff.mp huv
    obtain ⟨rfl, -⟩ := Prod.mk.inj he
    exact List.prefix_append _ _

/-- What becomes of the wrapper's parentheses: they are a pair when those of the
query are balanced, and otherwise the first is closed within the query or not
before the second. Without comment markers the normal form shows which. -/
theorem wrap_encloses_iff (h : wrap (some q) a = .ok w) :
    (Encloses w.toList (stored q.toList) ↔ Balanced (stored q.toList)) ∧
      (¬ Balanced (stored q.toList) →
        BreaksOut w.toList (stored q.toList) ∨ RunsOn w.toList (stored q.toList)) ∧
      (Unmarked q.toList → (Balanced (stored q.toList) ↔ Balanced (normalize q.toList))) := by
  obtain ⟨t, hw⟩ := wrap_eq h
  refine ⟨encloses_iff hw, breaksOut_or_runsOn hw, fun hu => ?_⟩
  exact Balanced.of_filter_eq ((filter_stored hu).trans (filter_normalize hu).symm)

theorem checkDirection_asc : checkDirection (some "ASC") = .ok "ASC".toList := by
  have h : upper "ASC".toList = "ASC".toList := by decide +kernel
  simp only [checkDirection, h, true_or, ↓reduceIte]

theorem wrap_encloses_iff_count :
    wrap (some "SELECT COUNT(*) FROM t;") ⟨some (.rows 5), none, some "ASC"⟩ =
        .ok "SELECT `t`.* FROM (SELECT COUNT(*) FROM t\n) AS `t` LIMIT 5" ∧
      (Encloses "SELECT `t`.* FROM (SELECT COUNT(*) FROM t\n) AS `t` LIMIT 5".toList
          (stored "SELECT COUNT(*) FROM t;".toList) ↔
        Balanced (stored "SELECT COUNT(*) FROM t;".toList)) :=
  have h : wrap (some "SELECT COUNT(*) FROM t;") ⟨some (.rows 5), none, some "ASC"⟩ =
      .ok "SELECT `t`.* FROM (SELECT COUNT(*) FROM t\n) AS `t` LIMIT 5" :=
    wrap_eq_ok_iff.mpr ⟨"ASC".toList, some 5, some ['5'], checkDirection_asc, rfl,
      by decide +kernel, by decide +kernel⟩
  ⟨h, (wrap_encloses_iff h).1⟩

/-- The query closes the wrapper's parenthesis and opens one for it to close. -/
theorem breaks_out_accepted :
    Guard.standard.Accepts "SELECT 1) AS x, (SELECT 2".toList ∧
      QuoteFree "SELECT 1) AS x, (SELECT 2".toList ∧ Unmarked "SELECT 1) AS x, (SELECT 2".toList ∧
      ∃ w, wrap (some "SELECT 1) AS x, (SELECT 2") ⟨some (.rows 5), none, some "ASC"⟩ = .ok w ∧
        ¬ Encloses w.toList (stored "SELECT 1) AS x, (SELECT 2".toList) := by
  have hs : stored "SELECT 1) AS x, (SELECT 2".toList = "SELECT 1) AS x, (SELECT 2".toList := by
    decide +kernel
  refine ⟨by decide +kernel, by decide +kernel, fun m => by cases m <;> decide +kernel, _,
    wrap_eq_ok_iff.mpr ⟨"ASC".toList, some 5, some ['5'], checkDirection_asc, rfl,
      by decide +kernel, rfl⟩, ?_⟩
  rw [String.toList_ofList, hs]
  obtain ⟨t, ht⟩ := derived_eq "SELECT 1) AS x, (SELECT 2".toList "ASC".toList (some ['5']) none
  rw [encloses_iff ht]
  intro hb
  exact absurd (hb.stays "SELECT 1)".toList (by decide +kernel)) (by decide +kernel)

end SafeReports.Sql
