import Mathlib.Data.List.Forall2
import SafeReports.Proofs.Sql.Statement

/-!
# Letter case

Texts that differ in letter case alone have the same verdict. What a pass looks for
is its own upper case and that of nothing else, so two such texts have it in the same
places, and what the pass leaves of them differs in letter case alone again.
-/

namespace SafeReports.Sql

open Text

/-- Texts of one length that have, place by place, characters of the same upper case. -/
def SameLetters : List Char → List Char → Prop :=
  List.Forall₂ fun c d => upperChar c = upperChar d

theorem sameLetters_iff {s t : List Char} :
    SameLetters s t ↔ s.map upperChar = t.map upperChar := by
  rw [← List.forall₂_eq_eq_eq, List.forall₂_map_left_iff, List.forall₂_map_right_iff]
  exact Iff.rfl

instance (s t : List Char) : Decidable (SameLetters s t) :=
  decidable_of_iff' _ sameLetters_iff

-- ---------------------------------------------------------------------------
-- Characters
-- ---------------------------------------------------------------------------

section
variable {c d : Char}

theorem eq_of_upperChar_eq (h : upperChar c = upperChar d) (hc : isInert c = true) : c = d := by
  apply eq_of_mem_upperChar _ hc
  rw [← h, upperChar_inert hc]
  exact List.mem_singleton_self c

theorem upperChar_eq_inert_iff (h : upperChar c = upperChar d) {a : Char} (ha : isInert a = true) :
    c = a ↔ d = a := by
  constructor
  · rintro rfl
    exact (eq_of_upperChar_eq h ha).symm
  · rintro rfl
    exact (eq_of_upperChar_eq h.symm ha).symm

theorem isBlank_congr (h : upperChar c = upperChar d) : isBlank c = isBlank d := by
  cases hc : isBlank c with
  | true =>
    obtain rfl := eq_of_upperChar_eq h (isInert_of_isBlank hc)
    exact hc.symm
  | false =>
    cases hd : isBlank d with
    | false => rfl
    | true =>
      obtain rfl := eq_of_upperChar_eq h.symm (isInert_of_isBlank hd)
      rw [hc] at hd
      cases hd

end

-- ---------------------------------------------------------------------------
-- Texts
-- ---------------------------------------------------------------------------

section
variable {s t : List Char}

theorem SameLetters.upper_eq (h : SameLetters s t) : upper s = upper t := by
  induction h with
  | nil => rfl
  | cons hc _ ih => rw [upper_cons, upper_cons, hc, ih]

theorem SameLetters.isBlankText_eq (h : SameLetters s t) : isBlankText s = isBlankText t := by
  induction h with
  | nil => rfl
  | cons hc _ ih => exact congrArg₂ and (isBlank_congr hc) ih

theorem SameLetters.collapseFrom (h : SameLetters s t) (b : Bool) :
    SameLetters (collapseFrom b s) (collapseFrom b t) := by
  induction h generalizing b with
  | nil => exact .nil
  | @cons c d _ _ hc _ ih =>
    simp only [Text.collapseFrom, ← isBlank_congr hc]
    cases isBlank c with
    | false => exact .cons hc (ih false)
    | true =>
      cases b with
      | false => exact .cons rfl (ih true)
      | true => exact ih true

theorem SameLetters.dropBlank (h : SameLetters s t) :
    SameLetters (s.dropWhile isBlank) (t.dropWhile isBlank) := by
  induction h with
  | nil => exact .nil
  | @cons c d _ _ hc hr ih =>
    simp only [List.dropWhile_cons, ← isBlank_congr hc]
    split
    · exact ih
    · exact .cons hc hr

theorem SameLetters.strip (h : SameLetters s t) : SameLetters (strip s) (strip t) :=
  List.rel_reverse (SameLetters.dropBlank (List.rel_reverse h.dropBlank))

theorem SameLetters.countSeparators_eq (h : SameLetters s t) :
    countSeparators s = countSeparators t := by
  unfold countSeparators
  rw [← Scan.count_upper Scan.start_proper s, h.upper_eq, Scan.count_upper Scan.start_proper]

end

-- ---------------------------------------------------------------------------
-- Comments
-- ---------------------------------------------------------------------------

section
variable {c d a b : Char} {r r' s t : List Char}

/-- Two characters stand at the beginning of both texts or of none. -/
theorem SameLetters.pair (h : SameLetters (c :: r) (d :: r')) (ha : isInert a = true)
    (hb : isInert b = true) (hn : ∀ t, c = a → r = b :: t → False) :
    ∀ t, d = a → r' = b :: t → False := by
  rintro t hd rfl
  cases h with
  | cons hc hr =>
    cases hr with
    | cons he _ =>
      obtain rfl := (upperChar_eq_inert_iff he hb).mpr rfl
      exact hn _ ((upperChar_eq_inert_iff hc ha).mpr hd) rfl

theorem outsideLines_char (h : ∀ t, c = '-' → r = '-' :: t → False) :
    outsideLines false (c :: r) = c :: outsideLines false r := by
  rw [outsideLines]
  exact h

theorem SameLetters.outsideLines (h : SameLetters s t) (b : Bool) :
    SameLetters (outsideLines b s) (outsideLines b t) := by
  fun_induction Sql.outsideLines b s generalizing t with
  | case1 b =>
    cases h
    cases b <;> exact .nil
  | case2 r ih =>
    cases h with
    | cons hc hr =>
      obtain rfl := eq_of_upperChar_eq hc (by decide)
      exact .cons rfl (ih hr)
  | case3 c r hc ih =>
    cases h with
    | @cons _ d _ _ hcd hr =>
      have hd : ¬ d = '\n' := fun hd => hc ((upperChar_eq_inert_iff hcd (by decide)).mpr hd)
      simp only [Sql.outsideLines, hd, ↓reduceIte]
      exact ih hr
  | case4 r ih =>
    rcases h with _ | ⟨hc, _ | ⟨hd, hr⟩⟩
    obtain rfl := eq_of_upperChar_eq hc (by decide)
    obtain rfl := eq_of_upperChar_eq hd (by decide)
    exact ih hr
  | case5 c r hn ih =>
    rcases h with _ | ⟨hc, hr⟩
    rw [outsideLines_char (pair (.cons hc hr) (by decide) (by decide) hn)]
    exact .cons hc (ih hr)

theorem SameLetters.afterBlock?_isSome (h : SameLetters s t) :
    (afterBlock? s).isSome = (afterBlock? t).isSome := by
  fun_induction afterBlock? s generalizing t with
  | case1 =>
    cases h
    rfl
  | case2 r =>
    rcases h with _ | ⟨hc, _ | ⟨hd, hr⟩⟩
    obtain rfl := eq_of_upperChar_eq hc (by decide)
    obtain rfl := eq_of_upperChar_eq hd (by decide)
    rfl
  | case3 c r hn ih =>
    rcases h with _ | ⟨hc, hr⟩
    rw [afterBlock?, ih hr]
    exact pair (.cons hc hr) (by decide) (by decide) hn

theorem SameLetters.outsideBlocks (h : SameLetters s t) (b : Bool) :
    SameLetters (outsideBlocks b s) (outsideBlocks b t) := by
  fun_induction Sql.outsideBlocks b s generalizing t with
  | case1 b =>
    cases h
    cases b <;> exact .nil
  | case2 r ih =>
    rcases h with _ | ⟨hc, _ | ⟨hd, hr⟩⟩
    obtain rfl := eq_of_upperChar_eq hc (by decide)
    obtain rfl := eq_of_upperChar_eq hd (by decide)
    exact ih hr
  | case3 c r hn ih =>
    rcases h with _ | ⟨hc, hr⟩
    rw [Sql.outsideBlocks]
    · exact ih hr
    · exact pair (.cons hc hr) (by decide) (by decide) hn
  | case4 r closed ih =>
    rcases h with _ | ⟨hc, _ | ⟨hd, hr⟩⟩
    obtain rfl := eq_of_upperChar_eq hc (by decide)
    obtain rfl := eq_of_upperChar_eq hd (by decide)
    rw [SameLetters.afterBlock?_isSome hr] at closed
    simp only [Sql.outsideBlocks, closed, ↓reduceIte]
    exact ih hr
  | case5 r unclosed ih =>
    rcases h with _ | ⟨hc, _ | ⟨hd, hr⟩⟩
    obtain rfl := eq_of_upperChar_eq hc (by decide)
    obtain rfl := eq_of_upperChar_eq hd (by decide)
    rw [SameLetters.afterBlock?_isSome hr] at unclosed
    simp only [Sql.outsideBlocks, unclosed]
    exact .cons rfl (ih (.cons rfl hr))
  | case6 c r hn ih =>
    rcases h with _ | ⟨hc, hr⟩
    rw [Sql.outsideBlocks]
    · exact .cons hc (ih hr)
    · exact pair (.cons hc hr) (by decide) (by decide) hn

theorem SameLetters.normalize_eq (h : SameLetters s t) : normalize s = normalize t := by
  have visible := (h.outsideLines false).outsideBlocks false
  exact (visible.collapseFrom false).strip.upper_eq

end

-- ---------------------------------------------------------------------------
-- The guard
-- ---------------------------------------------------------------------------

/-- Letter case changes neither the verdict nor what is logged. -/
theorem Guard.validate_sameLetters (g : Guard) {q q' : String}
    (h : SameLetters q.toList q'.toList) : g.validate (some q) = g.validate (some q') :=
  g.validate_congr h.isBlankText_eq h.normalize_eq h.countSeparators_eq

/-- The long s and the dotless i are letters of the keyword as well. -/
theorem Guard.validate_sameLetters_insert :
    SameLetters "inSert/**/ INTO t".toList "ıNſert/**/ into T".toList ∧
      standard.validate (some "inSert/**/ INTO t") =
        standard.validate (some "ıNſert/**/ into T") ∧
      (standard.validate (some "inSert/**/ INTO t")).1 = some (.forbidden "INSERT INTO") := by
  have h : SameLetters "inSert/**/ INTO t".toList "ıNſert/**/ into T".toList := by
    decide +kernel
  refine ⟨h, validate_sameLetters standard h, ?_⟩
  decide +kernel

end SafeReports.Sql
