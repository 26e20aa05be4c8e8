import SafeReports.Proofs.Sql.Statement
import SafeReports.Proofs.Sql.Parenthesis

/-!
# Layout

Queries without `--` that differ in their white space alone have the same verdict.
Both collapse to one text, and what the guard makes of a query can be told from its
collapsed text: a block comment is closed in the one where it is in the other, and
what stands around it comes together with one space at most.
-/

namespace SafeReports.Sql

open Text

/-- Each run of white space is replaced by another one. -/
inductive Relaid : List Char → List Char → Prop
  | nil : Relaid [] []
  | solid (hc : isBlank c = false) (h : Relaid s t) : Relaid (c :: s) (c :: t)
  | run (ha : Blank a) (hb : Blank b) (ha' : a ≠ []) (hb' : b ≠ []) (whole : s = [] ∨ StartsSolid s)
      (h : Relaid s t) : Relaid (a ++ s) (b ++ t)

-- ---------------------------------------------------------------------------
-- One collapsed text
-- ---------------------------------------------------------------------------

section
variable {a b s t : List Char}

theorem collapse_eq_nil_iff : collapse s = [] ↔ s = [] := by
  cases s with
  | nil => simp [collapse, collapseFrom]
  | cons c r => cases hc : isBlank c <;> simp [collapse, collapseFrom, hc]

theorem exists_of_collapse_cons (hc : isBlank c = false) (h : collapse s = c :: t) :
    ∃ r, s = c :: r ∧ collapse r = t := by
  cases s with
  | nil => cases h
  | cons d r =>
    cases hd : isBlank d with
    | false =>
      obtain ⟨rfl, rfl⟩ := List.cons.inj ((collapseFrom_solid hd false r).symm.trans h)
      exact ⟨r, rfl, rfl⟩
    | true =>
      simp only [collapse, collapseFrom, hd, ↓reduceIte, Bool.false_eq_true, List.cons.injEq] at h
      obtain ⟨rfl, -⟩ := h
      exact absurd hc (by decide)

theorem gap_of_ne_nil (h : a ≠ []) : gap a = [' '] := by
  cases a with
  | nil => exact absurd rfl h
  | cons => rfl

theorem exists_of_collapse_blank (hc : isBlank c = true) (h : collapse s = c :: t) :
    ∃ a r, s = a ++ r ∧ Blank a ∧ a ≠ [] ∧ (r = [] ∨ StartsSolid r) ∧ collapse r = t := by
  obtain ⟨a, r, rfl, ha, hr⟩ := exists_blank_append s
  rw [collapse_blank_append ha hr] at h
  by_cases ha' : a = []
  · subst ha'
    rcases hr with rfl | ⟨d, r, rfl, hd⟩
    · cases h
    · obtain ⟨rfl, -⟩ := List.cons.inj ((collapseFrom_solid hd false r).symm.trans h)
      rw [hc] at hd
      cases hd
  · rw [gap_of_ne_nil ha'] at h
    exact ⟨a, r, rfl, ha, ha', hr, (List.cons.inj h).2⟩

theorem Relaid.whole (h : Relaid s t) (hs : s = [] ∨ StartsSolid s) : t = [] ∨ StartsSolid t := by
  cases h with
  | nil => exact .inl rfl
  | solid hc => exact .inr ⟨_, _, rfl, hc⟩
  | @run a _ s _ ha _ ha' =>
    rcases hs with hs | hs
    · exact absurd (List.append_eq_nil_iff.mp hs).1 ha'
    · exact absurd ha (hs.of_append ha').not_blank

theorem Relaid.collapse_eq (h : Relaid s t) : collapse s = collapse t := by
  induction h with
  | nil => rfl
  | solid hc _ ih =>
    rw [collapse, collapse, collapseFrom_solid hc, collapseFrom_solid hc, ih]
  | run ha hb ha' hb' hs h ih =>
    rw [collapse_blank_append ha hs, collapse_blank_append hb (h.whole hs), gap_of_ne_nil ha',
      gap_of_ne_nil hb', ih]

theorem relaid_of_collapse_eq (hs : collapse s = u) (ht : collapse t = u) : Relaid s t := by
  induction u generalizing s t with
  | nil =>
    rw [collapse_eq_nil_iff.mp hs, collapse_eq_nil_iff.mp ht]
    exact .nil
  | cons c u ih =>
    cases hc : isBlank c with
    | false =>
      obtain ⟨r, rfl, hr⟩ := exists_of_collapse_cons hc hs
      obtain ⟨r', rfl, hr'⟩ := exists_of_collapse_cons hc ht
      exact .solid hc (ih hr hr')
    | true =>
      obtain ⟨a, r, rfl, ha, ha', whole, hr⟩ := exists_of_collapse_blank hc hs
      obtain ⟨b, r', rfl, hb, hb', -, hr'⟩ := exists_of_collapse_blank hc ht
      exact .run ha hb ha' hb' whole (ih hr hr')

theorem relaid_iff : Relaid s t ↔ collapse s = collapse t :=
  ⟨Relaid.collapse_eq, fun h => relaid_of_collapse_eq h rfl⟩

instance (s t : List Char) : Decidable (Relaid s t) := decidable_of_iff' _ relaid_iff

end

-- ---------------------------------------------------------------------------
-- Comments of a collapsed text
-- ---------------------------------------------------------------------------

section
variable {c d : Char} {r s t : List Char}

/-- Two solid characters stand at the beginning of a text if they do so of the
collapsed one. -/
theorem collapse_pair (hd : isBlank d = false) (h : ∀ t, c = a → r = d :: t → False) :
    ∀ t, c = a → collapse r = d :: t → False := by
  intro t hc hr
  obtain ⟨r', rfl, -⟩ := exists_of_collapse_cons hd hr
  exact h r' hc rfl

theorem infix_collapse_iff (hd : isBlank d = false) : [d, d] <:+: collapse s ↔ [d, d] <:+: s := by
  constructor
  · rintro ⟨x, y, h⟩
    rw [List.append_assoc] at h
    obtain ⟨u, v, rfl, -, -, hv⟩ := exists_of_collapseFrom_append h.symm ⟨d, d :: y, rfl, hd⟩
    obtain ⟨r, rfl, hr⟩ := exists_of_collapse_cons hd hv
    obtain ⟨r, rfl, -⟩ := exists_of_collapse_cons hd hr
    exact ⟨u, r, by simp⟩
  · rintro ⟨x, y, rfl⟩
    have hs : StartsSolid ([d, d] ++ y) := ⟨d, d :: y, rfl, hd⟩
    rw [List.append_assoc, collapse_append_startsSolid hs]
    refine ⟨collapse x, collapse y, ?_⟩
    rw [List.append_assoc]
    exact congrArg (collapse x ++ ·) (by simp [collapse, collapseFrom, hd])

theorem afterBlock?_collapseFrom (b : Bool) (s : List Char) :
    (afterBlock? (collapseFrom b s)).isSome = (afterBlock? s).isSome := by
  fun_induction afterBlock? s generalizing b with
  | case1 => rfl
  | case2 r =>
    rw [collapseFrom_solid (by decide), collapse, collapseFrom_solid (by decide)]
    rfl
  | case3 c r hn ih =>
    cases hc : isBlank c with
    | true =>
      have hstar : afterBlock? (' ' :: collapseFrom true r) = afterBlock? (collapseFrom true r) :=
        rfl
      cases b <;> simp only [collapseFrom, hc, ↓reduceIte, Bool.false_eq_true, hstar, ih]
    | false =>
      rw [collapseFrom_solid hc, afterBlock?, collapse, ih]
      exact collapse_pair (by decide) hn

/-- It makes no difference to the collapsed text whether the query has been collapsed
before its comments go. `f` and `g` tell whether the query and what is left of it stand
in a run: the second if the first, outside comments. -/
theorem collapseFrom_outsideBlocks (b : Bool) (s : List Char) {f g : Bool}
    (hb : b = true ∨ f = false ∨ g = true) :
    collapseFrom g (outsideBlocks b (collapseFrom f s)) = collapseFrom g (outsideBlocks b s) := by
  fun_induction outsideBlocks b s generalizing f g with
  | case1 b => cases b <;> rfl
  | case2 r ih =>
    rw [collapseFrom_solid (by decide), collapse, collapseFrom_solid (by decide)]
    exact ih (.inr (.inl rfl))
  | case3 c r hn ih =>
    cases hc : isBlank c with
    | true =>
      cases f <;> simp only [collapseFrom, hc, ↓reduceIte, Bool.false_eq_true] <;>
        exact ih (.inl rfl)
    | false =>
      rw [collapseFrom_solid hc, outsideBlocks]
      · exact ih (.inl rfl)
      · exact collapse_pair (by decide) hn
  | case4 r closed ih =>
    rw [collapseFrom_solid (by decide), collapse, collapseFrom_solid (by decide), outsideBlocks,
      collapse, afterBlock?_collapseFrom, if_pos closed]
    exact ih (.inl rfl)
  | case5 r unclosed ih =>
    have hr : collapse (outsideBlocks false (collapse ('*' :: r))) =
        collapse (outsideBlocks false ('*' :: r)) :=
      ih (.inr (.inl rfl))
    rw [collapse, collapse, collapseFrom_solid (by decide)] at hr
    rw [collapseFrom_solid (by decide), collapse, collapseFrom_solid (by decide), outsideBlocks,
      collapse, afterBlock?_collapseFrom, if_neg unclosed, collapseFrom_solid (by decide),
      collapseFrom_solid (by decide)]
    exact congrArg ('/' :: ·) hr
  | case6 c r hn ih =>
    cases hc : isBlank c with
    | true =>
      have hr : collapseFrom true (outsideBlocks false (collapseFrom true r)) =
          collapseFrom true (outsideBlocks false r) :=
        ih (.inr (.inr rfl))
      have hsp (x : List Char) : outsideBlocks false (' ' :: x) = ' ' :: outsideBlocks false x := rfl
      have hblank : isBlank ' ' = true := rfl
      cases f with
      | true =>
        obtain rfl : g = true := by simpa using hb
        simpa only [collapseFrom, hc, ↓reduceIte] using hr
      | false =>
        simp only [collapseFrom, hc, ↓reduceIte, Bool.false_eq_true, hsp, hblank, hr]
    | false =>
      rw [collapseFrom_solid hc, outsideBlocks, collapseFrom_solid hc, collapseFrom_solid hc]
      · exact congrArg (c :: ·) (ih (.inr (.inl rfl)))
      · exact collapse_pair (by decide) hn

theorem collapse_visible (h : ¬ ['-', '-'] <:+: q) :
    collapse (visible (collapse q)) = collapse (visible q) := by
  have hc : ¬ ['-', '-'] <:+: collapse q := by rwa [infix_collapse_iff (by decide)]
  unfold visible dropLineComments
  rw [outsideLines_unmarked h, outsideLines_unmarked hc]
  exact collapseFrom_outsideBlocks false q (.inr (.inl rfl))

end

-- ---------------------------------------------------------------------------
-- The guard
-- ---------------------------------------------------------------------------

section
variable {s t : List Char}

theorem Relaid.isBlankText_eq (h : Relaid s t) : isBlankText s = isBlankText t := by
  induction h with
  | nil => rfl
  | solid hc => simp [isBlankText, hc]
  | run ha hb _ _ _ _ ih =>
    unfold isBlankText at ih ⊢
    rw [List.all_append, List.all_append, ih, List.all_eq_true.mpr ha, List.all_eq_true.mpr hb]

theorem Relaid.normalize_eq (h : Relaid s t) (hs : ¬ ['-', '-'] <:+: s) :
    normalize s = normalize t := by
  have ht : ¬ ['-', '-'] <:+: t := by
    rwa [← infix_collapse_iff (by decide), ← h.collapse_eq, infix_collapse_iff (by decide)]
  have visible : collapse (visible s) = collapse (visible t) := by
    rw [← collapse_visible hs, ← collapse_visible ht, h.collapse_eq]
  unfold normalize
  exact congrArg (fun v => upper (strip v)) visible

theorem Relaid.countSeparators_eq (h : Relaid s t) : countSeparators s = countSeparators t := by
  unfold countSeparators
  rw [← Scan.count_collapse Scan.start_proper s, h.collapse_eq,
    Scan.count_collapse Scan.start_proper]

end

/-- Layout changes neither the verdict nor what is logged, unless there are line
comments, which end where their line does. -/
theorem Guard.validate_relaid (g : Guard) {q q' : String} (hq : ¬ ['-', '-'] <:+: q.toList)
    (h : Relaid q.toList q'.toList) : g.validate (some q) = g.validate (some q') :=
  g.validate_congr h.isBlankText_eq (h.normalize_eq hq) h.countSeparators_eq

def overLines : String := "DROP /* a\n\n b */\tTABLE t;\n"

def onOneLine : String := "DROP  /* a b */\u3000TABLE t; "

theorem Guard.validate_relaid_onOneLine :
    ¬ ['-', '-'] <:+: overLines.toList ∧ Relaid overLines.toList onOneLine.toList ∧
      standard.validate (some overLines) = standard.validate (some onOneLine) ∧
      (standard.validate (some overLines)).1 = some (.forbidden "DROP TABLE") := by
  have hq : ¬ ['-', '-'] <:+: overLines.toList := by decide +kernel
  have h : Relaid overLines.toList onOneLine.toList := by decide +kernel
  refine ⟨hq, h, validate_relaid standard hq h, ?_⟩
  decide +kernel

end SafeReports.Sql
