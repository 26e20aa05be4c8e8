import SafeReports.Proofs.Text.Squeeze
import SafeReports.Proofs.Text.UpperImage

/-!
# Normal form of a text

The normal form is squeezed and upper-cased. It distributes over the parts of a
text up to one space between them, and without its spaces it is the upper case
of what is not white space.
-/

namespace SafeReports.Text

def normalForm (s : List Char) : List Char := upper (squeeze s)

/-- What stands between the normal forms of two texts in that of both. -/
def seam (s t : List Char) : List Char :=
  if s.getLast?.any isBlank || t.head?.any isBlank then [' '] else []

-- ---------------------------------------------------------------------------
-- Upper case of white space and of solid text
-- ---------------------------------------------------------------------------

theorem isInert_of_isBlank (h : isBlank c = true) : isInert c = true := by
  simp [isInert, h]

theorem upper_inert (h : ∀ c ∈ s, isInert c = true) : upper s = s := by
  induction s with
  | nil => rfl
  | cons c r ih =>
    rw [upper_cons, upperChar_inert (h c (by simp)), ih fun d hd => h d (by simp [hd])]
    rfl

theorem upper_gap (s : List Char) : upper (gap s) = gap s := by
  cases s with
  | nil => rfl
  | cons c r => exact upper_inert (by simp [gap]; decide)

theorem not_isBlank_of_mem_upperChar (h : d ∈ upperChar c) (hc : isBlank c = false) :
    isBlank d = false := by
  cases hd : isBlank d with
  | false => rfl
  | true => rw [← eq_of_mem_upperChar h (isInert_of_isBlank hd), hd] at hc; exact hc

theorem StartsSolid.upper (h : StartsSolid s) : StartsSolid (upper s) := by
  obtain ⟨c, r, rfl, hc⟩ := h
  cases hu : upperChar c with
  | nil => exact absurd hu (upperChar_ne_nil c)
  | cons d q =>
    refine ⟨d, q ++ Text.upper r, by simp [upper_cons, hu], ?_⟩
    exact not_isBlank_of_mem_upperChar (by simp [hu]) hc

theorem EndsSolid.upper (h : EndsSolid s) : EndsSolid (upper s) := by
  obtain ⟨r, c, rfl, hc⟩ := h
  obtain ⟨q, d, hu⟩ := (List.eq_nil_or_concat (upperChar c)).resolve_left (upperChar_ne_nil c)
  refine ⟨Text.upper r ++ q, d, by simp [upper_append, upper_cons, upper_nil, hu], ?_⟩
  exact not_isBlank_of_mem_upperChar (by simp [hu]) hc

-- ---------------------------------------------------------------------------
-- Parts of a text
-- ---------------------------------------------------------------------------

theorem normalForm_blank (h : Blank s) : normalForm s = [] := by
  rw [normalForm, squeeze_blank h, upper_nil]

theorem normalForm_blank_append (ha : Blank a) (s : List Char) :
    normalForm (a ++ s) = normalForm s := by
  rw [normalForm, squeeze_blank_append ha, normalForm]

theorem normalForm_append_blank (hb : Blank b) (s : List Char) :
    normalForm (s ++ b) = normalForm s := by
  rw [normalForm, squeeze_append_blank hb, normalForm]

theorem normalForm_join (hs : EndsSolid s) (hb : Blank b) (ht : StartsSolid t) :
    normalForm (s ++ b ++ t) = normalForm s ++ gap b ++ normalForm t := by
  simp only [normalForm, squeeze_join hs hb ht, upper_append, upper_gap]

theorem solid_normalForm (h : ¬ Blank s) : Solid (normalForm s) := by
  obtain ⟨a, t, rfl, ha, ht⟩ := exists_blank_append s
  rcases ht with rfl | ht
  · exact absurd (by simpa using ha) h
  · obtain ⟨m, b, rfl, hb, hm⟩ := ht.exists_append_blank
    rw [normalForm, ← List.append_assoc, squeeze_surrounded ha hm hb]
    exact ⟨(collapse_startsSolid hm.1).upper, (collapse_endsSolid hm.2).upper⟩

theorem normalForm_eq_nil_iff : normalForm s = [] ↔ Blank s := by
  refine ⟨fun h => Classical.byContradiction fun hs => ?_, normalForm_blank⟩
  exact (solid_normalForm hs).1.not_blank (h ▸ .nil)

/-- A solid middle keeps its normal form, with at most a space on each side. -/
theorem exists_normalForm_around (hm : Solid m) (s t : List Char) :
    ∃ b c, normalForm (s ++ m ++ t) =
      normalForm s ++ gap b ++ normalForm m ++ gap c ++ normalForm t := by
  obtain ⟨s, b, rfl, hb, hs⟩ := exists_append_blank s
  obtain ⟨c, t, rfl, hc, ht⟩ := exists_blank_append t
  rw [normalForm_append_blank hb, normalForm_blank_append hc]
  have hr : ∃ c', normalForm (m ++ c ++ t) = normalForm m ++ gap c' ++ normalForm t := by
    rcases ht with rfl | ht
    · exact ⟨[], by simp [normalForm_append_blank hc, gap, normalForm_blank .nil]⟩
    · exact ⟨c, normalForm_join hm.2 hc ht⟩
  obtain ⟨c', hr⟩ := hr
  rcases hs with rfl | hs
  · refine ⟨[], c', ?_⟩
    rw [List.nil_append, List.append_assoc, List.append_assoc, normalForm_blank_append hb,
      ← List.append_assoc, hr]
    simp [gap, normalForm_blank .nil]
  · refine ⟨b, c', ?_⟩
    have hmt : StartsSolid (m ++ c ++ t) := (hm.1.append c).append t
    have := normalForm_join hs hb hmt
    simp only [List.append_assoc] at this hr ⊢
    rw [this, hr]

theorem seam_eq_gap (hs : EndsSolid s) (hb : Blank b) (hc : Blank c) (ht : StartsSolid t) :
    seam (s ++ b) (c ++ t) = gap (b ++ c) := by
  obtain ⟨r, x, rfl, hx⟩ := hs
  obtain ⟨y, q, rfl, hy⟩ := ht
  rcases List.eq_nil_or_concat b with rfl | ⟨b, d, rfl⟩
  · cases c with
    | nil => simp [seam, gap, hx, hy]
    | cons e c => simp [seam, gap, hc e (by simp)]
  · have hg : ∀ z : Char, gap (b ++ [z] ++ c) = [' '] := by
      cases b <;> simp [gap]
    simp [seam, ← List.append_assoc, hg, hb d (by simp)]

theorem normalForm_append (hs : ¬ Blank s) (ht : ¬ Blank t) :
    normalForm (s ++ t) = normalForm s ++ seam s t ++ normalForm t := by
  obtain ⟨s, b, rfl, hb, he⟩ := exists_append_blank s
  obtain ⟨c, t, rfl, hc, hst⟩ := exists_blank_append t
  rcases he with rfl | he
  · exact absurd (by simpa using hb) hs
  rcases hst with rfl | hst
  · exact absurd (by simpa using hc) ht
  have hj := normalForm_join he (hb.append hc) hst
  rw [normalForm_append_blank hb, normalForm_blank_append hc, seam_eq_gap he hb hc hst, ← hj]
  simp

-- ---------------------------------------------------------------------------
-- Without the spaces
-- ---------------------------------------------------------------------------

def solids (s : List Char) : List Char := s.filter fun c => !isBlank c

theorem solids_blank (h : Blank s) : solids s = [] := by
  simpa [solids, Blank] using h

theorem solids_append (s t : List Char) : solids (s ++ t) = solids s ++ solids t := by
  simp [solids]

theorem solids_collapse (s : List Char) : solids (collapse s) = solids s := by
  have hf : ∀ b s, solids (collapseFrom b s) = solids s := by
    intro b s
    induction s generalizing b with
    | nil => rfl
    | cons c r ih =>
      cases hc : isBlank c <;> cases b <;>
        simp_all [collapseFrom, solids, show isBlank ' ' = true by decide]
  exact hf false s

theorem solids_squeeze (s : List Char) : solids (squeeze s) = solids s := by
  obtain ⟨a, t, rfl, ha, ht⟩ := exists_blank_append s
  rcases ht with rfl | ht
  · rw [List.append_nil, squeeze_blank ha, solids_blank ha]
    rfl
  · obtain ⟨m, b, rfl, hb, hm⟩ := ht.exists_append_blank
    rw [← List.append_assoc, squeeze_surrounded ha hm hb, solids_collapse]
    simp [solids_append, solids_blank ha, solids_blank hb]

theorem eq_space_of_mem_squeeze (h : c ∈ squeeze s) (hc : isBlank c = true) : c = ' ' := by
  have hm : ∀ b s, c ∈ collapseFrom b s → c = ' ' := by
    intro b s hs
    induction s generalizing b with
    | nil => simp [collapseFrom] at hs
    | cons d r ih =>
      cases hd : isBlank d with
      | false =>
        rcases List.mem_cons.mp (by simpa [collapseFrom, hd] using hs) with rfl | hr
        · simp [hc] at hd
        · exact ih false hr
      | true =>
        cases b with
        | false =>
          rcases List.mem_cons.mp (by simpa [collapseFrom, hd] using hs) with rfl | hr
          · rfl
          · exact ih true hr
        | true => exact ih true (by simpa [collapseFrom, hd] using hs)
  exact hm false s ((trim_sublist isBlank (collapse s)).subset h)

/-- The normal form without its spaces. -/
theorem filter_normalForm (s : List Char) :
    (normalForm s).filter (· != ' ') = upper (solids s) := by
  have hf : ∀ t, (∀ c ∈ t, isBlank c = true → c = ' ') →
      (upper t).filter (· != ' ') = upper (solids t) := by
    intro t ht
    induction t with
    | nil => rfl
    | cons c r ih =>
      have hr := ih fun d hd => ht d (by simp [hd])
      cases hc : isBlank c with
      | true =>
        have hsp : upperChar ' ' = [' '] := upperChar_inert (by decide)
        obtain rfl := ht c (by simp) hc
        simp [upper_cons, hsp, hr, solids, hc]
      | false =>
        have hk : (upperChar c).filter (· != ' ') = upperChar c := by
          refine List.filter_eq_self.mpr fun d hd => ?_
          have := not_isBlank_of_mem_upperChar hd hc
          simp only [bne_iff_ne, ne_eq]
          rintro rfl
          exact absurd this (by decide)
        simp [upper_cons, hk, hr, solids, hc]
  rw [normalForm, hf _ fun c h => eq_space_of_mem_squeeze h, solids_squeeze]

end SafeReports.Text
