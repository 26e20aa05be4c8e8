import SafeReports.Proofs.Text.Capital
import SafeReports.Proofs.Text.NormalForm

/-!
# White space of a normal form

All white space of a squeezed text is single spaces between characters that are
none, and a text of this kind is squeezed already. A normal form is such a text, also
after upper-casing, and so it is its own normal form.
-/

namespace SafeReports.Text

/-- White space is single spaces with something solid on either side. -/
def Spaced (s : List Char) : Prop :=
  ∀ before c after, s = before ++ c :: after → isBlank c = true →
    c = ' ' ∧ EndsSolid before ∧ StartsSolid after

-- ---------------------------------------------------------------------------
-- Collapsed texts
-- ---------------------------------------------------------------------------

/-- White space is single spaces, which may stand at the ends; at the beginning only
when `inRun` says that no white space comes before the text. -/
def SpacedFrom (inRun : Bool) (s : List Char) : Prop :=
  ∀ before c after, s = before ++ c :: after → isBlank c = true →
    c = ' ' ∧ (before = [] ∧ inRun = false ∨ EndsSolid before) ∧ (after = [] ∨ StartsSolid after)

theorem Spaced.spacedFrom (h : Spaced s) (b : Bool) : SpacedFrom b s := by
  intro before c after hs hc
  obtain ⟨rfl, hb, ha⟩ := h before c after hs hc
  exact ⟨rfl, .inr hb, .inr ha⟩

theorem EndsSolid.cons (h : EndsSolid s) (c : Char) : EndsSolid (c :: s) := h.append [c]

theorem endsSolid_singleton (hc : isBlank c = false) : EndsSolid [c] := ⟨[], c, rfl, hc⟩

theorem EndsSolid.of_cons (h : EndsSolid (c :: s)) :
    s = [] ∧ isBlank c = false ∨ EndsSolid s := by
  cases s with
  | nil =>
    obtain ⟨r, d, hr, hd⟩ := h
    obtain ⟨rfl, hcd⟩ := List.append_eq_singleton_iff.mp hr.symm |>.resolve_right nofun
    exact .inl ⟨rfl, List.singleton_inj.mp hcd ▸ hd⟩
  | cons d r => exact .inr (EndsSolid.of_append (s := [c]) h (by simp))

theorem collapseFrom_true_cases (s : List Char) :
    collapseFrom true s = [] ∨ StartsSolid (collapseFrom true s) := by
  obtain ⟨a, t, rfl, ha, ht⟩ := exists_blank_append s
  rw [collapseFrom_true_blank_append ha]
  rcases ht with rfl | ht
  · exact .inl rfl
  · rw [collapseFrom_startsSolid ht]
    exact .inr (collapse_startsSolid ht)

theorem spacedFrom_collapseFrom (b : Bool) (s : List Char) : SpacedFrom b (collapseFrom b s) := by
  induction s generalizing b with
  | nil =>
    intro before c after h
    simp [collapseFrom] at h
  | cons x r ih =>
    intro before c after h hc
    cases hx : isBlank x with
    | false =>
      rw [collapseFrom_solid hx] at h
      cases before with
      | nil =>
        obtain ⟨rfl, -⟩ := List.cons.inj h
        rw [hx] at hc
        cases hc
      | cons d before =>
        obtain ⟨rfl, hr⟩ := List.cons.inj h
        obtain ⟨rfl, hb, ha⟩ := ih false before c after hr hc
        refine ⟨rfl, .inr ?_, ha⟩
        rcases hb with ⟨rfl, -⟩ | hb
        · exact endsSolid_singleton hx
        · exact hb.cons x
    | true =>
      cases b with
      | true => exact ih true before c after (by simpa [collapseFrom, hx] using h) hc
      | false =>
        rw [collapseFrom, if_pos hx, if_neg Bool.false_ne_true] at h
        cases before with
        | nil =>
          obtain ⟨rfl, rfl⟩ := List.cons.inj h
          exact ⟨rfl, .inl ⟨rfl, rfl⟩, collapseFrom_true_cases r⟩
        | cons d before =>
          obtain ⟨rfl, hr⟩ := List.cons.inj h
          obtain ⟨rfl, hb, ha⟩ := ih true before c after hr hc
          exact ⟨rfl, .inr ((hb.resolve_left fun h => Bool.false_ne_true h.2.symm).cons ' '), ha⟩

theorem collapseFrom_of_spacedFrom (h : SpacedFrom b s) : collapseFrom b s = s := by
  induction s generalizing b with
  | nil => rfl
  | cons x r ih =>
    have rest : SpacedFrom false r := by
      intro before c after hs hc
      obtain ⟨rfl, hb, ha⟩ := h (x :: before) c after (by rw [hs, List.cons_append]) hc
      refine ⟨rfl, ?_, ha⟩
      rcases (hb.resolve_left fun h => List.cons_ne_nil x before h.1).of_cons with ⟨rfl, -⟩ | hb
      · exact .inl ⟨rfl, rfl⟩
      · exact .inr hb
    cases hx : isBlank x with
    | false => rw [collapseFrom_solid hx, collapse, ih rest]
    | true =>
      obtain ⟨rfl, hb, ha⟩ := h [] x r rfl hx
      obtain ⟨-, rfl⟩ := hb.resolve_right fun he => he.not_blank .nil
      rw [collapseFrom, if_pos hx, if_neg Bool.false_ne_true]
      rcases ha with rfl | ha
      · rfl
      · rw [collapseFrom_startsSolid ha, collapse, ih rest]

-- ---------------------------------------------------------------------------
-- Squeezed texts
-- ---------------------------------------------------------------------------

theorem spaced_nil : Spaced [] := by
  intro before c after h
  simp at h

theorem Solid.spaced_collapse (h : Solid s) : Spaced (collapse s) := by
  intro before c after hs hc
  obtain ⟨rfl, hb, ha⟩ := spacedFrom_collapseFrom false s before c after hs hc
  refine ⟨rfl, hb.resolve_left ?_, ha.resolve_left ?_⟩
  · rintro ⟨rfl, -⟩
    obtain ⟨d, r, hd, hsolid⟩ := collapse_startsSolid h.1
    obtain ⟨rfl, -⟩ := List.cons.inj (hs.symm.trans hd)
    rw [hsolid] at hc
    cases hc
  · rintro rfl
    obtain ⟨r, d, hd, hsolid⟩ := collapse_endsSolid h.2
    obtain ⟨-, hcd⟩ := List.append_inj' (hs.symm.trans hd) rfl
    rw [← List.singleton_inj.mp hcd, hc] at hsolid
    cases hsolid

theorem spaced_squeeze (s : List Char) : Spaced (squeeze s) := by
  obtain ⟨a, t, rfl, ha, ht⟩ := exists_blank_append s
  rcases ht with rfl | ht
  · rw [List.append_nil, squeeze_blank ha]
    exact spaced_nil
  · obtain ⟨m, b, rfl, hb, hm⟩ := ht.exists_append_blank
    rw [← List.append_assoc, squeeze_surrounded ha hm hb]
    exact hm.spaced_collapse

theorem Spaced.nil_or_solid (h : Spaced s) : s = [] ∨ Solid s := by
  by_cases hs : s = []
  · exact .inl hs
  refine .inr ⟨?_, ?_⟩
  · obtain ⟨c, r, rfl⟩ := List.exists_cons_of_ne_nil hs
    refine ⟨c, r, rfl, Bool.eq_false_iff.mpr fun hc => ?_⟩
    exact (h [] c r rfl hc).2.1.not_blank .nil
  · obtain ⟨r, c, rfl⟩ := (List.eq_nil_or_concat s).resolve_left hs
    refine ⟨r, c, List.concat_eq_append, Bool.eq_false_iff.mpr fun hc => ?_⟩
    exact (h r c [] List.concat_eq_append hc).2.2.not_blank .nil

theorem Spaced.squeeze_eq (h : Spaced s) : squeeze s = s := by
  rcases h.nil_or_solid with rfl | hs
  · rfl
  · rw [squeeze_solid hs, collapse, collapseFrom_of_spacedFrom (h.spacedFrom false)]

-- ---------------------------------------------------------------------------
-- Normal forms
-- ---------------------------------------------------------------------------

/-- An upper-cased text can be cut at an inert character where the text can. -/
theorem exists_of_upper_append (h : upper s = before ++ c :: after) (hc : isInert c = true) :
    ∃ t r, s = t ++ c :: r ∧ upper t = before ∧ upper r = after := by
  induction s generalizing before with
  | nil => simp [upper_nil] at h
  | cons x s ih =>
    rw [upper_cons] at h
    rcases List.append_eq_append_iff.mp h with ⟨before, rfl, hs⟩ | ⟨cut, hx, hs⟩
    · obtain ⟨t, r, rfl, rfl, rfl⟩ := ih hs
      exact ⟨x :: t, r, rfl, upper_cons x t, rfl⟩
    · cases cut with
      | nil =>
        obtain ⟨t, r, rfl, ht, hr⟩ := @ih [] hs.symm
        exact ⟨x :: t, r, rfl, by rw [upper_cons, ht, hx, List.append_nil, List.append_nil], hr⟩
      | cons d cut =>
        -- the character is in the upper case of `x`, and so it is `x` and all of it
        obtain ⟨hcd, ha⟩ := List.cons.inj hs
        obtain rfl : c = x := eq_of_mem_upperChar (by simp [hx, hcd]) hc
        rw [upperChar_inert hc, List.singleton_eq_append_iff] at hx
        obtain ⟨rfl, hcut⟩ := hx.resolve_right nofun
        exact ⟨[], s, rfl, rfl, by rw [ha, (List.cons.inj hcut).2]; rfl⟩

theorem Spaced.upper (h : Spaced s) : Spaced (upper s) := by
  intro before c after hs hc
  obtain ⟨t, r, rfl, rfl, rfl⟩ := exists_of_upper_append hs (isInert_of_isBlank hc)
  obtain ⟨rfl, ht, hr⟩ := h t c r rfl hc
  exact ⟨rfl, ht.upper, hr.upper⟩

theorem spaced_normalForm (s : List Char) : Spaced (normalForm s) := (spaced_squeeze s).upper

theorem upperChar_of_mem_normalForm (h : c ∈ normalForm s) : upperChar c = [c] :=
  upperChar_of_mem_upper h

theorem normalForm_normalForm (s : List Char) : normalForm (normalForm s) = normalForm s := by
  rw [normalForm, (spaced_normalForm s).squeeze_eq,
    upper_of_fixed fun _ => upperChar_of_mem_normalForm]

end SafeReports.Text
