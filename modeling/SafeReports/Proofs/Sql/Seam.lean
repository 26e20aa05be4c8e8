import SafeReports.Proofs.Sql.Comment

/-!
# Where two parts of a text meet

A mark such as a semicolon keeps the parts on its two sides apart. Without it
they meet, and the text passes when no pattern runs across the place and the
leading word does not run on.
-/

namespace SafeReports.Sql

open Text

theorem startsWord_of_append (h : startsWord (s ++ t) = false) : startsWord s = false := by
  cases s with
  | nil => rfl
  | cons c r => exact h

theorem endsWord_of_append (h : endsWord (s ++ t) = false) : endsWord t = false := by
  by_cases ht : t = []
  · rw [ht, endsWord_nil]
  · rwa [endsWord_append s ht] at h

-- ---------------------------------------------------------------------------
-- Clean texts
-- ---------------------------------------------------------------------------

theorem Clean.of_append (h : Clean (s ++ r)) (hr : startsWord r = false) : Clean s := by
  rintro P hP ⟨x, y, z, rfl, hat⟩
  refine h P hP ⟨x, y, z ++ r, by simp, hat.mono id fun hz => ?_⟩
  cases z with
  | nil => exact hr
  | cons c z => exact hz

theorem Clean.of_append_left (h : Clean (l ++ s)) (hl : endsWord l = false) : Clean s := by
  rintro P hP ⟨x, y, z, rfl, hat⟩
  refine h P hP ⟨l ++ x, y, z, by simp, hat.mono (fun hx => ?_) id⟩
  by_cases hn : x = []
  · rwa [hn, List.append_nil]
  · rwa [endsWord_append l hn]

theorem clean_join_iff (hs : Clean s) (ht : Clean t) (hg : Blank g) :
    Clean (s ++ g ++ t) ↔ ∀ P ∈ guardPatterns, ¬ P.Across s g t := by
  constructor
  · rintro h P hP ⟨x, y₁, y₂, z, rfl, rfl, -, -, hat⟩
    exact h P hP ⟨x, y₁ ++ g ++ y₂, z, by simp, hat⟩
  · rintro h P hP ⟨x, y, z, he, hat⟩
    have hy := fun y hy => guardPatterns_solid (y := y) hP hy
    rcases hat.split hy hg he.symm with
      ⟨u, hu, rfl⟩ | ⟨u, hu, rfl⟩ | ⟨y₁, y₂, h₁, h₂, hn₁, hn₂, rfl⟩
    · refine hs P hP ⟨x, y, u, hu, hat.mono id fun hz => ?_⟩
      exact startsWord_of_append (by simpa using hz)
    · exact ht P hP ⟨u, y, z, hu, hat.mono endsWord_of_append id⟩
    · exact h P hP ⟨x, y₁, y₂, z, h₁, h₂, hn₁, hn₂, hat⟩

-- ---------------------------------------------------------------------------
-- Leading words
-- ---------------------------------------------------------------------------

theorem leadingWords_isWord : ∀ w ∈ leadingWords, ∀ c ∈ w.toList, isWord c = true := by
  have h : ∀ w ∈ leadingWords, w.toList.all isWord = true := by decide
  exact fun w hw => List.all_eq_true.mp (h w hw)

/-- The leading word ends before a character that is no word character. -/
theorem startsAllowed_of_append (h : startsAllowed (s ++ c :: r) = true) (hc : isWord c = false) :
    startsAllowed s = true := by
  obtain ⟨w, hw, x, hx, hs⟩ := startsAllowed_iff.mp h
  refine startsAllowed_iff.mpr ⟨w, hw, ?_⟩
  rcases List.append_eq_append_iff.mp hx with ⟨a, ha, hr⟩ | ⟨a, rfl, rfl⟩
  · cases a with
    | nil => exact ⟨[], by simpa using ha.symm, rfl⟩
    | cons d a =>
      obtain ⟨rfl, -⟩ := List.cons.inj hr
      have := leadingWords_isWord w hw c (by simp [ha])
      simp [hc] at this
  · exact ⟨a, rfl, startsWord_of_append hs⟩

/-- One leading word is not the beginning of another. -/
theorem leadingWords_prefix (hv : v ∈ leadingWords) (hw : w ∈ leadingWords)
    (h : v.toList ++ r = w.toList ++ t) : v = w := by
  simp only [leadingWords, List.mem_cons, List.not_mem_nil, or_false] at hv hw
  rcases hv with rfl | rfl <;> rcases hw with rfl | rfl
  · rfl
  · simp at h
  · simp at h
  · rfl

theorem startsAllowed_append_iff (h : startsAllowed s = true) :
    startsAllowed (s ++ r) = true ↔
      (s ∈ leadingWords.map String.toList → startsWord r = false) := by
  obtain ⟨w, hw, x, rfl, hx⟩ := startsAllowed_iff.mp h
  constructor
  · intro ha hm
    obtain ⟨v, hv, he⟩ := List.mem_map.mp hm
    obtain ⟨v', hv', y, hy, hs⟩ := startsAllowed_iff.mp ha
    obtain rfl : v = w := leadingWords_prefix hv hw (r := []) (by simpa using he)
    obtain rfl : x = [] := by simpa using he
    rw [List.append_nil] at hy
    obtain rfl : v = v' := leadingWords_prefix hv hv' hy
    rwa [List.append_cancel_left hy]
  · intro hl
    refine startsAllowed_iff.mpr ⟨w, hw, x ++ r, by simp, ?_⟩
    cases x with
    | nil => exact hl (List.mem_map.mpr ⟨w, hw, by simp⟩)
    | cons c x => exact hx

theorem Passes.of_append (h : Passes (s ++ c :: r)) (hc : isWord c = false) : Passes s :=
  ⟨h.1.of_append hc, startsAllowed_of_append h.2 hc⟩

theorem not_startsAllowed_cons (hc : isWord c = false) : ¬ startsAllowed (c :: r) = true := by
  intro h
  exact absurd (startsAllowed_of_append (s := []) h hc) (by decide)

-- ---------------------------------------------------------------------------
-- Marks
-- ---------------------------------------------------------------------------

theorem seam_cases (s t : List Char) : seam s t = [] ∨ seam s t = [' '] := by
  unfold seam
  split
  · exact .inr rfl
  · exact .inl rfl

theorem blank_seam (s t : List Char) : Blank (seam s t) := by
  rcases seam_cases s t with h | h <;> rw [h]
  · exact .nil
  · exact blank_space

/-- A mark: one character that is its own normal form and no part of a word. -/
def IsMark (c : Char) : Prop := isBlank c = false ∧ isWord c = false ∧ normalForm [c] = [c]

instance (c : Char) : Decidable (IsMark c) :=
  inferInstanceAs (Decidable (isBlank c = false ∧ isWord c = false ∧ normalForm [c] = [c]))

theorem IsMark.not_blank (h : IsMark c) (v : List Char) : ¬ Blank (c :: v) := by
  intro hb
  exact absurd (hb c (by simp)) (by simp [h.1])

theorem normalForm_mark (hc : IsMark c) (v : List Char) :
    ∃ g, (g = [] ∨ g = [' ']) ∧ normalForm (c :: v) = c :: (g ++ normalForm v) := by
  by_cases hv : Blank v
  · have h := normalForm_append_blank hv [c]
    exact ⟨[], .inl rfl, by simpa [hc.2.2, normalForm_blank hv] using h⟩
  · have h := normalForm_append (hc.not_blank []) hv
    exact ⟨_, seam_cases [c] v, by simpa [hc.2.2] using h⟩

theorem Passes.not_blank_before (hc : IsMark c) (h : Passes (normalForm (u ++ c :: v))) :
    ¬ Blank u := by
  intro hb
  obtain ⟨g, -, hm⟩ := normalForm_mark hc v
  rw [normalForm_blank_append hb, hm] at h
  exact not_startsAllowed_cons hc.2.1 h.2

/-- What stands before a mark passes on its own. -/
theorem Passes.before_mark (hc : IsMark c) (h : Passes (normalForm (u ++ c :: v))) :
    Passes (normalForm u) := by
  obtain ⟨g, -, hm⟩ := normalForm_mark hc v
  rw [normalForm_append (h.not_blank_before hc) (hc.not_blank v), hm, List.append_assoc] at h
  rcases seam_cases u (c :: v) with hs | hs <;> rw [hs] at h
  · exact h.of_append (c := c) hc.2.1
  · exact h.of_append (c := ' ') (by decide)

theorem Passes.clean_after_mark (hc : IsMark c) (h : Passes (normalForm (u ++ c :: v))) :
    Clean (normalForm v) := by
  obtain ⟨g, hg, hm⟩ := normalForm_mark hc v
  rw [normalForm_append (h.not_blank_before hc) (hc.not_blank v), hm] at h
  have hcl : Clean (normalForm u ++ seam u (c :: v) ++ c :: g ++ normalForm v) := by
    simpa using h.1
  refine hcl.of_append_left ((endsWord_append _ (by simp)).trans ?_)
  rcases hg with rfl | rfl
  · simpa [endsWord] using hc.2.1
  · simpa [endsWord] using show isWord ' ' = false by decide

/-- No pattern of the guard runs across the place where two texts meet, and the
second does not run on a leading word. -/
structure KeepsApart (u v : List Char) : Prop where
  across : ∀ P ∈ guardPatterns, ¬ P.Across (normalForm u) (seam u v) (normalForm v)
  leading : normalForm u ∈ leadingWords.map String.toList → seam u v = [] →
    startsWord (normalForm v) = false

theorem KeepsApart.of_blank (hv : Blank v) : KeepsApart u v := by
  rw [← normalForm_eq_nil_iff] at hv
  refine ⟨?_, fun _ _ => by rw [hv]; rfl⟩
  rintro P - ⟨x, y₁, y₂, z, -, ht, -, hn, -⟩
  rw [hv] at ht
  exact hn (List.append_eq_nil_iff.mp ht.symm).1

/-- Taking out a mark between two parts. -/
theorem passes_join_iff (hc : IsMark c) (h : Passes (normalForm (u ++ c :: v))) :
    Passes (normalForm (u ++ v)) ↔ KeepsApart u v := by
  have hu := h.before_mark hc
  by_cases hv : Blank v
  · rw [normalForm_append_blank hv]
    exact iff_of_true hu (.of_blank hv)
  · rw [normalForm_append (h.not_blank_before hc) hv, Passes,
      clean_join_iff hu.1 (h.clean_after_mark hc) (blank_seam u v), List.append_assoc,
      startsAllowed_append_iff hu.2]
    have hw : startsWord (seam u v ++ normalForm v) = false ↔
        (seam u v = [] → startsWord (normalForm v) = false) := by
      rcases seam_cases u v with hs | hs
      · simp [hs]
      · simp [hs, startsWord, show isWord ' ' = false by decide]
    rw [hw]
    constructor
    · rintro ⟨ha, hl⟩
      exact ⟨ha, hl⟩
    · rintro ⟨ha, hl⟩
      exact ⟨ha, hl⟩

end SafeReports.Sql
