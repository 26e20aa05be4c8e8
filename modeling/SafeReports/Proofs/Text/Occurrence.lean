import Mathlib.Data.List.Infix
import SafeReports.Proofs.Text.Squeeze
import SafeReports.Text.Match

/-!
# First occurrences

A search for a word finds its first occurrence: no other one ends before that
one does. It stays the first whatever is put behind the text, and so do the
occurrences in a text when something without the word is put before it.
-/

namespace SafeReports.Text

/-- The first occurrence of a word in a text, with what stands before and behind it. -/
structure FirstAt (word s before rest : List Char) : Prop where
  text : s = before ++ word ++ rest
  first : ¬ word <:+: before ++ word.dropLast

theorem after?_eq_none_iff : after? word s = none ↔ ¬ word <+: s := by
  constructor
  · rintro h ⟨rest, hs⟩
    simp [after?_eq_some_iff.mpr hs.symm] at h
  · intro h
    refine Option.eq_none_iff_forall_ne_some.mpr fun rest hr => h ?_
    exact ⟨rest, (after?_eq_some_iff.mp hr).symm⟩

section
variable {word s before rest : List Char}

theorem FirstAt.isInfix (h : FirstAt word s before rest) : word <:+: s :=
  ⟨before, rest, h.text.symm⟩

theorem FirstAt.append (h : FirstAt word s before rest) (t : List Char) :
    FirstAt word (s ++ t) before (rest ++ t) :=
  ⟨by rw [h.text, List.append_assoc], h.first⟩

theorem FirstAt.of_append (h : FirstAt word s (a ++ before) rest) :
    FirstAt word (before ++ word ++ rest) before rest := by
  refine ⟨rfl, fun hi => h.first ?_⟩
  rw [List.append_assoc]
  exact hi.trans (List.suffix_append a _).isInfix

theorem firstAt_nil_iff (hw : word ≠ []) : FirstAt word s [] rest ↔ s = word ++ rest := by
  constructor
  · intro h
    exact h.text
  · intro h
    refine ⟨h, fun hi => ?_⟩
    have hl := hi.length_le
    have hpos := List.length_pos_iff.mpr hw
    rw [List.nil_append, List.length_dropLast] at hl
    omega

theorem firstAt_cons_iff : FirstAt word s (c :: before) rest ↔
    ∃ r, s = c :: r ∧ ¬ word <+: s ∧ FirstAt word r before rest := by
  have upTo : ∀ rest, c :: before ++ word.dropLast <+: c :: before ++ word ++ rest := by
    intro rest
    rw [List.append_assoc]
    have kept : word.dropLast <+: word := List.dropLast_prefix word
    exact (List.prefix_append_right_inj _).mpr (kept.trans (List.prefix_append word rest))
  constructor
  · rintro ⟨rfl, first⟩
    rw [List.cons_append, List.infix_cons_iff, not_or] at first
    refine ⟨before ++ word ++ rest, rfl, fun hp => first.1 ?_, rfl, first.2⟩
    -- Up to the last character of the occurrence the text is as long as the word.
    refine List.prefix_of_prefix_length_le hp (upTo rest) ?_
    simp only [List.length_cons, List.length_append, List.length_dropLast]
    omega
  · rintro ⟨r, rfl, hp, rfl, first⟩
    refine ⟨rfl, fun hi => ?_⟩
    rcases List.infix_cons_iff.mp hi with h | h
    · exact hp (h.trans (upTo rest))
    · exact first h

-- ---------------------------------------------------------------------------
-- What a search finds
-- ---------------------------------------------------------------------------

theorem findAfter?_eq_some_iff (hw : word ≠ []) :
    findAfter? word s = some rest ↔ ∃ before, FirstAt word s before rest := by
  induction s with
  | nil =>
    rw [findAfter?, after?_eq_some_iff]
    constructor
    · intro h
      exact absurd (List.append_eq_nil_iff.mp h.symm).1 hw
    · rintro ⟨before, h⟩
      exact absurd (List.infix_nil.mp h.isInfix) hw
  | cons c r ih =>
    rw [findAfter?, Option.or_eq_some_iff, ih, after?_eq_some_iff, after?_eq_none_iff]
    constructor
    · rintro (h | ⟨hn, before, h⟩)
      · exact ⟨[], (firstAt_nil_iff hw).mpr h⟩
      · exact ⟨c :: before, firstAt_cons_iff.mpr ⟨r, rfl, hn, h⟩⟩
    · rintro ⟨before, h⟩
      cases before with
      | nil => exact .inl ((firstAt_nil_iff hw).mp h)
      | cons d before =>
        obtain ⟨r', hr, hn, h⟩ := firstAt_cons_iff.mp h
        obtain ⟨rfl, rfl⟩ := List.cons.inj hr
        exact .inr ⟨hn, before, h⟩

theorem findAfter?_eq_none_iff : findAfter? word s = none ↔ ¬ word <:+: s := by
  induction s with
  | nil => rw [findAfter?, after?_eq_none_iff, List.infix_nil, List.prefix_nil]
  | cons c r ih => rw [findAfter?, Option.or_eq_none_iff, ih, after?_eq_none_iff,
      List.infix_cons_iff, not_or]

theorem exists_firstAt (hw : word ≠ []) (h : word <:+: s) :
    ∃ before rest, FirstAt word s before rest := by
  cases hf : findAfter? word s with
  | none => exact absurd h (findAfter?_eq_none_iff.mp hf)
  | some rest =>
    obtain ⟨before, hb⟩ := (findAfter?_eq_some_iff hw).mp hf
    exact ⟨before, rest, hb⟩

theorem FirstAt.unique (hw : word ≠ []) (h : FirstAt word s before rest)
    (h' : FirstAt word s before' rest') : before = before' ∧ rest = rest' := by
  have hr := (findAfter?_eq_some_iff hw).mpr ⟨before, h⟩
  rw [(findAfter?_eq_some_iff hw).mpr ⟨before', h'⟩] at hr
  obtain rfl := Option.some.inj hr
  refine ⟨?_, rfl⟩
  have ht := h.text.symm.trans h'.text
  rw [List.append_assoc, List.append_assoc] at ht
  exact List.append_cancel_right ht

-- ---------------------------------------------------------------------------
-- Texts before the occurrence
-- ---------------------------------------------------------------------------

/-- A word runs across no character that it does not hold. -/
theorem infix_append_cons_iff (hw : word ≠ []) (hc : c ∉ word) :
    word <:+: s ++ c :: t ↔ word <:+: s ∨ word <:+: t := by
  have tail : word <:+: c :: t ↔ word <:+: t := by
    rw [List.infix_cons_iff, or_iff_right]
    intro hp
    rcases List.prefix_cons_iff.mp hp with h | ⟨r, rfl, -⟩
    · exact hw h
    · exact hc List.mem_cons_self
  rw [List.infix_append_iff, tail]
  constructor
  · rintro (h | h | ⟨l, r, rfl, hl, hr⟩)
    · exact .inl h
    · exact .inr h
    · rcases List.prefix_cons_iff.mp hr with rfl | ⟨r, rfl, -⟩
      · rw [List.append_nil]
        exact .inl hl.isInfix
      · exact absurd (List.mem_append_right l List.mem_cons_self) hc
  · rintro (h | h)
    · exact .inl h
    · exact .inr (.inl h)

/-- Before a text no word is found whose first character is not there. -/
theorem infix_append_iff_right (hd : word.head? = some d) (hs : d ∉ s) :
    word <:+: s ++ t ↔ word <:+: t := by
  obtain ⟨r, rfl⟩ := List.head?_eq_some_iff.mp hd
  rw [List.infix_append_iff]
  constructor
  · rintro (h | h | ⟨x, y, hxy, hx, hy⟩)
    · exact absurd (h.subset List.mem_cons_self) hs
    · exact h
    · cases x with
      | nil =>
        rw [hxy]
        exact hy.isInfix
      | cons e x =>
        obtain ⟨rfl, -⟩ := List.cons.inj hxy
        exact absurd (hx.subset List.mem_cons_self) hs
  · intro h
    exact .inr (.inl h)

theorem FirstAt.behind (h : FirstAt word s before rest) (hw : word ≠ []) (hc : c ∉ word)
    (ht : ¬ word <:+: t) : FirstAt word (t ++ c :: s) (t ++ c :: before) rest := by
  refine ⟨by simp [h.text], fun hi => ?_⟩
  rw [List.append_assoc, List.cons_append, infix_append_cons_iff hw hc] at hi
  exact hi.elim ht h.first

theorem FirstAt.prepend (h : FirstAt word s before rest) (hd : word.head? = some d)
    (ht : d ∉ t) : FirstAt word (t ++ s) (t ++ before) rest := by
  refine ⟨by simp [h.text], fun hi => ?_⟩
  rw [List.append_assoc, infix_append_iff_right hd ht] at hi
  exact h.first hi

/-- Trimming takes nothing of a word without white space at its ends. -/
theorem FirstAt.strip (h : FirstAt word s before rest) (hw : Solid word) :
    ∃ before', FirstAt word (strip s) before' (trimEnd isBlank rest) := by
  obtain ⟨a, m, rfl, ha, hm⟩ := exists_blank_append before
  have solid : StartsSolid (m ++ word ++ rest) := by
    rcases hm with rfl | hm
    · exact hw.1.append rest
    · exact (hm.append word).append rest
  refine ⟨m, ?_, h.of_append.first⟩
  rw [h.text, List.append_assoc a, List.append_assoc a, strip_blank_append ha,
    strip_eq_trimEnd solid, trimEnd_append (hw.2.append m)]

end

end SafeReports.Text
