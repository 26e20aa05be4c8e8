import SafeReports.Text.Blank
import SafeReports.Text.Ranges
import SafeReports.Text.Upper

/-!
# What upper case leaves alone

White space and the ASCII characters that are no letters are their own upper
case, and no other character has one of them in its upper case. Both tables are
checked entry by entry.
-/

namespace SafeReports.Text

/-- White space, and ASCII other than letters. -/
def isInert (c : Char) : Bool := isBlank c || (c.toNat < 0x80 && !c.isAlpha)

/-- The code points of inert characters, and those that are no characters. -/
def inertRanges : List (Nat × Nat) := [
  (0x0, 0x40), (0x5B, 0x60), (0x7B, 0x7F), (0x85, 0x85), (0xA0, 0xA0), (0x1680, 0x1680),
  (0x2000, 0x200A), (0x2028, 0x2029), (0x202F, 0x202F), (0x205F, 0x205F), (0x3000, 0x3000),
  (0xD800, 0xDFFF)]

/-- No code point of the interval is inert, and all are characters. -/
def avoidsInert (first last : Nat) : Bool :=
  inertRanges.all (fun r => last < r.1 || r.2 < first) && last < 0x110000

theorem avoidsInert_sound (h : avoidsInert a b = true) (ha : a ≤ n) (hb : n ≤ b) :
    inRanges inertRanges n = false ∧ n < 0x110000 := by
  simp only [avoidsInert, Bool.and_eq_true, List.all_eq_true, Bool.or_eq_true,
    decide_eq_true_eq] at h
  refine ⟨?_, by omega⟩
  rw [inRanges, List.any_eq_false]
  intro r hr
  have := h.1 r hr
  simp only [Bool.and_eq_true, decide_eq_true_eq]
  omega

theorem isInert_toNat (h : isInert c = true) : inRanges inertRanges c.toNat = true := by
  have halpha : c.isAlpha = (decide (c.val ≥ 'A'.val ∧ c.val ≤ 'Z'.val) ||
      (decide (c.val ≥ 'a'.val) && decide (c.val ≤ 'z'.val))) := rfl
  simp only [isInert, isBlank, halpha, Bool.or_eq_true, Bool.and_eq_true, Bool.not_eq_true',
    decide_eq_true_eq, beq_iff_eq, Bool.or_eq_false_iff, Bool.and_eq_false_iff,
    decide_eq_false_iff_not, ge_iff_le, UInt32.le_iff_toNat_le, Char.toNat] at h ⊢
  simp only [inRanges, inertRanges, List.any_cons, List.any_nil, Bool.or_eq_true,
    Bool.and_eq_true, decide_eq_true_eq]
  have ha : 'a'.val.toNat = 97 := rfl
  have hz : 'z'.val.toNat = 122 := rfl
  have hA : 'A'.val.toNat = 65 := rfl
  have hZ : 'Z'.val.toNat = 90 := rfl
  omega

/-- An inert character is no ASCII letter. -/
theorem toNat_of_isInert (h : isInert c = true) :
    (c.toNat < 65 ∨ 90 < c.toNat) ∧ (c.toNat < 97 ∨ 122 < c.toNat) := by
  have hr := isInert_toNat h
  simp only [inRanges, inertRanges, List.any_cons, List.any_nil, Bool.or_eq_true,
    Bool.and_eq_true, decide_eq_true_eq, Bool.false_eq_true, or_false] at hr
  omega

theorem not_isInert_ofNat (h : inRanges inertRanges n = false) (hn : n < 0x110000) :
    isInert (Char.ofNat n) = false := by
  have hv : n.isValidChar := by
    simp only [inRanges, inertRanges, List.any_cons, List.any_nil, Bool.or_eq_false_iff,
      Bool.and_eq_false_iff, decide_eq_false_iff_not] at h
    simp only [Nat.isValidChar]
    omega
  have ht : (Char.ofNat n).toNat = n := by
    rw [Char.ofNat, dite_cond_eq_true (eq_true hv)]
    rfl
  cases hi : isInert (Char.ofNat n) with
  | false => rfl
  | true => rw [← ht, isInert_toNat hi] at h; exact h

-- ---------------------------------------------------------------------------
-- The tables
-- ---------------------------------------------------------------------------

theorem upperRanges_avoid :
    upperRanges.all (fun r => avoidsInert (r.image r.first) (r.image r.last)) = true := by
  decide +kernel

theorem upperExpansions_avoid :
    upperExpansions.all (fun e => e.2.all (fun n => avoidsInert n n) && !e.2.isEmpty) = true := by
  decide +kernel

theorem upperRanges_has_avoid :
    upperRanges.all (fun r => avoidsInert r.first r.last) = true := by
  decide +kernel

theorem upperExpansions_has_avoid :
    upperExpansions.all (fun e => avoidsInert e.1 e.1) = true := by
  decide +kernel

theorem CaseRange.image_mono (r : CaseRange) (h : m ≤ n) : r.image m ≤ r.image n := by
  have hi : Int.ofNat m ≤ Int.ofNat n := Int.ofNat_le.mpr h
  simp only [image]
  omega

theorem CaseRange.not_isInert_image (hr : r ∈ upperRanges) (h : r.has n = true) :
    isInert (Char.ofNat (r.image n)) = false := by
  simp only [has, Bool.and_eq_true, decide_eq_true_eq] at h
  have ha := List.all_eq_true.mp upperRanges_avoid r hr
  have := avoidsInert_sound ha (r.image_mono h.1.1) (r.image_mono h.1.2)
  exact not_isInert_ofNat this.1 this.2

/-- An upper case from the tables, or none in them. -/
theorem upperCodes_cases (n : Nat) :
    upperCodes n = [n] ∨
      (upperCodes n ≠ [] ∧ ∀ m ∈ upperCodes n, isInert (Char.ofNat m) = false) := by
  rw [upperCodes]
  cases hf : upperRanges.find? (·.has n) with
  | some r =>
    have hr := List.mem_of_find?_eq_some hf
    have hh := List.find?_some hf
    exact .inr ⟨by simp, by simpa using CaseRange.not_isInert_image hr hh⟩
  | none =>
    cases hl : upperExpansions.lookup n with
    | none => exact .inl rfl
    | some codes =>
      obtain ⟨l, r, he, -⟩ := List.lookup_eq_some_iff.mp hl
      have h := List.all_eq_true.mp upperExpansions_avoid (n, codes) (by simp [he])
      simp only [Bool.and_eq_true, List.all_eq_true, Bool.not_eq_true',
        List.isEmpty_eq_false_iff] at h
      refine .inr ⟨h.2, fun m hm => ?_⟩
      have := avoidsInert_sound (h.1 m hm) (Nat.le_refl m) (Nat.le_refl m)
      exact not_isInert_ofNat this.1 this.2

theorem upperCodes_inert (h : inRanges inertRanges n = true) : upperCodes n = [n] := by
  have hranges : upperRanges.find? (·.has n) = none := by
    rw [List.find?_eq_none]
    intro r hr hh
    simp only [CaseRange.has, Bool.and_eq_true, decide_eq_true_eq] at hh
    have ha := List.all_eq_true.mp upperRanges_has_avoid r hr
    simp [(avoidsInert_sound ha hh.1.1 hh.1.2).1] at h
  have hexpansions : upperExpansions.lookup n = none := by
    rw [List.lookup_eq_none_iff]
    intro e he
    have ha := List.all_eq_true.mp upperExpansions_has_avoid e he
    rw [bne_iff_ne]
    rintro rfl
    simp [(avoidsInert_sound ha (Nat.le_refl _) (Nat.le_refl _)).1] at h
  rw [upperCodes, hranges, hexpansions]
  rfl

-- ---------------------------------------------------------------------------
-- Characters and texts
-- ---------------------------------------------------------------------------

theorem toUpper_of_not_lower {c : Char} (h : c.toNat < 97 ∨ 122 < c.toNat) : c.toUpper = c := by
  have ha : 'a'.val.toNat = 97 := rfl
  have hz : 'z'.val.toNat = 122 := rfl
  have hc : ¬ ('a'.val ≤ c.val ∧ c.val ≤ 'z'.val) := by
    simp only [UInt32.le_iff_toNat_le]
    simp only [Char.toNat] at h
    omega
  exact dif_neg hc

theorem toNat_toUpper_of_lower {c : Char} (h : 97 ≤ c.toNat) (h' : c.toNat ≤ 122) :
    c.toUpper.toNat = c.toNat - 32 := by
  have ha : 'a'.val.toNat = 97 := rfl
  have hz : 'z'.val.toNat = 122 := rfl
  simp only [Char.toNat] at h h'
  have hc : 'a'.val ≤ c.val ∧ c.val ≤ 'z'.val := by
    simp only [UInt32.le_iff_toNat_le]
    omega
  rw [show c.toUpper = ⟨c.val + ('A'.val - 'a'.val), _⟩ from dif_pos hc]
  simp only [Char.toNat, UInt32.toNat_add]
  have hd : ('A'.val - 'a'.val).toNat = 4294967264 := rfl
  omega

theorem toUpper_cases (c : Char) : c.toUpper = c ∨ isInert c.toUpper = false := by
  by_cases h : 97 ≤ c.toNat ∧ c.toNat ≤ 122
  · refine .inr ?_
    cases hi : isInert c.toUpper with
    | false => rfl
    | true =>
      have hr := toNat_of_isInert hi
      rw [toNat_toUpper_of_lower h.1 h.2] at hr
      omega
  · exact .inl (toUpper_of_not_lower (by omega))

theorem upperChar_ne_nil (c : Char) : upperChar c ≠ [] := by
  rw [upperChar]
  split
  · simp
  · rcases upperCodes_cases c.toNat with h | ⟨h, -⟩
    · simp [h]
    · simpa using h

/-- Nothing else is upper-cased to an inert character. -/
theorem eq_of_mem_upperChar (h : d ∈ upperChar c) (hd : isInert d = true) : d = c := by
  rw [upperChar] at h
  split at h
  · obtain rfl := List.mem_singleton.mp h
    rcases toUpper_cases c with h | h
    · exact h
    · simp [h] at hd
  · rcases upperCodes_cases c.toNat with hc | ⟨-, hc⟩
    · simpa [hc] using h
    · obtain ⟨m, hm, rfl⟩ := List.mem_map.mp h
      simp [hc m hm] at hd

theorem upperChar_inert (h : isInert c = true) : upperChar c = [c] := by
  have hr := (toNat_of_isInert h).2
  rw [upperChar]
  split
  · rw [toUpper_of_not_lower hr]
  · simp [upperCodes_inert (isInert_toNat h)]

end SafeReports.Text
