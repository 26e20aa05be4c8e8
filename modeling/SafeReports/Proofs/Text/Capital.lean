import SafeReports.Proofs.Text.UpperImage

/-!
# Capital letters stay

An upper-cased character is its own upper case. The tables are held against each
other range by range: nothing that one of them leads to is listed again.
-/

namespace SafeReports.Text

-- ---------------------------------------------------------------------------
-- Code points in neither table
-- ---------------------------------------------------------------------------

structure Unlisted (n : Nat) : Prop where
  ranges : ∀ r ∈ upperRanges, r.has n = false
  expansions : ∀ e ∈ upperExpansions, e.1 ≠ n

theorem Unlisted.upperCodes_eq (h : Unlisted n) : upperCodes n = [n] := by
  have hranges : upperRanges.find? (·.has n) = none := by
    rw [List.find?_eq_none]
    intro r hr
    simp [h.ranges r hr]
  have hexpansions : upperExpansions.lookup n = none := by
    rw [List.lookup_eq_none_iff]
    intro e he
    simpa using (h.expansions e he).symm
  rw [upperCodes, hranges, hexpansions]
  rfl

theorem Unlisted.not_lower (h : Unlisted n) : n < 97 ∨ 122 < n := by
  have hr := h.ranges ⟨0x61, 0x7A, 1, -32⟩ List.mem_cons_self
  simp only [CaseRange.has, Nat.mod_one, beq_self_eq_true, Bool.and_true, Bool.and_eq_false_iff,
    decide_eq_false_iff_not] at hr
  omega

/-- None of the code points from `first` to `last`, or of every second one of them,
is in the range. -/
def CaseRange.misses (r : CaseRange) (first last : Nat) (alternate : Bool) : Bool :=
  Nat.blt last r.first || Nat.blt r.last first ||
    (alternate && Nat.beq r.step 2 && !Nat.beq (first % 2) (r.first % 2))

theorem CaseRange.not_has_of_misses {r : CaseRange} {a b : Nat}
    (h : r.misses a b alternate = true) (hf : a ≤ n) (hl : n ≤ b)
    (ha : alternate = true → n % 2 = a % 2) : r.has n = false := by
  simp only [misses, Bool.or_eq_true, Bool.and_eq_true, Nat.blt_eq, Nat.beq_eq,
    Bool.not_eq_true', ← Bool.not_eq_true] at h
  cases hn : r.has n with
  | false => rfl
  | true =>
    simp only [has, Bool.and_eq_true, decide_eq_true_eq, beq_iff_eq] at hn
    obtain ⟨⟨hfirst, hlast⟩, hstep⟩ := hn
    rcases h with (h | h) | ⟨⟨h, htwo⟩, hodd⟩
    · omega
    · omega
    · have := ha h
      rw [htwo] at hstep
      omega

def unlistedFrom (first last : Nat) (alternate : Bool) : Bool :=
  upperRanges.all (·.misses first last alternate) &&
    upperExpansions.all fun e => Nat.blt e.1 first || Nat.blt last e.1

theorem unlisted_of_from (h : unlistedFrom first last alternate = true) (hf : first ≤ n)
    (hl : n ≤ last) (ha : alternate = true → n % 2 = first % 2) : Unlisted n := by
  simp only [unlistedFrom, Bool.and_eq_true, List.all_eq_true, Bool.or_eq_true, Nat.blt_eq] at h
  refine ⟨fun r hr => r.not_has_of_misses (h.1 r hr) hf hl ha, fun e he => ?_⟩
  have := h.2 e he
  omega

-- ---------------------------------------------------------------------------
-- What the tables lead to
-- ---------------------------------------------------------------------------

/-- Whether at most every second code point of the range has its upper case. -/
def CaseRange.alternates (r : CaseRange) : Bool := Nat.beq r.step 2 || Nat.beq r.first r.last

theorem upperRanges_unlisted : upperRanges.all (fun r =>
    unlistedFrom (r.image r.first) (r.image r.last) r.alternates) = true := by
  decide +kernel

theorem upperRanges_shift : upperRanges.all (fun r => 0 ≤ (r.first : Int) + r.shift) = true := by
  decide +kernel

theorem upperExpansions_unlisted :
    upperExpansions.all (fun e => e.2.all fun n => unlistedFrom n n false) = true := by
  decide +kernel

theorem CaseRange.image_alternate {r : CaseRange} (hr : r ∈ upperRanges) (h : r.has n = true)
    (ha : r.alternates = true) : r.image n % 2 = r.image r.first % 2 := by
  have hs := List.all_eq_true.mp upperRanges_shift r hr
  simp only [has, Bool.and_eq_true, decide_eq_true_eq, beq_iff_eq] at h hs
  simp only [alternates, Bool.or_eq_true, Nat.beq_eq] at ha
  have hi : r.image n = r.image r.first + (n - r.first) := by
    simp only [image, Int.ofNat_eq_natCast]
    omega
  rcases ha with ha | ha
  · rw [ha] at h
    omega
  · omega

theorem CaseRange.unlisted_image {r : CaseRange} (hr : r ∈ upperRanges) (h : r.has n = true) :
    Unlisted (r.image n) := by
  have hb := h
  simp only [has, Bool.and_eq_true, decide_eq_true_eq] at hb
  exact unlisted_of_from (List.all_eq_true.mp upperRanges_unlisted r hr) (r.image_mono hb.1.1)
    (r.image_mono hb.1.2) (r.image_alternate hr h)

/-- A code point is its own upper case, or no code point of its upper case is listed. -/
theorem upperCodes_eq_or_unlisted (n : Nat) :
    upperCodes n = [n] ∨ ∀ m ∈ upperCodes n, Unlisted m := by
  rw [upperCodes]
  cases hf : upperRanges.find? (·.has n) with
  | some r =>
    have hr := List.mem_of_find?_eq_some hf
    have hh := List.find?_some hf
    exact .inr (by simpa using CaseRange.unlisted_image hr hh)
  | none =>
    cases hl : upperExpansions.lookup n with
    | none => exact .inl rfl
    | some codes =>
      obtain ⟨l, r, he, -⟩ := List.lookup_eq_some_iff.mp hl
      have h := List.all_eq_true.mp upperExpansions_unlisted (n, codes) (by simp [he])
      refine .inr fun m hm => ?_
      exact unlisted_of_from (List.all_eq_true.mp h m hm) (Nat.le_refl m) (Nat.le_refl m) fun _ => rfl

-- ---------------------------------------------------------------------------
-- Characters and texts
-- ---------------------------------------------------------------------------

theorem Unlisted.upperChar_eq {c : Char} (h : Unlisted c.toNat) : upperChar c = [c] := by
  rw [upperChar]
  split
  · rw [toUpper_of_not_lower h.not_lower]
  · rw [h.upperCodes_eq, List.map_singleton, Char.ofNat_toNat]

theorem toUpper_capital (c : Char) :
    c.toUpper.toNat ≤ c.toNat ∧ (c.toUpper.toNat < 97 ∨ 122 < c.toUpper.toNat) := by
  by_cases h : 97 ≤ c.toNat ∧ c.toNat ≤ 122
  · rw [toNat_toUpper_of_lower h.1 h.2]
    omega
  · rw [toUpper_of_not_lower (by omega)]
    omega

/-- Code points of no character stand for an inert one. -/
theorem toNat_ofNat_of_not_isInert (h : isInert (Char.ofNat n) = false) :
    (Char.ofNat n).toNat = n := by
  by_cases hv : n.isValidChar
  · rw [Char.ofNat, dif_pos hv]
    rfl
  · rw [Char.ofNat, dif_neg hv] at h
    exact absurd h (by decide)

/-- Every character of an upper case is its own upper case. -/
theorem upperChar_of_mem (h : d ∈ upperChar c) : upperChar d = [d] := by
  rw [upperChar] at h
  split at h
  · rename_i hascii
    obtain rfl := List.mem_singleton.mp h
    obtain ⟨hle, hd⟩ := toUpper_capital c
    rw [upperChar, if_pos (by omega), toUpper_of_not_lower hd]
  · rename_i hascii
    have self (he : upperCodes c.toNat = [c.toNat]) : upperChar d = [d] := by
      obtain rfl : d = c := by simpa [he] using h
      rw [upperChar, if_neg hascii, he, List.map_singleton, Char.ofNat_toNat]
    obtain ⟨m, hm, rfl⟩ := List.mem_map.mp h
    rcases upperCodes_cases c.toNat with he | ⟨-, hi⟩
    · exact self he
    rcases upperCodes_eq_or_unlisted c.toNat with he | hu
    · exact self he
    · refine Unlisted.upperChar_eq ?_
      rw [toNat_ofNat_of_not_isInert (hi m hm)]
      exact hu m hm

theorem upper_of_fixed (h : ∀ c ∈ s, upperChar c = [c]) : upper s = s := by
  induction s with
  | nil => rfl
  | cons c r ih =>
    rw [upper_cons, h c List.mem_cons_self, ih fun d hd => h d (List.mem_cons_of_mem _ hd)]
    rfl

theorem upperChar_of_mem_upper (h : d ∈ upper s) : upperChar d = [d] := by
  obtain ⟨c, -, hd⟩ := List.mem_flatMap.mp h
  exact upperChar_of_mem hd

end SafeReports.Text
