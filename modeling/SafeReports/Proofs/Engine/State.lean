import SafeReports.Engine.Complaint
import SafeReports.Proofs.Text.Squeeze

/-!
# States and error codes

What may stand before the text of a complaint: a state, that is `SQLSTATE[`, a
code and `]:`, or digits with white space behind them.
-/

namespace SafeReports.Engine

open Text

/-- A state; its code holds no closing bracket. -/
inductive IsState : List Char → Prop
  | mk (named : code ≠ []) (inside : ']' ∉ code) :
      IsState ("SQLSTATE[".toList ++ code ++ "]:".toList)

/-- The text begins with a state. -/
def Stated (s : List Char) : Prop := ∃ state rest, IsState state ∧ s = state ++ rest

theorem afterState?_eq_some_iff :
    afterState? s = some rest ↔ ∃ state, IsState state ∧ s = state ++ rest := by
  constructor
  · intro h
    obtain ⟨r, hr, h⟩ := Option.bind_eq_some_iff.mp h
    split at h
    · cases h
    · rename_i hcode
      have inside : ']' ∉ r.takeWhile (· != ']') := fun hm =>
        absurd (List.all_eq_true.mp List.all_takeWhile _ hm) (by decide)
      refine ⟨_, .mk (by simpa using hcode) inside, ?_⟩
      rw [after?_eq_some_iff.mp hr, List.append_assoc, ← after?_eq_some_iff.mp h, List.append_assoc,
        List.takeWhile_append_dropWhile]
  · rintro ⟨_, @⟨code, named, inside⟩, rfl⟩
    have hc : ∀ c ∈ code, (c != ']') = true := fun c hc =>
      bne_iff_ne.mpr fun he => inside (he ▸ hc)
    have ht : (code ++ "]:".toList ++ rest).takeWhile (· != ']') = code := by
      rw [List.append_assoc, List.takeWhile_append_of_pos hc]
      exact List.append_nil code
    have hd : (code ++ "]:".toList ++ rest).dropWhile (· != ']') = "]:".toList ++ rest := by
      rw [List.append_assoc, List.dropWhile_append_of_pos hc]
      rfl
    have h₁ : after? "SQLSTATE[".toList ("SQLSTATE[".toList ++ code ++ "]:".toList ++ rest) =
        some (code ++ "]:".toList ++ rest) := after?_eq_some_iff.mpr (by simp)
    have h₂ : after? "]:".toList ("]:".toList ++ rest) = some rest := after?_eq_some_iff.mpr rfl
    rw [afterState?, h₁, Option.bind_eq_bind, Option.bind_some, ht, hd, h₂]
    simp [named]

theorem stated_iff : Stated s ↔ (afterState? s).isSome = true := by
  rw [Option.isSome_iff_exists]
  constructor
  · rintro ⟨state, rest, h, hs⟩
    exact ⟨rest, afterState?_eq_some_iff.mpr ⟨state, h, hs⟩⟩
  · rintro ⟨rest, h⟩
    obtain ⟨state, hs, he⟩ := afterState?_eq_some_iff.mp h
    exact ⟨state, rest, hs, he⟩

instance : Decidable (Stated s) := decidable_of_iff _ stated_iff.symm

theorem IsState.solid (h : IsState s) : Solid s := by
  obtain @⟨code, -, -⟩ := h
  have starts : StartsSolid "SQLSTATE[".toList := (solid_iff.mpr (by decide +kernel)).1
  have ends : EndsSolid "]:".toList := (solid_iff.mpr (by decide +kernel)).2
  exact ⟨(starts.append code).append _, ends.append _⟩

-- ---------------------------------------------------------------------------
-- The first state
-- ---------------------------------------------------------------------------

theorem findState?_append (h : IsState state) (hr : rest ≠ []) :
    findState? (state ++ rest) = some rest := by
  have hs : afterState? (state ++ rest) = some rest := afterState?_eq_some_iff.mpr ⟨state, h, rfl⟩
  obtain ⟨c, r, hc, -⟩ := h.solid.1.append rest
  obtain ⟨d, q, rfl⟩ := List.exists_cons_of_ne_nil hr
  rw [hc] at hs ⊢
  rw [findState?, hs]

theorem findState?_eq_none (h : findState? s = none) (hs : IsState state)
    (ht : s = before ++ state ++ rest) : rest = [] := by
  induction before generalizing s with
  | nil =>
    cases rest with
    | nil => rfl
    | cons d rest =>
      rw [ht, List.nil_append, findState?_append hs (List.cons_ne_nil d rest)] at h
      cases h
  | cons c before ih =>
    refine ih ?_ rfl
    rw [ht, List.cons_append, List.cons_append, findState?] at h
    split at h
    · cases h
    · exact h

-- ---------------------------------------------------------------------------
-- Error codes
-- ---------------------------------------------------------------------------

structure IsCode (code : List Char) : Prop where
  startsSolid : StartsSolid code
  chars : ∀ c ∈ code, isDigit c = true ∨ isBlank c = true

theorem isCode_code? (h : code? s = some (code, text)) : IsCode code := by
  simp only [code?] at h
  split at h
  · cases h
  · rename_i hcode
    obtain ⟨rfl, -⟩ := Prod.mk.inj (Option.some.inj h)
    simp only [Bool.or_eq_true, not_or, List.isEmpty_iff] at hcode
    generalize hs : s.dropWhile isBlank = t at hcode ⊢
    have starts : StartsSolid (t.takeWhile isDigit) := by
      cases t with
      | nil => exact absurd rfl hcode.1.1
      | cons c r =>
        have hc : isBlank c = false := by
          have hb := List.head?_dropWhile_not isBlank s
          rw [hs] at hb
          exact hb
        cases hd : isDigit c with
        | false => exact absurd (by simp [hd]) hcode.1.1
        | true =>
          rw [List.takeWhile_cons_of_pos hd]
          exact ⟨c, _, rfl, hc⟩
    refine ⟨starts.append _, fun c hc => ?_⟩
    rcases List.mem_append.mp hc with hc | hc
    · exact .inl (List.all_eq_true.mp List.all_takeWhile c hc)
    · exact .inr (blank_takeWhile _ c hc)

theorem isCode_findCode? (h : findCode? s = some (code, text)) : IsCode code := by
  induction s with
  | nil => cases h
  | cons c r ih =>
    rw [findCode?, Option.or_eq_some_iff] at h
    rcases h with h | ⟨-, h⟩
    · split at h
      · exact isCode_code? h
      · cases h
    · exact ih h

theorem IsCode.not_mem (h : IsCode code) (hd : isDigit c = false) (hb : isBlank c = false) :
    c ∉ code := by
  intro hc
  rcases h.chars c hc with h | h
  · exact absurd (hd.symm.trans h) (by decide)
  · exact absurd (hb.symm.trans h) (by decide)

end SafeReports.Engine
