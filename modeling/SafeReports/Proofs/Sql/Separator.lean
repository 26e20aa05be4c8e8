import SafeReports.Proofs.Text.Squeeze
import SafeReports.Sql.Separator

/-!
# Counting separators

A text of two parts has the separators of both, where the second is read from
the state the first leaves. Outside quoted spans that is as good as the start.
-/

namespace SafeReports.Sql

open Text

def QuoteFree (q : List Char) : Prop := ∀ c ∈ q, Scan.isQuote c = false

instance (q : List Char) : Decidable (QuoteFree q) :=
  List.decidableBAll (Scan.isQuote · = false) q

/-- Outside quoted spans a scan begins anew. -/
theorem Scan.count_of_unquoted {s : Scan} (h : s.quote = none) (t : List Char) :
    s.count t = countSeparators t := by
  obtain ⟨_, b⟩ := s
  obtain rfl := h
  cases t <;> rfl

/-- What is open was opened by a quote. -/
def Scan.Proper (s : Scan) : Prop := ∀ k, s.quote = some k → isQuote k = true

theorem Scan.start_proper : start.Proper := nofun

theorem Scan.Proper.step {s : Scan} (h : s.Proper) (c : Char) : (s.step c).Proper := by
  intro k hk
  simp only [Scan.step, Scan.quoteAfter] at hk
  cases hs : s.quote with
  | none =>
    cases hc : isQuote c with
    | false => simp [hs, hc] at hk
    | true =>
      obtain rfl : c = k := by simpa [hs, hc] using hk
      exact hc
  | some k' =>
    rw [hs] at hk
    simp only at hk
    split at hk
    · cases hk
    · exact h k (hs.trans hk)

theorem Scan.Proper.run {s : Scan} (h : s.Proper) (t : List Char) : (s.run t).Proper := by
  induction t generalizing s with
  | nil => exact h
  | cons c r ih => exact ih (h.step c)

/-- The character that a scan outside quoted spans has read before matters to none
that it reads. -/
theorem Scan.run_cons_of_unquoted {s : Scan} (h : s.quote = none) (c : Char) (t : List Char) :
    s.run (c :: t) = start.run (c :: t) := by
  obtain ⟨_, b⟩ := s
  obtain rfl := h
  rfl

theorem Scan.run_of_unquoted {s : Scan} (h : s.quote = none) (t : List Char) :
    (s.run t).quote = (start.run t).quote := by
  cases t with
  | nil => exact h
  | cons c t => rw [run_cons_of_unquoted h]

theorem Scan.step_not_backslash (hc : c ≠ '\\') (s : Scan) :
    s.step c = ⟨s.quoteAfter c, false⟩ := by
  simp [step, hc]

theorem ne_backslash_of_isQuote (h : Scan.isQuote k = true) : k ≠ '\\' := by
  rintro rfl
  exact absurd h (by decide)

/-- The separators of a text and one more, if it counts there. -/
theorem countSeparators_concat (u : List Char) (c : Char) : countSeparators (u ++ [c]) =
    countSeparators u + if (Scan.start.run u).quote = none ∧ c = ';' then 1 else 0 := by
  rw [countSeparators, Scan.count_append, countSeparators]
  simp [Scan.count, Scan.separates]

theorem separates_iff : countSeparators b < countSeparators (b ++ [';']) ↔
    (Scan.start.run b).quote = none := by
  simp [countSeparators_concat, Nat.pos_iff_ne_zero]

theorem countSeparators_append_le (s t : List Char) :
    countSeparators s ≤ countSeparators (s ++ t) := by
  rw [countSeparators, countSeparators, Scan.count_append]
  exact Nat.le_add_right _ _

theorem Scan.step_unquoted {s : Scan} (h : s.quote = none) (hc : isQuote c = false) :
    (s.step c).quote = none := by
  simp [step, quoteAfter, h, hc]

theorem Scan.run_unquoted (hw : QuoteFree w) {s : Scan} (h : s.quote = none) :
    (s.run w).quote = none := by
  induction w generalizing s with
  | nil => exact h
  | cons c w ih =>
    obtain ⟨hc, hr⟩ := List.forall_mem_cons.mp hw
    exact ih hr (step_unquoted h hc)

/-- What holds no quote opens no span and closes none. -/
theorem Scan.quote_run (hw : QuoteFree w) {s : Scan} (hs : s.Proper) :
    (s.run w).quote = s.quote := by
  induction w generalizing s with
  | nil => rfl
  | cons c w ih =>
    obtain ⟨hc, hr⟩ := List.forall_mem_cons.mp hw
    refine (ih hr (hs.step c)).trans ?_
    cases hq : s.quote with
    | none => exact step_unquoted hq hc
    | some k =>
      have hne : c ≠ k := by
        rintro rfl
        simp [hs c hq] at hc
      simp [step, quoteAfter, hq, hne]

/-- There is a separator wherever a semicolon stands outside quoted spans. -/
theorem Scan.count_eq_zero_iff {s : Scan} :
    s.count t = 0 ↔ ∀ u v, t = u ++ ';' :: v → (s.run u).quote ≠ none := by
  induction t generalizing s with
  | nil => simp [count]
  | cons c r ih =>
    rw [count, Nat.add_eq_zero_iff, ih]
    constructor
    · rintro ⟨hc, hr⟩ u v he hq
      cases u with
      | nil =>
        obtain rfl := (List.cons.inj he).1
        have hq : s.quote = none := hq
        simp [separates, hq] at hc
      | cons d u =>
        obtain ⟨rfl, rfl⟩ := List.cons.inj he
        exact hr u v rfl hq
    · intro h
      refine ⟨?_, fun u v he => h (c :: u) v (by rw [he]; rfl)⟩
      by_cases hc : c = ';'
      · subst hc
        have hq : s.quote ≠ none := h [] r rfl
        simp [separates, hq]
      · simp [separates, hc]

theorem Scan.count_eq_zero (hw : ';' ∉ w) (s : Scan) : s.count w = 0 := by
  rw [count_eq_zero_iff]
  rintro u v rfl
  simp at hw

/-- A text without quotes and separators, outside quoted spans, is not counted. -/
theorem countSeparators_insert (ha : (Scan.start.run a).quote = none)
    (hw : QuoteFree w) (hs : ';' ∉ w) (b : List Char) :
    countSeparators (a ++ (w ++ b)) = countSeparators (a ++ b) := by
  have hq : ((Scan.start.run a).run w).quote = none := Scan.run_unquoted hw ha
  rw [countSeparators, countSeparators, Scan.count_append, Scan.count_append, Scan.count_append,
    Scan.count_eq_zero hs, Scan.count_of_unquoted hq, Scan.count_of_unquoted ha, Nat.zero_add]

theorem Scan.le_count_append {s : Scan} (hs : s.quote = none) (hw : QuoteFree w)
    (t : List Char) : countSeparators t ≤ s.count (w ++ t) := by
  rw [count_append, count_of_unquoted (run_unquoted hw hs)]
  exact Nat.le_add_left _ _

theorem quoteFree_of_blank (hw : Blank w) : QuoteFree w := by
  intro c hc
  cases hc' : Scan.isQuote c with
  | false => rfl
  | true =>
    simp only [Scan.isQuote, Bool.or_eq_true, beq_iff_eq] at hc'
    rcases hc' with (rfl | rfl) | rfl <;> exact absurd (hw _ hc) (by decide)

/-- A part of the text behind white space has no more separators than the text. -/
theorem countSeparators_le_around (ha : Blank a) (s b : List Char) :
    countSeparators s ≤ countSeparators (a ++ s ++ b) :=
  calc countSeparators s
      ≤ countSeparators (a ++ s) := Scan.le_count_append rfl (quoteFree_of_blank ha) s
    _ ≤ countSeparators (a ++ s ++ b) := countSeparators_append_le (a ++ s) b

theorem countSeparators_semicolon (s : List Char) :
    countSeparators (';' :: s) = countSeparators s + 1 := by
  have hs : (Scan.start.step ';').quote = none := rfl
  rw [countSeparators, Scan.count, Scan.count_of_unquoted hs, Nat.add_comm]
  rfl

/-- Without a separator the count is one less. -/
theorem countSeparators_drop (h : (Scan.start.run b).quote = none) (a : List Char) :
    countSeparators (b ++ ';' :: a) = countSeparators (b ++ a) + 1 := by
  rw [countSeparators, countSeparators, Scan.count_append, Scan.count_append,
    Scan.count_of_unquoted h, Scan.count_of_unquoted h, countSeparators_semicolon, Nat.add_assoc]

end SafeReports.Sql
