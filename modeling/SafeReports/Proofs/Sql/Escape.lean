import Mathlib.Data.List.Induction
import SafeReports.Proofs.Sql.Separator
import SafeReports.Proofs.Sql.Verdict

/-!
# Escapes in quoted spans

In a quoted span a backslash and the character behind it belong together: two
backslashes are one, and a quote behind them closes the span. The count of
separators looks at the last character alone, so it reads a run of backslashes as
one of them. It is in step with a reader who knows escapes up to the first span
that closes behind a backslash, and has inside and outside turned round from there.
-/

namespace SafeReports.Sql

-- ---------------------------------------------------------------------------
-- A reader who knows escapes
-- ---------------------------------------------------------------------------

inductive Span
  | outside
  | inside (quote : Char)
  /-- In a span, behind a backslash that escapes the next character. -/
  | escaping (quote : Char)
  deriving DecidableEq, Repr

namespace Span

def step : Span → Char → Span
  | outside, c => if Scan.isQuote c then inside c else outside
  | inside k, c => if c = '\\' then escaping k else if c = k then outside else inside k
  | escaping k, _ => inside k

def run (s : Span) (text : List Char) : Span := text.foldl step s

def count (s : Span) : List Char → Nat
  | [] => 0
  | c :: r => (if s = outside ∧ c = ';' then 1 else 0) + (s.step c).count r

theorem run_append (s : Span) (t u : List Char) : s.run (t ++ u) = (s.run t).run u :=
  List.foldl_append

theorem count_append (s : Span) (t u : List Char) :
    s.count (t ++ u) = s.count t + (s.run t).count u := by
  induction t generalizing s with
  | nil => simp [count, run]
  | cons c r ih => simp [count, run, ih, Nat.add_assoc]

end Span

/-- The number of separators outside spans that close at the first quote that is
not escaped. -/
def countUnescaped (s : List Char) : Nat := Span.outside.count s

-- ---------------------------------------------------------------------------
-- Runs of backslashes
-- ---------------------------------------------------------------------------

/-- Each run of backslashes becomes one; `inRun` tells whether the run has been
written already. -/
def joinBackslashesFrom (inRun : Bool) : List Char → List Char
  | [] => []
  | c :: r =>
    if inRun ∧ c = '\\' then joinBackslashesFrom true r
    else c :: joinBackslashesFrom (c == '\\') r

def joinBackslashes (s : List Char) : List Char := joinBackslashesFrom false s

/-- Where the count stands, and where a reader of the joined backslashes does. -/
inductive Follows : Scan → Span → Prop
  | outside (b : Bool) : Follows ⟨none, b⟩ .outside
  | inside : Scan.isQuote k = true → Follows ⟨some k, false⟩ (.inside k)
  | escaping : Scan.isQuote k = true → Follows ⟨some k, true⟩ (.escaping k)

theorem Follows.step (h : Follows s p) (hc : ¬ (s.afterBackslash = true ∧ c = '\\')) :
    Follows (s.step c) (p.step c) := by
  cases h with
  | outside b =>
    cases hq : Scan.isQuote c with
    | false => simpa [Scan.step, Scan.quoteAfter, Span.step, hq] using Follows.outside _
    | true =>
      rw [Scan.step_not_backslash (ne_backslash_of_isQuote hq)]
      simpa [Scan.quoteAfter, Span.step, hq] using Follows.inside hq
  | @inside k hk =>
    have hne := ne_backslash_of_isQuote hk
    by_cases hb : c = '\\'
    · simpa [Scan.step, Scan.quoteAfter, Span.step, hb, hne.symm] using Follows.escaping hk
    · rw [Scan.step_not_backslash hb]
      by_cases hck : c = k
      · simpa [Scan.quoteAfter, Span.step, hck, hne] using Follows.outside _
      · simpa [Scan.quoteAfter, Span.step, hb, hck] using Follows.inside hk
  | @escaping k hk =>
    have hb : c ≠ '\\' := fun hb => hc ⟨rfl, hb⟩
    rw [Scan.step_not_backslash hb]
    simpa [Scan.quoteAfter, Span.step] using Follows.inside hk

/-- A backslash behind another changes nothing for the count. -/
theorem Follows.stay (h : Follows s p) (hs : s.afterBackslash = true) : s.step '\\' = s := by
  cases h with
  | outside b =>
    obtain rfl : b = true := hs
    rfl
  | inside => cases hs
  | escaping hk => simp [Scan.step, Scan.quoteAfter]

theorem Follows.separates_iff (h : Follows s p) (c : Char) :
    s.separates c = true ↔ p = .outside ∧ c = ';' := by
  cases h <;> simp [Scan.separates]

theorem Follows.count_eq (h : Follows s p) (t : List Char) :
    s.count t = p.count (joinBackslashesFrom s.afterBackslash t) := by
  induction t generalizing s p with
  | nil => rfl
  | cons c r ih =>
    by_cases hc : s.afterBackslash = true ∧ c = '\\'
    · obtain ⟨hs, rfl⟩ := hc
      have hr := ih h
      rw [joinBackslashesFrom, if_pos ⟨hs, rfl⟩, Scan.count, h.stay hs, hr, hs]
      simp [Scan.separates]
    · rw [joinBackslashesFrom, if_neg hc, Scan.count, Span.count, ih (h.step hc)]
      simp only [h.separates_iff c]
      rfl

-- ---------------------------------------------------------------------------
-- In step
-- ---------------------------------------------------------------------------

/-- No span closes behind a backslash. -/
def PlainClosings (s : List Char) : Prop :=
  ∀ u k v, s = u ++ '\\' :: k :: v → Span.outside.run (u ++ ['\\']) ≠ .inside k

/-- Where the count stands and where a reader of the same text does, as long as
they agree on what is quoted. -/
inductive Beside : Scan → Span → Prop
  | follows : Follows s p → Beside s p
  /-- Behind a backslash that was escaped itself. -/
  | paired : Scan.isQuote k = true → Beside ⟨some k, true⟩ (.inside k)

theorem Beside.outside_iff (h : Beside s p) : s.quote = none ↔ p = .outside := by
  cases h with
  | follows h => cases h <;> simp
  | paired => simp

/-- They part where a span closes behind a backslash. -/
theorem Beside.step_iff (h : Beside s p) (c : Char) :
    Beside (s.step c) (p.step c) ↔ ¬ (s.afterBackslash = true ∧ p = .inside c) := by
  cases h with
  | follows h =>
    have hfollows : ¬ (s.afterBackslash = true ∧ p = .inside c) := by
      rintro ⟨hs, rfl⟩
      cases h
      cases hs
    refine iff_of_true ?_ hfollows
    by_cases hc : s.afterBackslash = true ∧ c = '\\'
    · obtain ⟨hs, rfl⟩ := hc
      rw [h.stay hs]
      cases h with
      | outside b => exact .follows (.outside b)
      | inside => cases hs
      | escaping hk => exact .paired hk
    · exact .follows (h.step hc)
  | @paired k hk =>
    have hne := ne_backslash_of_isQuote hk
    by_cases hck : c = k
    · subst hck
      refine iff_of_false (fun h => ?_) (by simp)
      have := h.outside_iff
      simp [Scan.step, Scan.quoteAfter, Span.step, hne] at this
    · refine iff_of_true ?_ (by simpa using Ne.symm hck)
      by_cases hb : c = '\\'
      · simpa [Scan.step, Scan.quoteAfter, Span.step, hb] using
          Beside.follows (Follows.escaping hk)
      · rw [Scan.step_not_backslash hb]
        simpa [Scan.quoteAfter, Span.step, hb, hck] using Beside.follows (Follows.inside hk)

theorem Beside.step_of_outside_iff (h : Beside s p)
    (ho : (s.step c).quote = none ↔ p.step c = .outside) : Beside (s.step c) (p.step c) := by
  rw [h.step_iff]
  rintro ⟨hs, rfl⟩
  cases h with
  | follows h =>
    cases h
    cases hs
  | paired hk =>
    simp [Scan.step, Scan.quoteAfter, Span.step, ne_backslash_of_isQuote hk] at ho

/-- What was read last is a backslash when the state says so. -/
theorem Scan.run_afterBackslash (h : (Scan.start.run u).afterBackslash = true) :
    ∃ t, u = t ++ ['\\'] := by
  rcases List.eq_nil_or_concat u with rfl | ⟨t, c, rfl⟩
  · cases h
  · rw [List.concat_eq_append, run_append] at h
    obtain rfl : c = '\\' := beq_iff_eq.mp h
    exact ⟨t, List.concat_eq_append⟩

/-- In step at every place, one character after the other. -/
theorem beside_of_prefix (hstep : ∀ u c, u ++ [c] <+: s →
    Beside (Scan.start.run u) (Span.outside.run u) →
      Beside ((Scan.start.run u).step c) ((Span.outside.run u).step c)) :
    ∀ u, u <+: s → Beside (Scan.start.run u) (Span.outside.run u) := by
  intro u
  induction u using List.reverseRecOn with
  | nil => exact fun _ => .follows (.outside false)
  | append_singleton u c ih =>
    intro hu
    rw [Scan.run_append, Span.run_append]
    exact hstep u c hu (ih ((List.prefix_append u [c]).trans hu))

theorem plainClosings_iff_beside : PlainClosings s ↔
    ∀ u, u <+: s → Beside (Scan.start.run u) (Span.outside.run u) := by
  constructor
  · intro h
    refine beside_of_prefix fun u c hu hb => (hb.step_iff c).mpr ?_
    rintro ⟨hs, hp⟩
    obtain ⟨t, rfl⟩ := Scan.run_afterBackslash hs
    obtain ⟨v, rfl⟩ := hu
    exact h t c v (by simp) hp
  · rintro h u k v rfl hp
    have hb := h (u ++ ['\\']) ⟨k :: v, by simp⟩
    have hb' := h (u ++ ['\\'] ++ [k]) ⟨v, by simp⟩
    rw [Scan.run_append _ (u ++ ['\\']), Span.run_append _ (u ++ ['\\'])] at hb'
    refine (hb.step_iff k).mp hb' ⟨?_, hp⟩
    rw [Scan.run_append]
    rfl

theorem countUnescaped_concat (u : List Char) (c : Char) : countUnescaped (u ++ [c]) =
    countUnescaped u + if Span.outside.run u = .outside ∧ c = ';' then 1 else 0 := by
  rw [countUnescaped, Span.count_append, countUnescaped]
  simp [Span.count]

theorem count_eq_of_beside
    (h : ∀ u, u <+: s → Beside (Scan.start.run u) (Span.outside.run u)) :
    countSeparators s = countUnescaped s := by
  induction s using List.reverseRecOn with
  | nil => rfl
  | append_singleton s c ih =>
    have hs := (h s (List.prefix_append s [c])).outside_iff
    rw [countSeparators_concat, countUnescaped_concat,
      ih fun u hu => h u (hu.trans (List.prefix_append s [c]))]
    simp only [hs]

theorem outside_iff_of_count (h : ∀ u, u <+: s →
    countSeparators (u ++ [';']) = countUnescaped (u ++ [';'])) (hu : u <+: s) :
    (Scan.start.run u).quote = none ↔ Span.outside.run u = .outside := by
  have hcount : countSeparators u = countUnescaped u := by
    induction u using List.reverseRecOn with
    | nil => rfl
    | append_singleton u c ih =>
      have hu' := (List.prefix_append u [c]).trans hu
      by_cases hc : c = ';'
      · rw [hc]
        exact h u hu'
      · simp [countSeparators_concat, countUnescaped_concat, hc, ih hu']
  have hsemi := h u hu
  rw [countSeparators_concat, countUnescaped_concat, hcount] at hsemi
  by_cases hs : (Scan.start.run u).quote = none <;>
    by_cases hp : Span.outside.run u = .outside <;> simp [hs, hp] at hsemi ⊢

theorem Span.run_escaping (h : outside.run u = escaping k) : ∃ t, u = t ++ ['\\'] := by
  rcases List.eq_nil_or_concat u with rfl | ⟨t, c, rfl⟩
  · cases h
  · rw [List.concat_eq_append, run_append] at h
    change (outside.run t).step c = escaping k at h
    by_cases hc : c = '\\'
    · subst hc
      exact ⟨t, List.concat_eq_append⟩
    · cases hs : outside.run t with
      | outside =>
        rw [hs, step] at h
        split at h <;> cases h
      | inside =>
        rw [hs, step, if_neg hc] at h
        split at h <;> cases h
      | escaping =>
        rw [hs] at h
        cases h

theorem plainClosings_of_single (h : ¬ ['\\', '\\'] <:+: s) : PlainClosings s := by
  rintro u k v rfl hp
  rw [Span.run_append] at hp
  change (Span.outside.run u).step '\\' = .inside k at hp
  cases hs : Span.outside.run u with
  | outside | inside =>
    rw [hs] at hp
    cases hp
  | escaping =>
    obtain ⟨t, rfl⟩ := Span.run_escaping hs
    exact h ⟨t, k :: v, by simp⟩

/-- The separators are counted as if each run of backslashes were one backslash.
At every place of the text a semicolon counts as it should exactly when no span
closes behind a backslash, and then the number is right. -/
theorem countSeparators_unescaped_iff (s : List Char) :
    countSeparators s = countUnescaped (joinBackslashes s) ∧
      ((∀ u, u <+: s → countSeparators (u ++ [';']) = countUnescaped (u ++ [';'])) ↔
        PlainClosings s) ∧
      (PlainClosings s → countSeparators s = countUnescaped s) := by
  refine ⟨(Follows.outside false).count_eq s, ?_, fun h => ?_⟩
  · rw [plainClosings_iff_beside]
    constructor
    · intro h
      refine beside_of_prefix fun u c hu hb => hb.step_of_outside_iff ?_
      have ho := outside_iff_of_count h hu
      rwa [Scan.run_append, Span.run_append] at ho
    · intro h u hu
      rw [countSeparators_concat, countUnescaped_concat,
        count_eq_of_beside fun t ht => h t (ht.trans hu)]
      simp only [(h u hu).outside_iff]
  · exact count_eq_of_beside (plainClosings_iff_beside.mp h)

theorem countSeparators_unescaped_iff_quote :
    PlainClosings "SELECT 'it\\'s;' ; SELECT 2;".toList ∧
      countUnescaped "SELECT 'it\\'s;' ; SELECT 2;".toList = 2 ∧
      countSeparators "SELECT 'it\\'s;' ; SELECT 2;".toList =
        countUnescaped "SELECT 'it\\'s;' ; SELECT 2;".toList :=
  have h : PlainClosings "SELECT 'it\\'s;' ; SELECT 2;".toList :=
    plainClosings_of_single (by decide +kernel)
  ⟨h, by decide +kernel, (countSeparators_unescaped_iff _).2.2 h⟩

/-- Behind a span with two backslashes at its end no separator counts. -/
theorem separators_behind_backslashes :
    countUnescaped "SELECT '\\\\'; SELECT 2; SELECT 3".toList = 2 ∧
      countSeparators "SELECT '\\\\'; SELECT 2; SELECT 3".toList = 0 ∧
      Guard.standard.Accepts "SELECT '\\\\'; SELECT 2; SELECT 3".toList := by
  decide +kernel

end SafeReports.Sql
