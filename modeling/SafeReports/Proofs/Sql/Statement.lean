import SafeReports.Proofs.Sql.Agreement

/-!
# One statement

A query is one statement when its live text has no separator but a trailing
one. The guard counts separators without regard to where they stand, so it
accepts two statements as well. What it would have to ask is said of the live
text, and where the two readings agree, of the normal form it has at hand.
-/

namespace SafeReports.Sql

open Text

-- ---------------------------------------------------------------------------
-- Counting in a normal form
-- ---------------------------------------------------------------------------

/-- Characters that the count of separators tells from others. -/
def Scan.isSpecial (c : Char) : Bool := isQuote c || c == '\\' || c == ';'

theorem Scan.step_plain {s : Scan} (hs : s.Proper) (hc : isSpecial c = false) :
    s.step c = ⟨s.quote, false⟩ ∧ s.separates c = false := by
  simp only [isSpecial, Bool.or_eq_false_iff, beq_eq_false_iff_ne] at hc
  obtain ⟨⟨hq, hb⟩, hsemi⟩ := hc
  refine ⟨?_, by simp [separates, hsemi]⟩
  cases hk : s.quote with
  | none => simp [step, quoteAfter, hk, hq, hb]
  | some k =>
    have hne : c ≠ k := by
      rintro rfl
      simp [hs c hk] at hq
    simp [step, quoteAfter, hk, hne, hb]

theorem Scan.run_plain {s : Scan} (hs : s.Proper) (hw : ∀ c ∈ w, isSpecial c = false)
    (hn : w ≠ []) : s.run w = ⟨s.quote, false⟩ ∧ s.count w = 0 := by
  induction w generalizing s with
  | nil => exact absurd rfl hn
  | cons c w ih =>
    obtain ⟨h₁, h₂⟩ := step_plain hs (hw c (by simp))
    by_cases hw' : w = []
    · subst hw'
      exact ⟨h₁, by simp [count, h₂]⟩
    · obtain ⟨h₃, h₄⟩ := ih (hs.step c) (fun d hd => hw d (by simp [hd])) hw'
      refine ⟨?_, by simp [count, h₂, h₄]⟩
      show (s.step c).run w = _
      rw [h₃, h₁]

theorem isInert_of_isSpecial (h : Scan.isSpecial c = true) :
    isInert c = true ∧ isBlank c = false := by
  simp only [Scan.isSpecial, Scan.isQuote, Bool.or_eq_true, beq_iff_eq] at h
  rcases h with (((rfl | rfl) | rfl) | rfl) | rfl <;> decide

theorem Scan.count_upper {s : Scan} (hs : s.Proper) (t : List Char) :
    s.count (upper t) = s.count t := by
  induction t generalizing s with
  | nil => rfl
  | cons c r ih =>
    rw [upper_cons, count_append, count]
    cases hc : isSpecial c with
    | true =>
      rw [upperChar_inert (isInert_of_isSpecial hc).1]
      exact congrArg ((if s.separates c then 1 else 0) + ·) (ih (hs.step c))
    | false =>
      -- nothing special comes from what is not
      have hw : ∀ d ∈ upperChar c, isSpecial d = false := by
        intro d hd
        cases hd' : isSpecial d with
        | false => rfl
        | true =>
          rw [eq_of_mem_upperChar hd (isInert_of_isSpecial hd').1, hc] at hd'
          cases hd'
      obtain ⟨h₁, h₂⟩ := run_plain hs hw (upperChar_ne_nil c)
      obtain ⟨h₃, h₄⟩ := step_plain hs hc
      rw [h₁, h₂, ← h₃, ih (hs.step c), h₄]
      rfl

theorem not_isSpecial_of_isBlank (h : isBlank c = true) : Scan.isSpecial c = false := by
  cases hc : Scan.isSpecial c with
  | false => rfl
  | true => simp [(isInert_of_isSpecial hc).2] at h

theorem Scan.count_collapse {s : Scan} (hs : s.Proper) (t : List Char) :
    s.count (collapse t) = s.count t := by
  have hfrom : ∀ (b : Bool) (s : Scan), s.Proper → (b = true → s.afterBackslash = false) →
      s.count (collapseFrom b t) = s.count t := by
    induction t with
    | nil => exact fun _ _ _ _ => rfl
    | cons c r ih =>
      intro b s hs hb
      cases hc : isBlank c with
      | false =>
        simp only [collapseFrom, hc, Bool.false_eq_true, ↓reduceIte, count]
        rw [ih false _ (hs.step c) (by simp)]
      | true =>
        obtain ⟨h₁, h₂⟩ := step_plain hs (not_isSpecial_of_isBlank hc)
        obtain ⟨h₃, h₄⟩ := step_plain hs (show isSpecial ' ' = false by decide)
        have hr := ih true (s.step c) (hs.step c) (by simp [h₁])
        cases b with
        | true =>
          have hself : s.step c = s := by
            rw [h₁, ← hb rfl]
          rw [hself] at hr
          simp only [collapseFrom, hc, ↓reduceIte, count, h₂, hself, hr]
          simp
        | false =>
          simp only [collapseFrom, hc, Bool.false_eq_true, ↓reduceIte, count, h₂, h₄]
          rw [h₃, ← h₁, hr]
  exact hfrom false s hs (by simp)

/-- What the count makes of a normal form, and of all but its last character. -/
theorem countSeparators_normalForm (s : List Char) :
    countSeparators (normalForm s) = countSeparators (strip s) ∧
      countSeparators (normalForm s).dropLast = countSeparators (strip s).dropLast := by
  obtain ⟨a, t, rfl, ha, ht⟩ := exists_blank_append s
  rcases ht with rfl | ht
  · rw [List.append_nil, normalForm_blank ha, ← List.append_nil a, strip_blank_append ha]
    exact ⟨rfl, rfl⟩
  obtain ⟨m, b, rfl, hb, hm⟩ := ht.exists_append_blank
  have hn : normalForm (a ++ (m ++ b)) = upper (collapse m) := by
    rw [normalForm, ← List.append_assoc, squeeze_surrounded ha hm hb]
  have hs : strip (a ++ (m ++ b)) = m := by
    rw [strip_blank_append ha, strip_append_blank hb, strip_solid hm]
  rw [hn, hs]
  refine ⟨?_, ?_⟩
  · rw [countSeparators, Scan.count_upper Scan.start_proper, Scan.count_collapse Scan.start_proper,
      countSeparators]
  obtain ⟨m', d, rfl, hd⟩ := hm.2
  have hc : collapse (m' ++ [d]) = collapse m' ++ [d] := by
    simp [collapse, collapseFrom_append, collapseFrom, hd]
  -- the capitals of the last character hold no separator before their last
  have hlast : ';' ∉ (upperChar d).dropLast := by
    intro hmem
    obtain rfl := eq_of_mem_upperChar ((List.dropLast_sublist _).subset hmem) (by decide)
    rw [upperChar_inert (by decide)] at hmem
    simp at hmem
  rw [hc, upper_append, upper_cons, upper_nil, List.append_nil,
    List.dropLast_append_of_ne_nil (upperChar_ne_nil d), List.dropLast_concat, countSeparators,
    Scan.count_append, Scan.count_eq_zero hlast, Nat.add_zero, Scan.count_upper Scan.start_proper,
    Scan.count_collapse Scan.start_proper, countSeparators]

-- ---------------------------------------------------------------------------
-- Separators of the live text
-- ---------------------------------------------------------------------------

/-- Nothing but white space and comments follows a semicolon that stands outside
quoted spans and comments. -/
def TrailingOnly (q : List Char) : Prop :=
  ∀ l r, parts q = l ++ .text ';' :: r → Blank (liveText r)

theorem Scan.part_eq_text {s : Scan} {c d : Char} (hd : isQuote d = false) :
    s.part c = .text d ↔ c = d ∧ s.quote = none := by
  unfold part
  split
  · rename_i h
    simp [h.1]
  · rename_i h
    simp only [reduceCtorEq, false_iff]
    rintro ⟨rfl, hq⟩
    exact h ⟨hq, hd⟩

/-- A semicolon outside spans and comments, with the live text on both sides. -/
def SplitsAt (ps : List Part) (u v : List Char) : Prop :=
  ∃ l r, ps = l ++ .text ';' :: r ∧ liveText l = u ∧ liveText r = v

theorem splitsAt_cons_iff : SplitsAt (p :: ps) u v ↔
    p = .text ';' ∧ u = [] ∧ liveText ps = v ∨ ∃ u', u = p.live ++ u' ∧ SplitsAt ps u' v := by
  constructor
  · rintro ⟨l, r, hp, rfl, rfl⟩
    cases l with
    | nil =>
      obtain ⟨rfl, rfl⟩ := List.cons.inj hp
      exact .inl ⟨rfl, rfl, rfl⟩
    | cons p' l =>
      obtain ⟨rfl, rfl⟩ := List.cons.inj hp
      exact .inr ⟨liveText l, rfl, l, r, rfl, rfl, rfl⟩
  · rintro (⟨rfl, rfl, rfl⟩ | ⟨_, rfl, l, r, rfl, rfl, rfl⟩)
    · exact ⟨[], ps, rfl, rfl, rfl⟩
    · exact ⟨p :: l, r, rfl, rfl, rfl⟩

theorem not_splitsAt_nil : ¬ SplitsAt [] u v := by
  rintro ⟨l, r, hp, -⟩
  simp at hp

theorem splitsAt_comment (hp : p.live = []) : SplitsAt (p :: ps) u v ↔ SplitsAt ps u v := by
  have hne : p ≠ .text ';' := by
    rintro rfl
    cases hp
  simp [splitsAt_cons_iff, hp, hne]

theorem splitsAt_part {s : Scan} (ih : ∀ u, SplitsAt ps u v ↔
    liveText ps = u ++ ';' :: v ∧ ((s.step c).run u).quote = none) :
    SplitsAt (s.part c :: ps) u v ↔
      liveText (s.part c :: ps) = u ++ ';' :: v ∧ (s.run u).quote = none := by
  rw [splitsAt_cons_iff, Scan.part_eq_text (by decide), s.part_live, liveText_part]
  cases u with
  | nil =>
    have hrun : s.run [] = s := rfl
    simp [hrun, and_right_comm]
  | cons d u =>
    have hrun : s.run (d :: u) = (s.step d).run u := rfl
    constructor
    · rintro (⟨-, hn, -⟩ | ⟨u', hu, hs⟩)
      · cases hn
      · obtain ⟨rfl, rfl⟩ := List.cons.inj hu
        obtain ⟨hlive, hq⟩ := (ih u).mp hs
        exact ⟨congrArg (d :: ·) hlive, hq⟩
    · rintro ⟨hlive, hq⟩
      obtain ⟨rfl, hrest⟩ := List.cons.inj hlive
      exact .inr ⟨u, rfl, (ih u).mpr ⟨hrest, hq⟩⟩

/-- The semicolons outside spans and comments are the separators of the live text. -/
theorem Reads.splitsAt_iff (h : Reads s q ps) (u v : List Char) :
    SplitsAt ps u v ↔ liveText ps = u ++ ';' :: v ∧ (s.run u).quote = none := by
  induction h generalizing u with
  | nil => simp [not_splitsAt_nil, liveText]
  | char _ _ _ ih => exact splitsAt_part ih
  | lineEnd | unclosed =>
    rw [splitsAt_comment rfl]
    simp [not_splitsAt_nil, liveText, Part.live]
  | @line s m r ps hs _ _ ih =>
    have hnl : s.part '\n' = .text '\n' := (Scan.part_eq_text (by decide)).mpr ⟨rfl, hs⟩
    have hstep : (s.step '\n').quote = none := Scan.step_unquoted hs rfl
    rw [splitsAt_comment rfl, ← hnl]
    exact splitsAt_part fun u => by rw [ih, Scan.run_of_unquoted hstep]
  | block hs _ _ ih =>
    rw [splitsAt_comment rfl, Scan.run_of_unquoted hs]
    exact ih u

theorem trailingOnly_iff_live : TrailingOnly q ↔
    ∀ u v, live q = u ++ ';' :: v → (Scan.start.run u).quote = none → Blank v := by
  constructor
  · intro h u v he hq
    obtain ⟨l, r, hp, -, rfl⟩ := ((reads_parts q).splitsAt_iff u v).mpr ⟨he, hq⟩
    exact h l r hp
  · intro h l r hp
    obtain ⟨he, hq⟩ := ((reads_parts q).splitsAt_iff _ _).mp ⟨l, r, hp, rfl, rfl⟩
    exact h _ _ he hq

theorem run_blank_append (ha : Blank a) (u : List Char) :
    (Scan.start.run (a ++ u)).quote = (Scan.start.run u).quote := by
  rw [Scan.run_append, Scan.run_of_unquoted (Scan.run_unquoted (quoteFree_of_blank ha) rfl)]

/-- Every separator is trailing when none stands before the last character that
is not white space. -/
theorem trailing_iff_count (s : List Char) :
    (∀ u v, s = u ++ ';' :: v → (Scan.start.run u).quote = none → Blank v) ↔
      countSeparators (strip s).dropLast = 0 := by
  rw [countSeparators, Scan.count_eq_zero_iff]
  constructor
  · intro h u v he hq
    obtain ⟨a, b, hs, ha, -⟩ := exists_trim isBlank s
    rcases strip_endsSolid s with hn | ⟨r, d, hr, hd⟩
    · simp [hn] at he
    rw [hr, List.dropLast_concat] at he
    have hs' : s = a ++ u ++ ';' :: (v ++ [d] ++ b) := by
      rw [hs, ← strip, hr, he]
      simp
    have hv := h _ _ hs' ((run_blank_append ha u).trans hq)
    exact absurd (hv d (by simp)) (by simp [hd])
  · rintro h u v rfl hq
    refine Classical.byContradiction fun hv => ?_
    obtain ⟨v, b, rfl, hb, hv'⟩ := exists_append_blank v
    rcases hv' with rfl | ⟨x, e, rfl, he⟩
    · exact hv (by simpa using hb)
    obtain ⟨a, u, rfl, ha, hu⟩ := exists_blank_append u
    have hsolid : Solid (u ++ ';' :: (x ++ [e])) := by
      refine ⟨?_, u ++ ';' :: x, e, by simp, he⟩
      rcases hu with rfl | hu
      · exact ⟨';', _, rfl, by decide⟩
      · exact hu.append _
    have hs : strip (a ++ u ++ ';' :: (x ++ [e] ++ b)) = u ++ ';' :: x ++ [e] := by
      rw [show a ++ u ++ ';' :: (x ++ [e] ++ b) = a ++ (u ++ ';' :: (x ++ [e]) ++ b) by simp,
        strip_blank_append ha, strip_append_blank hb, strip_solid hsolid]
      simp
    rw [hs, List.dropLast_concat] at h
    exact h u x rfl ((run_blank_append ha u).symm.trans hq)

-- ---------------------------------------------------------------------------
-- What the guard could ask
-- ---------------------------------------------------------------------------

/-- A part that is no comment with quotes. -/
def Part.IsUnquoted : Part → Prop
  | line m => QuoteFree m
  | block m => QuoteFree m
  | _ => True

instance (p : Part) : Decidable p.IsUnquoted :=
  match p with
  | .line m => inferInstanceAs (Decidable (QuoteFree m))
  | .block m => inferInstanceAs (Decidable (QuoteFree m))
  | .text _ => inferInstanceAs (Decidable True)
  | .quoted _ => inferInstanceAs (Decidable True)
  | .unclosed _ => inferInstanceAs (Decidable True)

/-- The guard and the reading agree on what is quoted and what is comment. -/
structure InStep (q : List Char) : Prop where
  plain : Plain (parts q)
  unquoted : ∀ p ∈ parts q, p.IsUnquoted

instance (q : List Char) : Decidable (InStep q) :=
  decidable_of_iff (Plain (parts q) ∧ ∀ p ∈ parts q, p.IsUnquoted)
    ⟨fun ⟨hp, hu⟩ => ⟨hp, hu⟩, fun ⟨hp, hu⟩ => ⟨hp, hu⟩⟩

/-- Comments without quotes do not keep the guard from counting what is live. -/
theorem Reads.count_live_le (h : Reads s q ps)
    (hq : ∀ p ∈ ps, p.IsUnquoted) : s.count (liveText ps) ≤ s.count q := by
  induction h with
  | nil => exact Nat.le_refl _
  | @char s c r ps _ _ _ ih =>
    have hr := ih fun p hp => hq p (by simp [hp])
    rw [liveText_part]
    exact Nat.add_le_add_left hr _
  | lineEnd => exact Nat.zero_le _
  | @line s m r ps hs _ _ ih =>
    have hr : countSeparators (liveText ps) ≤ countSeparators r :=
      ih fun p hp => hq p (by simp [hp])
    have hnl : (s.step '\n').quote = none := Scan.step_unquoted hs rfl
    have hlive :
        s.count (liveText (.line m :: .text '\n' :: ps)) = countSeparators (liveText ps) := by
      have hc : s.count ('\n' :: liveText ps) = (s.step '\n').count (liveText ps) := by
        simp [Scan.count, Scan.separates]
      exact hc.trans (Scan.count_of_unquoted hnl _)
    have hw : QuoteFree ('-' :: '-' :: (m ++ ['\n'])) := by
      have hm : QuoteFree m := hq (.line m) (by simp)
      simpa [QuoteFree, or_imp, forall_and] using ⟨by decide, hm, by decide⟩
    have := Scan.le_count_append hs hw r
    rw [hlive]
    exact Nat.le_trans hr (by simpa using this)
  | @block s m r ps hs _ _ ih =>
    have hr : countSeparators (liveText ps) ≤ countSeparators r :=
      ih fun p hp => hq p (by simp [hp])
    have hw : QuoteFree ('/' :: '*' :: (m ++ ['*', '/'])) := by
      have hm : QuoteFree m := hq (.block m) (by simp)
      simpa [QuoteFree, or_imp, forall_and] using ⟨by decide, by decide, hm, by decide, by decide⟩
    have := Scan.le_count_append hs hw r
    have hlive : s.count (liveText (.block m :: ps)) = countSeparators (liveText ps) :=
      Scan.count_of_unquoted hs _
    rw [hlive]
    exact Nat.le_trans hr (by simpa using this)
  | unclosed => exact Nat.zero_le _

/-- An accepted query is one statement exactly when its live text has no
separator before its last character. Where the guard and the reading agree, its
normal form has at most one separator, and tells whether it is the last. -/
theorem trailingOnly_iff {g : Guard} (h : g.Accepts q) :
    (TrailingOnly q ↔ countSeparators (strip (live q)).dropLast = 0) ∧
      (InStep q → countSeparators (normalize q) ≤ 1 ∧
        (TrailingOnly q ↔ countSeparators (normalize q).dropLast = 0)) := by
  have hlive : TrailingOnly q ↔ countSeparators (strip (live q)).dropLast = 0 :=
    trailingOnly_iff_live.trans (trailing_iff_count (live q))
  refine ⟨hlive, fun hq => ?_⟩
  obtain ⟨hp, hc⟩ := Guard.accepts_iff.mp h
  obtain ⟨h₁, h₂⟩ := countSeparators_normalForm (live q)
  rw [normalize_eq, visible_eq_live hp.1 hq.plain, h₁, h₂]
  refine ⟨?_, hlive⟩
  obtain ⟨a, b, hs, ha, -⟩ := exists_trim isBlank (live q)
  calc countSeparators (strip (live q))
      ≤ countSeparators (a ++ strip (live q) ++ b) := countSeparators_le_around ha _ _
    _ = countSeparators (live q) := by rw [strip, ← hs]
    _ ≤ countSeparators q := (reads_parts q).count_live_le hq.unquoted
    _ ≤ 1 := hc

theorem trailingOnly_iff_semicolon :
    Guard.standard.Accepts "SELECT a FROM t; -- all".toList ∧
      InStep "SELECT a FROM t; -- all".toList ∧
      (TrailingOnly "SELECT a FROM t; -- all".toList ↔
        countSeparators (strip (live "SELECT a FROM t; -- all".toList)).dropLast = 0) ∧
      countSeparators (normalize "SELECT a FROM t; -- all".toList) ≤ 1 ∧
      (TrailingOnly "SELECT a FROM t; -- all".toList ↔
        countSeparators (normalize "SELECT a FROM t; -- all".toList).dropLast = 0) :=
  have h : Guard.standard.Accepts "SELECT a FROM t; -- all".toList := by decide +kernel
  have hs : InStep "SELECT a FROM t; -- all".toList := by decide +kernel
  ⟨h, hs, (trailingOnly_iff h).1, (trailingOnly_iff h).2 hs⟩

/-- One separator, and a second statement behind it. -/
theorem second_statement_accepted :
    Guard.standard.Accepts "SELECT 1; SELECT 2".toList ∧
      ¬ TrailingOnly "SELECT 1; SELECT 2".toList := by
  refine ⟨by decide +kernel, fun h => ?_⟩
  have hb := h ("SELECT 1".toList.map .text) (" SELECT 2".toList.map .text) (by decide)
  exact absurd hb (by decide)

end SafeReports.Sql
