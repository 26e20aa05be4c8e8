import Mathlib.Algebra.GroupWithZero.Nat
import SafeReports.Proofs.Sql.Objection
import SafeReports.Proofs.Sql.Statement

/-!
# Separators the guard miscounts

The count of separators knows quotes but no comments. A semicolon in a comment
counts, and a quote in a comment that nothing closes there turns inside and
outside round for the rest of the query. A query is rejected for its statements
exactly when its live separators, with what the count takes from comments and
quoted spans and without what it overlooks, are two or more.
-/

namespace SafeReports.Sql

-- ---------------------------------------------------------------------------
-- What is counted and what is not
-- ---------------------------------------------------------------------------

/-- Semicolons outside quoted spans and comments. -/
def liveSeparators (q : List Char) : Nat := (parts q).count (.text ';')

namespace Scan

/-- What a scan counts in a part that is no live text. -/
def miscounts (s : Scan) : Part → Nat
  | .text _ => 0
  | p => s.count p.source

/-- One for a live semicolon that a scan takes for quoted. -/
def overlooks (s : Scan) (p : Part) : Nat := if p = .text ';' ∧ s.quote ≠ none then 1 else 0

/-- The sum over all parts, for each with the state in which the scan comes to it. -/
def sum (f : Scan → Part → Nat) (s : Scan) : List Part → Nat
  | [] => 0
  | p :: ps => f s p + (s.run p.source).sum f ps

theorem count_part (s : Scan) (p : Part) :
    s.count p.source + s.overlooks p = (if p = .text ';' then 1 else 0) + s.miscounts p := by
  cases p with
  | text c =>
    cases hq : s.quote <;> by_cases hc : c = ';' <;>
      simp [Part.source, count, separates, overlooks, miscounts, hq, hc]
  | quoted c | line m | block m | unclosed m => simp [overlooks, miscounts]

/-- What is overlooked and what is counted make up what is live and what is miscounted. -/
theorem count_sources (s : Scan) (ps : List Part) :
    s.count (sources ps) + s.sum overlooks ps = ps.count (.text ';') + s.sum miscounts ps := by
  induction ps generalizing s with
  | nil => rfl
  | cons p ps ih =>
    have hp := s.count_part p
    have hr := ih (s.run p.source)
    have hc : s.count (sources (p :: ps)) =
        s.count p.source + (s.run p.source).count (sources ps) :=
      s.count_append p.source (sources ps)
    have hl : (p :: ps).count (.text ';') =
        ps.count (.text ';') + if p = .text ';' then 1 else 0 := by
      simp [List.count_cons]
    rw [hc, hl, sum, sum]
    omega

end Scan

/-- Semicolons of comments and quoted spans that count as separators. -/
def miscounted (q : List Char) : Nat := Scan.start.sum Scan.miscounts (parts q)

/-- Live semicolons that do not count. -/
def overlooked (q : List Char) : Nat := Scan.start.sum Scan.overlooks (parts q)

theorem countSeparators_add_overlooked (q : List Char) :
    countSeparators q + overlooked q = liveSeparators q + miscounted q := by
  have h := Scan.start.count_sources (parts q)
  rwa [sources_parts] at h

-- ---------------------------------------------------------------------------
-- Comments that close what they open
-- ---------------------------------------------------------------------------

/-- No comment that leaves a quoted span open. -/
def Part.IsSettled : Part → Prop
  | .text _ => True
  | .quoted _ => True
  | p => (Scan.start.run p.source).quote = none

instance (p : Part) : Decidable p.IsSettled :=
  match p with
  | .text _ => inferInstanceAs (Decidable True)
  | .quoted _ => inferInstanceAs (Decidable True)
  | .line _ => inferInstanceAs (Decidable (_ = none))
  | .block _ => inferInstanceAs (Decidable (_ = none))
  | .unclosed _ => inferInstanceAs (Decidable (_ = none))

/-- The separators that a comment has when it is read on its own. -/
def Part.ownSeparators : Part → Nat
  | .text _ => 0
  | .quoted _ => 0
  | p => countSeparators p.source

/-- Every comment with something behind it closes the spans that it opens. -/
def Settled (q : List Char) : Prop := ∀ p ∈ (parts q).dropLast, p.IsSettled

instance (q : List Char) : Decidable (Settled q) :=
  List.decidableBAll Part.IsSettled (parts q).dropLast

def commentSeparators (q : List Char) : Nat := ((parts q).map Part.ownSeparators).sum

theorem Scan.overlooks_part (s : Scan) (c : Char) : s.overlooks (s.part c) = 0 := by
  have h : s.part c = .text ';' → s.quote = none :=
    fun h => ((part_eq_text (by decide)).mp h).2
  simpa [overlooks] using h

theorem Scan.miscounts_part (s : Scan) (c : Char) : s.miscounts (s.part c) = 0 := by
  by_cases h : s.quote = none ∧ isQuote c = false
  · simp [part, h, miscounts]
  · have hs : s.separates c = false := by
      cases hq : s.quote with
      | some k => simp [separates, hq]
      | none =>
        have hc : c ≠ ';' := by
          rintro rfl
          exact h ⟨hq, by decide⟩
        simp [separates, hc]
    simp [part, h, miscounts, Part.source, count, hs]

theorem mem_dropLast_cons {a : α} (p : α) (h : a ∈ l.dropLast) : a ∈ (p :: l).dropLast := by
  cases l with
  | nil => simp at h
  | cons b l => exact List.mem_cons_of_mem p h

/-- Where comments are settled the count is in step with the reading: it
overlooks nothing, and counts too much only in comments. -/
theorem Reads.sum_settled (h : Reads s q ps) (hp : ∀ p ∈ ps.dropLast, p.IsSettled) :
    s.sum Scan.overlooks ps = 0 ∧
      s.sum Scan.miscounts ps = (ps.map Part.ownSeparators).sum := by
  induction h with
  | nil => exact ⟨rfl, rfl⟩
  | @char s c r ps _ _ _ ih =>
    obtain ⟨h₁, h₂⟩ := ih fun p hm => hp p (mem_dropLast_cons _ hm)
    have hrun : s.run (s.part c).source = s.step c := by rw [s.part_source]; rfl
    have hown : (s.part c).ownSeparators = 0 := by
      unfold Scan.part
      split <;> rfl
    simp [Scan.sum, s.overlooks_part, s.miscounts_part, hrun, hown, h₁, h₂]
  | @lineEnd s m hs _ | @unclosed s m hs _ =>
    simp [Scan.sum, Scan.overlooks, Scan.miscounts, Part.ownSeparators, Scan.count_of_unquoted hs]
  | @line s m r ps hs _ _ ih =>
    obtain ⟨h₁, h₂⟩ := ih fun p hm => hp p (mem_dropLast_cons _ (mem_dropLast_cons _ hm))
    have hq : (s.run (Part.line m).source).quote = none := by
      rw [Scan.run_of_unquoted hs]
      exact hp (.line m) (by simp)
    have hrun : (s.run (Part.line m).source).run (Part.text '\n').source = .start := by
      show (s.run (Part.line m).source).step '\n' = .start
      simp [Scan.step, Scan.quoteAfter, hq, Scan.start, Scan.isQuote]
    simp [Scan.sum, hrun, h₁, h₂, Scan.overlooks, Scan.miscounts, Part.ownSeparators,
      Scan.count_of_unquoted hs]
  | @block s m r ps hs _ _ ih =>
    have hcount : s.miscounts (.block m) = (Part.block m).ownSeparators :=
      Scan.count_of_unquoted hs _
    cases ps with
    | nil => simp [Scan.sum, Scan.overlooks, hcount]
    | cons p ps =>
      obtain ⟨h₁, h₂⟩ := ih fun p hm => hp p (mem_dropLast_cons _ hm)
      have hq : (s.run (Part.block m).source).quote = none := by
        rw [Scan.run_of_unquoted hs]
        exact hp (.block m) (by simp)
      have hlast : (s.run (Part.block m).source).afterBackslash = false := by
        rw [Part.source, Scan.run_append]
        rfl
      have hrun : s.run (Part.block m).source = .start := by
        rw [Scan.start, ← hq, ← hlast]
      have hsum (f : Scan → Part → Nat) :
          s.sum f (.block m :: p :: ps) = f s (.block m) + Scan.start.sum f (p :: ps) := by
        rw [← hrun]
        rfl
      rw [hsum, hsum, h₁, h₂, hcount]
      simp [Scan.overlooks]

theorem Settled.eq (h : Settled q) : overlooked q = 0 ∧ miscounted q = commentSeparators q :=
  (reads_parts q).sum_settled h

-- ---------------------------------------------------------------------------
-- Rejection
-- ---------------------------------------------------------------------------

/-- The query is rejected for having several statements. -/
def Guard.RejectsStatements (g : Guard) (q : List Char) : Prop :=
  (g.validate (some (String.ofList q))).1.map Violation.kind = some .multipleStatements

/-- The checks before the count have nothing against the query. -/
def ReachesCount (q : List Char) : Prop :=
  ∀ k ∈ ViolationKind.multipleStatements.before, ∀ d, ¬ Objection q k d

instance (q : List Char) : Decidable (ReachesCount q) :=
  decidable_of_iff (∀ k ∈ ViolationKind.multipleStatements.before, check? q k = none)
    (forall_congr' fun _ => imp_congr_right fun _ => check?_eq_none_iff)

theorem Guard.rejectsStatements_iff {g : Guard} (h : ReachesCount q) :
    g.RejectsStatements q ↔ 2 ≤ countSeparators q := by
  have hv : (g.validate (some (String.ofList q))).1 = violation? q := by
    rw [g.validate_fst, String.toList_ofList]
  rw [RejectsStatements, hv, Option.map_eq_some_iff]
  constructor
  · rintro ⟨v, hv, hk⟩
    obtain ⟨d, hd⟩ : ∃ d, (violation? q).map (fun v => (v.kind, v.detail)) =
        some (.multipleStatements, d) := ⟨v.detail, by simp [hv, hk]⟩
    cases (violation?_iff.mp hd).1 with
    | statements hc => exact hc
  · intro hc
    have ho := violation?_iff.mpr ⟨.statements hc, h⟩
    obtain ⟨v, hv, he⟩ := Option.map_eq_some_iff.mp ho
    exact ⟨v, hv, (Prod.mk.inj he).1⟩

/-- What rejection says of the live separators. It agrees with their number
unless too many are overlooked or too much else is counted; where every comment
closes its spans, unless comments make up two. -/
theorem Guard.rejects_iff {g : Guard} (h : ReachesCount q) :
    (g.RejectsStatements q ↔ 2 + overlooked q ≤ liveSeparators q + miscounted q) ∧
      ((g.RejectsStatements q ↔ 2 ≤ liveSeparators q) ↔
        ¬ (2 ≤ liveSeparators q ∧ liveSeparators q + miscounted q < 2 + overlooked q) ∧
          ¬ (liveSeparators q < 2 ∧ 2 + overlooked q ≤ liveSeparators q + miscounted q)) ∧
      (Settled q → ((g.RejectsStatements q ↔ 2 ≤ liveSeparators q) ↔
        2 ≤ liveSeparators q ∨ liveSeparators q + commentSeparators q < 2)) := by
  have hc := countSeparators_add_overlooked q
  rw [g.rejectsStatements_iff h]
  refine ⟨by omega, by omega, fun hs => ?_⟩
  obtain ⟨h₁, h₂⟩ := hs.eq
  omega

theorem Guard.rejects_iff_comment :
    ReachesCount "SELECT 1 /* ; */;".toList ∧ Settled "SELECT 1 /* ; */;".toList ∧
      ((standard.RejectsStatements "SELECT 1 /* ; */;".toList ↔
          2 ≤ liveSeparators "SELECT 1 /* ; */;".toList) ↔
        2 ≤ liveSeparators "SELECT 1 /* ; */;".toList ∨
          liveSeparators "SELECT 1 /* ; */;".toList +
            commentSeparators "SELECT 1 /* ; */;".toList < 2) :=
  have h : ReachesCount "SELECT 1 /* ; */;".toList := by decide +kernel
  have hs : Settled "SELECT 1 /* ; */;".toList := by decide +kernel
  ⟨h, hs, (standard.rejects_iff h).2.2 hs⟩

/-- Behind a comment with a quote no separator counts. -/
theorem Guard.statements_behind_quote :
    ReachesCount "SELECT 1 /* ' */; SELECT 2; SELECT 3".toList ∧
      2 ≤ liveSeparators "SELECT 1 /* ' */; SELECT 2; SELECT 3".toList ∧
      ¬ standard.RejectsStatements "SELECT 1 /* ' */; SELECT 2; SELECT 3".toList := by
  have h : ReachesCount "SELECT 1 /* ' */; SELECT 2; SELECT 3".toList := by decide +kernel
  refine ⟨h, by decide +kernel, ?_⟩
  rw [standard.rejectsStatements_iff h]
  decide +kernel

end SafeReports.Sql
