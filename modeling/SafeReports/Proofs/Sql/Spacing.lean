import SafeReports.Proofs.Sql.Agreement

/-!
# Comments between words

The guard takes block comments out where a database reads white space. Words on
both sides of a comment come together in the normal form, and a phrase that the
comment splits, or sets apart from the text around it, is not found there. Such
a phrase begins right behind a comment, ends right before one, or runs across.
-/

namespace SafeReports.Sql

open Text

/-- The part with a space for a block comment. -/
def Part.spaced : Part → List Char
  | block _ => [' ']
  | p => p.live

def spacedText (ps : List Part) : List Char := ps.flatMap Part.spaced

/-- The query with a space for each block comment, and without line comments. -/
def spaced (q : List Char) : List Char := spacedText (parts q)

/-- The patterns of the guard that are not comment markers. -/
def spokenPatterns : List Pattern :=
  forbiddenPhrases.map .phrase ++ suspiciousRules.map fun r => .shape r.shape

/-- An occurrence that ends right before the space between two texts, begins
right behind it, or runs across it. -/
def Pattern.Touches (P : Pattern) (s t : List Char) : Prop :=
  (∃ x y, s = x ++ y ∧ P.At x y [' ']) ∨ (∃ y z, t = y ++ z ∧ P.At [' '] y z) ∨
    P.Across s [' '] t

theorem spokenPatterns_subset : spokenPatterns ⊆ guardPatterns :=
  fun _ hP => List.mem_append_left _ hP

-- ---------------------------------------------------------------------------
-- With and without the spaces
-- ---------------------------------------------------------------------------

theorem spacedText_append (ps ps' : List Part) :
    spacedText (ps ++ ps') = spacedText ps ++ spacedText ps' :=
  List.flatMap_append

theorem Part.spaced_of_not_block {p : Part} (h : ∀ c, p ≠ .block c) : p.spaced = p.live := by
  cases p with
  | block c => exact absurd rfl (h c)
  | _ => rfl

theorem spacedText_of_no_block (h : ∀ c, .block c ∉ ps) : spacedText ps = liveText ps := by
  induction ps with
  | nil => rfl
  | cons p ps ih =>
    have hp : p.spaced = p.live := Part.spaced_of_not_block fun c hc => h c (by simp [hc])
    have hps := ih fun c hc => h c (by simp [hc])
    simpa [spacedText, liveText, hp] using hps

theorem blank_spacedText_iff : Blank (spacedText ps) ↔ Blank (liveText ps) := by
  induction ps with
  | nil => exact Iff.rfl
  | cons p ps ih =>
    have hp : Blank p.spaced ↔ Blank p.live := by
      by_cases h : ∃ c, p = .block c
      · obtain ⟨c, rfl⟩ := h
        exact iff_of_true blank_space .nil
      · rw [Part.spaced_of_not_block fun c hc => h ⟨c, hc⟩]
    simp only [spacedText, liveText, List.flatMap_cons, blank_append_iff] at ih ⊢
    rw [hp, ih]

/-- A list of parts up to its first block comment. -/
theorem first_block (ps : List Part) : (∀ c, .block c ∉ ps) ∨
    ∃ l c r, ps = l ++ .block c :: r ∧ ∀ c, .block c ∉ l := by
  induction ps with
  | nil => exact .inl fun _ => List.not_mem_nil
  | cons p ps ih =>
    by_cases h : ∃ c, p = .block c
    · obtain ⟨c, rfl⟩ := h
      exact .inr ⟨[], c, ps, rfl, fun _ => List.not_mem_nil⟩
    · have hp : ∀ c, p ≠ .block c := fun c hc => h ⟨c, hc⟩
      rcases ih with hn | ⟨l, c, r, rfl, hl⟩
      · exact .inl fun c => by simpa using ⟨(hp c).symm, hn c⟩
      · exact .inr ⟨p :: l, c, r, rfl, fun c => by simpa using ⟨(hp c).symm, hl c⟩⟩

/-- Over the block comments of a list of parts, from the last to the first. -/
theorem block_induction {motive : List Part → Prop}
    (bare : ∀ ps, (∀ c, .block c ∉ ps) → motive ps)
    (step : ∀ l c r, (∀ c, .block c ∉ l) → motive r → motive (l ++ .block c :: r))
    (ps : List Part) : motive ps := by
  induction hk : ps.length using Nat.strongRecOn generalizing ps with
  | ind k ih =>
    rcases first_block ps with hno | ⟨l, c, r, rfl, hl⟩
    · exact bare ps hno
    · have hlt : r.length < k := by
        rw [← hk, List.length_append, List.length_cons]
        omega
      exact step l c r hl (ih r.length hlt r rfl)

theorem spacedText_first (hl : ∀ c, .block c ∉ l) (c : List Char) (r : List Part) :
    spacedText (l ++ .block c :: r) = liveText l ++ ' ' :: spacedText r := by
  rw [spacedText_append, spacedText_of_no_block hl]
  rfl

theorem liveText_block (l : List Part) (c : List Char) (r : List Part) :
    liveText (l ++ .block c :: r) = liveText l ++ liveText r :=
  liveText_append l (.block c :: r)

/-- What stands before the normal form of a text when more text does. -/
theorem exists_normalForm_before (u : List Char) (ht : ¬ Blank t) :
    ∃ p, normalForm (u ++ t) = p ++ normalForm t ∧ (Blank u → p = []) := by
  by_cases hu : Blank u
  · exact ⟨[], normalForm_blank_append hu t, fun _ => rfl⟩
  · exact ⟨_, normalForm_append hu ht, fun h => absurd h hu⟩

theorem normalForm_spaced (hs : ¬ Blank s) (ht : ¬ Blank t) :
    normalForm (s ++ ' ' :: t) = normalForm s ++ [' '] ++ normalForm t := by
  have hsp : ¬ Blank (' ' :: t) := fun h => ht (blank_cons_iff.mp h).2
  have hseam : seam s (' ' :: t) = [' '] := by
    simp [seam, show isBlank ' ' = true by decide]
  rw [normalForm_append hs hsp, hseam]
  exact congrArg (normalForm s ++ [' '] ++ ·) (normalForm_blank_append blank_space t)

/-- An occurrence that does not touch the space lies on one side of it, away from
it. The text `u` stands for what is before `t`; when it is not blank, the
occurrence does not begin at once. -/
theorem Pattern.At.beside {P : Pattern} (hP : ∀ y, P.Matches y → Solid y) (hat : P.At x y z)
    (he : x ++ y ++ z = normalForm t ++ [' '] ++ s) (ht : ¬ Blank t) (hx : Blank u ∨ x ≠ [])
    (hn : ¬ P.Touches (normalForm (u ++ t)) s) :
    (∃ w, w ≠ [] ∧ normalForm t = x ++ y ++ w ∧ z = w ++ [' '] ++ s) ∨
      ∃ w, w ≠ [] ∧ s = w ++ y ++ z ∧ x = normalForm t ++ [' '] ++ w := by
  obtain ⟨p, hp, hpu⟩ := exists_normalForm_before u ht
  have hword : endsWord (p ++ x) = endsWord x := by
    rcases hx with h | h
    · rw [hpu h, List.nil_append]
    · exact endsWord_append p h
  rcases hat.split hP blank_space he with
    ⟨w, hw, hz⟩ | ⟨w, hw, hx'⟩ | ⟨y₁, y₂, h₁, h₂, hn₁, hn₂, rfl⟩
  · refine .inl ⟨w, ?_, hw, hz⟩
    rintro rfl
    refine hn (.inl ⟨p ++ x, y, by rw [hp, hw]; simp, ?_⟩)
    exact hat.mono (fun h => hword ▸ h) fun _ => by decide
  · refine .inr ⟨w, ?_, hw, hx'⟩
    rintro rfl
    refine hn (.inr (.inl ⟨y, z, by rw [hw]; simp, ?_⟩))
    exact hat.mono (fun _ => by decide) id
  · refine absurd (.inr (.inr ⟨p ++ x, y₁, y₂, z, ?_, h₂, hn₁, hn₂, ?_⟩)) hn
    · rw [hp, h₁]
      simp
    · exact hat.mono (fun h => hword ▸ h) id

/-- An occurrence in the text with spaces that touches no comment is there
without the spaces. -/
theorem Pattern.At.live {P : Pattern} (hP : ∀ y, P.Matches y → Solid y)
    (hn : ∀ l c r, ps = l ++ .block c :: r →
      ¬ P.Touches (normalForm (u ++ spacedText l)) (normalForm (spacedText r)))
    (hat : P.At x y z) (he : normalForm (spacedText ps) = x ++ y ++ z) (hx : Blank u ∨ x ≠ []) :
    ∃ x' z', normalForm (liveText ps) = x' ++ y ++ z' ∧ P.At x' y z' ∧ (Blank u ∨ x' ≠ []) := by
  induction ps using block_induction generalizing u x z with
  | bare ps hno => exact ⟨x, z, by rw [← spacedText_of_no_block hno, he], hat, hx⟩
  | step l c r hl ih =>
    have hseam := hn l c r rfl
    have hn' : ∀ l' c' r', r = l' ++ .block c' :: r' → ¬ P.Touches
        (normalForm (u ++ liveText l ++ [' '] ++ spacedText l')) (normalForm (spacedText r')) := by
      intro l' c' r' hr
      have := hn (l ++ .block c :: l') c' r' (by rw [hr]; simp)
      rw [spacedText_first hl] at this
      simpa using this
    rw [spacedText_of_no_block hl] at hseam
    rw [spacedText_first hl] at he
    rw [liveText_block]
    generalize liveText l = t at he hseam hn' ⊢
    by_cases hr : Blank (spacedText r)
    · -- nothing follows the comment
      have hb : Blank (' ' :: spacedText r) := blank_space.append hr
      rw [normalForm_append_blank hb] at he
      exact ⟨x, z, by rw [normalForm_append_blank (blank_spacedText_iff.mp hr), he], hat, hx⟩
    have hr' : ¬ Blank (liveText r) := fun h => hr (blank_spacedText_iff.mpr h)
    by_cases htb : Blank t
    · -- nothing stands before the comment
      have hb : Blank (t ++ [' ']) := htb.append blank_space
      rw [List.append_cons, normalForm_blank_append hb] at he
      obtain ⟨x', z', h₁, h₂, h₃⟩ := ih hn' hat he
        (hx.imp_left fun hu => (hu.append htb).append blank_space)
      refine ⟨x', z', by rw [normalForm_blank_append htb, h₁], h₂, h₃.imp_left fun hb => ?_⟩
      exact (blank_append_iff.mp (blank_append_iff.mp hb).1).1
    rw [normalForm_append htb hr']
    rw [normalForm_spaced htb hr] at he
    rcases hat.beside hP he.symm htb hx hseam with ⟨w, hw, hnf, rfl⟩ | ⟨w, hw, hnf, rfl⟩
    · refine ⟨x, w ++ seam t (liveText r) ++ normalForm (liveText r), by rw [hnf]; simp, ?_, hx⟩
      refine hat.mono id fun h => ?_
      rwa [List.append_assoc, startsWord_append hw] at h ⊢
    · have hat' : P.At w y z := hat.mono (fun h => by rwa [endsWord_append _ hw] at h) id
      obtain ⟨x', z', h₁, h₂, h₃⟩ := ih hn' hat' hnf (.inr hw)
      have hx' : x' ≠ [] := h₃.resolve_left fun hb =>
        htb (blank_append_iff.mp (blank_append_iff.mp hb).1).2
      refine ⟨normalForm t ++ seam t (liveText r) ++ x', z', by rw [h₁]; simp, ?_, by simp [hx']⟩
      exact h₂.mono (fun h => by rwa [endsWord_append _ hx']) id

theorem Pattern.Touches.occursIn {P : Pattern} (hP : ∀ y, P.Matches y → Solid y)
    (h : P.Touches (normalForm s) (normalForm t)) : P.OccursIn (normalForm (s ++ ' ' :: t)) := by
  have hne : ∀ {x y z}, P.At x y z → y ≠ [] := by
    rintro x y z hat rfl
    exact (hP [] hat.found).1.not_blank .nil
  by_cases hs : Blank s
  · have hb : Blank (s ++ [' ']) := hs.append blank_space
    rw [List.append_cons, normalForm_blank_append hb]
    rw [normalForm_blank hs] at h
    rcases h with ⟨x, y, he, hat⟩ | ⟨y, z, he, hat⟩ | ⟨x, y₁, y₂, z, he, -, hn, -⟩
    · exact absurd (List.append_eq_nil_iff.mp he.symm).2 (hne hat)
    · exact ⟨[], y, z, he, hat.mono (fun _ => rfl) id⟩
    · exact absurd (List.append_eq_nil_iff.mp he.symm).2 hn
  by_cases ht : Blank t
  · have hb : Blank (' ' :: t) := blank_space.append ht
    rw [normalForm_append_blank hb]
    rw [normalForm_blank ht] at h
    rcases h with ⟨x, y, he, hat⟩ | ⟨y, z, he, hat⟩ | ⟨x, y₁, y₂, z, -, he, -, hn, -⟩
    · exact ⟨x, y, [], by rw [he]; simp, hat.mono id fun _ => rfl⟩
    · exact absurd (List.append_eq_nil_iff.mp he.symm).1 (hne hat)
    · exact absurd (List.append_eq_nil_iff.mp he.symm).1 hn
  rw [normalForm_spaced hs ht]
  rcases h with ⟨x, y, he, hat⟩ | ⟨y, z, he, hat⟩ | ⟨x, y₁, y₂, z, h₁, h₂, -, -, hat⟩
  · have hz : startsWord ([' '] ++ normalForm t) = false := rfl
    exact ⟨x, y, [' '] ++ normalForm t, by rw [he]; simp, hat.mono id fun _ => hz⟩
  · have hx : endsWord (normalForm s ++ [' ']) = false := endsWord_append _ (by simp)
    exact ⟨normalForm s ++ [' '], y, z, by rw [he]; simp, hat.mono (fun _ => hx) id⟩
  · exact ⟨x, y₁ ++ [' '] ++ y₂, z, by rw [h₁, h₂]; simp, hat⟩

/-- Without dashes no block comment swallows its end. -/
theorem plain_of_no_dashes (hq : QuoteFree q) (hd : ¬ ['-', '-'] <:+: q) : Plain (parts q) := by
  refine plain_of_unquoted (fun p hp => ?_) hq.not_quoted
  cases p with
  | block m =>
    rintro ⟨x, y, rfl, -⟩
    obtain ⟨l, r, hlr⟩ := List.append_of_mem hp
    have hsrc := sources_parts q
    rw [hlr] at hsrc
    refine hd ⟨sources l ++ '/' :: '*' :: x, y ++ '*' :: '/' :: sources r, ?_⟩
    rw [← hsrc]
    simp [sources, Part.source]
  | _ => exact trivial

/-- In an accepted query without quotes and dashes, a phrase or a suspicious
shape that a database reads stands at a block comment. -/
theorem unspoken_iff {g : Guard} (h : g.Accepts q) (hq : QuoteFree q)
    (hd : ¬ ['-', '-'] <:+: q) :
    (∀ P ∈ spokenPatterns, ¬ P.OccursIn (normalForm (spaced q))) ↔
      ∀ l c r, parts q = l ++ .block c :: r → ∀ P ∈ spokenPatterns,
        ¬ P.Touches (normalForm (spacedText l)) (normalForm (spacedText r)) := by
  have hsolid : ∀ P ∈ spokenPatterns, ∀ y, P.Matches y → Solid y :=
    fun P hP y => guardPatterns_solid (spokenPatterns_subset hP)
  constructor
  · intro hn l c r hp P hP ht
    have hs : spaced q = spacedText l ++ ' ' :: spacedText r := by
      rw [spaced, hp, spacedText_append]
      rfl
    exact hn P hP (hs ▸ ht.occursIn (hsolid P hP))
  · rintro hn P hP ⟨x, y, z, he, hat⟩
    have hclean := (Guard.accepts_iff.mp h).1.1
    obtain ⟨x', z', hl, hat', -⟩ := hat.live (u := []) (hsolid P hP)
      (fun l c r hp => hn l c r hp P hP) he (.inl .nil)
    refine hclean P (spokenPatterns_subset hP) ⟨x', y, z', ?_, hat'⟩
    rw [normalize_eq, visible_eq_live hclean (plain_of_no_dashes hq hd), live, hl]

theorem unspoken_iff_comment :
    Guard.standard.Accepts "SELECT a/* all */FROM t".toList ∧
      QuoteFree "SELECT a/* all */FROM t".toList ∧
      ¬ ['-', '-'] <:+: "SELECT a/* all */FROM t".toList ∧
      ((∀ P ∈ spokenPatterns, ¬ P.OccursIn (normalForm (spaced "SELECT a/* all */FROM t".toList))) ↔
        ∀ l c r, parts "SELECT a/* all */FROM t".toList = l ++ .block c :: r →
          ∀ P ∈ spokenPatterns,
            ¬ P.Touches (normalForm (spacedText l)) (normalForm (spacedText r))) :=
  have h : Guard.standard.Accepts "SELECT a/* all */FROM t".toList := by decide +kernel
  have hq : QuoteFree "SELECT a/* all */FROM t".toList := by decide +kernel
  have hd : ¬ ['-', '-'] <:+: "SELECT a/* all */FROM t".toList := by decide +kernel
  ⟨h, hq, hd, unspoken_iff h hq hd⟩

/-- The comment ends the word for a database, not for the guard. -/
theorem update_behind_comment :
    Guard.standard.Accepts "WITH x AS (SELECT 1) UPDATE/**/t SET a = 1".toList ∧
      QuoteFree "WITH x AS (SELECT 1) UPDATE/**/t SET a = 1".toList ∧
      ¬ ['-', '-'] <:+: "WITH x AS (SELECT 1) UPDATE/**/t SET a = 1".toList ∧
      ∃ P ∈ spokenPatterns,
        P.OccursIn (normalForm (spaced "WITH x AS (SELECT 1) UPDATE/**/t SET a = 1".toList)) := by
  refine ⟨by decide +kernel, by decide +kernel, by decide +kernel, .phrase "UPDATE", ?_, ?_⟩
  · exact List.mem_append_left _ (List.mem_map.mpr ⟨"UPDATE", by decide +kernel, rfl⟩)
  · exact (occursIn_phrase (by decide)).mpr (by decide +kernel)

end SafeReports.Sql
