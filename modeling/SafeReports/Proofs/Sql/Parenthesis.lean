import Mathlib.Algebra.Ring.Int.Defs
import SafeReports.Proofs.Sql.Stored

/-!
# Parentheses

The depth of a text is what it opens and does not close. Trimming and the normal
form keep it where no comments are, and the guard has no rule about it: with one
more parenthesis an accepted query is accepted.
-/

namespace SafeReports.Sql

open Text

-- ---------------------------------------------------------------------------
-- Depth
-- ---------------------------------------------------------------------------

/-- What a character adds to the number of open parentheses. -/
def nesting (c : Char) : Int := if c = '(' then 1 else if c = ')' then -1 else 0

def depth (s : List Char) : Int := (s.map nesting).sum

/-- With `d` parentheses open before the text, it never closes more than are open. -/
def StaysOpen (d : Int) (s : List Char) : Prop := ∀ u, u <+: s → 0 ≤ d + depth u

/-- The depth never goes below zero and ends there. -/
structure Balanced (s : List Char) : Prop where
  stays : StaysOpen 0 s
  closed : depth s = 0

@[simp] theorem depth_nil : depth [] = 0 := rfl

@[simp] theorem depth_cons (c : Char) (s : List Char) : depth (c :: s) = nesting c + depth s := by
  simp [depth]

@[simp] theorem depth_append (s t : List Char) : depth (s ++ t) = depth s + depth t := by
  simp [depth]

@[simp] theorem staysOpen_nil_iff : StaysOpen d [] ↔ 0 ≤ d := by
  simp [StaysOpen]

@[simp] theorem staysOpen_cons_iff :
    StaysOpen d (c :: s) ↔ 0 ≤ d ∧ StaysOpen (d + nesting c) s := by
  constructor
  · intro h
    refine ⟨by simpa using h [] (List.nil_prefix), fun u hu => ?_⟩
    have := h (c :: u) (List.cons_prefix_cons.mpr ⟨rfl, hu⟩)
    rw [depth_cons] at this
    omega
  · rintro ⟨h₁, h₂⟩ u hu
    cases u with
    | nil => simpa using h₁
    | cons e u =>
      obtain ⟨rfl, hu'⟩ := List.cons_prefix_cons.mp hu
      have := h₂ u hu'
      rw [depth_cons]
      omega

theorem StaysOpen.nonneg (h : StaysOpen d s) : 0 ≤ d := by
  simpa using h [] List.nil_prefix

theorem staysOpen_append_iff :
    StaysOpen d (s ++ t) ↔ StaysOpen d s ∧ StaysOpen (d + depth s) t := by
  induction s generalizing d with
  | nil =>
    rw [List.nil_append, depth_nil, Int.add_zero, staysOpen_nil_iff]
    exact ⟨fun h => ⟨h.nonneg, h⟩, And.right⟩
  | cons c s ih => rw [List.cons_append, staysOpen_cons_iff, staysOpen_cons_iff, ih, depth_cons,
      Int.add_assoc, and_assoc]

def isParenthesis (c : Char) : Bool := c == '(' || c == ')'

theorem nesting_eq_zero (h : isParenthesis c = false) : nesting c = 0 := by
  simp only [isParenthesis, Bool.or_eq_false_iff, beq_eq_false_iff_ne] at h
  simp [nesting, h.1, h.2]

/-- Only parentheses matter. -/
theorem depth_filter (s : List Char) : depth (s.filter isParenthesis) = depth s := by
  induction s with
  | nil => rfl
  | cons c s ih =>
    cases hc : isParenthesis c with
    | true => simp [hc, ih]
    | false => simp [hc, ih, nesting_eq_zero hc]

theorem staysOpen_filter (d : Int) (s : List Char) :
    StaysOpen d (s.filter isParenthesis) ↔ StaysOpen d s := by
  induction s generalizing d with
  | nil => rfl
  | cons c s ih =>
    cases hc : isParenthesis c with
    | true => simp [hc, ih]
    | false =>
      simp only [List.filter_cons, hc, Bool.false_eq_true, ↓reduceIte, staysOpen_cons_iff,
        nesting_eq_zero hc, Int.add_zero, ih]
      exact ⟨fun h => ⟨h.nonneg, h⟩, And.right⟩

theorem balanced_filter (s : List Char) : Balanced (s.filter isParenthesis) ↔ Balanced s := by
  constructor
  · rintro ⟨h₁, h₂⟩
    exact ⟨(staysOpen_filter 0 s).mp h₁, (depth_filter s).symm.trans h₂⟩
  · rintro ⟨h₁, h₂⟩
    exact ⟨(staysOpen_filter 0 s).mpr h₁, (depth_filter s).trans h₂⟩

theorem Balanced.of_filter_eq (h : s.filter isParenthesis = t.filter isParenthesis) :
    Balanced s ↔ Balanced t := by
  rw [← balanced_filter s, h, balanced_filter]

-- ---------------------------------------------------------------------------
-- The other parenthesis of a pair
-- ---------------------------------------------------------------------------

/-- The text up to the parenthesis that closes the one open before the text,
with `d` others open inside it, and the text behind. -/
def partner? (d : Int) : List Char → Option (List Char × List Char)
  | [] => none
  | c :: r =>
    if c = ')' ∧ d = 0 then some ([], r)
    else (partner? (d + nesting c) r).map fun (u, v) => (c :: u, v)

theorem nesting_stays (hd : 0 ≤ d) (hc : ¬ (c = ')' ∧ d = 0)) : 0 ≤ d + nesting c := by
  by_cases ho : c = ')'
  · have : d ≠ 0 := fun h => hc ⟨ho, h⟩
    simp only [nesting, ho, Char.reduceEq, ↓reduceIte]
    omega
  · simp only [nesting, ho, ↓reduceIte]
    split <;> omega

/-- The partner is the parenthesis before which all that was opened is closed. -/
theorem partner?_eq_some_iff (hd : 0 ≤ d) : partner? d s = some (u, v) ↔
    s = u ++ ')' :: v ∧ StaysOpen d u ∧ d + depth u = 0 := by
  induction s generalizing d u with
  | nil => simp [partner?]
  | cons c r ih =>
    by_cases hc : c = ')' ∧ d = 0
    · obtain ⟨rfl, rfl⟩ := hc
      simp only [partner?, and_self, ↓reduceIte, Option.some.injEq, Prod.mk.injEq]
      constructor
      · rintro ⟨rfl, rfl⟩
        simp
      · rintro ⟨he, hu, -⟩
        cases u with
        | nil => exact ⟨rfl, (List.cons.inj he).2⟩
        | cons e u =>
          obtain ⟨rfl, -⟩ := List.cons.inj he
          have := (staysOpen_cons_iff.mp hu).2.nonneg
          simp [nesting] at this
    · have hd' := nesting_stays hd hc
      simp only [partner?, hc, ↓reduceIte, Option.map_eq_some_iff, Prod.exists, Prod.mk.injEq]
      constructor
      · rintro ⟨u, v, hp, rfl, rfl⟩
        obtain ⟨rfl, hs, he⟩ := (ih hd').mp hp
        refine ⟨rfl, staysOpen_cons_iff.mpr ⟨hd, hs⟩, ?_⟩
        rw [depth_cons]
        omega
      · rintro ⟨he, hs, hz⟩
        cases u with
        | nil =>
          obtain ⟨rfl, rfl⟩ := List.cons.inj he
          exact absurd ⟨rfl, by simpa using hz⟩ hc
        | cons e u =>
          obtain ⟨rfl, rfl⟩ := List.cons.inj he
          obtain ⟨-, hs⟩ := staysOpen_cons_iff.mp hs
          rw [depth_cons] at hz
          exact ⟨u, v, (ih hd').mpr ⟨rfl, hs, by omega⟩, rfl, rfl⟩

theorem partner?_eq_none_iff (hd : 0 ≤ d) : partner? d s = none ↔ StaysOpen d s := by
  induction s generalizing d with
  | nil => simp [partner?, hd]
  | cons c r ih =>
    by_cases hc : c = ')' ∧ d = 0
    · obtain ⟨rfl, rfl⟩ := hc
      simp only [partner?, and_self, ↓reduceIte, reduceCtorEq, false_iff, staysOpen_cons_iff]
      rintro ⟨-, h⟩
      exact absurd h.nonneg (by decide)
    · rw [staysOpen_cons_iff, ← ih (nesting_stays hd hc)]
      simp [partner?, hc, hd]

/-- A partner in the first of two texts is a partner; otherwise the second has it. -/
theorem partner?_append (d : Int) (s t : List Char) : partner? d (s ++ t) =
    match partner? d s with
    | some (u, v) => some (u, v ++ t)
    | none => (partner? (d + depth s) t).map fun (u, v) => (s ++ u, v) := by
  induction s generalizing d with
  | nil => simp [partner?]
  | cons c s ih =>
    by_cases hc : c = ')' ∧ d = 0
    · simp [partner?, hc]
    · simp only [List.cons_append, partner?, hc, ↓reduceIte, ih, depth_cons, Int.add_assoc]
      cases partner? (d + nesting c) s with
      | some p => rfl
      | none => simp [Function.comp_def]

-- ---------------------------------------------------------------------------
-- Trimming and normal form
-- ---------------------------------------------------------------------------

/-- No comment marker stands in the text. -/
def Unmarked (q : List Char) : Prop := ∀ m : Marker, ¬ m.text.toList <:+: q

theorem Unmarked.mono (h : Unmarked t) (hs : s <:+: t) : Unmarked s :=
  fun m hm => h m (hm.trans hs)

theorem outsideLines_unmarked (h : ¬ ['-', '-'] <:+: q) : outsideLines false q = q := by
  generalize hb : false = b
  fun_induction outsideLines b q with
  | case1 => rfl
  | case2 | case3 => cases hb
  | case4 r => exact absurd ⟨[], r, rfl⟩ h
  | case5 c r hc ih => rw [ih (fun hi => h (hi.trans (List.infix_cons (List.infix_refl r)))) rfl]

theorem outsideBlocks_unmarked (h : ¬ ['/', '*'] <:+: q) : outsideBlocks false q = q := by
  generalize hb : false = b
  fun_induction outsideBlocks b q with
  | case1 => rfl
  | case2 | case3 => cases hb
  | case4 r | case5 r => exact absurd ⟨[], r, rfl⟩ h
  | case6 c r hc ih => rw [ih (fun hi => h (hi.trans (List.infix_cons (List.infix_refl r)))) rfl]

theorem Unmarked.normalize_eq (h : Unmarked q) : normalize q = normalForm q := by
  rw [Sql.normalize_eq, visible, dropLineComments, outsideLines_unmarked (h .line),
    dropBlockComments, outsideBlocks_unmarked (h .blockOpen)]

theorem Closing.not_unmarked (h : Closing s) : ¬ Unmarked s := by
  intro hu
  cases h with
  | @line w m => exact hu .line ⟨w, m, by simp [Marker.text]⟩
  | @block w m => exact hu .blockOpen ⟨w, m, by simp [Marker.text]⟩

theorem trimSeparators_within (q : List Char) : trimSeparators q <:+: q := by
  obtain ⟨x, y, h, -, -⟩ := exists_trimSeparators q
  exact ⟨x, y, h.symm⟩

theorem Unmarked.stored_eq (h : Unmarked q) : stored q = trimSeparators q := by
  refine stored_of_not_drops fun b a hd => ?_
  obtain ⟨hc, m, e, hs, -, -⟩ := splitTrailing?_spec hd.1
  refine hc.not_unmarked ((h.mono (trimSeparators_within q)).mono ?_)
  exact ⟨b ++ ';' :: m, e, by rw [hs]⟩

theorem filter_trim {keep drop : Char → Bool} (h : ∀ c, drop c = true → keep c = false)
    (s : List Char) : (trim drop s).filter keep = s.filter keep := by
  obtain ⟨a, b, hs, ha, hb⟩ := exists_trim drop s
  have hn : ∀ t : List Char, (∀ c ∈ t, drop c = true) → t.filter keep = [] := by
    intro t ht
    refine List.filter_eq_nil_iff.mpr fun c hc => ?_
    simp [h c (ht c hc)]
  calc (trim drop s).filter keep
      = (a ++ trim drop s ++ b).filter keep := by simp [hn a ha, hn b hb]
    _ = s.filter keep := by rw [← hs]

theorem filter_upper {keep : Char → Bool}
    (h : ∀ c, keep c = true → isInert c = true) (s : List Char) :
    (upper s).filter keep = s.filter keep := by
  induction s with
  | nil => rfl
  | cons c s ih =>
    rw [upper_cons, List.filter_append, ih]
    cases hc : keep c with
    | true => simp [upperChar_inert (h c hc), hc]
    | false =>
      have hn : (upperChar c).filter keep = [] := by
        refine List.filter_eq_nil_iff.mpr fun d hd hk => ?_
        rw [eq_of_mem_upperChar hd (h d hk), hc] at hk
        cases hk
      simp [hn, hc]

theorem isParenthesis_inert (h : isParenthesis c = true) :
    isInert c = true ∧ isBlank c = false ∧ c ≠ ';' := by
  simp only [isParenthesis, Bool.or_eq_true, beq_iff_eq] at h
  rcases h with rfl | rfl <;> decide

theorem filter_stored (h : Unmarked q) :
    (stored q).filter isParenthesis = q.filter isParenthesis := by
  have hb : ∀ c, isBlank c = true → isParenthesis c = false := by
    intro c hc
    cases hp : isParenthesis c with
    | false => rfl
    | true => simp [(isParenthesis_inert hp).2.1] at hc
  have hs : ∀ c, (c == ';') = true → isParenthesis c = false := by
    intro c hc
    rw [beq_iff_eq.mp hc]
    rfl
  rw [h.stored_eq, trimSeparators, strip, filter_trim hb, filter_trim hs, strip, filter_trim hb]

theorem filter_normalize (h : Unmarked q) :
    (normalize q).filter isParenthesis = q.filter isParenthesis := by
  have hk : ∀ {c}, isParenthesis c = true → (c != ' ') = true ∧ (!isBlank c) = true := by
    intro c hc
    have hb := (isParenthesis_inert hc).2.1
    refine ⟨?_, by simp [hb]⟩
    rw [bne_iff_ne]
    rintro rfl
    exact absurd hb (by decide)
  have hf {keep : Char → Bool} (hkeep : ∀ {c}, isParenthesis c = true → keep c = true)
      (s : List Char) : (s.filter keep).filter isParenthesis = s.filter isParenthesis := by
    rw [List.filter_filter]
    refine List.filter_congr fun c _ => ?_
    cases hc : isParenthesis c with
    | false => simp
    | true => simp [hkeep hc]
  calc (normalize q).filter isParenthesis
      = ((normalForm q).filter (· != ' ')).filter isParenthesis := by
        rw [h.normalize_eq, hf fun hc => (hk hc).1]
    _ = (upper (solids q)).filter isParenthesis := by rw [filter_normalForm]
    _ = (solids q).filter isParenthesis := filter_upper (fun c hc => (isParenthesis_inert hc).1) _
    _ = q.filter isParenthesis := hf (fun hc => (hk hc).2) q

-- ---------------------------------------------------------------------------
-- What the guard sees of parentheses
-- ---------------------------------------------------------------------------

theorem eq_of_sameLetter (h : sameLetter w c = true) (hc : isParenthesis c = true) : w = c := by
  have hu : c.toUpper = c := by
    simp only [isParenthesis, Bool.or_eq_true, beq_iff_eq] at hc
    rcases hc with rfl | rfl <;> decide
  have hn : ∀ d, isParenthesis d = false → c ≠ d := by
    rintro d hd rfl
    simp [hc] at hd
  simp only [sameLetter, Bool.or_eq_true, Bool.and_eq_true, beq_iff_eq, hu] at h
  rcases h with ((h | ⟨-, h | h⟩) | ⟨-, h⟩) | ⟨-, h⟩
  · exact h.symm
  all_goals exact absurd h (hn _ (by decide))

theorem Spells.mem (h : Spells t y) (hc : isParenthesis c = true) (hy : c ∈ y) : c ∈ t := by
  induction h with
  | nil => exact hy
  | cons hd _ ih =>
    rcases List.mem_cons.mp hy with rfl | hy
    · exact List.mem_cons.mpr (.inl (eq_of_sameLetter hd hc).symm)
    · exact List.mem_cons_of_mem _ (ih hy)

def Piece.texts : Piece → List String
  | .word text => [text]
  | .gap => []
  | .blanks => []
  | .oneOf texts => texts

def Pattern.texts : Pattern → List String
  | .phrase text => [text]
  | .shape s => s.flatMap Piece.texts
  | .marker m => [m.text]

theorem Piece.mem_texts {p : Piece} (h : p.Matches y) (hc : isParenthesis c = true) (hy : c ∈ y) :
    ∃ t ∈ p.texts, c ∈ t.toList := by
  have hb : isBlank c = false := (isParenthesis_inert hc).2.1
  cases p with
  | word text => exact ⟨text, by simp [texts], Spells.mem h hc hy⟩
  | gap => exact absurd (h.2 c hy) (by simp [hb])
  | blanks => exact absurd (h c hy) (by simp [hb])
  | oneOf ts =>
    obtain ⟨t, ht, hs⟩ := h
    exact ⟨t, ht, hs.mem hc hy⟩

theorem Shape.mem_texts {s : Shape} (h : s.Matches y) (hc : isParenthesis c = true) (hy : c ∈ y) :
    ∃ t ∈ s.flatMap Piece.texts, c ∈ t.toList := by
  induction s generalizing y with
  | nil =>
    obtain rfl := h
    cases hy
  | cons p s ih =>
    obtain ⟨u, v, rfl, hu, hv⟩ := h
    rcases List.mem_append.mp hy with hy | hy
    · obtain ⟨t, ht, hct⟩ := Piece.mem_texts hu hc hy
      exact ⟨t, by simp [ht], hct⟩
    · obtain ⟨t, ht, hct⟩ := ih hv hy
      exact ⟨t, List.mem_append_right _ ht, hct⟩

/-- No rule of the guard has a parenthesis. -/
theorem guardPatterns_texts (hP : P ∈ guardPatterns) (ht : t ∈ P.texts) (hc : c ∈ t.toList) :
    isParenthesis c = false := by
  have hall : (guardPatterns.flatMap Pattern.texts).all
      (fun t => t.toList.all fun c => !isParenthesis c) = true := by decide +kernel
  have h := List.all_eq_true.mp hall t (List.mem_flatMap.mpr ⟨P, hP, ht⟩)
  simpa using List.all_eq_true.mp h c hc

theorem not_mem_of_matches (hP : P ∈ guardPatterns) (h : P.Matches y)
    (hc : isParenthesis c = true) : c ∉ y := by
  intro hy
  have hm : ∃ t ∈ P.texts, c ∈ t.toList := by
    cases P with
    | phrase t => exact ⟨t, by simp [Pattern.texts], Spells.mem h hc hy⟩
    | shape s => exact Shape.mem_texts h hc hy
    | marker m =>
      obtain rfl := h
      exact ⟨m.text, by simp [Pattern.texts], hy⟩
  obtain ⟨t, ht, hct⟩ := hm
  simp [guardPatterns_texts hP ht hct] at hc

theorem Unmarked.append_parenthesis (h : Unmarked q) (hc : isParenthesis c = true) :
    Unmarked (q ++ [c]) := by
  rintro m ⟨x, z, he⟩
  rcases List.eq_nil_or_concat z with rfl | ⟨z, d, rfl⟩
  · have hl : (x ++ m.text.toList).getLast? = some c := by
      rw [← List.append_nil (_ ++ _), he]
      simp
    cases m <;>
      · obtain rfl : _ = c := by simpa [Marker.text] using hl
        exact absurd hc (by decide)
  · rw [List.concat_eq_append, ← List.append_assoc] at he
    exact h m ⟨x, z, (List.append_inj' he rfl).1⟩

theorem isMark_parenthesis (hc : isParenthesis c = true) : IsMark c := by
  simp only [isParenthesis, Bool.or_eq_true, beq_iff_eq] at hc
  rcases hc with rfl | rfl <;> decide

theorem clean_parenthesis (hc : isParenthesis c = true) : Clean [c] := by
  rintro P hP ⟨x, y, z, he, hat⟩
  obtain ⟨⟨d, r, rfl, -⟩, -⟩ := guardPatterns_solid hP hat.found
  obtain rfl : d = c := List.mem_singleton.mp (by rw [he]; simp)
  exact not_mem_of_matches hP hat.found hc (by simp)

theorem Passes.append_parenthesis (h : Passes (normalForm q)) (hc : isParenthesis c = true) :
    Passes (normalForm (q ++ [c])) := by
  have hmark := isMark_parenthesis hc
  have hq : ¬ Blank q := by
    intro hb
    rw [normalForm_blank hb] at h
    exact absurd h.2 (by decide)
  rw [normalForm_append hq (hmark.not_blank []), hmark.2.2]
  refine ⟨(clean_join_iff h.1 (clean_parenthesis hc) (blank_seam q [c])).mpr ?_, ?_⟩
  · rintro P hP ⟨x, y₁, y₂, z, -, he, -, hy₂, hat⟩
    cases y₂ with
    | nil => exact hy₂ rfl
    | cons d y₂ =>
      obtain ⟨rfl, -⟩ := List.cons.inj he
      exact not_mem_of_matches hP hat.found hc (by simp)
  · rw [List.append_assoc, startsAllowed_append_iff h.2]
    intro _
    rcases seam_cases q [c] with hs | hs
    · simpa [hs, startsWord] using hmark.2.1
    · simpa [hs, startsWord] using show isWord ' ' = false by decide

/-- A parenthesis at the end changes nothing for the guard. -/
theorem Guard.Accepts.append_parenthesis {g : Guard} (h : g.Accepts q) (hu : Unmarked q)
    (hc : isParenthesis c = true) : g.Accepts (q ++ [c]) := by
  obtain ⟨hp, hn⟩ := Guard.accepts_iff.mp h
  rw [hu.normalize_eq] at hp
  refine Guard.accepts_iff.mpr ⟨?_, ?_⟩
  · rw [(hu.append_parenthesis hc).normalize_eq]
    exact hp.append_parenthesis hc
  · have hz : (Scan.start.run q).count [c] = 0 :=
      Scan.count_eq_zero (by simpa using (isParenthesis_inert hc).2.2.symm) _
    rwa [countSeparators, Scan.count_append, hz, Nat.add_zero]

/-- With one more parenthesis every accepted query is accepted and not balanced. -/
theorem Guard.Accepts.exists_unbalanced {g : Guard} (h : g.Accepts q) (hu : Unmarked q) :
    ∃ c, g.Accepts (q ++ [c]) ∧ ¬ Balanced (stored (q ++ [c])) := by
  have hdepth : ∀ c, isParenthesis c = true → Balanced (stored (q ++ [c])) →
      depth q + nesting c = 0 := by
    intro c hc hb
    rw [Balanced.of_filter_eq (filter_stored (hu.append_parenthesis hc))] at hb
    simpa using hb.closed
  by_cases hd : depth q = 1
  · refine ⟨'(', h.append_parenthesis hu rfl, fun hb => ?_⟩
    have := hdepth '(' rfl hb
    simp [nesting, hd] at this
  · refine ⟨')', h.append_parenthesis hu rfl, fun hb => ?_⟩
    have := hdepth ')' rfl hb
    simp [nesting] at this
    omega

end SafeReports.Sql
