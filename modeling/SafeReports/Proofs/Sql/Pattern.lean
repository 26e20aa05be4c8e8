import SafeReports.Sql.Guard
import SafeReports.Proofs.Text.NormalForm

/-!
# Patterns of the guard

A pattern is a phrase, a shape or a comment marker; it occurs in a text when a
part of the text matches it, phrases as whole words only. The searches of the
guard find exactly these occurrences. In a text of two parts an occurrence lies
in one of them or across the place where they meet.
-/

namespace SafeReports.Sql

open Text

-- ---------------------------------------------------------------------------
-- Matching
-- ---------------------------------------------------------------------------

/-- These characters are the text of a rule, in any letter case. -/
inductive Spells : List Char → List Char → Prop
  | nil : Spells [] []
  | cons : sameLetter w c = true → Spells ws cs → Spells (w :: ws) (c :: cs)

theorem afterWord?_eq_some_iff {w s rest : List Char} :
    afterWord? w s = some rest ↔ ∃ y, s = y ++ rest ∧ Spells w y := by
  induction w generalizing s with
  | nil =>
    constructor
    · intro h
      exact ⟨[], by simpa [afterWord?] using h, .nil⟩
    · rintro ⟨y, rfl, hy⟩
      cases hy
      rfl
  | cons w ws ih =>
    cases s with
    | nil =>
      constructor
      · intro h
        simp [afterWord?] at h
      · rintro ⟨y, hs, hy⟩
        cases hy
        simp at hs
    | cons c s =>
      simp only [afterWord?]
      constructor
      · intro h
        split at h
        · rename_i hc
          obtain ⟨y, rfl, hy⟩ := ih.mp h
          exact ⟨c :: y, rfl, .cons hc hy⟩
        · cases h
      · rintro ⟨y, hs, hy⟩
        cases hy with
        | cons hc hy =>
          simp only [List.cons_append, List.cons.injEq] at hs
          obtain ⟨rfl, rfl⟩ := hs
          simp only [hc, ↓reduceIte]
          exact ih.mpr ⟨_, rfl, hy⟩

def Piece.Matches : Piece → List Char → Prop
  | .word text, y => Spells text.toList y
  | .gap, y => y ≠ [] ∧ Blank y
  | .blanks, y => Blank y
  | .oneOf texts, y => ∃ t ∈ texts, Spells t.toList y

def Shape.Matches : Shape → List Char → Prop
  | [], y => y = []
  | p :: rest, y => ∃ u v, y = u ++ v ∧ p.Matches u ∧ Shape.Matches rest v

inductive Pattern
  | phrase (text : String)
  | shape (shape : Shape)
  | marker (marker : Marker)

namespace Pattern

def Matches : Pattern → List Char → Prop
  | phrase text, y => Spells text.toList y
  | shape s, y => s.Matches y
  | marker m, y => y = m.text.toList

/-- Whether only whole words count. -/
def bounded : Pattern → Bool
  | phrase _ => true
  | shape _ => false
  | marker _ => false

end Pattern

def endsWord (s : List Char) : Bool := s.getLast?.any isWord

/-- The text before an occurrence, what matches, and the text after it. -/
structure Pattern.At (P : Pattern) (before found after : List Char) : Prop where
  found : P.Matches found
  left : P.bounded = true → endsWord before = false
  right : P.bounded = true → startsWord after = false

def Pattern.OccursIn (P : Pattern) (s : List Char) : Prop :=
  ∃ x y z, s = x ++ y ++ z ∧ P.At x y z

/-- An occurrence that begins in `s`, runs over `mid` and ends in `t`. -/
def Pattern.Across (P : Pattern) (s mid t : List Char) : Prop :=
  ∃ x y₁ y₂ z, s = x ++ y₁ ∧ t = y₂ ++ z ∧ y₁ ≠ [] ∧ y₂ ≠ [] ∧ P.At x (y₁ ++ mid ++ y₂) z

/-- Every pattern the guard looks for in a normal form. -/
def guardPatterns : List Pattern :=
  forbiddenPhrases.map .phrase ++ suspiciousRules.map (fun r => .shape r.shape) ++
    [.marker .blockOpen, .marker .blockClose, .marker .line]

/-- No pattern of the guard occurs in the text. -/
def Clean (s : List Char) : Prop := ∀ P ∈ guardPatterns, ¬ P.OccursIn s

-- ---------------------------------------------------------------------------
-- Word boundaries
-- ---------------------------------------------------------------------------

@[simp] theorem endsWord_nil : endsWord [] = false := rfl

theorem startsWord_eq (s : List Char) : startsWord s = s.head?.any isWord := by
  cases s <;> rfl

theorem endsWord_append (s : List Char) (h : t ≠ []) : endsWord (s ++ t) = endsWord t := by
  obtain ⟨r, c, rfl⟩ := (List.eq_nil_or_concat t).resolve_left h
  simp [endsWord, ← List.append_assoc]

theorem startsWord_append (h : s ≠ []) (t : List Char) : startsWord (s ++ t) = startsWord s := by
  cases s with
  | nil => exact absurd rfl h
  | cons c r => rfl

/-- The boundaries of an occurrence when more text stands around it. -/
theorem Pattern.At.mono {P : Pattern} (h : P.At x y z)
    (hl : endsWord x = false → endsWord x' = false)
    (hr : startsWord z = false → startsWord z' = false) : P.At x' y z' :=
  ⟨h.found, fun hb => hl (h.left hb), fun hb => hr (h.right hb)⟩

-- ---------------------------------------------------------------------------
-- What matches begins and ends solid
-- ---------------------------------------------------------------------------

theorem not_isBlank_of_sameLetter (h : sameLetter w c = true) (hw : isBlank w = false) :
    isBlank c = false := by
  simp only [sameLetter, Bool.or_eq_true, Bool.and_eq_true, beq_iff_eq] at h
  rcases h with ((h | ⟨rfl, rfl | rfl⟩) | ⟨rfl, rfl⟩) | ⟨rfl, rfl⟩
  · cases hc : isBlank c with
    | false => rfl
    | true =>
      have hn := (toNat_of_isInert (isInert_of_isBlank hc)).2
      rw [toUpper_of_not_lower hn] at h
      rw [← h, hc] at hw
      exact hw
  all_goals decide

theorem Spells.startsSolid (h : Spells t y) (ht : StartsSolid t) : StartsSolid y := by
  obtain ⟨w, ws, rfl, hw⟩ := ht
  cases h with
  | cons hc _ => exact ⟨_, _, rfl, not_isBlank_of_sameLetter hc hw⟩

theorem Spells.endsSolid (h : Spells t y) (ht : EndsSolid t) : EndsSolid y := by
  induction h with
  | nil => exact ht
  | @cons w c ws cs hc h ih =>
    cases h with
    | nil =>
      obtain ⟨r, x, hr, hx⟩ := ht
      obtain ⟨rfl, hw⟩ := (List.append_eq_singleton_iff.mp hr.symm).resolve_right (by simp)
      obtain rfl := List.singleton_inj.mp hw
      exact ⟨[], c, rfl, not_isBlank_of_sameLetter hc hx⟩
    | cons => exact (ih (EndsSolid.of_append (s := [w]) ht (by simp))).append [c]

def Piece.IsSolid : Piece → Prop
  | .word text => Solid text.toList
  | .gap => False
  | .blanks => False
  | .oneOf texts => ∀ t ∈ texts, Solid t.toList

instance (p : Piece) : Decidable p.IsSolid :=
  match p with
  | .word text => inferInstanceAs (Decidable (Solid text.toList))
  | .gap => inferInstanceAs (Decidable False)
  | .blanks => inferInstanceAs (Decidable False)
  | .oneOf texts => inferInstanceAs (Decidable (∀ t ∈ texts, Solid t.toList))

/-- Words with white space between them; no two runs of it meet, and none
stands at an end. -/
inductive Shape.Firm : Shape → Prop
  | last : p.IsSolid → Shape.Firm [p]
  | gap : Solid text.toList → Shape.Firm rest → Shape.Firm (.word text :: .gap :: rest)
  | blanks : Solid text.toList → Shape.Firm rest → Shape.Firm (.word text :: .blanks :: rest)

theorem Piece.solid_of_matches {p : Piece} (hp : p.IsSolid) (h : p.Matches y) : Solid y := by
  cases p with
  | word text => exact ⟨h.startsSolid hp.1, h.endsSolid hp.2⟩
  | gap => exact hp.elim
  | blanks => exact hp.elim
  | oneOf texts =>
    obtain ⟨t, ht, hy⟩ := h
    exact ⟨hy.startsSolid (hp t ht).1, hy.endsSolid (hp t ht).2⟩

theorem Shape.Firm.solid {s : Shape} (hs : s.Firm) (h : s.Matches y) : Solid y := by
  induction hs generalizing y with
  | last hp =>
    obtain ⟨u, v, rfl, hu, rfl⟩ := h
    simpa using Piece.solid_of_matches hp hu
  | gap ht _ ih | blanks ht _ ih =>
    obtain ⟨u, _, rfl, hu, v, w, rfl, -, hw⟩ := h
    have hu := Piece.solid_of_matches (p := .word _) ht hu
    exact ⟨hu.1.append _, by simpa using (ih hw).2.append (u ++ v)⟩

theorem suspiciousRules_firm (h : r ∈ suspiciousRules) : r.shape.Firm := by
  simp only [suspiciousRules, List.mem_cons, List.not_mem_nil, or_false] at h
  rcases h with rfl | rfl | rfl | rfl | rfl | rfl | rfl
  · exact .blanks (by decide) (.last (by decide))
  · exact .gap (by decide) (.blanks (by decide) (.blanks (by decide) (.last (by decide))))
  · exact .gap (by decide) (.blanks (by decide) (.blanks (by decide) (.last (by decide))))
  · exact .gap (by decide) (.blanks (by decide) (.blanks (by decide) (.last (by decide))))
  · exact .last (by decide)
  · exact .gap (by decide) (.last (by decide))
  · exact .gap (by decide) (.last (by decide))

theorem forbiddenPhrases_solid : ∀ t ∈ forbiddenPhrases, Solid t.toList := by
  decide +kernel

theorem Marker.solid_text (m : Marker) : Solid m.text.toList := by
  cases m <;> decide

theorem mem_guardPatterns : P ∈ guardPatterns ↔
    (∃ t ∈ forbiddenPhrases, P = .phrase t) ∨ (∃ r ∈ suspiciousRules, P = .shape r.shape) ∨
      ∃ m, P = .marker m := by
  simp only [guardPatterns, List.mem_append, List.mem_map, List.mem_cons, List.not_mem_nil,
    or_false, or_assoc]
  refine or_congr ?_ (or_congr ?_ ?_)
  · simp only [eq_comm]
  · simp only [eq_comm]
  · constructor
    · rintro (h | h | h) <;> exact ⟨_, h⟩
    · rintro ⟨m, rfl⟩
      cases m <;> simp

theorem guardPatterns_solid (hP : P ∈ guardPatterns) (h : P.Matches y) : Solid y := by
  rcases mem_guardPatterns.mp hP with ⟨t, ht, rfl⟩ | ⟨r, hr, rfl⟩ | ⟨m, rfl⟩
  · have hs := forbiddenPhrases_solid t ht
    exact ⟨h.startsSolid hs.1, h.endsSolid hs.2⟩
  · exact (suspiciousRules_firm hr).solid h
  · exact h ▸ m.solid_text

-- ---------------------------------------------------------------------------
-- Occurrences in a text of two parts
-- ---------------------------------------------------------------------------

/-- An occurrence lies in one of the parts or across the white space between. -/
theorem Pattern.At.split {P : Pattern} (hP : ∀ y, P.Matches y → Solid y) (hg : Blank g)
    (hat : P.At x y z) (he : x ++ y ++ z = s ++ g ++ t) :
    (∃ u, s = x ++ y ++ u ∧ z = u ++ g ++ t) ∨
      (∃ u, t = u ++ y ++ z ∧ x = s ++ g ++ u) ∨
      (∃ y₁ y₂, s = x ++ y₁ ∧ t = y₂ ++ z ∧ y₁ ≠ [] ∧ y₂ ≠ [] ∧ y = y₁ ++ g ++ y₂) := by
  have hy := hP y hat.found
  -- white space at an end of the occurrence is none at all
  have hstart : ∀ u v, y = u ++ v → Blank u → u = [] := by
    intro u v hu hb
    refine Classical.byContradiction fun hn => ?_
    exact ((hu ▸ hy.1).of_append hn).not_blank hb
  have hend : ∀ u v, y = u ++ v → Blank v → v = [] := by
    intro u v hu hb
    refine Classical.byContradiction fun hn => ?_
    exact ((hu ▸ hy.2).of_append hn).not_blank hb
  simp only [List.append_assoc] at he
  rcases List.append_eq_append_iff.mp he with ⟨a, rfl, ha⟩ | ⟨a, rfl, ha⟩
  · -- it ends before the end of `s`, or `s` ends within it
    rcases List.append_eq_append_iff.mp ha with ⟨c, rfl, hc⟩ | ⟨c, rfl, hc⟩
    · exact .inl ⟨c, by simp, by simpa using hc⟩
    · rcases List.append_eq_append_iff.mp hc with ⟨d, rfl, rfl⟩ | ⟨d, rfl, rfl⟩
      · by_cases hn : a = []
        · obtain rfl := hstart g d (by simp [hn]) hg
          exact .inr (.inl ⟨[], by simp [hn], by simp [hn]⟩)
        · by_cases hd : d = []
          · obtain rfl := hend a g (by simp [hd]) hg
            exact .inl ⟨[], by simp [hd], by simp [hd]⟩
          · exact .inr (.inr ⟨a, d, rfl, rfl, hn, hd, by simp⟩)
      · obtain rfl := hend a c rfl fun e he => hg e (by simp [he])
        exact .inl ⟨[], by simp, by simp⟩
  · -- it begins after the end of `s`
    rcases List.append_eq_append_iff.mp ha with ⟨c, rfl, hc⟩ | ⟨c, rfl, hc⟩
    · exact .inr (.inl ⟨c, by simpa using hc, by simp⟩)
    · rcases List.append_eq_append_iff.mp hc with ⟨d, rfl, rfl⟩ | ⟨d, rfl, rfl⟩
      · exact absurd (fun e he => hg e (by simp [he])) hy.1.not_blank
      · obtain rfl := hstart c d rfl fun e he => hg e (by simp [he])
        exact .inr (.inl ⟨[], by simp, by simp⟩)

end SafeReports.Sql
