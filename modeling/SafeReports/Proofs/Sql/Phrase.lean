import SafeReports.Proofs.Sql.Objection
import SafeReports.Proofs.Sql.Parenthesis
import SafeReports.Proofs.Text.Ascii

/-!
# Forbidden phrases in the query itself

The guard looks for a phrase in the normal form. In an ASCII query without
comment markers the phrase stands there exactly when the query has its words,
whole, in order and in any letter case, with any white space between them. The
verdict names the first such phrase of the table.
-/

namespace SafeReports.Sql

open Text

def phraseWords (phrase : String) : List (List Char) := phrase.toList.splitOn ' '

/-- The words of the phrase stand in the text, and no letter, digit or underscore
is next to them. -/
def StandsIn (phrase : String) (q : List Char) : Prop :=
  ∃ x y z, q = x ++ y ++ z ∧ Spread (phraseWords phrase) y ∧
    (∀ c ∈ x.getLast?, ¬ (c.isAlphanum ∨ c = '_')) ∧ ∀ c ∈ z.head?, ¬ (c.isAlphanum ∨ c = '_')

theorem forbiddenPhrases_unbroken :
    ∀ p ∈ forbiddenPhrases, ∀ w ∈ phraseWords p, Unbroken w := by
  decide +kernel

theorem spread_phraseWords_iff (hp : p ∈ forbiddenPhrases) :
    Spread (phraseWords p) y ↔ Solid y ∧ capitals (collapse y) = p.toList := by
  have hne : phraseWords p ≠ [] := List.splitOn_ne_nil ' ' p.toList
  have hj : [' '].intercalate (phraseWords p) = p.toList := List.intercalate_splitOn ' '
  rw [spread_iff hne (forbiddenPhrases_unbroken p hp), hj]

-- ---------------------------------------------------------------------------
-- Letters
-- ---------------------------------------------------------------------------

theorem sameLetter_ascii {c : Char} (hc : c.toNat < 0x80) :
    sameLetter w c = true ↔ c.toUpper = w := by
  have hv : c ≠ 'İ' ∧ c ≠ 'ı' ∧ c ≠ '\u212A' ∧ c ≠ 'ſ' := by
    refine ⟨?_, ?_, ?_, ?_⟩ <;> rintro rfl <;> exact absurd hc (by decide)
  simp [sameLetter, hv]

theorem spells_ascii (hy : Ascii y) : Spells p y ↔ capitals y = p := by
  induction y generalizing p with
  | nil =>
    constructor
    · intro h
      cases h
      rfl
    · rintro rfl
      exact .nil
  | cons c y ih =>
    obtain ⟨hc, hy⟩ := List.forall_mem_cons.mp hy
    constructor
    · intro h
      cases h with
      | cons hl hs => exact congrArg₂ List.cons ((sameLetter_ascii hc).mp hl) ((ih hy).mp hs)
    · rintro rfl
      exact .cons ((sameLetter_ascii hc).mpr rfl) ((ih hy).mpr rfl)

-- ---------------------------------------------------------------------------
-- Phrases
-- ---------------------------------------------------------------------------

theorem any_isNameChar_iff {o : Option Char} :
    o.any isNameChar = false ↔ ∀ c ∈ o, ¬ (c.isAlphanum ∨ c = '_') := by
  cases o <;> simp [isNameChar]

theorem StandsIn.occursIn (hp : p ∈ forbiddenPhrases) (hq : Ascii q) (h : StandsIn p q) :
    (Pattern.phrase p).OccursIn (normalForm q) := by
  obtain ⟨x, y, z, rfl, hy, hx, hz⟩ := h
  obtain ⟨hsolid, hspelled⟩ := (spread_phraseWords_iff hp).mp hy
  obtain ⟨u, w, he, hu, hw⟩ := exists_squeeze_around isNameChar_blank hsolid x z
  have ha : Ascii (u ++ collapse y ++ w) := he ▸ hq.squeeze
  obtain ⟨hau, hay, haw⟩ : Ascii u ∧ Ascii (collapse y) ∧ Ascii w := by
    simpa [ascii_append_iff] using ha
  refine ⟨capitals u, capitals (collapse y), capitals w, ?_, ?_, fun _ => ?_, fun _ => ?_⟩
  · rw [hq.normalForm_eq, he]
    simp [capitals]
  · exact (spells_ascii hay.capitals).mpr (by rw [hay.capitals_capitals, hspelled])
  · rw [endsWord, hau.any_getLast?_capitals, hu]
    exact any_isNameChar_iff.mpr hx
  · rw [startsWord_eq, haw.any_head?_capitals, hw]
    exact any_isNameChar_iff.mpr hz

theorem standsIn_of_occursIn (hp : p ∈ forbiddenPhrases) (hq : Ascii q)
    (h : (Pattern.phrase p).OccursIn (normalForm q)) : StandsIn p q := by
  obtain ⟨u, v, w, he, hat⟩ := h
  rw [hq.normalForm_eq] at he
  obtain ⟨uv, w, hs, huv, rfl⟩ := List.map_eq_append_iff.mp he
  obtain ⟨u, v, rfl, rfl, rfl⟩ := List.map_eq_append_iff.mp huv
  have ha : Ascii (u ++ v ++ w) := hs ▸ hq.squeeze
  obtain ⟨hau, hav, haw⟩ : Ascii u ∧ Ascii v ∧ Ascii w := by
    simpa [ascii_append_iff] using ha
  have hv : capitals v = p.toList := by
    rw [← hav.capitals_capitals]
    exact (spells_ascii hav.capitals).mp hat.found
  have hsolid : Solid v := solid_capitals_iff.mp (hv ▸ forbiddenPhrases_solid p hp)
  obtain ⟨x, y, z, rfl, hy, rfl, hx, hz⟩ := exists_of_squeeze_eq isNameChar_blank hs hsolid
  have hspread : Spread (phraseWords p) y := (spread_phraseWords_iff hp).mpr ⟨hy, hv⟩
  refine ⟨x, y, z, rfl, hspread, any_isNameChar_iff.mp ?_, any_isNameChar_iff.mp ?_⟩
  · rw [← hx, ← hau.any_getLast?_capitals]
    exact hat.left rfl
  · rw [← hz, ← haw.any_head?_capitals, ← startsWord_eq]
    exact hat.right rfl

/-- The search of the normal form finds the phrases that stand in the query. -/
theorem occursIn_normalize_iff (hq : Ascii q) (hu : Unmarked q) (hp : p ∈ forbiddenPhrases) :
    (Pattern.phrase p).OccursIn (normalize q) ↔ StandsIn p q := by
  rw [hu.normalize_eq]
  exact ⟨standsIn_of_occursIn hp hq, StandsIn.occursIn hp hq⟩

theorem not_occursIn_blank (hp : p ∈ forbiddenPhrases) (hb : Blank q) :
    ¬ (Pattern.phrase p).OccursIn (normalize q) := by
  rintro ⟨x, y, z, he, hat⟩
  rw [normalize_blank hb] at he
  obtain ⟨hxy, -⟩ := List.append_eq_nil_iff.mp he.symm
  have hs := hat.found.startsSolid (forbiddenPhrases_solid p hp).1
  exact hs.not_blank ((List.append_eq_nil_iff.mp hxy).2 ▸ .nil)

/-- Before the phrases the guard only asks whether the query is blank, and then
no phrase occurs. -/
theorem violation?_forbidden_iff :
    (violation? q).map (fun v => (v.kind, v.detail)) = some (.forbiddenKeyword, some p) ↔
      FirstIn forbiddenPhrases (fun p => (Pattern.phrase p).OccursIn (normalize q)) p := by
  rw [violation?_iff]
  constructor
  · rintro ⟨ho, -⟩
    cases ho with
    | phrase h => exact h
  · intro h
    refine ⟨.phrase h, fun k hk d ho => ?_⟩
    obtain rfl : k = .emptyQuery := List.mem_singleton.mp hk
    obtain ⟨l, r, ht, hp, -⟩ := h
    cases ho with
    | empty hb => exact not_occursIn_blank (ht ▸ by simp) hb hp

/-- In an ASCII query without comment markers the guard forbids the first phrase
of the table that stands in it. -/
theorem Guard.forbids_iff (g : Guard) {q : String} (ha : Ascii q.toList) (hu : Unmarked q.toList)
    (p : String) :
    (∃ v, (g.validate (some q)).1 = some v ∧ v.kind = .forbiddenKeyword ∧ v.detail = some p) ↔
      FirstIn forbiddenPhrases (StandsIn · q.toList) p := by
  rw [← FirstIn.congr fun p hp => occursIn_normalize_iff ha hu hp, ← violation?_forbidden_iff,
    g.validate_fst, Option.map_eq_some_iff]
  simp only [Prod.mk.injEq]

/-- TRUNCATE comes before UNLOCK TABLE in the table and behind it in the query. -/
theorem Guard.forbids_iff_table_order :
    Ascii "with x as (select 1) Unlock\t\nTable truncate".toList ∧
      Unmarked "with x as (select 1) Unlock\t\nTable truncate".toList ∧
      FirstIn forbiddenPhrases
        (StandsIn · "with x as (select 1) Unlock\t\nTable truncate".toList) "TRUNCATE" :=
  have ha : Ascii "with x as (select 1) Unlock\t\nTable truncate".toList := by decide +kernel
  have hu : Unmarked "with x as (select 1) Unlock\t\nTable truncate".toList := by
    intro m
    cases m <;> decide +kernel
  ⟨ha, hu, (forbids_iff standard ha hu "TRUNCATE").mp
    ⟨.forbidden "TRUNCATE", by decide +kernel, rfl, rfl⟩⟩

end SafeReports.Sql
