import SafeReports.Proofs.Sql.Pattern

/-!
# The verdict of the guard

Each search of the guard is said by occurrences: a query is accepted when it is
not blank, its normal form begins with an allowed word and no pattern occurs in
it, and at most one of its semicolons separates statements.
-/

namespace SafeReports.Sql

open Text

-- ---------------------------------------------------------------------------
-- Phrases
-- ---------------------------------------------------------------------------

theorem foldl_isWord (s : List Char) : s.foldl (fun _ c => isWord c) false = endsWord s := by
  rcases List.eq_nil_or_concat s with rfl | ⟨r, c, rfl⟩
  · rfl
  · simp [endsWord]

theorem hasPhrase_iff {p : List Char} (hp : p ≠ []) : hasPhrase p w s = true ↔
    ∃ x y z, s = x ++ y ++ z ∧ Spells p y ∧ x.foldl (fun _ c => isWord c) w = false ∧
      startsWord z = false := by
  induction s generalizing w with
  | nil =>
    constructor
    · intro h
      simp [hasPhrase] at h
    · rintro ⟨x, y, z, hs, hy, -⟩
      obtain ⟨hxy, -⟩ := List.append_eq_nil_iff.mp hs.symm
      obtain ⟨-, rfl⟩ := List.append_eq_nil_iff.mp hxy
      cases hy
      exact absurd rfl hp
  | cons c r ih =>
    simp only [hasPhrase, Bool.or_eq_true, Bool.and_eq_true, Bool.not_eq_true', ih]
    constructor
    · rintro (⟨rfl, h⟩ | ⟨x, y, z, rfl, hy, hx, hz⟩)
      · cases ha : afterWord? p (c :: r) with
        | none => simp [ha] at h
        | some rest =>
          obtain ⟨y, hr, hy⟩ := afterWord?_eq_some_iff.mp ha
          exact ⟨[], y, rest, hr, hy, rfl, by simpa [ha] using h⟩
      · exact ⟨c :: x, y, z, rfl, hy, hx, hz⟩
    · rintro ⟨x, y, z, hs, hy, hx, hz⟩
      cases x with
      | nil =>
        refine .inl ⟨hx, ?_⟩
        rw [afterWord?_eq_some_iff.mpr ⟨y, hs, hy⟩]
        simpa using hz
      | cons d x =>
        simp only [List.cons_append, List.cons.injEq] at hs
        obtain ⟨rfl, rfl⟩ := hs
        exact .inr ⟨x, y, z, rfl, hy, hx, hz⟩

theorem occursIn_phrase {text : String} (h : text.toList ≠ []) :
    (Pattern.phrase text).OccursIn s ↔ hasPhrase text.toList false s = true := by
  rw [hasPhrase_iff h]
  constructor
  · rintro ⟨x, y, z, hs, hat⟩
    exact ⟨x, y, z, hs, hat.found, foldl_isWord x ▸ hat.left rfl, hat.right rfl⟩
  · rintro ⟨x, y, z, hs, hy, hx, hz⟩
    exact ⟨x, y, z, hs, hy, fun _ => foldl_isWord x ▸ hx, fun _ => hz⟩

-- ---------------------------------------------------------------------------
-- Shapes
-- ---------------------------------------------------------------------------

theorem Piece.after?_of_matches {p : Piece} (hp : p.IsSolid) :
    (∃ rest, p.after? s = some rest) ↔ ∃ y z, s = y ++ z ∧ p.Matches y := by
  cases p with
  | word text =>
    simp only [after?, afterWord?_eq_some_iff, Matches]
    exact exists_comm
  | gap => exact hp.elim
  | blanks => exact hp.elim
  | oneOf texts =>
    simp only [after?, Matches]
    constructor
    · rintro ⟨rest, h⟩
      obtain ⟨t, ht, h⟩ := List.exists_of_findSome?_eq_some h
      obtain ⟨y, rfl, hy⟩ := afterWord?_eq_some_iff.mp h
      exact ⟨y, rest, rfl, t, ht, hy⟩
    · rintro ⟨y, z, hs, t, ht, hy⟩
      refine Option.isSome_iff_exists.mp (List.findSome?_isSome_iff.mpr ⟨t, ht, ?_⟩)
      rw [afterWord?_eq_some_iff.mpr ⟨y, hs, hy⟩]
      rfl

theorem dropWhile_blank_append (hu : Blank u) (hv : StartsSolid v) :
    (u ++ v).dropWhile isBlank = v := by
  rw [List.dropWhile_append_of_pos hu, dropWhile_solid hv]

theorem Shape.startsIn_cons (p : Piece) (rest : Shape) (s : List Char) :
    Shape.startsIn (p :: rest) s = true ↔
      ∃ s', p.after? s = some s' ∧ Shape.startsIn rest s' = true := by
  cases h : p.after? s <;> simp [startsIn, h]

theorem Piece.after?_blanks_iff (ht : StartsSolid t) :
    Piece.blanks.after? s = some t ↔ ∃ w, s = w ++ t ∧ Piece.blanks.Matches w := by
  constructor
  · intro h
    obtain rfl : s.dropWhile isBlank = t := Option.some.inj h
    exact ⟨s.takeWhile isBlank, List.takeWhile_append_dropWhile.symm, blank_takeWhile s⟩
  · rintro ⟨w, rfl, hw⟩
    exact congrArg some (dropWhile_blank_append hw ht)

theorem Piece.after?_gap_iff (ht : StartsSolid t) :
    Piece.gap.after? s = some t ↔ ∃ w, s = w ++ t ∧ Piece.gap.Matches w := by
  constructor
  · intro h
    cases s with
    | nil => cases h
    | cons c r =>
      obtain ⟨hc, rfl⟩ : isBlank c = true ∧ r.dropWhile isBlank = t := by simpa [after?] using h
      exact ⟨c :: r.takeWhile isBlank, by simp [List.takeWhile_append_dropWhile], by simp,
        blank_cons_iff.mpr ⟨hc, blank_takeWhile r⟩⟩
  · rintro ⟨w, rfl, hne, hw⟩
    obtain ⟨c, w, rfl⟩ := List.exists_cons_of_ne_nil hne
    obtain ⟨hc, hw⟩ := blank_cons_iff.mp hw
    simp [after?, hc, dropWhile_blank_append hw ht]

/-- White space before a firm shape is taken whole. -/
theorem Shape.Firm.startsIn_word {p : Piece} {rest : Shape} (hr : rest.Firm)
    (hp : ∀ {s t}, StartsSolid t → (p.after? s = some t ↔ ∃ w, s = w ++ t ∧ p.Matches w))
    (ih : ∀ {s}, rest.startsIn s = true ↔ ∃ y z, s = y ++ z ∧ rest.Matches y) :
    Shape.startsIn (.word text :: p :: rest) s = true ↔
      ∃ y z, s = y ++ z ∧ Shape.Matches (.word text :: p :: rest) y := by
  simp only [startsIn_cons]
  constructor
  · rintro ⟨s₁, h₁, s₂, h₂, h₃⟩
    obtain ⟨u, rfl, hu⟩ := afterWord?_eq_some_iff.mp h₁
    obtain ⟨y, z, rfl, hy⟩ := ih.mp h₃
    obtain ⟨w, rfl, hw⟩ := (hp ((hr.solid hy).1.append z)).mp h₂
    exact ⟨u ++ (w ++ y), z, by simp, u, _, rfl, hu, w, y, rfl, hw, hy⟩
  · rintro ⟨_, z, rfl, u, _, rfl, hu, w, y, rfl, hw, hy⟩
    refine ⟨w ++ (y ++ z), afterWord?_eq_some_iff.mpr ⟨u, by simp, hu⟩, y ++ z, ?_,
      ih.mpr ⟨y, z, rfl, hy⟩⟩
    exact (hp ((hr.solid hy).1.append z)).mpr ⟨w, rfl, hw⟩

theorem Shape.Firm.startsIn_iff {shape : Shape} (h : shape.Firm) :
    shape.startsIn s = true ↔ ∃ y z, s = y ++ z ∧ shape.Matches y := by
  induction h generalizing s with
  | @last p hp =>
    have hr : ∀ s', Shape.startsIn [] s' = true := fun _ => rfl
    simp only [startsIn_cons, hr, and_true, Piece.after?_of_matches hp]
    constructor
    · rintro ⟨y, z, rfl, hy⟩
      exact ⟨y, z, rfl, y, [], by simp, hy, rfl⟩
    · rintro ⟨_, z, rfl, y, v, rfl, hy, rfl⟩
      exact ⟨y, z, by simp, hy⟩
  | gap _ hr ih => exact hr.startsIn_word Piece.after?_gap_iff ih
  | blanks _ hr ih => exact hr.startsIn_word Piece.after?_blanks_iff ih

theorem Shape.Firm.occursIn_iff {shape : Shape} (h : shape.Firm) :
    shape.occursIn s = true ↔ ∃ x y z, s = x ++ y ++ z ∧ shape.Matches y := by
  induction s with
  | nil =>
    rw [Shape.occursIn, h.startsIn_iff]
    constructor
    · rintro ⟨y, z, hs, hy⟩
      exact ⟨[], y, z, hs, hy⟩
    · rintro ⟨x, y, z, hs, hy⟩
      obtain ⟨hxy, rfl⟩ := List.append_eq_nil_iff.mp hs.symm
      obtain ⟨-, rfl⟩ := List.append_eq_nil_iff.mp hxy
      exact ⟨[], [], rfl, hy⟩
  | cons c r ih =>
    rw [Shape.occursIn, Bool.or_eq_true, h.startsIn_iff, ih]
    constructor
    · rintro (⟨y, z, hs, hy⟩ | ⟨x, y, z, rfl, hy⟩)
      · exact ⟨[], y, z, hs, hy⟩
      · exact ⟨c :: x, y, z, rfl, hy⟩
    · rintro ⟨x, y, z, hs, hy⟩
      cases x with
      | nil => exact .inl ⟨y, z, hs, hy⟩
      | cons d x =>
        simp only [List.cons_append, List.cons.injEq] at hs
        exact .inr ⟨x, y, z, hs.2, hy⟩

theorem occursIn_shape {shape : Shape} (h : shape.Firm) :
    (Pattern.shape shape).OccursIn s ↔ shape.occursIn s = true := by
  rw [h.occursIn_iff]
  constructor
  · rintro ⟨x, y, z, hs, hat⟩
    exact ⟨x, y, z, hs, hat.found⟩
  · rintro ⟨x, y, z, hs, hy⟩
    exact ⟨x, y, z, hs, hy, nofun, nofun⟩

-- ---------------------------------------------------------------------------
-- Comment markers
-- ---------------------------------------------------------------------------

theorem occursIn_marker (m : Marker) :
    (Pattern.marker m).OccursIn s ↔ m.text.toList <:+: s := by
  constructor
  · rintro ⟨x, y, z, rfl, hat⟩
    exact ⟨x, z, by rw [← hat.found]⟩
  · rintro ⟨x, z, rfl⟩
    exact ⟨x, m.text.toList, z, rfl, rfl, nofun, nofun⟩

theorem Marker.not_prefix {c : Char} {r : List Char}
    (h₁ : ∀ t, c = '/' → r = '*' :: t → False) (h₂ : ∀ t, c = '*' → r = '/' :: t → False)
    (h₃ : ∀ t, c = '-' → r = '-' :: t → False) (m : Marker) : ¬ m.text.toList <+: c :: r := by
  rintro ⟨t, ht⟩
  cases m with
  | blockOpen => exact h₁ t (List.cons.inj ht).1.symm (List.cons.inj ht).2.symm
  | blockClose => exact h₂ t (List.cons.inj ht).1.symm (List.cons.inj ht).2.symm
  | line => exact h₃ t (List.cons.inj ht).1.symm (List.cons.inj ht).2.symm

theorem firstMarker?_eq_none_iff :
    firstMarker? s = none ↔ ∀ m : Marker, ¬ m.text.toList <:+: s := by
  fun_induction firstMarker? s with
  | case1 =>
    simp only [true_iff]
    intro m
    cases m <;> decide
  | case2 t =>
    simp only [reduceCtorEq, false_iff]
    exact fun h => h .blockOpen ⟨[], t, rfl⟩
  | case3 t =>
    simp only [reduceCtorEq, false_iff]
    exact fun h => h .blockClose ⟨[], t, rfl⟩
  | case4 t =>
    simp only [reduceCtorEq, false_iff]
    exact fun h => h .line ⟨[], t, rfl⟩
  | case5 c r h₁ h₂ h₃ ih =>
    rw [ih]
    refine forall_congr' fun m => not_congr ?_
    rw [List.infix_cons_iff]
    exact (or_iff_right (Marker.not_prefix h₁ h₂ h₃ m)).symm

-- ---------------------------------------------------------------------------
-- The verdict
-- ---------------------------------------------------------------------------

theorem startsAllowed_iff : startsAllowed s = true ↔
    ∃ w ∈ leadingWords, ∃ r, s = w.toList ++ r ∧ startsWord r = false := by
  simp only [startsAllowed, List.any_eq_true, Bool.and_eq_true, Bool.not_eq_true',
    List.isPrefixOf_iff_prefix]
  have hd : ∀ (w : String) (r : List Char), (w.toList ++ r).drop w.length = r := by
    intro w r
    rw [← String.length_toList, List.drop_left]
  refine exists_congr fun w => and_congr_right fun _ => ?_
  constructor
  · rintro ⟨⟨r, rfl⟩, hr⟩
    exact ⟨r, rfl, hd w r ▸ hr⟩
  · rintro ⟨r, rfl, hr⟩
    exact ⟨⟨r, rfl⟩, (hd w r).symm ▸ hr⟩

theorem phrase_occursIn_iff (h : p ∈ forbiddenPhrases) :
    hasPhrase p.toList false s = true ↔ (Pattern.phrase p).OccursIn s := by
  refine (occursIn_phrase fun hn => ?_).symm
  exact (forbiddenPhrases_solid p h).1.not_blank (hn ▸ .nil)

theorem shape_occursIn_iff (h : r ∈ suspiciousRules) :
    r.shape.occursIn s = true ↔ (Pattern.shape r.shape).OccursIn s :=
  (occursIn_shape (suspiciousRules_firm h)).symm

theorem clean_iff_tables : Clean s ↔
    (∀ t ∈ forbiddenPhrases, ¬ (Pattern.phrase t).OccursIn s) ∧
      (∀ r ∈ suspiciousRules, ¬ (Pattern.shape r.shape).OccursIn s) ∧
      ∀ m : Marker, ¬ m.text.toList <:+: s := by
  simp only [← occursIn_marker]
  constructor
  · intro h
    exact ⟨fun t ht => h _ (mem_guardPatterns.mpr (.inl ⟨t, ht, rfl⟩)),
      fun r hr => h _ (mem_guardPatterns.mpr (.inr (.inl ⟨r, hr, rfl⟩))),
      fun m => h _ (mem_guardPatterns.mpr (.inr (.inr ⟨m, rfl⟩)))⟩
  · rintro ⟨h₁, h₂, h₃⟩ P hP
    rcases mem_guardPatterns.mp hP with ⟨t, ht, rfl⟩ | ⟨r, hr, rfl⟩ | ⟨m, rfl⟩
    · exact h₁ t ht
    · exact h₂ r hr
    · exact h₃ m

theorem clean_iff : Clean s ↔
    checkPhrases s = none ∧ checkShapes s = none ∧ checkMarkers s = none := by
  simp only [clean_iff_tables, checkPhrases, checkShapes, checkMarkers, Option.map_eq_none_iff,
    List.find?_eq_none, firstMarker?_eq_none_iff]
  refine and_congr ?_ (and_congr_left' ?_)
  · exact forall₂_congr fun t ht => not_congr (phrase_occursIn_iff ht).symm
  · exact forall₂_congr fun r hr => not_congr (shape_occursIn_iff hr).symm

/-- What the guard asks of a normal form. -/
def Passes (n : List Char) : Prop := Clean n ∧ startsAllowed n = true

theorem violation?_eq_none_iff : violation? q = none ↔
    ¬ Blank q ∧ Passes (normalize q) ∧ countSeparators q ≤ 1 := by
  by_cases hb : isBlankText q = true
  · simp [violation?, hb, isBlankText_iff.mp hb]
  · have hl : checkLeading (normalize q) = none ↔ startsAllowed (normalize q) = true := by
      simp [checkLeading]
    have hc : checkSeparators q = none ↔ countSeparators q ≤ 1 := by
      simp [checkSeparators]
    simp only [violation?, hb, Bool.false_eq_true, ↓reduceIte, Option.or_eq_none_iff, hl, hc,
      Passes, clean_iff, ← isBlankText_iff, not_false_eq_true, true_and]
    constructor
    · rintro ⟨⟨⟨⟨h₁, h₂⟩, h₃⟩, h₄⟩, h₅⟩
      exact ⟨⟨⟨h₁, h₃, h₅⟩, h₂⟩, h₄⟩
    · rintro ⟨⟨⟨h₁, h₃, h₅⟩, h₂⟩, h₄⟩
      exact ⟨⟨⟨⟨h₁, h₂⟩, h₃⟩, h₄⟩, h₅⟩

/-- What is not a text is rejected as an empty one. -/
theorem Guard.validate_text {g : Guard} (h : (g.validate query).1 = none) :
    ∃ q, query = some q := by
  cases query with
  | some q => exact ⟨q, rfl⟩
  | none => exact absurd h (by simp [validate, violation?, isBlankText])

/-- The guard sees of a query whether it is blank, its normal form and its separators. -/
theorem Guard.validate_congr (g : Guard) {q q' : String}
    (blank : isBlankText q.toList = isBlankText q'.toList)
    (normal : normalize q.toList = normalize q'.toList)
    (count : countSeparators q.toList = countSeparators q'.toList) :
    g.validate (some q) = g.validate (some q') := by
  simp only [validate, Option.getD_some, violation?, checkSeparators, blank, normal, count]

/-- The guard has nothing against the query. -/
def Guard.Accepts (g : Guard) (q : List Char) : Prop :=
  (g.validate (some (String.ofList q))).1 = none

instance (g : Guard) (q : List Char) : Decidable (g.Accepts q) :=
  inferInstanceAs (Decidable ((g.validate (some (String.ofList q))).1 = none))

theorem Guard.accepts_iff_violation? {g : Guard} : g.Accepts q ↔ violation? q = none := by
  simp only [Accepts, validate, Option.getD_some, String.toList_ofList]
  cases violation? q <;> simp

end SafeReports.Sql
