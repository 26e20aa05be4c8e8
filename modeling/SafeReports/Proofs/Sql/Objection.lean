import SafeReports.Proofs.Sql.Verdict

/-!
# Objections of the guard

What the guard can hold against a query, said by occurrences in its normal form
and apart from the searches. A query passes when there is nothing to object to,
and otherwise the verdict is the objection of the first kind there is one of. A
rejection leaves one record, whose preview is the beginning of the normal form,
and the length of the preview decides nothing.
-/

namespace SafeReports.Sql

open Text

-- ---------------------------------------------------------------------------
-- Conditions and objections
-- ---------------------------------------------------------------------------

/-- The member of a table that comes first among those with the property. -/
def FirstIn (table : List α) (P : α → Prop) (a : α) : Prop :=
  ∃ l r, table = l ++ a :: r ∧ P a ∧ ∀ b ∈ l, ¬ P b

/-- The text begins with a leading word and goes on with no word character. -/
def BeginsAllowed (n : List Char) : Prop :=
  ∃ w ∈ leadingWords, ∃ r, n = w.toList ++ r ∧ startsWord r = false

/-- An occurrence of the marker that none lies to the left of. -/
def Marker.Leftmost (m : Marker) (n : List Char) : Prop :=
  ∃ x z, n = x ++ m.text.toList ++ z ∧
    ∀ (m' : Marker) (x' z' : List Char), n = x' ++ m'.text.toList ++ z' → x.length ≤ x'.length

structure Unobjectionable (q : List Char) : Prop where
  solid : ∃ c ∈ q, isBlank c = false
  phrases : ∀ p ∈ forbiddenPhrases, ¬ (Pattern.phrase p).OccursIn (normalize q)
  leading : BeginsAllowed (normalize q)
  shapes : ∀ r ∈ suspiciousRules, ¬ (Pattern.shape r.shape).OccursIn (normalize q)
  statements : countSeparators q ≤ 1
  markers : ∀ m : Marker, ¬ m.text.toList <:+: normalize q

/-- The kind of an objection to a query and its detail. -/
inductive Objection (q : List Char) : ViolationKind → Option String → Prop
  | empty : (∀ c ∈ q, isBlank c = true) → Objection q .emptyQuery none
  | phrase : FirstIn forbiddenPhrases (fun p => (Pattern.phrase p).OccursIn (normalize q)) p →
      Objection q .forbiddenKeyword (some p)
  | leading : ¬ BeginsAllowed (normalize q) → Objection q .mustStartWithSelectOrWith none
  | shape : FirstIn suspiciousRules (fun r => (Pattern.shape r.shape).OccursIn (normalize q)) r →
      Objection q .suspiciousPattern (some r.source)
  | statements : 1 < countSeparators q →
      Objection q .multipleStatements (some (toString (countSeparators q)))
  | marker {m : Marker} : m.Leftmost (normalize q) → Objection q .residualComment (some m.text)

/-- A preview is a beginning of the text. Without a length it leaves out nothing;
otherwise it has so many characters, or leaves out so many when the length is negative,
as far as there are as many. -/
def IsPreview (length : Option Int) (s p : List Char) : Prop :=
  ∃ rest, s = p ++ rest ∧ (length = none → rest = []) ∧
    (∀ k : Nat, length = some (k : Int) → p.length = min k s.length) ∧
    ∀ k : Nat, length = some (-(k + 1) : Int) → rest.length = min (k + 1) s.length

/-- The text that an objection of a kind is logged with. Only a blank query and the
number of separators come without a preview. -/
inductive Logs (preview : String) : ViolationKind → Option String → String → Prop
  | empty : Logs preview .emptyQuery none "Rejected SQL query: SQL query cannot be empty."
  | phrase (h : p ∈ forbiddenPhrases) : Logs preview .forbiddenKeyword (some p)
      ("Blocked dangerous SQL keyword '" ++ p ++ "': " ++ preview)
  | leading : Logs preview .mustStartWithSelectOrWith none
      ("SQL query does not start with an allowed keyword: " ++ preview)
  | shape (h : r ∈ suspiciousRules) : Logs preview .suspiciousPattern (some r.source)
      ("Suspicious SQL pattern " ++ quotedString r.source ++ " (" ++ r.message ++ "): " ++ preview)
  | statements (n : Nat) : Logs preview .multipleStatements (some (toString n))
      ("Multiple SQL statements detected (" ++ toString n ++ " separators)")
  | marker (m : Marker) : Logs preview .residualComment (some m.text)
      ("Comment marker '" ++ m.text ++ "' left after normalization: " ++ preview)

/-- The kinds that are looked for before this one. -/
def ViolationKind.before (k : ViolationKind) : List ViolationKind := all.takeWhile (· != k)

-- ---------------------------------------------------------------------------
-- Searches of a table
-- ---------------------------------------------------------------------------

theorem find?_eq_some_iff_firstIn {table : List α} {p : α → Bool} {P : α → Prop}
    (h : ∀ a ∈ table, p a = true ↔ P a) : table.find? p = some a ↔ FirstIn table P a := by
  rw [List.find?_eq_some_iff_append]
  constructor
  · rintro ⟨ha, l, r, rfl, hl⟩
    refine ⟨l, r, rfl, (h a (by simp)).mp ha, fun b hb hP => ?_⟩
    simpa [(h b (by simp [hb])).mpr hP] using hl b hb
  · rintro ⟨l, r, rfl, ha, hl⟩
    refine ⟨(h a (by simp)).mpr ha, l, r, rfl, fun b hb => ?_⟩
    simpa using mt (h b (by simp [hb])).mp (hl b hb)

theorem FirstIn.congr {table : List α} {P Q : α → Prop} (h : ∀ a ∈ table, P a ↔ Q a) :
    FirstIn table P a ↔ FirstIn table Q a := by
  refine exists₂_congr fun l r => ?_
  constructor
  · rintro ⟨rfl, hP, hl⟩
    exact ⟨rfl, (h a (by simp)).mp hP, fun b hb hQ => hl b hb ((h b (by simp [hb])).mpr hQ)⟩
  · rintro ⟨rfl, hQ, hl⟩
    exact ⟨rfl, (h a (by simp)).mpr hQ, fun b hb hP => hl b hb ((h b (by simp [hb])).mp hP)⟩

-- ---------------------------------------------------------------------------
-- The leftmost marker
-- ---------------------------------------------------------------------------

theorem Marker.Leftmost.cons {m : Marker} (hn : ∀ m' : Marker, ¬ m'.text.toList <+: c :: r)
    (h : m.Leftmost r) : m.Leftmost (c :: r) := by
  obtain ⟨x, z, rfl, hx⟩ := h
  refine ⟨c :: x, z, rfl, fun m' x' z' he => ?_⟩
  cases x' with
  | nil => exact absurd ⟨z', he.symm⟩ (hn m')
  | cons d x' => exact Nat.succ_le_succ (hx m' x' z' (List.cons.inj he).2)

theorem Marker.leftmost_of_prefix (m : Marker) (t : List Char) :
    m.Leftmost (m.text.toList ++ t) :=
  ⟨[], t, rfl, fun _ x' _ _ => Nat.zero_le x'.length⟩

theorem leftmost_of_firstMarker? (h : firstMarker? n = some m) : m.Leftmost n := by
  fun_induction firstMarker? n with
  | case1 => cases h
  | case2 t =>
    cases h
    exact Marker.leftmost_of_prefix .blockOpen t
  | case3 t =>
    cases h
    exact Marker.leftmost_of_prefix .blockClose t
  | case4 t =>
    cases h
    exact Marker.leftmost_of_prefix .line t
  | case5 c r h₁ h₂ h₃ ih => exact (ih h).cons (Marker.not_prefix h₁ h₂ h₃)

/-- Two markers at one place are one marker. -/
theorem Marker.Leftmost.unique {m m' : Marker} (h : m.Leftmost n) (h' : m'.Leftmost n) :
    m = m' := by
  obtain ⟨x, z, rfl, hx⟩ := h
  obtain ⟨x', z', he, hx'⟩ := h'
  have hlen : x.length = x'.length := Nat.le_antisymm (hx m' x' z' he) (hx' m x z rfl)
  simp only [List.append_assoc] at he
  obtain ⟨-, ht⟩ := List.append_inj he hlen
  cases m <;> cases m' <;> simp [Marker.text] at ht ⊢

theorem firstMarker?_eq_some_iff : firstMarker? n = some m ↔ m.Leftmost n := by
  refine ⟨leftmost_of_firstMarker?, fun h => ?_⟩
  cases hf : firstMarker? n with
  | some m' => rw [h.unique (leftmost_of_firstMarker? hf)]
  | none =>
    obtain ⟨x, z, rfl, -⟩ := h
    exact absurd ⟨x, z, rfl⟩ (firstMarker?_eq_none_iff.mp hf m)

-- ---------------------------------------------------------------------------
-- One check for each kind
-- ---------------------------------------------------------------------------

theorem checkPhrases_eq_some_iff : checkPhrases n = some v ↔
    ∃ p, FirstIn forbiddenPhrases (fun p => (Pattern.phrase p).OccursIn n) p ∧
      v = .forbidden p := by
  rw [checkPhrases, Option.map_eq_some_iff]
  refine exists_congr fun p => and_congr ?_ eq_comm
  exact find?_eq_some_iff_firstIn fun _ => phrase_occursIn_iff

theorem checkLeading_eq_some_iff :
    checkLeading n = some v ↔ ¬ BeginsAllowed n ∧ v = .leading := by
  have hs : startsAllowed n = true ↔ BeginsAllowed n := startsAllowed_iff
  by_cases h : BeginsAllowed n
  · simp [checkLeading, hs.mpr h, h]
  · simp [checkLeading, mt hs.mp h, h, eq_comm]

theorem checkShapes_eq_some_iff : checkShapes n = some v ↔
    ∃ r, FirstIn suspiciousRules (fun r => (Pattern.shape r.shape).OccursIn n) r ∧
      v = .suspicious r.source r.message := by
  rw [checkShapes, Option.map_eq_some_iff]
  refine exists_congr fun r => and_congr ?_ eq_comm
  exact find?_eq_some_iff_firstIn fun _ => shape_occursIn_iff

theorem checkSeparators_eq_some_iff : checkSeparators q = some v ↔
    1 < countSeparators q ∧ v = .statements (countSeparators q) := by
  simp [checkSeparators, eq_comm]

theorem checkMarkers_eq_some_iff :
    checkMarkers n = some v ↔ ∃ m : Marker, m.Leftmost n ∧ v = .marker m := by
  rw [checkMarkers, Option.map_eq_some_iff]
  exact exists_congr fun m => and_congr firstMarker?_eq_some_iff eq_comm

/-- What the check for one kind finds. -/
def check? (q : List Char) : ViolationKind → Option Violation
  | .emptyQuery => if isBlankText q then some .blank else none
  | .forbiddenKeyword => checkPhrases (normalize q)
  | .mustStartWithSelectOrWith => checkLeading (normalize q)
  | .suspiciousPattern => checkShapes (normalize q)
  | .multipleStatements => checkSeparators q
  | .residualComment => checkMarkers (normalize q)

theorem violation?_eq (q : List Char) : violation? q = ViolationKind.all.findSome? (check? q) := by
  by_cases hb : isBlankText q = true
  · simp [violation?, ViolationKind.all, check?, hb]
  · simp only [violation?, hb, ViolationKind.all, check?, List.findSome?, Bool.false_eq_true,
      ↓reduceIte]
    cases checkPhrases (normalize q) <;> cases checkLeading (normalize q) <;>
      cases checkShapes (normalize q) <;> cases checkSeparators q <;>
      cases checkMarkers (normalize q) <;> rfl

theorem check?_emptyQuery : check? q .emptyQuery = some v ↔ Blank q ∧ v = .blank := by
  rw [← isBlankText_iff, check?]
  cases isBlankText q <;> simp [eq_comm]

/-- The check for a kind finds the objection of this kind, if there is one. -/
theorem check?_iff {k : ViolationKind} :
    (∃ v, check? q k = some v ∧ v.detail = d) ↔ Objection q k d := by
  constructor
  · rintro ⟨v, hv, rfl⟩
    cases k with
    | emptyQuery =>
      obtain ⟨hb, rfl⟩ := check?_emptyQuery.mp hv
      exact .empty hb
    | forbiddenKeyword =>
      obtain ⟨p, hp, rfl⟩ := checkPhrases_eq_some_iff.mp hv
      exact .phrase hp
    | mustStartWithSelectOrWith =>
      obtain ⟨hn, rfl⟩ := checkLeading_eq_some_iff.mp hv
      exact .leading hn
    | suspiciousPattern =>
      obtain ⟨r, hr, rfl⟩ := checkShapes_eq_some_iff.mp hv
      exact .shape hr
    | multipleStatements =>
      obtain ⟨hc, rfl⟩ := checkSeparators_eq_some_iff.mp hv
      exact .statements hc
    | residualComment =>
      obtain ⟨m, hm, rfl⟩ := checkMarkers_eq_some_iff.mp hv
      exact .marker hm
  · intro ho
    cases ho with
    | empty h => exact ⟨_, check?_emptyQuery.mpr ⟨h, rfl⟩, rfl⟩
    | phrase h => exact ⟨_, checkPhrases_eq_some_iff.mpr ⟨_, h, rfl⟩, rfl⟩
    | leading h => exact ⟨_, checkLeading_eq_some_iff.mpr ⟨h, rfl⟩, rfl⟩
    | shape h => exact ⟨_, checkShapes_eq_some_iff.mpr ⟨_, h, rfl⟩, rfl⟩
    | statements h => exact ⟨_, checkSeparators_eq_some_iff.mpr ⟨h, rfl⟩, rfl⟩
    | marker h => exact ⟨_, checkMarkers_eq_some_iff.mpr ⟨_, h, rfl⟩, rfl⟩

theorem check?_eq_none_iff {k : ViolationKind} : check? q k = none ↔ ∀ d, ¬ Objection q k d := by
  constructor
  · intro h d ho
    obtain ⟨v, hv, -⟩ := check?_iff.mpr ho
    simp [h] at hv
  · intro h
    cases hv : check? q k with
    | none => rfl
    | some v => exact absurd (check?_iff.mp ⟨v, hv, rfl⟩) (h v.detail)

theorem kind_of_check? {k : ViolationKind} (h : check? q k = some v) : v.kind = k := by
  cases k with
  | emptyQuery =>
    obtain ⟨-, rfl⟩ := check?_emptyQuery.mp h
    rfl
  | forbiddenKeyword =>
    obtain ⟨_, -, rfl⟩ := checkPhrases_eq_some_iff.mp h
    rfl
  | mustStartWithSelectOrWith =>
    obtain ⟨-, rfl⟩ := checkLeading_eq_some_iff.mp h
    rfl
  | suspiciousPattern =>
    obtain ⟨_, -, rfl⟩ := checkShapes_eq_some_iff.mp h
    rfl
  | multipleStatements =>
    obtain ⟨-, rfl⟩ := checkSeparators_eq_some_iff.mp h
    rfl
  | residualComment =>
    obtain ⟨_, -, rfl⟩ := checkMarkers_eq_some_iff.mp h
    rfl

-- ---------------------------------------------------------------------------
-- The first kind
-- ---------------------------------------------------------------------------

/-- The checks in order: the kind found is the first with a finding. -/
theorem findSome?_check? (ks : List ViolationKind) : ks.findSome? (check? q) = some v ↔
    v.kind ∈ ks ∧ check? q v.kind = some v ∧
      ∀ k ∈ ks.takeWhile (· != v.kind), check? q k = none := by
  induction ks with
  | nil => simp
  | cons k ks ih =>
    cases hk : check? q k with
    | some u =>
      have hu := kind_of_check? hk
      simp only [List.findSome?_cons, hk, Option.some.injEq]
      constructor
      · rintro rfl
        simp [hu, hk]
      · rintro ⟨-, hv, hb⟩
        by_cases hkv : k = v.kind
        · rw [← hkv, hk] at hv
          exact Option.some.inj hv
        · have := hb k (by simp [hkv])
          simp [hk] at this
    | none =>
      have hkv : check? q v.kind = some v → k ≠ v.kind := by
        rintro h rfl
        simp [hk] at h
      simp only [List.findSome?_cons, hk, ih]
      constructor
      · rintro ⟨hm, hv, hb⟩
        refine ⟨by simp [hm], hv, ?_⟩
        simpa [List.takeWhile_cons, hkv hv, hk] using hb
      · rintro ⟨hm, hv, hb⟩
        refine ⟨(List.mem_cons.mp hm).resolve_left (Ne.symm (hkv hv)), hv, fun k' hk' => ?_⟩
        exact hb k' (by simp [hkv hv, hk'])

theorem violation?_iff {k : ViolationKind} :
    (violation? q).map (fun v => (v.kind, v.detail)) = some (k, d) ↔
      Objection q k d ∧ ∀ k' ∈ k.before, ∀ d', ¬ Objection q k' d' := by
  have hmem : ∀ k : ViolationKind, k ∈ ViolationKind.all := by
    intro k
    cases k <;> decide
  simp only [Option.map_eq_some_iff, Prod.mk.injEq, violation?_eq, findSome?_check?]
  constructor
  · rintro ⟨v, ⟨-, hv, hb⟩, rfl, rfl⟩
    exact ⟨check?_iff.mp ⟨v, hv, rfl⟩, fun k' hk' => check?_eq_none_iff.mp (hb k' hk')⟩
  · rintro ⟨ho, hb⟩
    obtain ⟨v, hv, rfl⟩ := check?_iff.mpr ho
    obtain rfl := kind_of_check? hv
    exact ⟨v, ⟨hmem _, hv, fun k' hk' => check?_eq_none_iff.mpr (hb k' hk')⟩, rfl, rfl⟩

theorem unobjectionable_iff : Unobjectionable q ↔ violation? q = none := by
  have hb : (∃ c ∈ q, isBlank c = false) ↔ ¬ Blank q := by simp [Blank]
  rw [violation?_eq_none_iff, Passes, clean_iff_tables, startsAllowed_iff, ← hb]
  constructor
  · rintro ⟨h₁, h₂, h₃, h₄, h₅, h₆⟩
    exact ⟨h₁, ⟨⟨h₂, h₄, h₆⟩, h₃⟩, h₅⟩
  · rintro ⟨h₁, ⟨⟨h₂, h₄, h₆⟩, h₃⟩, h₅⟩
    exact ⟨h₁, h₂, h₃, h₄, h₅, h₆⟩

-- ---------------------------------------------------------------------------
-- Verdict and record
-- ---------------------------------------------------------------------------

theorem Guard.validate_fst (g : Guard) (q : String) :
    (g.validate (some q)).1 = violation? q.toList := by
  simp only [validate, Option.getD_some]
  cases violation? q.toList <;> rfl

theorem isPreview_preview (length : Option Int) (s : List Char) :
    IsPreview length s (preview length s) := by
  match length with
  | none => exact ⟨[], (List.append_nil s).symm, fun _ => rfl, nofun, nofun⟩
  | some (.ofNat n) =>
    refine ⟨s.drop n, (List.take_append_drop n s).symm, nofun, fun k hk => ?_, fun k hk => ?_⟩
    · obtain rfl : n = k := Int.ofNat.inj (Option.some.inj hk)
      exact List.length_take
    · have hk : (n : Int) = -(k + 1) := Option.some.inj hk
      omega
  | some (.negSucc n) =>
    refine ⟨s.drop (s.length - (n + 1)), (List.take_append_drop _ s).symm, nofun,
      fun k hk => ?_, fun k hk => ?_⟩
    · have hk : Int.negSucc n = k := Option.some.inj hk
      omega
    · have hk : Int.negSucc n = -(k + 1) := Option.some.inj hk
      obtain rfl : n = k := by omega
      rw [List.length_drop]
      omega

theorem IsPreview.unique (h : IsPreview length s p) (h' : IsPreview length s p') : p = p' := by
  obtain ⟨rest, rfl, whole, beginning, without⟩ := h
  obtain ⟨rest', hs, whole', beginning', without'⟩ := h'
  suffices hp : p.length = p'.length from (List.append_inj hs hp).1
  have hlen : p.length + rest.length = p'.length + rest'.length := by
    simpa using congrArg List.length hs
  match length with
  | none =>
    have hr : rest = [] := whole rfl
    have hr' : rest' = [] := whole' rfl
    simpa [hr, hr'] using hlen
  | some (.ofNat n) => rw [beginning n rfl, beginning' n rfl]
  | some (.negSucc n) =>
    have hr := without n rfl
    have hr' := without' n rfl
    omega

theorem quotedString_phrase : ∀ p ∈ forbiddenPhrases, quotedString p = "'" ++ p ++ "'" := by
  decide +kernel

theorem quotedString_marker (m : Marker) : quotedString m.text = "'" ++ m.text ++ "'" := by
  cases m <;> decide +kernel

/-- Quotes may be written with what stands around them. -/
theorem append_quotes {text : String} (front : before ++ "'" = before')
    (back : "'" ++ after = after') :
    before ++ ("'" ++ text ++ "'") ++ after = before' ++ text ++ after' := by
  rw [← front, ← back]
  simp only [String.append_assoc]

theorem report_forbidden (h : p ∈ forbiddenPhrases) (preview : String) :
    (Violation.forbidden p).report preview =
      "Blocked dangerous SQL keyword '" ++ p ++ "': " ++ preview := by
  have front : "Blocked dangerous SQL keyword " ++ "'" = "Blocked dangerous SQL keyword '" := by
    decide +kernel
  have back : "'" ++ ": " = "': " := by decide +kernel
  refine Eq.trans ?_ (congrArg (· ++ preview) (append_quotes front back))
  rw [← quotedString_phrase p h]
  rfl

theorem report_marker (m : Marker) (preview : String) : (Violation.marker m).report preview =
    "Comment marker '" ++ m.text ++ "' left after normalization: " ++ preview := by
  have front : "Comment marker " ++ "'" = "Comment marker '" := by decide +kernel
  have back : "'" ++ " left after normalization: " = "' left after normalization: " := by
    decide +kernel
  refine Eq.trans ?_ (congrArg (· ++ preview) (append_quotes front back))
  rw [← quotedString_marker m]
  rfl

theorem logs_report (h : check? q v.kind = some v) (preview : String) :
    Logs preview v.kind v.detail (v.report preview) := by
  cases v with
  | blank => exact .empty
  | forbidden p =>
    obtain ⟨_, ⟨l, r, htable, -, -⟩, hp⟩ := checkPhrases_eq_some_iff.mp h
    obtain rfl := Violation.forbidden.inj hp
    have hmem : p ∈ forbiddenPhrases := htable ▸ by simp
    rw [report_forbidden hmem]
    exact .phrase hmem
  | leading => exact .leading
  | suspicious source message =>
    obtain ⟨r, ⟨_, _, htable, -, -⟩, hr⟩ := checkShapes_eq_some_iff.mp h
    obtain ⟨rfl, rfl⟩ := Violation.suspicious.inj hr
    exact .shape (htable ▸ by simp)
  | statements n => exact .statements n
  | marker m =>
    rw [report_marker]
    exact .marker m

/-- The verdict by its conditions: acceptance, the first objection otherwise, the one
record of a rejection, and that other preview lengths give the same. -/
theorem Guard.validate_iff (g : Guard) (q : String) :
    ((g.validate (some q)).1 = none ↔ Unobjectionable q.toList) ∧
      (∀ k d, (g.validate (some q)).1.map (fun v => (v.kind, v.detail)) = some (k, d) ↔
        Objection q.toList k d ∧ ∀ k' ∈ k.before, ∀ d', ¬ Objection q.toList k' d') ∧
      ((g.validate (some q)).1 = none → (g.validate (some q)).2 = []) ∧
      (∀ v, (g.validate (some q)).1 = some v → ∃ p text,
        IsPreview g.previewLength (normalize q.toList) p ∧
        Logs (String.ofList p) v.kind v.detail text ∧
        (g.validate (some q)).2 = [⟨30, "modules.security.sql_guard", text⟩]) ∧
      ∀ g' : Guard, (g'.validate (some q)).1 = (g.validate (some q)).1 := by
  refine ⟨?_, fun k d => ?_, fun h => ?_, fun v h => ?_, fun g' => ?_⟩
  · rw [g.validate_fst, unobjectionable_iff]
  · rw [g.validate_fst]
    exact violation?_iff
  · rw [g.validate_fst] at h
    simp only [validate, Option.getD_some, h]
  · rw [g.validate_fst] at h
    have hv : check? q.toList v.kind = some v := by
      rw [violation?_eq, findSome?_check?] at h
      exact h.2.1
    refine ⟨_, _, isPreview_preview g.previewLength (normalize q.toList), logs_report hv _, ?_⟩
    simp only [validate, Option.getD_some, h]
    rfl
  · rw [g.validate_fst, g'.validate_fst]

/-- Two statements of which the second is not allowed. -/
def dropSecond : String := "SELECT 1; DROP TABLE t"

/-- A preview of eight characters, one without the last nine, and a whole one. -/
theorem Guard.validate_iff_cut :
    (Guard.validate ⟨some 8⟩ (some dropSecond)).2 = [⟨30, "modules.security.sql_guard",
        "Blocked dangerous SQL keyword 'DROP TABLE': SELECT 1"⟩] ∧
      (Guard.validate ⟨some (-9)⟩ (some dropSecond)).2 = [⟨30, "modules.security.sql_guard",
        "Blocked dangerous SQL keyword 'DROP TABLE': SELECT 1; DRO"⟩] ∧
      (Guard.validate ⟨none⟩ (some dropSecond)).2 = [⟨30, "modules.security.sql_guard",
        "Blocked dangerous SQL keyword 'DROP TABLE': SELECT 1; DROP TABLE T"⟩] := by
  have logged : ∀ (length : Option Int) (shown : String),
      IsPreview length (normalize dropSecond.toList) shown.toList →
      (Guard.validate ⟨length⟩ (some dropSecond)).2 = [⟨30, "modules.security.sql_guard",
        "Blocked dangerous SQL keyword '" ++ "DROP TABLE" ++ "': " ++ shown⟩] := by
    intro length shown hshown
    obtain ⟨-, -, -, log, -⟩ := Guard.validate_iff ⟨length⟩ dropSecond
    have rejected : (Guard.validate ⟨length⟩ (some dropSecond)).1 =
        some (.forbidden "DROP TABLE") := by
      rw [Guard.validate_fst]
      decide +kernel
    obtain ⟨p, text, hp, logs, h⟩ := log _ rejected
    obtain rfl := hp.unique hshown
    rw [String.ofList_toList] at logs
    have logs : Logs shown .forbiddenKeyword (some "DROP TABLE") text := logs
    cases logs with
    | phrase => exact h
  have normal : normalize dropSecond.toList = "SELECT 1; DROP TABLE T".toList := by decide +kernel
  rw [normal] at logged
  have preview (length : Option Int) := isPreview_preview length "SELECT 1; DROP TABLE T".toList
  have whole := logged _ "SELECT 1; DROP TABLE T" (preview none)
  have eight := logged _ "SELECT 1" (preview (some 8))
  have butNine := logged _ "SELECT 1; DRO" (preview (some (-9)))
  exact ⟨eight, butNine, whole⟩

end SafeReports.Sql
