import SafeReports.Proofs.Sql.Trailing

/-!
# Quoted spans of a text

A span begins at a quote outside the spans before it. It ends with the next such
quote that no backslash stands directly before, or runs to the end of the text.
The scan is in a span exactly where the text so far leaves one open. So a text is
counted part by part where none is open, and a semicolon is one separator more
exactly where it stands in no span of the text.
-/

namespace SafeReports.Sql

open Text

-- ---------------------------------------------------------------------------
-- Spans
-- ---------------------------------------------------------------------------

/-- Behind the quote that opens a span, this text does not leave it: a backslash
stands directly before each such quote. -/
def StaysIn (k : Char) (m : List Char) : Prop :=
  ∀ u v, m = u ++ k :: v → u.getLast? = some '\\'

/-- What stands between the quotes of a span. -/
structure IsContent (k : Char) (m : List Char) : Prop where
  stays : StaysIn k m
  last : m.getLast? ≠ some '\\'

/-- Characters outside spans, and spans that are closed. -/
inductive AllClosed : List Char → Prop
  | nil : AllClosed []
  | char : Scan.isQuote c = false → AllClosed s → AllClosed (c :: s)
  | span : Scan.isQuote k = true → IsContent k m → AllClosed s → AllClosed (k :: (m ++ k :: s))

/-- At the end of the text a span that `k` opened is open. -/
inductive LeavesOpen (k : Char) : List Char → Prop
  | intro : AllClosed u → Scan.isQuote k = true → StaysIn k m → LeavesOpen k (u ++ k :: m)

/-- A span with its quotes, what stands before it and what follows. A span that is
never closed runs to the end. -/
inductive IsSpan : List Char → List Char → List Char → Prop
  | closed (v : List Char) : AllClosed u → Scan.isQuote k = true → IsContent k m →
      IsSpan u (k :: (m ++ [k])) v
  | unclosed : AllClosed u → Scan.isQuote k = true → StaysIn k m → IsSpan u (k :: m) []

/-- The place `i` of the text is in one of its spans. -/
def InSpan (s : List Char) (i : Nat) : Prop :=
  ∃ u m v, s = u ++ (m ++ v) ∧ IsSpan u m v ∧ u.length ≤ i ∧ i < u.length + m.length

theorem staysIn_nil (k : Char) : StaysIn k [] := by
  intro u v h
  simp at h

theorem StaysIn.of_append (h : StaysIn k (m ++ w)) : StaysIn k m := by
  rintro u v rfl
  exact h u (v ++ w) (by simp)

theorem staysIn_concat_iff :
    StaysIn k (m ++ [c]) ↔ StaysIn k m ∧ (c = k → m.getLast? = some '\\') := by
  constructor
  · intro h
    refine ⟨h.of_append, ?_⟩
    rintro rfl
    exact h m [] rfl
  · rintro ⟨hm, hc⟩ u v he
    rcases List.eq_nil_or_concat v with rfl | ⟨v, d, rfl⟩
    · obtain ⟨rfl, hl⟩ := List.append_inj' he rfl
      exact hc (List.singleton_inj.mp hl)
    · have he : m ++ [c] = (u ++ k :: v) ++ [d] := by simpa using he
      exact hm u v (List.append_inj' he rfl).1

/-- Behind an opening quote a text stays in the span or closes it. -/
theorem staysIn_or_closes (k : Char) (s : List Char) :
    StaysIn k s ∨ ∃ m v, s = m ++ k :: v ∧ IsContent k m := by
  induction s using List.reverseRecOn with
  | nil => exact .inl (staysIn_nil k)
  | append_singleton s c ih =>
    rcases ih with hs | ⟨m, v, rfl, hm⟩
    · by_cases hc : c = k ∧ s.getLast? ≠ some '\\'
      · obtain ⟨rfl, hl⟩ := hc
        exact .inr ⟨s, [], rfl, hs, hl⟩
      · exact .inl (staysIn_concat_iff.mpr ⟨hs, fun hk => not_not.mp fun hl => hc ⟨hk, hl⟩⟩)
    · exact .inr ⟨m, v ++ [c], by simp, hm⟩

/-- A span does not close within what stays in it. -/
theorem StaysIn.length_le (hm : StaysIn k m) (hx : IsContent k x)
    (h : m ++ w = x ++ k :: v) : m.length ≤ x.length := by
  rcases List.append_eq_append_iff.mp h with ⟨y, rfl, -⟩ | ⟨y, rfl, hy⟩
  · simp
  · cases y with
    | nil => simp
    | cons d y =>
      obtain rfl := (List.cons.inj hy).1
      exact absurd (hm x y rfl) hx.last

theorem LeavesOpen.char (hc : Scan.isQuote c = false) (h : LeavesOpen k s) :
    LeavesOpen k (c :: s) := by
  cases h with
  | intro hu hk hm => exact .intro (.char hc hu) hk hm

theorem LeavesOpen.span (hk : Scan.isQuote k = true) (hm : IsContent k m)
    (h : LeavesOpen l s) : LeavesOpen l (k :: (m ++ k :: s)) := by
  cases h with
  | intro hu hl hn => simpa using LeavesOpen.intro (.span hk hm hu) hl hn

theorem allClosed_or_leavesOpen : (s : List Char) → AllClosed s ∨ ∃ k, LeavesOpen k s
  | [] => .inl .nil
  | c :: s => by
    cases hc : Scan.isQuote c with
    | false =>
      rcases allClosed_or_leavesOpen s with h | ⟨k, h⟩
      · exact .inl (.char hc h)
      · exact .inr ⟨k, h.char hc⟩
    | true =>
      rcases staysIn_or_closes c s with hs | ⟨m, v, hv, hm⟩
      · exact .inr ⟨c, .intro .nil hc hs⟩
      · have hlt : v.length < s.length := by
          rw [hv]
          simp
          omega
        rw [hv]
        rcases allClosed_or_leavesOpen v with h | ⟨k, h⟩
        · exact .inl (.span hc hm h)
        · exact .inr ⟨k, h.span hc hm⟩
termination_by s => s.length

-- ---------------------------------------------------------------------------
-- The scan
-- ---------------------------------------------------------------------------

theorem StaysIn.run_eq (h : StaysIn k m) :
    (⟨some k, false⟩ : Scan).run m = ⟨some k, m.getLast? == some '\\'⟩ := by
  induction m using List.reverseRecOn with
  | nil => rfl
  | append_singleton m c ih =>
    obtain ⟨hm, hc⟩ := staysIn_concat_iff.mp h
    rw [Scan.run_append, ih hm]
    by_cases hk : c = k
    · simp [Scan.run, Scan.step, Scan.quoteAfter, hc hk]
    · simp [Scan.run, Scan.step, Scan.quoteAfter, hk]

theorem Scan.run_quote {s : Scan} (hs : s.quote = none) (hk : isQuote k = true) (t : List Char) :
    s.run (k :: t) = (⟨some k, false⟩ : Scan).run t := by
  have hstep : s.step k = ⟨some k, false⟩ := by
    rw [step_not_backslash (ne_backslash_of_isQuote hk)]
    simp [quoteAfter, hs, hk]
  exact congrArg (run · t) hstep

theorem AllClosed.quote_eq (h : AllClosed s) : (Scan.start.run s).quote = none := by
  induction h with
  | nil => rfl
  | @char c s hc _ ih =>
    have hstep : (Scan.start.step c).quote = none := Scan.step_unquoted rfl hc
    exact (Scan.run_of_unquoted hstep s).trans ih
  | @span k m s hk hm _ ih =>
    have hl : (m.getLast? == some '\\') = false := beq_eq_false_iff_ne.mpr hm.last
    have hend : ((⟨some k, false⟩ : Scan).step k).quote = none := by
      simp [Scan.step, Scan.quoteAfter]
    rw [Scan.run_quote rfl hk, Scan.run_append, hm.stays.run_eq, hl]
    exact (Scan.run_of_unquoted hend s).trans ih

theorem LeavesOpen.quote_eq (h : LeavesOpen k s) : (Scan.start.run s).quote = some k := by
  cases h with
  | intro hu hk hm => rw [Scan.run_append, Scan.run_quote hu.quote_eq hk, hm.run_eq]

theorem LeavesOpen.not_allClosed (h : LeavesOpen k s) : ¬ AllClosed s :=
  fun hs => nomatch h.quote_eq.symm.trans hs.quote_eq

/-- The scan is outside spans where the text leaves none open. -/
theorem quote_eq_none_iff : (Scan.start.run s).quote = none ↔ AllClosed s := by
  refine ⟨fun h => (allClosed_or_leavesOpen s).resolve_right ?_, AllClosed.quote_eq⟩
  rintro ⟨k, hk⟩
  exact nomatch hk.quote_eq.symm.trans h

-- ---------------------------------------------------------------------------
-- Places in spans
-- ---------------------------------------------------------------------------

/-- Before a character of a span that is no quote, the span is open. -/
theorem IsSpan.leavesOpen (h : IsSpan u (y ++ c :: z) v) (hc : Scan.isQuote c = false) :
    ∃ k, LeavesOpen k (u ++ y) := by
  generalize hm : y ++ c :: z = m at h
  have hne : ∀ {k}, Scan.isQuote k = true → k ≠ c := by
    rintro k hk rfl
    simp [hk] at hc
  cases h with
  | @closed k m _ hu hk hin =>
    cases y with
    | nil => exact absurd (List.cons.inj hm).1.symm (hne hk)
    | cons d y =>
      obtain ⟨rfl, hm⟩ := List.cons.inj hm
      rcases List.eq_nil_or_concat z with rfl | ⟨z, e, rfl⟩
      · exact absurd (List.singleton_inj.mp (List.append_inj' hm rfl).2).symm (hne hk)
      · have hm : (y ++ c :: z) ++ [e] = m ++ [d] := by simpa using hm
        obtain rfl := (List.append_inj' hm rfl).1
        exact ⟨d, .intro hu hk hin.stays.of_append⟩
  | @unclosed k m hu hk hin =>
    cases y with
    | nil => exact absurd (List.cons.inj hm).1.symm (hne hk)
    | cons d y =>
      obtain ⟨rfl, rfl⟩ := List.cons.inj hm
      exact ⟨d, .intro hu hk hin.of_append⟩

/-- What follows an open span is in it. -/
theorem LeavesOpen.inSpan (h : LeavesOpen k b) (c : Char) (a : List Char) :
    InSpan (b ++ c :: a) b.length := by
  cases h with
  | @intro u m hu hk hm =>
    rcases staysIn_or_closes k (m ++ c :: a) with hs | ⟨x, v, hx, hin⟩
    · exact ⟨u, k :: (m ++ c :: a), [], by simp, .unclosed hu hk hs, by simp, by simp⟩
    · have hlen := hm.length_le hin hx
      exact ⟨u, k :: (x ++ [k]), v, by simp [hx], .closed v hu hk hin, by simp, by simp; omega⟩

theorem inSpan_iff (hc : Scan.isQuote c = false) :
    InSpan (b ++ c :: a) b.length ↔ ¬ AllClosed b := by
  constructor
  · rintro ⟨u, m, v, he, hs, hle, hlt⟩
    obtain ⟨y, rfl⟩ : u <+: b :=
      List.prefix_of_prefix_length_le ⟨m ++ v, he.symm⟩ (List.prefix_append b _) hle
    rw [List.append_assoc, List.append_cancel_left_eq] at he
    have hlen : (y ++ [c]).length ≤ m.length := by
      simp only [List.length_append, List.length_singleton] at hlt ⊢
      omega
    obtain ⟨z, rfl⟩ : y ++ [c] <+: m :=
      List.prefix_of_prefix_length_le ⟨a, by simpa using he⟩ (List.prefix_append m v) hlen
    rw [List.append_assoc, List.singleton_append] at hs
    obtain ⟨k, hk⟩ := hs.leavesOpen hc
    exact hk.not_allClosed
  · intro h
    obtain ⟨k, hk⟩ := (allClosed_or_leavesOpen b).resolve_left h
    exact hk.inSpan c a

-- ---------------------------------------------------------------------------
-- Counting part by part
-- ---------------------------------------------------------------------------

/-- The separator before a closing comment goes unless a quoted span holds it. -/
theorem stored_of_place (h : splitTrailing? (trimSeparators q) = some (b, a)) :
    ∃ r, trimSeparators q = b ++ ';' :: r ∧
      (¬ InSpan (trimSeparators q) b.length → stored q = b ++ a) ∧
      (InSpan (trimSeparators q) b.length → stored q = trimSeparators q) := by
  have hfirst := (splitTrailing?_eq_some_iff (unpadded_trimSeparators q)).mp h
  obtain ⟨⟨m, hq, -⟩, -⟩ := hfirst.trail
  have hplace : InSpan (trimSeparators q) b.length ↔ (Scan.start.run b).quote ≠ none := by
    rw [Ne, quote_eq_none_iff, hq]
    exact inSpan_iff (by decide)
  refine ⟨m ++ a, hq, fun hout => ?_, fun hin => ?_⟩
  · obtain ⟨_, hr⟩ := hfirst.removes (not_not.mp (mt hplace.mpr hout))
    exact hr.stored
  · refine stored_of_not_drops fun b' a' hd => ?_
    obtain ⟨rfl, -⟩ := Prod.mk.inj (Option.some.inj (h.symm.trans hd.1))
    exact hplace.mp hin (separates_iff.mp hd.2)

/-- Behind a text that the scan leaves outside quoted spans, a text is counted and
read as on its own. More text takes no separator away. A semicolon is one more
outside quoted spans and none within; so the count tells whether the separator
before a closing comment stands in a span of the text, and it goes if it does not. -/
theorem countSeparators_composes (s t : List Char) :
    ((Scan.start.run s).quote = none ↔ AllClosed s) ∧
      ((Scan.start.run s).quote = none →
        countSeparators (s ++ t) = countSeparators s + countSeparators t ∧
          (Scan.start.run (s ++ t)).quote = (Scan.start.run t).quote ∧
          (t ≠ [] → Scan.start.run (s ++ t) = Scan.start.run t)) ∧
      countSeparators s ≤ countSeparators (s ++ t) ∧
      countSeparators (s ++ [';']) =
        countSeparators s + (if (Scan.start.run s).quote = none then 1 else 0) ∧
      ∀ q b a, splitTrailing? (trimSeparators q) = some (b, a) →
        ∃ r, trimSeparators q = b ++ ';' :: r ∧
          (countSeparators b < countSeparators (b ++ [';']) ↔
            ¬ InSpan (trimSeparators q) b.length) ∧
          (¬ InSpan (trimSeparators q) b.length → stored q = b ++ a) ∧
          (InSpan (trimSeparators q) b.length → stored q = trimSeparators q) := by
  refine ⟨quote_eq_none_iff, fun hs => ⟨?_, ?_, fun ht => ?_⟩, countSeparators_append_le s t, ?_,
    fun q b a h => ?_⟩
  · rw [countSeparators, Scan.count_append, Scan.count_of_unquoted hs]
    rfl
  · rw [Scan.run_append, Scan.run_of_unquoted hs]
  · obtain ⟨c, t, rfl⟩ := List.exists_cons_of_ne_nil ht
    rw [Scan.run_append, Scan.run_cons_of_unquoted hs]
  · simp [countSeparators_concat]
  · obtain ⟨r, hq, hstored⟩ := stored_of_place h
    have hplace : countSeparators b < countSeparators (b ++ [';']) ↔
        ¬ InSpan (trimSeparators q) b.length := by
      rw [separates_iff, quote_eq_none_iff, hq, inSpan_iff (by decide), not_not]
    exact ⟨r, hq, hplace, hstored⟩

/-- The parts meet at a backslash and a quote, and the separator that is found
stands in a span. -/
theorem countSeparators_composes_seam :
    (Scan.start.run "SELECT 'it\\'s;'; \\".toList).quote = none ∧
      countSeparators ("SELECT 'it\\'s;'; \\".toList ++ "';\\' ; ' ; \"".toList) = 1 + 1 ∧
      (Scan.start.run ("SELECT 'it\\'s;'; \\".toList ++ "';\\' ; ' ; \"".toList)).quote =
        some '"' ∧
      splitTrailing? (trimSeparators "SELECT 'a; --b'".toList) =
        some ("SELECT 'a".toList, " --b'".toList) ∧
      InSpan (trimSeparators "SELECT 'a; --b'".toList) "SELECT 'a".toList.length ∧
      stored "SELECT 'a; --b'".toList = "SELECT 'a; --b'".toList := by
  have hs : (Scan.start.run "SELECT 'it\\'s;'; \\".toList).quote = none := by decide +kernel
  have hq : splitTrailing? (trimSeparators "SELECT 'a; --b'".toList) =
      some ("SELECT 'a".toList, " --b'".toList) := by decide +kernel
  have hcount : ¬ countSeparators "SELECT 'a".toList <
      countSeparators ("SELECT 'a".toList ++ [';']) := by decide +kernel
  obtain ⟨-, hparts, -, -, hplace⟩ := countSeparators_composes
    "SELECT 'it\\'s;'; \\".toList "';\\' ; ' ; \"".toList
  obtain ⟨hsum, hquote, -⟩ := hparts hs
  obtain ⟨_, -, hin, -, hstored⟩ := hplace _ _ _ hq
  have hin := not_not.mp (mt hin.mpr hcount)
  refine ⟨hs, hsum.trans (by decide +kernel), hquote.trans (by decide +kernel), hq, hin, ?_⟩
  exact (hstored hin).trans (by decide +kernel)

end SafeReports.Sql
