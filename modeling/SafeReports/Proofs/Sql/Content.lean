import SafeReports.Proofs.Sql.Restored

/-!
# What is stored keeps

Storing takes white space and separators away and nothing else, and takes them
from where no quoted span is open. The scan that finds the separators therefore
reads the same spans before and after, unless the text ends in an open one: what
is trimmed there may be some of its content.
-/

namespace SafeReports.Sql

open Text

-- ---------------------------------------------------------------------------
-- What goes
-- ---------------------------------------------------------------------------

def isSeparator (c : Char) : Bool := isBlank c || c == ';'

theorem isSeparator_iff : isSeparator c = true ↔ isBlank c = true ∨ c = ';' := by
  simp [isSeparator]

/-- The second text is the first without some white space and separators. -/
inductive Sheds : List Char → List Char → Prop
  | nil : Sheds [] []
  | keep (c : Char) : Sheds s t → Sheds (c :: s) (c :: t)
  | drop : isSeparator c = true → Sheds s t → Sheds (c :: s) t

theorem Sheds.refl (s : List Char) : Sheds s s := by
  induction s with
  | nil => exact .nil
  | cons c s ih => exact .keep c ih

theorem Sheds.append (h : Sheds s t) (h' : Sheds s' t') : Sheds (s ++ s') (t ++ t') := by
  induction h with
  | nil => exact h'
  | keep c _ ih => exact .keep c ih
  | drop hc _ ih => exact .drop hc ih

theorem sheds_nil (h : ∀ c ∈ s, isSeparator c = true) : Sheds s [] := by
  induction s with
  | nil => exact .nil
  | cons c s ih =>
    obtain ⟨hc, hs⟩ := List.forall_mem_cons.mp h
    exact .drop hc (ih hs)

theorem Sheds.sublist (h : Sheds s t) : t.Sublist s := by
  induction h with
  | nil => exact .slnil
  | keep c _ ih => exact .cons_cons c ih
  | drop _ _ ih => exact .cons _ ih

theorem Sheds.filter_eq (h : Sheds s t) :
    s.filter (!isSeparator ·) = t.filter (!isSeparator ·) := by
  induction h with
  | nil => rfl
  | keep c _ ih => simp [List.filter_cons, ih]
  | drop hc _ ih => simp [hc, ih]

-- ---------------------------------------------------------------------------
-- Quoted spans
-- ---------------------------------------------------------------------------

/-- The spans that the scan reads, each with its quote; `held` is what it has read
of an open one. One that is open to the end counts. -/
def Scan.spansFrom (s : Scan) (held : List Char) : List Char → List (Char × List Char)
  | [] =>
    match s.quote with
    | none => []
    | some k => [(k, held)]
  | c :: r =>
    match s.quote, (s.step c).quote with
    | some k, none => (k, held) :: (s.step c).spansFrom [] r
    | some _, some _ => (s.step c).spansFrom (held ++ [c]) r
    | none, _ => (s.step c).spansFrom [] r

def spans (q : List Char) : List (Char × List Char) := Scan.start.spansFrom [] q

example : spans "'a;\\'b' + \"c".toList =
    [('\'', "a;\\'b".toList), ('"', "c".toList)] := by decide +kernel

theorem Scan.spansFrom_append {s : Scan} (h : (s.run t).quote = none) (held u : List Char) :
    s.spansFrom held (t ++ u) = s.spansFrom held t ++ (s.run t).spansFrom [] u := by
  induction t generalizing s held with
  | nil =>
    have hs : s.quote = none := h
    cases u <;> simp [spansFrom, run, hs]
  | cons c t ih =>
    have ih := fun held => ih (s := s.step c) h held
    simp only [spansFrom, List.cons_append]
    split
    · rw [ih]
      rfl
    · exact ih _
    · exact ih _

/-- Outside quoted spans the spans to come are read anew. -/
theorem Scan.spansFrom_of_unquoted {s : Scan} (h : s.quote = none) (t : List Char) :
    s.spansFrom [] t = spans t := by
  obtain ⟨_, b⟩ := s
  obtain rfl := h
  cases t <;> rfl

theorem spans_append (h : (Scan.start.run s).quote = none) (t : List Char) :
    spans (s ++ t) = spans s ++ spans t := by
  rw [← Scan.spansFrom_of_unquoted h t]
  exact Scan.spansFrom_append h [] t

theorem QuoteFree.spans_eq (h : QuoteFree s) : spans s = [] := by
  induction s with
  | nil => rfl
  | cons c s ih =>
    obtain ⟨hc, hs⟩ := List.forall_mem_cons.mp h
    rw [← ih hs]
    exact Scan.spansFrom_of_unquoted (Scan.step_unquoted rfl hc) s

theorem QuoteFree.spans_append (h : QuoteFree s) (t : List Char) : spans (s ++ t) = spans t := by
  rw [Sql.spans_append (Scan.run_unquoted h rfl), h.spans_eq, List.nil_append]

theorem QuoteFree.quote_run_append (h : QuoteFree s) (t : List Char) :
    (Scan.start.run (s ++ t)).quote = (Scan.start.run t).quote := by
  rw [Scan.run_append, Scan.run_of_unquoted (Scan.run_unquoted h rfl)]

-- ---------------------------------------------------------------------------
-- Storing
-- ---------------------------------------------------------------------------

/-- What storing takes from a text, at both ends and from between two parts. -/
structure Takes (q before after : List Char) (x m y : List Char) : Prop where
  text : q = x ++ (before ++ (m ++ after)) ++ y
  stored : stored q = before ++ after
  unquoted : (Scan.start.run before).quote = none
  front : ∀ c ∈ x, isSeparator c = true
  middle : ∀ c ∈ m, isSeparator c = true
  back : ∀ c ∈ y, isSeparator c = true

theorem exists_takes (q : List Char) : ∃ b a x m y, Takes q b a x m y := by
  obtain ⟨x, y, hq, hx, hy⟩ := exists_trimSeparators q
  have hx := fun c hc => isSeparator_iff.mpr (hx c hc)
  have hy := fun c hc => isSeparator_iff.mpr (hy c hc)
  rcases removes_or_stored_eq q with ⟨b, m, a, hr⟩ | hs
  · obtain ⟨-, hb⟩ := removes_iff.mp ⟨m, hr⟩
    have hm := fun c hc => isSeparator_iff.mpr (.inr (hr.semicolons c hc))
    exact ⟨b, a, x, m, y, hr.trimmed ▸ hq, hr.stored, hb, hx, hm, hy⟩
  · exact ⟨[], trimSeparators q, x, [], y, hq, hs, rfl, hx, nofun, hy⟩

theorem quoteFree_of_isSeparator (h : ∀ c ∈ s, isSeparator c = true) : QuoteFree s :=
  quoteFree_of_separators fun c hc => isSeparator_iff.mp (h c hc)

section
variable {q b a x m y : List Char} (h : Takes q b a x m y)
include h

theorem Takes.sheds : Sheds q (Sql.stored q) := by
  have hinner : Sheds (b ++ (m ++ a)) (b ++ ([] ++ a)) :=
    (Sheds.refl b).append ((sheds_nil h.middle).append (.refl a))
  have houter := ((sheds_nil h.front).append hinner).append (sheds_nil h.back)
  rw [← h.text] at houter
  simpa [h.stored] using houter

theorem Takes.quote_eq : (Scan.start.run q).quote = (Scan.start.run (Sql.stored q)).quote := by
  have hback := Scan.quote_run (quoteFree_of_isSeparator h.back)
    (Scan.start_proper.run (x ++ (b ++ (m ++ a))))
  rw [h.stored, h.text, Scan.run_append, hback, (quoteFree_of_isSeparator h.front).quote_run_append,
    Scan.run_append, Scan.run_of_unquoted h.unquoted,
    (quoteFree_of_isSeparator h.middle).quote_run_append, Scan.run_append,
    Scan.run_of_unquoted h.unquoted]

theorem Takes.spans_eq (hq : (Scan.start.run q).quote = none) :
    spans (Sql.stored q) = spans q := by
  have hfront : (Scan.start.run (x ++ (b ++ (m ++ a)))).quote = none := by
    rwa [h.text, Scan.run_append,
      Scan.quote_run (quoteFree_of_isSeparator h.back) (Scan.start_proper.run _)] at hq
  calc spans (Sql.stored q)
      = spans b ++ spans a := by rw [h.stored, spans_append h.unquoted]
    _ = spans (b ++ (m ++ a)) := by
      rw [spans_append h.unquoted, (quoteFree_of_isSeparator h.middle).spans_append]
    _ = spans (x ++ (b ++ (m ++ a))) := by
      rw [(quoteFree_of_isSeparator h.front).spans_append]
    _ = spans q := by
      rw [h.text, spans_append hfront, (quoteFree_of_isSeparator h.back).spans_eq, List.append_nil]

end

/-- Storing takes only white space and separators from a text; and from a text that
closes its quoted spans nothing that is in them, so that they are the same. -/
theorem stored_keeps_content (q : List Char) :
    Sheds q (stored q) ∧ (stored q).Sublist q ∧
      q.filter (!isSeparator ·) = (stored q).filter (!isSeparator ·) ∧
      (Scan.start.run (stored q)).quote = (Scan.start.run q).quote ∧
      ((Scan.start.run q).quote = none → spans (stored q) = spans q) := by
  obtain ⟨b, a, x, m, y, h⟩ := exists_takes q
  have hs := h.sheds
  exact ⟨hs, hs.sublist, hs.filter_eq, h.quote_eq.symm, h.spans_eq⟩

/-- A separator goes before the comment, and those that are quoted stay. -/
theorem stored_keeps_content_trailing :
    (Scan.start.run " SELECT ';\\'; ', \"--;\"; -- it".toList).quote = none ∧
      stored " SELECT ';\\'; ', \"--;\"; -- it".toList =
        "SELECT ';\\'; ', \"--;\" -- it".toList ∧
      spans (stored " SELECT ';\\'; ', \"--;\"; -- it".toList) =
        spans " SELECT ';\\'; ', \"--;\"; -- it".toList := by
  have hq : (Scan.start.run " SELECT ';\\'; ', \"--;\"; -- it".toList).quote = none := by
    decide +kernel
  obtain ⟨-, -, -, -, hspans⟩ := stored_keeps_content " SELECT ';\\'; ', \"--;\"; -- it".toList
  exact ⟨hq, by decide +kernel, hspans hq⟩

/-- A span that is open to the end can lose some of its content. -/
example : spans "SELECT 'a; ".toList = [('\'', "a; ".toList)] ∧
    spans (stored "SELECT 'a; ".toList) = [('\'', "a".toList)] := by decide +kernel

end SafeReports.Sql
