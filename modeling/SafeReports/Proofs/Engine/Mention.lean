import SafeReports.Engine.Complaint
import SafeReports.Proofs.Text.Occurrence

/-!
# Mentions of a query

A complaint mentions its query after `query was:`. The mention is taken off the
message where a comma and white space set it off from the text before it. The
first mention decides: when it is taken off, nothing of it is left, and when it
is not, the message is left as it is up to the end of it.
-/

namespace SafeReports.Engine

open Text

def mention : List Char := "query was:".toList

theorem mention_solid : Solid mention := by decide +kernel

theorem mention_ne_nil : mention ≠ [] := by decide +kernel

theorem mention_head? : mention.head? = some 'q' := by decide +kernel

theorem comma_not_mem_mention : ',' ∉ mention := by decide +kernel

/-- A text, and the comma and white space that set it off from what follows. -/
def SetsOff (before text : List Char) : Prop := ∃ w, Blank w ∧ before = text ++ ',' :: w

theorem SetsOff.cons (h : SetsOff before text) (c : Char) : SetsOff (c :: before) (c :: text) := by
  obtain ⟨w, hw, rfl⟩ := h
  exact ⟨w, hw, rfl⟩

theorem not_blank_append_comma (s t : List Char) : ¬ Blank (s ++ ',' :: t) := by
  intro h
  exact absurd (h ',' (by simp)) (by decide)

-- ---------------------------------------------------------------------------
-- The first mention that counts
-- ---------------------------------------------------------------------------

theorem afterQueryWas?_mentions (h : afterQueryWas? (c :: r) = some rest) : mention <:+: r := by
  unfold afterQueryWas? at h
  split at h
  · rename_i r' hr
    obtain ⟨rfl, rfl⟩ := List.cons.inj hr
    have hd : r.dropWhile isBlank = mention ++ rest := after?_eq_some_iff.mp h
    exact ⟨r.takeWhile isBlank, rest, by
      rw [List.append_assoc, ← hd, List.takeWhile_append_dropWhile]⟩
  · cases h

theorem afterQueryWas?_of_ne (h : c ≠ ',') (r : List Char) : afterQueryWas? (c :: r) = none := by
  unfold afterQueryWas?
  split
  · rename_i hr
    exact absurd (List.cons.inj hr).1 h
  · rfl

section
variable {r before rest : List Char}

theorem afterQueryWas?_blank (h : FirstAt mention r before rest) (hb : Blank before) :
    afterQueryWas? (',' :: r) = some rest := by
  have hr : r.dropWhile isBlank = mention ++ rest := by
    rw [h.text, List.append_assoc, List.dropWhile_append_of_pos hb,
      dropWhile_solid (mention_solid.1.append rest)]
  exact after?_eq_some_iff.mpr hr

theorem afterQueryWas?_not_blank (h : FirstAt mention r before rest) (hb : ¬ Blank before) :
    afterQueryWas? (',' :: r) = none := by
  obtain ⟨a, t, rfl, ha, ht⟩ := exists_blank_append_startsSolid hb
  have first := h.of_append
  have hr : r.dropWhile isBlank = t ++ mention ++ rest := by
    rw [h.text, List.append_assoc a, List.append_assoc a, List.dropWhile_append_of_pos ha,
      dropWhile_solid ((ht.append mention).append rest)]
  -- Otherwise the mention would begin before the first one does.
  obtain ⟨d, m, rfl, -⟩ := ht
  obtain ⟨-, -, hn, -⟩ := firstAt_cons_iff.mp first
  have hf : after? mention (r.dropWhile isBlank) = none := after?_eq_none_iff.mpr (hr ▸ hn)
  exact hf

/-- Right before the first mention it is seen after a comma and white space alone. -/
theorem afterQueryWas?_cons (h : FirstAt mention r before rest) (c : Char) :
    afterQueryWas? (c :: r) = if c = ',' ∧ Blank before then some rest else none := by
  by_cases hc : c = ','
  · subst hc
    by_cases hb : Blank before
    · rw [if_pos ⟨rfl, hb⟩, afterQueryWas?_blank h hb]
    · rw [if_neg fun h => hb h.2, afterQueryWas?_not_blank h hb]
  · rw [if_neg fun h => hc h.1, afterQueryWas?_of_ne hc]

end

/-- The text before the first mention that a comma sets off and behind which there
is what counts, and what that is. -/
def setOff? (counts : List Char → Bool) : List Char → Option (List Char × List Char)
  | [] => none
  | c :: r =>
    (((afterQueryWas? (c :: r)).filter counts).map fun rest => ([], rest)).or
      ((setOff? counts r).map fun (text, rest) => (c :: text, rest))

section
variable {counts : List Char → Bool} {s before rest : List Char}

theorem setOff?_append (h : ',' ∉ s) (t : List Char) :
    setOff? counts (s ++ t) = (setOff? counts t).map fun (text, rest) => (s ++ text, rest) := by
  induction s with
  | nil => simp
  | cons c s ih =>
    rw [List.mem_cons, not_or] at h
    have hn : afterQueryWas? (c :: (s ++ t)) = none := afterQueryWas?_of_ne (Ne.symm h.1) _
    simp [setOff?, hn, ih h.2, Function.comp_def]

theorem setOff?_unmentioned (h : ¬ mention <:+: s) : setOff? counts s = none := by
  induction s with
  | nil => rfl
  | cons c r ih =>
    rw [List.infix_cons_iff, not_or] at h
    have hn : afterQueryWas? (c :: r) = none :=
      Option.eq_none_iff_forall_ne_some.mpr fun rest hr => h.2 (afterQueryWas?_mentions hr)
    simp [setOff?, hn, ih h.2]

theorem setOff?_setOff (h : FirstAt mention s before rest) (hs : SetsOff before text)
    (hr : counts rest = true) : setOff? counts s = some (text, rest) := by
  obtain ⟨w, hw, rfl⟩ := hs
  induction text generalizing s with
  | nil =>
    obtain ⟨r, rfl, -, h⟩ := firstAt_cons_iff.mp h
    simp [setOff?, afterQueryWas?_cons h, hw, hr]
  | cons c text ih =>
    obtain ⟨r, rfl, -, h⟩ := firstAt_cons_iff.mp h
    simp [setOff?, afterQueryWas?_cons h, not_blank_append_comma, ih h]

theorem setOff?_joined (h : FirstAt mention s before rest)
    (hn : ∀ text, SetsOff before text → counts rest = false) :
    setOff? counts s =
      (setOff? counts rest).map fun (text, rest) => (before ++ mention ++ text, rest) := by
  induction before generalizing s with
  | nil =>
    rw [(firstAt_nil_iff mention_ne_nil).mp h, setOff?_append comma_not_mem_mention]
    rfl
  | cons c before ih =>
    obtain ⟨r, rfl, -, h⟩ := firstAt_cons_iff.mp h
    have here : (afterQueryWas? (c :: r)).filter counts = none := by
      rw [afterQueryWas?_cons h]
      split
      · rename_i hc
        simp [Option.filter, hn [] ⟨before, hc.2, by rw [hc.1]; rfl⟩]
      · rfl
    rw [setOff?, here, ih h fun text ht => hn _ (ht.cons c)]
    simp [Function.comp_def]

end

-- ---------------------------------------------------------------------------
-- What is taken off
-- ---------------------------------------------------------------------------

theorem splitQuery_eq (s : List Char) : splitQuery s =
    ((setOff? (fun query => !query.isEmpty) s).map fun (text, query) => (text, some query)).getD
      (s, none) := by
  induction s with
  | nil => rfl
  | cons c r ih =>
    rw [splitQuery, setOff?]
    split
    · rename_i d query hq
      rw [hq]
      rfl
    · rename_i hq
      have here : (afterQueryWas? (c :: r)).filter (fun query => !query.isEmpty) = none := by
        rw [Option.filter_eq_none_iff]
        intro query hs
        cases query with
        | nil => simp
        | cons d query => exact absurd hs (hq d query)
      rw [here, ih]
      cases setOff? (fun query => !query.isEmpty) r <;> rfl

theorem beforeQuery_eq (s : List Char) :
    beforeQuery s = ((setOff? (fun _ => true) s).map Prod.fst).getD s := by
  induction s with
  | nil => rfl
  | cons c r ih =>
    rw [beforeQuery, setOff?, ih]
    cases afterQueryWas? (c :: r) with
    | some query => rfl
    | none => cases setOff? (fun _ => true) r <;> rfl

/-- The first mention is taken off a text that it does not begin, with what it mentions. -/
structure TakenOff (before query text : List Char) : Prop where
  setsOff : SetsOff before text
  text : text ≠ []
  query : query ≠ []

section
variable {s before query text : List Char}

theorem splitQuery_unmentioned (h : ¬ mention <:+: s) : splitQuery s = (s, none) := by
  rw [splitQuery_eq, setOff?_unmentioned h]
  rfl

theorem splitQuery_joined (h : FirstAt mention s before query)
    (hn : ∀ text, SetsOff before text → query = []) :
    splitQuery s = (before ++ mention ++ (splitQuery query).1, (splitQuery query).2) := by
  have hq : ∀ text, SetsOff before text → (!query.isEmpty) = false := by
    intro text ht
    rw [hn text ht]
    rfl
  rw [splitQuery_eq, setOff?_joined h hq, splitQuery_eq query, h.text]
  cases setOff? (fun query => !query.isEmpty) query <;> rfl

theorem splitQueryAfterFirst_unmentioned (h : ¬ mention <:+: s) :
    splitQueryAfterFirst s = (s, none) := by
  cases s with
  | nil => rfl
  | cons c r =>
    rw [List.infix_cons_iff, not_or] at h
    rw [splitQueryAfterFirst, splitQuery_unmentioned h.2]

theorem splitQueryAfterFirst_takenOff (h : FirstAt mention s before query)
    (ht : TakenOff before query text) : splitQueryAfterFirst s = (text, some query) := by
  obtain ⟨⟨w, hw, rfl⟩, htext, hquery⟩ := ht
  cases text with
  | nil => exact absurd rfl htext
  | cons c text =>
    obtain ⟨r, rfl, -, h⟩ := firstAt_cons_iff.mp h
    have hs : setOff? (fun query => !query.isEmpty) r = some (text, query) :=
      setOff?_setOff h ⟨w, hw, rfl⟩ (by simpa using hquery)
    rw [splitQueryAfterFirst, splitQuery_eq, hs]
    rfl

theorem splitQueryAfterFirst_joined (h : FirstAt mention s before query)
    (hn : ∀ text, ¬ TakenOff before query text) : splitQueryAfterFirst s =
      (before ++ mention ++ (splitQuery query).1, (splitQuery query).2) := by
  cases before with
  | nil =>
    -- The mention begins the text, and no comma is in it.
    have hs : s = 'q' :: ("uery was:".toList ++ query) :=
      (firstAt_nil_iff mention_ne_nil).mp h
    have hc : ',' ∉ "uery was:".toList := by decide +kernel
    rw [hs, splitQueryAfterFirst, splitQuery_eq, setOff?_append hc, splitQuery_eq query]
    cases setOff? (fun query => !query.isEmpty) query <;> rfl
  | cons c before =>
    obtain ⟨r, rfl, -, h⟩ := firstAt_cons_iff.mp h
    rw [splitQueryAfterFirst, splitQuery_joined h]
    · rfl
    · intro text ht
      by_contra hq
      exact hn _ ⟨ht.cons c, List.cons_ne_nil c text, hq⟩

theorem splitQuery_isPrefix (s : List Char) : (splitQuery s).1 <+: s := by
  induction s with
  | nil => exact List.prefix_rfl
  | cons c r ih =>
    rw [splitQuery]
    split
    · exact List.nil_prefix
    · exact (List.cons_prefix_cons).mpr ⟨rfl, ih⟩

theorem splitQueryAfterFirst_isPrefix (s : List Char) : (splitQueryAfterFirst s).1 <+: s := by
  cases s with
  | nil => exact List.prefix_rfl
  | cons c r => exact (List.cons_prefix_cons).mpr ⟨rfl, splitQuery_isPrefix r⟩

theorem beforeQuery_setOff (h : FirstAt mention s before query) (ht : SetsOff before text) :
    beforeQuery s = text := by
  rw [beforeQuery_eq, setOff?_setOff h ht rfl]
  rfl

theorem beforeQuery_joined (h : FirstAt mention s before query)
    (hn : ∀ text, ¬ SetsOff before text) :
    beforeQuery s = before ++ mention ++ beforeQuery query := by
  rw [beforeQuery_eq, setOff?_joined h fun text ht => absurd ht (hn text), beforeQuery_eq query,
    h.text]
  cases setOff? (fun _ => true) query <;> rfl

theorem beforeQuery_isPrefix (s : List Char) : beforeQuery s <+: s := by
  induction s with
  | nil => exact List.prefix_rfl
  | cons c r ih =>
    rw [beforeQuery]
    split
    · exact List.nil_prefix
    · exact (List.cons_prefix_cons).mpr ⟨rfl, ih⟩

end

end SafeReports.Engine
