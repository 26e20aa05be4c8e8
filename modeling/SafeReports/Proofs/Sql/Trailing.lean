import Mathlib.Data.List.DropRight
import Mathlib.Data.List.TakeWhile
import SafeReports.Proofs.Sql.Stored

/-!
# The separator that goes

The trimmed text loses the first run of separators behind which a comment seems
to reach to the end, provided the run stands outside quoted spans. Which run is
the first depends on all that stands before it, and a block comment reaches to
the end when the text ends as one, whatever it closes before.
-/

namespace SafeReports.Sql

open Text

-- ---------------------------------------------------------------------------
-- Nothing to trim
-- ---------------------------------------------------------------------------

theorem trim_eq_self_iff : trim drop s = s ↔
    s.head?.any drop = false ∧ s.getLast?.any drop = false := by
  have hhead : s.dropWhile drop = s ↔ s.head?.any drop = false := by
    cases s <;> simp [List.dropWhile_eq_self_iff]
  have hlast : trimEnd drop s = s ↔ s.getLast?.any drop = false := by
    rcases List.eq_nil_or_concat s with rfl | ⟨r, c, rfl⟩
    · exact iff_of_true rfl rfl
    · exact List.rdropWhile_eq_self_iff.trans (by simp)
  rw [← hhead, ← hlast]
  constructor
  · intro h
    have hsub : s.Sublist (s.dropWhile drop) := by
      have he : (trimEnd drop (s.dropWhile drop)).Sublist (s.dropWhile drop) :=
        (List.rdropWhile_prefix drop _).sublist
      rwa [← trim, h] at he
    have hd := (List.dropWhile_sublist drop).antisymm hsub
    rw [trim, hd] at h
    exact ⟨hd, h⟩
  · rintro ⟨hd, he⟩
    rw [trim, hd, he]

theorem trim_semicolons_eq_self_iff : trim (· == ';') s = s ↔
    s.head? ≠ some ';' ∧ s.getLast? ≠ some ';' := by
  rw [trim_eq_self_iff]
  cases s.head? <;> cases s.getLast? <;> simp

theorem trimSeparators_eq_self_iff : trimSeparators s = s ↔
    s = [] ∨ Solid s ∧ s.head? ≠ some ';' ∧ s.getLast? ≠ some ';' := by
  constructor
  · intro h
    refine or_iff_not_imp_left.mpr fun hn => ?_
    have hs : Solid s := by
      have hs := strip_nil_or_solid (trim (· == ';') (strip s))
      rw [← trimSeparators, h] at hs
      exact hs.resolve_left hn
    rw [trimSeparators, strip_solid hs] at h
    have hsub : s.Sublist (trim (· == ';') s) := by
      have ht := trim_sublist isBlank (trim (· == ';') s)
      rwa [← strip, h] at ht
    exact ⟨hs, trim_semicolons_eq_self_iff.mp ((trim_sublist _ s).antisymm hsub)⟩
  · rintro (rfl | ⟨hs, hends⟩)
    · rfl
    · rw [trimSeparators, strip_solid hs, trim_semicolons_eq_self_iff.mpr hends, strip_solid hs]

-- ---------------------------------------------------------------------------
-- A comment to the end
-- ---------------------------------------------------------------------------

/-- White space, then a text that begins and ends as one comment does. -/
inductive EndComment : List Char → Prop
  | blank : isBlank c = true → EndComment s → EndComment (c :: s)
  | line : '\n' ∉ m → EndComment ('-' :: '-' :: m)
  | block : ['*', '/'] <:+ m → EndComment ('/' :: '*' :: m)

/-- No white space at the end. -/
def Unpadded (s : List Char) : Prop := ∀ e, e <:+ s → Blank e → e = []

theorem Unpadded.suffix (h : Unpadded s) (ht : t <:+ s) : Unpadded t :=
  fun e he => h e (he.trans ht)

theorem EndsSolid.unpadded (h : EndsSolid s) : Unpadded s := by
  rintro e ⟨r, rfl⟩ he
  exact Classical.byContradiction fun hn => (h.of_append hn).not_blank he

theorem Unpadded.endsSolid (h : Unpadded s) (hs : s ≠ []) : EndsSolid s := by
  obtain ⟨t, e, rfl, he, ht⟩ := exists_append_blank s
  obtain rfl := h e (List.suffix_append t e) he
  rw [List.append_nil] at hs ⊢
  exact ht.resolve_left hs

theorem unpadded_trimSeparators (q : List Char) : Unpadded (trimSeparators q) := by
  rcases strip_endsSolid (trim (· == ';') (strip q)) with h | h
  · intro e he _
    rw [trimSeparators, h] at he
    exact List.suffix_nil.mp he
  · exact EndsSolid.unpadded h

theorem blockToEnd?_self (h : ['*', '/'] <:+ s) : blockToEnd? s = some s := by
  have hblank : ∀ {r}, Blank r → ¬ ['*', '/'] <:+ r := fun hr ⟨u, hu⟩ =>
    absurd (hr '/' (by simp [← hu])) (by decide)
  fun_induction blockToEnd? s with
  | case1 => simp at h
  | case2 r hr =>
    have hb := isBlankText_iff.mp hr
    rcases List.suffix_cons_iff.mp h with he | h
    · rw [he]
    rcases List.suffix_cons_iff.mp h with he | h
    · simp at he
    · exact absurd h (hblank hb)
  | case3 r hr ih =>
    rcases List.suffix_cons_iff.mp h with he | h
    · obtain rfl : r = [] := by simpa using he.symm
      exact absurd rfl hr
    · rw [ih h]
      rfl
  | case4 c r hc ih =>
    rcases List.suffix_cons_iff.mp h with he | h
    · obtain ⟨rfl, rfl⟩ := List.cons.inj he
      exact absurd rfl (hc [] rfl)
    · rw [ih h]
      rfl

theorem blockToEnd?_ends (h : blockToEnd? s = some t) : ['*', '/'] <:+ t := by
  fun_induction blockToEnd? s generalizing t with
  | case1 => cases h
  | case2 r hr =>
    obtain rfl := Option.some.inj h
    exact List.suffix_rfl
  | case3 r hr ih =>
    obtain ⟨u, hu, rfl⟩ := Option.map_eq_some_iff.mp h
    exact (ih hu).trans (List.suffix_cons _ _)
  | case4 c r hc ih =>
    obtain ⟨u, hu, rfl⟩ := Option.map_eq_some_iff.mp h
    exact (ih hu).trans (List.suffix_cons _ _)

theorem closing?_blank (hc : isBlank c = true) (s : List Char) :
    closing? (c :: s) = (closing? s).map (c :: ·) := by
  simp only [closing?, List.dropWhile_cons, List.takeWhile_cons, hc, ↓reduceIte, Option.map_map]
  rfl

theorem closing?_solid (hc : isBlank c = false) (s : List Char) :
    closing? (c :: s) = comment? (c :: s) := by
  simp [closing?, hc]

theorem EndComment.closing? (h : EndComment s) : closing? s = some s := by
  induction h with
  | blank hc _ ih =>
    rw [closing?_blank hc, ih]
    rfl
  | @line m hm =>
    have hall : ∀ c ∈ m, (c != '\n') = true := by
      rintro c hc
      exact bne_iff_ne.mpr fun he => hm (he ▸ hc)
    rw [closing?_solid (by decide), comment?, List.dropWhile_eq_nil_iff.mpr hall,
      List.takeWhile_eq_self_iff.mpr hall]
    rfl
  | block hm =>
    rw [closing?_solid (by decide), comment?, blockToEnd?_self hm]
    rfl

theorem endComment_of_closing? (h : closing? s = some s) : EndComment s := by
  induction s with
  | nil => cases h
  | cons c r ih =>
    cases hc : isBlank c with
    | true =>
      rw [closing?_blank hc] at h
      obtain ⟨t, ht, he⟩ := Option.map_eq_some_iff.mp h
      obtain rfl := (List.cons.inj he).2
      exact .blank hc (ih ht)
    | false =>
      rw [closing?_solid hc] at h
      unfold comment? at h
      split at h
      · rename_i m hm
        split at h
        · have htake : m.takeWhile (· != '\n') = m := by simpa [hm] using h
          rw [hm]
          refine .line fun hn => ?_
          simpa using List.takeWhile_eq_self_iff.mp htake _ hn
        · cases h
      · rename_i m hm
        obtain ⟨t, ht, he⟩ := Option.map_eq_some_iff.mp h
        obtain rfl : t = m := by simpa [hm] using he
        rw [hm]
        exact .block (blockToEnd?_ends ht)
      · cases h

/-- A comment is found where it is all that is left. -/
theorem closing?_eq_some_iff (hs : Unpadded s) : closing? s = some t ↔ t = s ∧ EndComment s := by
  constructor
  · intro h
    obtain ⟨-, e, rfl, he⟩ := closing?_spec h
    obtain rfl := hs e (List.suffix_append t e) he
    rw [List.append_nil] at h ⊢
    exact ⟨rfl, endComment_of_closing? h⟩
  · rintro ⟨rfl, h⟩
    exact h.closing?

theorem EndComment.head?_ne (h : EndComment s) (hc : isBlank c = false) (hd : c ≠ '-')
    (hs : c ≠ '/') : s.head? ≠ some c := by
  cases h with
  | blank hb =>
    rintro he
    simp [← Option.some.inj he, hb] at hc
  | line => exact fun he => hd (Option.some.inj he).symm
  | block => exact fun he => hs (Option.some.inj he).symm

theorem EndComment.ne_nil (h : EndComment s) : s ≠ [] := by
  rintro rfl
  cases h

/-- Where a comment to the end has its beginning, when the text has two parts. -/
inductive Begins (v t : List Char) : Prop
  | behind : Blank v → EndComment t → Begins v t
  | dash : Blank w → v = w ++ ['-'] → t.head? = some '-' → Begins v t
  | slash : Blank w → v = w ++ ['/'] → t.head? = some '*' → Begins v t
  | line : Blank w → v = w ++ '-' :: '-' :: m → '\n' ∉ m → '\n' ∉ t → Begins v t
  | block : Blank w → v = w ++ '/' :: '*' :: m → ['*', '/'] <:+ m ++ t → Begins v t

theorem Begins.cons (h : Begins v t) (hc : isBlank c = true) : Begins (c :: v) t := by
  cases h with
  | behind hv ht => exact .behind (blank_cons_iff.mpr ⟨hc, hv⟩) ht
  | @dash w hw hv ht => exact .dash (w := c :: w) (blank_cons_iff.mpr ⟨hc, hw⟩) (by simp [hv]) ht
  | @slash w hw hv ht => exact .slash (w := c :: w) (blank_cons_iff.mpr ⟨hc, hw⟩) (by simp [hv]) ht
  | @line w m hw hv hm ht =>
    exact .line (w := c :: w) (blank_cons_iff.mpr ⟨hc, hw⟩) (by simp [hv]) hm ht
  | @block w m hw hv hm =>
    exact .block (w := c :: w) (blank_cons_iff.mpr ⟨hc, hw⟩) (by simp [hv]) hm

theorem EndComment.begins (h : EndComment (v ++ t)) : Begins v t := by
  induction v with
  | nil => exact .behind .nil h
  | cons c v ih =>
    generalize hs : c :: v ++ t = s at h
    cases h with
    | blank hc h =>
      obtain ⟨rfl, rfl⟩ := List.cons.inj hs
      exact (ih h).cons hc
    | line hm =>
      cases v with
      | nil =>
        obtain ⟨rfl, rfl⟩ := List.cons.inj hs
        exact .dash .nil rfl rfl
      | cons d x =>
        obtain ⟨rfl, rfl, rfl⟩ : c = '-' ∧ d = '-' ∧ x ++ t = _ := by simpa using hs
        rw [List.mem_append, not_or] at hm
        exact .line .nil rfl hm.1 hm.2
    | block hm =>
      cases v with
      | nil =>
        obtain ⟨rfl, rfl⟩ := List.cons.inj hs
        exact .slash .nil rfl rfl
      | cons d x =>
        obtain ⟨rfl, rfl, rfl⟩ : c = '/' ∧ d = '*' ∧ x ++ t = _ := by simpa using hs
        exact .block .nil rfl hm

theorem EndComment.blank_append (hw : Blank w) (h : EndComment s) : EndComment (w ++ s) := by
  induction w with
  | nil => exact h
  | cons c w ih =>
    obtain ⟨hc, hw⟩ := blank_cons_iff.mp hw
    exact .blank hc (ih hw)

-- ---------------------------------------------------------------------------
-- The first run
-- ---------------------------------------------------------------------------

/-- A run of separators between two parts, and a comment to the end behind it. -/
def Trail (s before after : List Char) : Prop :=
  (∃ m, s = before ++ ';' :: (m ++ after) ∧ ∀ c ∈ m, c = ';') ∧ EndComment after

/-- No run with a comment to the end begins earlier. -/
structure FirstTrail (s before after : List Char) : Prop where
  trail : Trail s before after
  first : ∀ u v, Trail s u v → before <+: u

theorem Trail.unpadded (h : Trail s b a) (hs : Unpadded s) : Unpadded a := by
  obtain ⟨⟨m, rfl, -⟩, -⟩ := h
  exact hs.suffix ⟨b ++ ';' :: m, by simp⟩

theorem FirstTrail.not_before (h : FirstTrail s (u ++ ';' :: v) a) : ¬ Trail s u a' := by
  intro hu
  have hlen := (h.first u a' hu).length_le
  simp only [List.length_append, List.length_cons] at hlen
  omega

theorem dropWhile_semicolons {a m : List Char} (hm : ∀ c ∈ m, c = ';')
    (ha : a.head? ≠ some ';') : (m ++ a).dropWhile (· == ';') = a := by
  rw [List.dropWhile_append_of_pos (by simpa using hm)]
  cases a with
  | nil => rfl
  | cons c a =>
    have hc : (c == ';') = false := beq_eq_false_iff_ne.mpr fun he => ha (by rw [he]; rfl)
    rw [List.dropWhile_cons, hc]
    rfl

theorem EndComment.head?_ne_semicolon (h : EndComment s) : s.head? ≠ some ';' :=
  h.head?_ne (by decide) (by decide) (by decide)

theorem trail_nil_iff :
    Trail (c :: r) [] a ↔ c = ';' ∧ a = r.dropWhile (· == ';') ∧ EndComment a := by
  constructor
  · rintro ⟨⟨m, hs, hm⟩, ha⟩
    obtain ⟨rfl, rfl⟩ := List.cons.inj hs
    exact ⟨rfl, (dropWhile_semicolons hm ha.head?_ne_semicolon).symm, ha⟩
  · rintro ⟨rfl, rfl, ha⟩
    refine ⟨⟨r.takeWhile (· == ';'), ?_, fun c hc => ?_⟩, ha⟩
    · rw [List.takeWhile_append_dropWhile]
      rfl
    · simpa using List.all_eq_true.mp List.all_takeWhile c hc

theorem trail_cons_iff : Trail (c :: r) (d :: b) a ↔ d = c ∧ Trail r b a := by
  simp only [Trail, List.cons_append, List.cons.injEq]
  grind

theorem firstTrail_nil_iff : FirstTrail s [] a ↔ Trail s [] a :=
  ⟨FirstTrail.trail, fun h => ⟨h, fun u _ _ => List.nil_prefix (l := u)⟩⟩

theorem firstTrail_cons_iff (h : ∀ v, ¬ Trail (c :: r) [] v) :
    FirstTrail (c :: r) (c :: b) a ↔ FirstTrail r b a := by
  constructor
  · rintro ⟨ht, hf⟩
    refine ⟨(trail_cons_iff.mp ht).2, fun u v huv => ?_⟩
    exact (List.cons_prefix_cons.mp (hf (c :: u) v (trail_cons_iff.mpr ⟨rfl, huv⟩))).2
  · rintro ⟨ht, hf⟩
    refine ⟨trail_cons_iff.mpr ⟨rfl, ht⟩, fun u v huv => ?_⟩
    cases u with
    | nil => exact absurd huv (h v)
    | cons d u =>
      obtain ⟨rfl, hr⟩ := trail_cons_iff.mp huv
      exact List.cons_prefix_cons.mpr ⟨rfl, hf u v hr⟩

theorem Trail.exists_first (h : Trail s b a) : ∃ u v, FirstTrail s u v := by
  induction s generalizing b with
  | nil =>
    obtain ⟨⟨m, hs, -⟩, -⟩ := h
    simp at hs
  | cons c r ih =>
    by_cases hc : ∃ v, Trail (c :: r) [] v
    · obtain ⟨v, hv⟩ := hc
      exact ⟨[], v, firstTrail_nil_iff.mpr hv⟩
    · cases b with
      | nil => exact absurd ⟨a, h⟩ hc
      | cons d b =>
        obtain ⟨rfl, hr⟩ := trail_cons_iff.mp h
        obtain ⟨u, v, hu⟩ := ih hr
        exact ⟨d :: u, v, (firstTrail_cons_iff fun v hv => hc ⟨v, hv⟩).mpr hu⟩

theorem splitTrailing?_here (h : Trail (c :: r) [] a) : splitTrailing? (c :: r) = some ([], a) := by
  obtain ⟨rfl, rfl, ha⟩ := trail_nil_iff.mp h
  simp only [splitTrailing?, ↓reduceIte, ha.closing?]

theorem splitTrailing?_later (hs : Unpadded (c :: r)) (h : ∀ v, ¬ Trail (c :: r) [] v) :
    splitTrailing? (c :: r) = (splitTrailing? r).map fun (b, a) => (c :: b, a) := by
  have hrest : Unpadded (r.dropWhile (· == ';')) :=
    hs.suffix ((List.dropWhile_suffix _).trans (List.suffix_cons c r))
  have hnone : (if c = ';' then closing? (r.dropWhile (· == ';')) else none) = none := by
    refine Option.eq_none_iff_forall_ne_some.mpr fun t ht => ?_
    split at ht
    · rename_i hc
      obtain ⟨he, ht⟩ := (closing?_eq_some_iff hrest).mp ht
      exact h t (trail_nil_iff.mpr ⟨hc, he, he ▸ ht⟩)
    · cases ht
  simp only [splitTrailing?, hnone]

/-- What the search finds is the first run. -/
theorem splitTrailing?_eq_some_iff (hs : Unpadded s) :
    splitTrailing? s = some (b, a) ↔ FirstTrail s b a := by
  induction s generalizing b with
  | nil =>
    refine iff_of_false (fun h => nomatch h) ?_
    rintro ⟨⟨⟨m, h, -⟩, -⟩, -⟩
    simp at h
  | cons c r ih =>
    have ih {b} := ih (b := b) (hs.suffix (List.suffix_cons c r))
    by_cases h : ∃ v, Trail (c :: r) [] v
    · obtain ⟨v, hv⟩ := h
      rw [splitTrailing?_here hv, Option.some.injEq, Prod.mk.injEq]
      constructor
      · rintro ⟨rfl, rfl⟩
        exact firstTrail_nil_iff.mpr hv
      · intro hf
        obtain rfl := List.prefix_nil.mp (hf.first [] v hv)
        exact ⟨rfl, (trail_nil_iff.mp hv).2.1.trans (trail_nil_iff.mp hf.trail).2.1.symm⟩
    · have hno : ∀ v, ¬ Trail (c :: r) [] v := fun v hv => h ⟨v, hv⟩
      rw [splitTrailing?_later hs hno]
      simp only [Option.map_eq_some_iff, Prod.exists, Prod.mk.injEq]
      constructor
      · rintro ⟨u, v, huv, rfl, rfl⟩
        exact (firstTrail_cons_iff hno).mpr (ih.mp huv)
      · intro hf
        cases b with
        | nil => exact absurd hf.trail (hno a)
        | cons d b =>
          obtain rfl := (trail_cons_iff.mp hf.trail).1
          exact ⟨b, a, ih.mpr ((firstTrail_cons_iff hno).mp hf), rfl, rfl⟩

-- ---------------------------------------------------------------------------
-- What the stored form lacks
-- ---------------------------------------------------------------------------

/-- The stored form is the trimmed text without the run of separators between
these parts. -/
structure Removes (q before run after : List Char) : Prop where
  trimmed : trimSeparators q = before ++ (run ++ after)
  stored : stored q = before ++ after
  ne_nil : run ≠ []
  semicolons : ∀ c ∈ run, c = ';'
  /-- All of the run, to its end. -/
  next : after.head? ≠ some ';'

theorem Removes.head_run (h : Removes q b m a) : ∃ m', m = ';' :: m' := by
  cases m with
  | nil => exact absurd rfl h.ne_nil
  | cons c m =>
    obtain rfl := h.semicolons c (by simp)
    exact ⟨m, rfl⟩

theorem Removes.unique (h : Removes q b m a) (h' : Removes q b' m' a') : b = b' ∧ a = a' := by
  -- whatever the later run has before it would follow the earlier one
  have key : ∀ {b m a b' m' a'}, Removes q b m a → Removes q b' m' a' →
      ∀ x, b' = b ++ x → a = x ++ a' → x = [] := by
    intro b m a b' m' a' h h' x hb ha
    have he := h.trimmed.symm.trans h'.trimmed
    obtain ⟨m, rfl⟩ := h.head_run
    rw [hb, ha, List.append_assoc, List.append_cancel_left_eq] at he
    cases x with
    | nil => rfl
    | cons c x =>
      obtain rfl := (List.cons.inj he).1
      exact absurd (by rw [ha]; rfl) h.next
  rcases List.append_eq_append_iff.mp (h.stored.symm.trans h'.stored) with
    ⟨x, hb, ha⟩ | ⟨x, hb, ha⟩
  · obtain rfl := key h h' x hb ha
    exact ⟨by simpa using hb.symm, ha⟩
  · obtain rfl := key h' h x hb ha
    exact ⟨by simpa using hb, ha.symm⟩

theorem Removes.stored_ne (h : Removes q b m a) : Sql.stored q ≠ trimSeparators q := by
  intro he
  rw [h.stored, h.trimmed, List.append_cancel_left_eq] at he
  exact h.ne_nil (List.self_eq_append_left.mp he)

theorem FirstTrail.removes (h : FirstTrail (trimSeparators q) b a)
    (hq : (Scan.start.run b).quote = none) : ∃ m, Removes q b m a := by
  obtain ⟨⟨m, hs, hm⟩, ha⟩ := h.trail
  have hu := unpadded_trimSeparators q
  have hsplit := (splitTrailing?_eq_some_iff hu).mpr h
  have hend : trimEnd isBlank (b ++ a) = b ++ a :=
    trimEnd_solid (((h.trail.unpadded hu).endsSolid ha.ne_nil).append b)
  refine ⟨';' :: m, hs, ?_, by simp, by simpa using hm, ha.head?_ne_semicolon⟩
  simp only [stored, hsplit, separates_iff.mpr hq, ↓reduceIte, hend]

theorem firstTrail_or_stored_eq (q : List Char) :
    (∃ b a, FirstTrail (trimSeparators q) b a ∧ (Scan.start.run b).quote = none) ∨
      stored q = trimSeparators q := by
  refine or_iff_not_imp_left.mpr fun hno => stored_of_not_drops fun b a hd => hno ⟨b, a, ?_⟩
  exact ⟨(splitTrailing?_eq_some_iff (unpadded_trimSeparators q)).mp hd.1, separates_iff.mp hd.2⟩

theorem removes_or_stored_eq (q : List Char) :
    (∃ b m a, Removes q b m a) ∨ stored q = trimSeparators q := by
  refine (firstTrail_or_stored_eq q).imp_left fun ⟨b, a, hf, hq⟩ => ?_
  obtain ⟨m, hr⟩ := hf.removes hq
  exact ⟨b, m, a, hr⟩

/-- The run that goes is the first with a comment to the end behind it, if it
stands outside quoted spans. -/
theorem removes_iff : (∃ m, Removes q b m a) ↔
    FirstTrail (trimSeparators q) b a ∧ (Scan.start.run b).quote = none := by
  refine ⟨fun ⟨m, h⟩ => ?_, fun ⟨hf, hq⟩ => hf.removes hq⟩
  obtain ⟨b', a', hf, hq⟩ := (firstTrail_or_stored_eq q).resolve_right h.stored_ne
  obtain ⟨m', h'⟩ := hf.removes hq
  obtain ⟨rfl, rfl⟩ := h.unique h'
  exact ⟨hf, hq⟩

-- ---------------------------------------------------------------------------
-- One comment
-- ---------------------------------------------------------------------------

/-- A line comment without the end of its line, or a block comment to the first
place that closes it. -/
inductive IsComment : List Char → Prop
  | line : '\n' ∉ m → IsComment ('-' :: '-' :: m)
  | block : ¬ ['*', '/'] <:+: m → IsComment ('/' :: '*' :: (m ++ ['*', '/']))

def OneComment (s : List Char) : Prop := ∃ w c, s = w ++ c ∧ Blank w ∧ IsComment c

/-- The comment is closed, and what follows ends as if it closed one too. -/
def Overruns (s : List Char) : Prop :=
  ∃ w m r, s = w ++ '/' :: '*' :: (m ++ '*' :: '/' :: r) ∧ Blank w ∧ ¬ ['*', '/'] <:+: m ∧
    ['*', '/'] <:+ r

theorem exists_first_close (h : ['*', '/'] <:+: s) :
    ∃ m r, s = m ++ '*' :: '/' :: r ∧ ¬ ['*', '/'] <:+: m := by
  induction s with
  | nil => simp at h
  | cons c s ih =>
    by_cases hp : ['*', '/'] <+: c :: s
    · obtain ⟨r, hr⟩ := hp
      exact ⟨[], r, hr.symm, by simp⟩
    · obtain ⟨m, r, rfl, hm⟩ := ih ((List.infix_cons_iff.mp h).resolve_left hp)
      refine ⟨c :: m, r, rfl, fun hi => ?_⟩
      rcases List.infix_cons_iff.mp hi with hi | hi
      · exact hp (hi.trans (List.prefix_append (c :: m) _))
      · exact hm hi

/-- The end of a block comment does not reach across a character that is no star. -/
theorem ends_block_iff {m : List Char} (hc : c ≠ '*') (ht : t ≠ []) :
    ['*', '/'] <:+ m ++ c :: t ↔ ['*', '/'] <:+ t := by
  constructor
  · intro h
    have hlen : ['*', '/'].length ≤ (c :: t).length :=
      Nat.succ_le_succ (List.length_pos_iff.mpr ht)
    have hct := List.suffix_of_suffix_length_le h (List.suffix_append m (c :: t)) hlen
    rcases List.suffix_cons_iff.mp hct with he | h
    · exact absurd (List.cons.inj he).1.symm hc
    · exact h
  · exact fun h => (h.trans (List.suffix_cons c t)).trans (List.suffix_append m _)

theorem IsComment.endComment (h : IsComment c) : EndComment c := by
  cases h with
  | line hm => exact .line hm
  | block => exact .block (List.suffix_append _ _)

theorem EndComment.one_or_overruns (h : EndComment s) : OneComment s ∨ Overruns s := by
  have hs : EndComment (s ++ []) := by rwa [List.append_nil]
  cases hs.begins with
  | behind _ hn => cases hn
  | dash _ _ hn => cases hn
  | slash _ _ hn => cases hn
  | line hw hs hm => exact .inl ⟨_, _, hs, hw, .line hm⟩
  | block hw hs hm =>
    rw [List.append_nil] at hm
    obtain ⟨x, r, rfl, hx⟩ := exists_first_close hm.isInfix
    by_cases hr : r = []
    · subst hr
      exact .inl ⟨_, _, hs, hw, .block hx⟩
    · rw [List.append_cons] at hm
      exact .inr ⟨_, x, r, hs, hw, hx, (ends_block_iff (by decide) hr).mp hm⟩

theorem Overruns.not_one (h : Overruns s) : ¬ OneComment s := by
  obtain ⟨w, m, r, rfl, hw, -, r, rfl⟩ := h
  rintro ⟨w', c, hc, hw', hcomment⟩
  have hsolid : StartsSolid c := by
    cases hcomment with
    | line => exact ⟨'-', _, rfl, by decide⟩
    | block => exact ⟨'/', _, rfl, by decide⟩
  have he := congrArg (List.dropWhile isBlank) hc
  rw [dropWhile_blank_append hw ⟨'/', _, rfl, by decide⟩, dropWhile_blank_append hw' hsolid] at he
  cases hcomment with
  | line => cases he
  | @block x hx =>
    have hx' : (m ++ '*' :: '/' :: r) ++ ['*', '/'] = x ++ ['*', '/'] := by simpa using he
    exact hx ⟨m, r, by simpa using List.append_cancel_right hx'⟩

/-- A run goes only outside quoted spans and before a comment to the end. One
comment is all that follows, unless the first of the runs with such a comment
stands before a block comment that is closed and a text that ends as one. -/
theorem removes_one_comment_iff (q : List Char) :
    (∀ b m a, Removes q b m a → (Scan.start.run b).quote = none ∧ EndComment a) ∧
      ((∀ b m a, Removes q b m a → b ≠ [] → OneComment a) ↔
        ∀ b a, FirstTrail (trimSeparators q) b a → (Scan.start.run b).quote = none → b ≠ [] →
          ¬ Overruns a) := by
  refine ⟨fun b m a h => ?_, fun h b a hf hq hb => ?_, fun h b m a hr hb => ?_⟩
  · obtain ⟨hf, hq⟩ := removes_iff.mp ⟨m, h⟩
    exact ⟨hq, hf.trail.2⟩
  · obtain ⟨m, hr⟩ := hf.removes hq
    exact fun ho => ho.not_one (h b m a hr hb)
  · obtain ⟨hf, hq⟩ := removes_iff.mp ⟨m, hr⟩
    exact hf.trail.2.one_or_overruns.resolve_right (h b a hf hq hb)

/-- Two statements become one. -/
theorem removes_before_statement :
    Guard.standard.Accepts "SELECT 1; /* a */ SELECT 2 /* b */".toList ∧
      ∃ b a, b ≠ [] ∧ Removes "SELECT 1; /* a */ SELECT 2 /* b */".toList b [';'] a ∧
        Overruns a ∧ ¬ OneComment a := by
  have ho : Overruns " /* a */ SELECT 2 /* b */".toList :=
    ⟨" ".toList, " a ".toList, " SELECT 2 /* b */".toList, by decide +kernel, by decide +kernel,
      by decide +kernel, by decide +kernel⟩
  have hr : Removes "SELECT 1; /* a */ SELECT 2 /* b */".toList "SELECT 1".toList [';']
      " /* a */ SELECT 2 /* b */".toList :=
    ⟨by decide +kernel, by decide +kernel, by simp, by simp, by decide +kernel⟩
  exact ⟨by decide +kernel, _, _, by decide +kernel, hr, ho, ho.not_one⟩

-- ---------------------------------------------------------------------------
-- No separator missed
-- ---------------------------------------------------------------------------

/-- Where a run with a comment to the end behind it stands in a text of two parts. -/
inductive Stands (b t u a : List Char) : Prop
  | before : b = u ++ ';' :: (m ++ v) → (∀ c ∈ m, c = ';') → a = v ++ t → Begins v t →
      Stands b t u a
  | across : b = u ++ ';' :: m → (∀ c ∈ m, c = ';') → t.head? = some ';' → Stands b t u a
  | behind : u = b ++ x → Trail t x a → Stands b t u a

theorem Trail.stands (h : Trail (b ++ t) u a) : Stands b t u a := by
  obtain ⟨⟨m, hs, hm⟩, ha⟩ := h
  rcases List.append_eq_append_iff.mp hs with ⟨x, rfl, ht⟩ | ⟨x, hb, hx⟩
  · exact .behind rfl ⟨⟨m, ht, hm⟩, ha⟩
  cases x with
  | nil => exact .behind (x := []) (by simpa using hb.symm) ⟨⟨m, by simpa using hx.symm, hm⟩, ha⟩
  | cons c x =>
    obtain ⟨rfl, he⟩ : ';' = c ∧ m ++ a = x ++ t := List.cons.inj hx
    rcases List.append_eq_append_iff.mp he with ⟨y, rfl, rfl⟩ | ⟨y, rfl, rfl⟩
    · exact .before hb hm rfl ha.begins
    · obtain ⟨hl, hy⟩ := List.forall_mem_append.mp hm
      cases y with
      | nil => exact .before (v := []) (by simpa using hb) hl rfl (.behind .nil ha)
      | cons d y =>
        obtain rfl := hy d (by simp)
        exact .across hb hl rfl

theorem getLast?_semicolons {m : List Char} (u : List Char) (hm : ∀ c ∈ m, c = ';') :
    (u ++ ';' :: m).getLast? = some ';' := by
  rcases List.eq_nil_or_concat m with rfl | ⟨l, c, rfl⟩
  · exact List.getLast?_concat
  · rw [hm c (by simp), List.concat_eq_append, ← List.cons_append, ← List.append_assoc]
    exact List.getLast?_concat

/-- A separator of a text hides the one behind the text: other separators and
white space, then the beginning of a comment that reaches to the end. -/
inductive Shadows (tail : List Char) : List Char → Prop
  | line : (∀ c ∈ m, c = ';') → Blank w → '\n' ∉ x → '\n' ∉ tail →
      Shadows tail (m ++ (w ++ '-' :: '-' :: x))
  | block : (∀ c ∈ m, c = ';') → Blank w → ['*', '/'] <:+ tail →
      Shadows tail (m ++ (w ++ '/' :: '*' :: x))

theorem Shadows.of_begins (hm : ∀ c ∈ m, c = ';') (ht : t ≠ []) (h : Begins v (';' :: t)) :
    Shadows t (m ++ v) := by
  cases h with
  | behind _ h => exact absurd rfl h.head?_ne_semicolon
  | dash _ _ h => cases h
  | slash _ _ h => cases h
  | line hw hv hx hn =>
    rw [hv]
    exact .line hm hw hx fun h => hn (List.mem_cons_of_mem _ h)
  | block hw hv hx =>
    rw [hv]
    exact .block hm hw ((ends_block_iff (by decide) ht).mp hx)

theorem Shadows.trail (h : Shadows t v) (u : List Char) :
    ∃ a, Trail (u ++ ';' :: v ++ ';' :: t) u a := by
  cases h with
  | @line m w x hm hw hx ht =>
    refine ⟨w ++ '-' :: '-' :: (x ++ ';' :: t), ⟨m, by simp, hm⟩, .blank_append hw (.line ?_)⟩
    simp [hx, ht]
  | @block m w x hm hw ht =>
    refine ⟨w ++ '/' :: '*' :: (x ++ ';' :: t), ⟨m, by simp, hm⟩, .blank_append hw (.block ?_)⟩
    exact (ht.trans (List.suffix_cons _ _)).trans (List.suffix_append _ _)

/-- A text, white space and one comment, with nothing at the ends that trimming
would take. -/
structure Commented (s w c : List Char) : Prop where
  starts : StartsSolid s
  head : s.head? ≠ some ';'
  last : s.getLast? ≠ some ';'
  unquoted : (Scan.start.run s).quote = none
  blank : Blank w
  comment : IsComment c
  ends : EndsSolid c
  comment_last : c.getLast? ≠ some ';'

theorem Commented.trimSeparators (h : Commented s w c) :
    trimSeparators (s ++ ';' :: (w ++ c)) = s ++ ';' :: (w ++ c) := by
  have hends : s ++ ';' :: (w ++ c) = s ++ ';' :: w ++ c := by simp
  obtain ⟨d, r, rfl, -⟩ := h.starts
  obtain ⟨u, e, rfl, -⟩ := h.ends
  refine trimSeparators_eq_self_iff.mpr (.inr ⟨⟨h.starts.append _, ?_⟩, h.head, ?_⟩)
  · rw [hends]
    exact h.ends.append _
  · have hl := h.comment_last
    rw [hends, ← List.append_assoc, List.getLast?_concat]
    rwa [List.getLast?_concat] at hl

theorem Commented.endComment (h : Commented s w c) : EndComment (w ++ c) :=
  .blank_append h.blank h.comment.endComment

theorem Commented.trail (h : Commented s w c) : Trail (s ++ ';' :: (w ++ c)) s (w ++ c) :=
  ⟨⟨[], rfl, by simp⟩, h.endComment⟩

theorem Commented.stored_iff (h : Commented s w c) :
    stored (s ++ ';' :: (w ++ c)) = s ++ (w ++ c) ↔
      FirstTrail (s ++ ';' :: (w ++ c)) s (w ++ c) := by
  have hr := removes_iff (q := s ++ ';' :: (w ++ c)) (b := s) (a := w ++ c)
  rw [h.trimSeparators, and_iff_left h.unquoted] at hr
  rw [← hr]
  constructor
  · intro hs
    exact ⟨[';'], h.trimSeparators, hs, by simp, by simp, h.endComment.head?_ne_semicolon⟩
  · exact fun ⟨m, hm⟩ => hm.stored

/-- The separator before a comment at the end goes when no separator earlier in
the text has the beginning of a comment behind it that reaches to the end. -/
theorem stored_trailing_iff (h : Commented s w c) :
    stored (s ++ ';' :: (w ++ c)) = s ++ (w ++ c) ↔
      ∀ u v, s = u ++ ';' :: v → ¬ Shadows (w ++ c) v := by
  rw [h.stored_iff]
  constructor
  · rintro hf u v rfl hs
    obtain ⟨a, ha⟩ := hs.trail u
    exact hf.not_before ha
  · refine fun hno => ⟨h.trail, fun u a hu => ?_⟩
    cases hu.stands with
    | @before m v hs hm ha hb =>
      exact absurd (.of_begins hm h.endComment.ne_nil hb) (hno u (m ++ v) hs)
    | across hs hm => exact absurd (hs ▸ getLast?_semicolons u hm) h.last
    | behind hu => exact ⟨_, hu.symm⟩

theorem stored_trailing_iff_line :
    Commented "SELECT 1".toList [' '] ['-', '-', 'a'] ∧
      stored "SELECT 1; --a".toList = "SELECT 1 --a".toList := by
  have h : Commented "SELECT 1".toList [' '] ['-', '-', 'a'] :=
    ⟨⟨'S', "ELECT 1".toList, by decide +kernel⟩, by decide +kernel, by decide +kernel,
      by decide +kernel, blank_space, .line (by decide), ⟨['-', '-'], 'a', by decide⟩, by decide⟩
  have hsemi : ';' ∉ "SELECT 1".toList := by decide +kernel
  have hs := (stored_trailing_iff h).mpr fun u v hu => absurd (by simp [hu]) hsemi
  have htext : "SELECT 1; --a".toList = "SELECT 1".toList ++ ';' :: ([' '] ++ ['-', '-', 'a']) ∧
      "SELECT 1 --a".toList = "SELECT 1".toList ++ ([' '] ++ ['-', '-', 'a']) := by
    decide +kernel
  refine ⟨h, ?_⟩
  rw [htext.1, htext.2]
  exact hs

/-- A semicolon in a literal, before what looks like a comment. -/
theorem shadowed_separator_stays :
    Commented "SELECT ';--'".toList [] ['-', '-', 'x'] ∧
      stored ("SELECT ';--'".toList ++ ';' :: ([] ++ ['-', '-', 'x'])) ≠
        "SELECT ';--'".toList ++ ([] ++ ['-', '-', 'x']) := by
  refine ⟨⟨⟨'S', "ELECT ';--'".toList, ?_⟩, ?_, ?_, ?_, .nil, .line (by decide),
    ⟨['-', '-'], 'x', by decide⟩, by decide⟩, ?_⟩ <;> decide +kernel

end SafeReports.Sql
