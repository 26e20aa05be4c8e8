import Mathlib.Data.List.Infix
import SafeReports.Proofs.Sql.Comment
import SafeReports.Proofs.Sql.Reading

/-!
# Two passes and one

The guard takes out line comments first, wherever they stand, then block
comments. This is what one reading from left to right leaves, provided that no
line comment seems to begin on the last line of a block comment, where it would
hide the end of the block, and that no comment seems to begin in a quoted span.
-/

namespace SafeReports.Sql

open Text

-- ---------------------------------------------------------------------------
-- Lines of a block comment
-- ---------------------------------------------------------------------------

/-- The text has dashes on its last line, so that for the first pass what
follows on this line is comment. -/
def Swallows (m : List Char) : Prop := ∃ x y, m = x ++ '-' :: '-' :: y ∧ '\n' ∉ y

theorem lines_run_comment (h : '\n' ∉ m) : lines.run .comment m = .comment := by
  induction m with
  | nil => rfl
  | cons c m ih =>
    have hc : c ≠ '\n' := fun hc => h (by simp [hc])
    simpa [Scanner.run_cons, lines, hc] using ih fun hm => h (by simp [hm])

theorem Swallows.run (h : Swallows m) (st : LineState) : lines.run st m = .comment := by
  obtain ⟨x, y, rfl, hy⟩ := h
  rw [Scanner.run_append]
  cases lines.run st x with
  | text => exact lines_run_comment hy
  | dash => exact lines_run_comment (m := '-' :: y) (by simpa using hy)
  | comment => exact lines_run_comment (m := '-' :: '-' :: y) (by simpa using hy)

/-- Where a line comment that is open at the end was opened. -/
theorem swallows_of_run_from (h : lines.run st m = .comment) :
    (st = .comment ∧ '\n' ∉ m) ∨ (st = .dash ∧ ∃ y, m = '-' :: y ∧ '\n' ∉ y) ∨ Swallows m := by
  induction m generalizing st with
  | nil => exact .inl ⟨h, List.not_mem_nil⟩
  | cons c r ih =>
    rcases ih h with ⟨hs, hr⟩ | ⟨hs, y, rfl, hy⟩ | ⟨x, y, rfl, hy⟩
    · cases st with
      | text => by_cases hc : c = '-' <;> simp [lines, hc] at hs
      | dash =>
        by_cases hc : c = '-'
        · exact .inr (.inl ⟨rfl, r, by rw [hc], hr⟩)
        · simp [lines, hc] at hs
      | comment =>
        by_cases hc : c = '\n'
        · simp [lines, hc] at hs
        · exact .inl ⟨rfl, by simpa using ⟨Ne.symm hc, hr⟩⟩
    · cases st with
      | text =>
        by_cases hc : c = '-'
        · exact .inr (.inr ⟨[], y, by rw [hc]; rfl, hy⟩)
        · simp [lines, hc] at hs
      | dash => by_cases hc : c = '-' <;> simp [lines, hc] at hs
      | comment => by_cases hc : c = '\n' <;> simp [lines, hc] at hs
    · exact .inr (.inr ⟨c :: x, y, rfl, hy⟩)

theorem swallows_of_run (h : lines.run .text m = .comment) : Swallows m := by
  rcases swallows_of_run_from h with ⟨hs, -⟩ | ⟨hs, -⟩ | h
  · cases hs
  · cases hs
  · exact h

theorem swallows_iff : Swallows m ↔ lines.run .text m = .comment :=
  ⟨fun h => h.run .text, swallows_of_run⟩

instance (m : List Char) : Decidable (Swallows m) := decidable_of_iff _ swallows_iff.symm

/-- A block comment that swallows nothing passes the first pass as a block. -/
theorem lines_output_block (hm : ¬ Swallows m) (r : List Char) :
    lines.output .text ('/' :: '*' :: (m ++ '*' :: '/' :: r)) =
      '/' :: '*' :: (lines.output .text m ++ '*' :: '/' :: lines.output .text r) := by
  have hst : lines.run .text m ≠ .comment := fun h => hm (swallows_of_run h)
  have hopen := lines_output_plain (w := ['/', '*']) (by decide) (m ++ '*' :: '/' :: r)
  have hclose := lines_output_plain (w := ['*', '/']) (by decide) r
  calc lines.output .text ('/' :: '*' :: (m ++ '*' :: '/' :: r))
      = '/' :: '*' :: lines.output .text (m ++ '*' :: '/' :: r) := hopen
    _ = '/' :: '*' :: (lines.written .text m ++ (lines.flush (lines.run .text m) ++
          lines.output .text ('*' :: '/' :: r))) := by
      rw [Scanner.output_append, lines_output_flush hst (by simp)]
    _ = '/' :: '*' :: (lines.output .text m ++ lines.output .text ('*' :: '/' :: r)) := by
      rw [← List.append_assoc]
      rfl
    _ = '/' :: '*' :: (lines.output .text m ++ '*' :: '/' :: lines.output .text r) :=
      congrArg (fun x => '/' :: '*' :: (lines.output .text m ++ x)) hclose

theorem lines_output_head {d : Char} (h : lines.output .text r = d :: t) (hd : d ≠ '\n') :
    ∃ t', r = d :: t' := by
  have hcomment : ∀ r, lines.output .comment r = d :: t → False := by
    intro r hr
    induction r with
    | nil => cases hr
    | cons c r ih =>
      by_cases hc : c = '\n'
      · subst hc
        exact hd (List.cons.inj hr).1.symm
      · exact ih (by simpa [Scanner.output_cons, lines, hc] using hr)
  cases r with
  | nil => cases h
  | cons c r =>
    by_cases hc : ∃ t, c = '-' ∧ r = '-' :: t
    · obtain ⟨t, rfl, rfl⟩ := hc
      exact (hcomment t h).elim
    · rw [lines_output_char fun t h₁ h₂ => hc ⟨t, h₁, h₂⟩] at h
      exact ⟨r, by rw [(List.cons.inj h).1]⟩

/-- The first pass brings no `*/` about. -/
theorem infix_of_infix_lines (h : ['*', '/'] <:+: outsideLines b m) : ['*', '/'] <:+: m := by
  fun_induction outsideLines b m with
  | case1 b => exact h
  | case2 r ih =>
    rcases List.infix_cons_iff.mp h with ⟨t, ht⟩ | h
    · exact absurd (List.cons.inj ht).1 (by decide)
    · exact (ih h).trans (List.suffix_cons _ _).isInfix
  | case3 c r hc ih => exact (ih h).trans (List.suffix_cons _ _).isInfix
  | case4 r ih => exact (ih h).trans ((List.suffix_cons _ _).trans (List.suffix_cons _ _)).isInfix
  | case5 c r hc ih =>
    rcases List.infix_cons_iff.mp h with ⟨t, ht⟩ | h
    · have htail : '/' :: t = outsideLines false r := (List.cons.inj ht).2
      obtain ⟨u, rfl⟩ := lines_output_head ((outsideLines_eq false r).symm.trans htail.symm)
        (by decide)
      exact ⟨[], u, by rw [← (List.cons.inj ht).1]; rfl⟩
    · exact (ih h).trans (List.suffix_cons _ _).isInfix

theorem not_infix_lines (hm : ¬ ['*', '/'] <:+: m) : ¬ ['*', '/'] <:+: lines.output .text m := by
  intro h
  rw [← dropLineComments_eq, dropLineComments] at h
  exact hm (infix_of_infix_lines h)

-- ---------------------------------------------------------------------------
-- Bodies of block comments
-- ---------------------------------------------------------------------------

/-- A block comment stays open, and hides its text, up to the first `*/`. -/
theorem blocks_comment {s : BlockState} (ho : s.isOpen = true) (hm : ¬ ['*', '/'] <:+: m)
    (hs : s = .star → ∀ t, m = '/' :: t → False) :
    (blocks.run s m).isOpen = true ∧ blocks.written s m = [] := by
  induction m generalizing s with
  | nil => exact ⟨ho, rfl⟩
  | cons c m ih =>
    have hstep : (blocks.step s c).isOpen = true ∧ blocks.emit s c = [] ∧
        (blocks.step s c = .star → c = '*') := by
      cases s with
      | text => cases ho
      | slash => cases ho
      | comment => by_cases hc : c = '*' <;> simp [blocks, hc, BlockState.isOpen]
      | star =>
        have hc : c ≠ '/' := fun hc => hs rfl m (by rw [hc])
        by_cases hc' : c = '*' <;> simp [blocks, hc, hc', BlockState.isOpen]
    obtain ⟨h₁, h₂, h₃⟩ := hstep
    have hnext : blocks.step s c = .star → ∀ t, m = '/' :: t → False := by
      rintro h t rfl
      obtain rfl := h₃ h
      exact hm ⟨[], t, rfl⟩
    obtain ⟨ho, hw⟩ := ih h₁ (not_infix_tail hm) hnext
    exact ⟨ho, by rw [Scanner.written, h₂, hw]; rfl⟩

theorem blocks_block (hm : ¬ ['*', '/'] <:+: m) (r : List Char) :
    blocks.output .text ('/' :: '*' :: (m ++ '*' :: '/' :: r)) = blocks.output .text r ∧
      blocks.run .text ('/' :: '*' :: (m ++ '*' :: '/' :: r)) = blocks.run .text r := by
  obtain ⟨ho, hw⟩ := blocks_comment (s := .comment) rfl hm nofun
  have hclose : ∀ st : BlockState, st.isOpen = true →
      blocks.output st ('*' :: '/' :: r) = blocks.output .text r ∧
        blocks.run st ('*' :: '/' :: r) = blocks.run .text r := by
    intro st hst
    cases st with
    | text => cases hst
    | slash => cases hst
    | comment => exact ⟨rfl, rfl⟩
    | star => exact ⟨rfl, rfl⟩
  constructor
  · show blocks.output .comment (m ++ '*' :: '/' :: r) = _
    rw [Scanner.output_append, hw, List.nil_append, (hclose _ ho).1]
  · show blocks.run .comment (m ++ '*' :: '/' :: r) = _
    rw [Scanner.run_append, (hclose _ ho).2]

theorem blocks_unclosed (hm : ¬ ['*', '/'] <:+: m) :
    (blocks.run .text ('/' :: '*' :: m)).isOpen = true :=
  (blocks_comment (s := .comment) rfl hm nofun).1

-- ---------------------------------------------------------------------------
-- Agreement
-- ---------------------------------------------------------------------------

/-- A part of which the first pass takes nothing but itself. -/
def Part.IsContained : Part → Prop
  | block m => ¬ Swallows m
  | _ => True

instance (p : Part) : Decidable p.IsContained :=
  match p with
  | .block m => inferInstanceAs (Decidable (¬ Swallows m))
  | .text _ => inferInstanceAs (Decidable True)
  | .quoted _ => inferInstanceAs (Decidable True)
  | .line _ => inferInstanceAs (Decidable True)
  | .unclosed _ => inferInstanceAs (Decidable True)

/-- Both passes can take the parts for what they are: no block comment swallows
its end, and no comment seems to begin in a quoted span. -/
structure Plain (ps : List Part) : Prop where
  contained : ∀ p ∈ ps, p.IsContained
  dashes : ¬ [.quoted '-', .quoted '-'] <:+: ps
  opens : ¬ [.quoted '/', .quoted '*'] <:+: ps

instance (ps : List Part) : Decidable (Plain ps) :=
  decidable_of_iff ((∀ p ∈ ps, p.IsContained) ∧ ¬ [.quoted '-', .quoted '-'] <:+: ps ∧
      ¬ [.quoted '/', .quoted '*'] <:+: ps)
    ⟨fun ⟨hc, hd, ho⟩ => ⟨hc, hd, ho⟩, fun ⟨hc, hd, ho⟩ => ⟨hc, hd, ho⟩⟩

theorem Plain.tail (h : Plain (p :: ps)) : Plain ps :=
  ⟨fun p' hp' => h.contained p' (List.mem_cons_of_mem p hp'),
    fun hi => h.dashes (hi.trans (List.suffix_cons p ps).isInfix),
    fun hi => h.opens (hi.trans (List.suffix_cons p ps).isInfix)⟩

theorem plain_of_unquoted (hb : ∀ p ∈ ps, p.IsContained) (hq : ∀ d, .quoted d ∉ ps) :
    Plain ps :=
  ⟨hb, fun h => hq '-' (h.subset (by simp)), fun h => hq '/' (h.subset (by simp))⟩

theorem QuoteFree.not_quoted (h : QuoteFree q) (d : Char) : .quoted d ∉ parts q :=
  (reads_parts q).not_quoted rfl h d

/-- Where no block is open for the second pass, none is unclosed, and both passes
leave the live text. -/
theorem Reads.passes_eq (h : Reads s q ps) (hs : s.Proper) (hp : Plain ps)
    (hc : (blocks.run .text (lines.output .text q)).isOpen = false) :
    blocks.output .text (lines.output .text q) = liveText ps ∧ ∀ m, .unclosed m ∉ ps := by
  induction h with
  | nil => exact ⟨rfl, fun _ => List.not_mem_nil⟩
  | @char s c r ps hl hb hr ih =>
    -- no marker begins at `c`, be it live text or quoted
    have hd : ∀ t, c = '-' → r = '-' :: t → False := by
      rintro t rfl rfl
      cases hq : s.quote with
      | none => exact hl hq t rfl rfl
      | some k =>
        exact hp.dashes ((Reads.char hl hb hr).quoted_pair ⟨k, hq, hs k hq⟩ (by decide))
    have hbl : ∀ t, c = '/' → lines.output .text r = '*' :: t → False := by
      rintro t rfl ht
      obtain ⟨t', rfl⟩ := lines_output_head ht (by decide)
      cases hq : s.quote with
      | none => exact hb hq t' rfl rfl
      | some k =>
        exact hp.opens ((Reads.char hl hb hr).quoted_pair ⟨k, hq, hs k hq⟩ (by decide))
    rw [lines_output_char hd] at hc ⊢
    obtain ⟨hout, hno⟩ := ih (hs.step c) hp.tail ((blocks_open_char hbl).symm.trans hc)
    rw [blocks_output_char hbl, hout, liveText_part]
    refine ⟨rfl, fun m hm => ?_⟩
    rcases List.mem_cons.mp hm with hm | hm
    · exact s.part_ne_unclosed c m hm.symm
    · exact hno m hm
  | lineEnd _ hm =>
    have hl := lines_output_comment hm []
    rw [List.append_nil] at hl
    exact ⟨congrArg (blocks.output .text) hl, by simp⟩
  | @line s m r ps _ hm _ ih =>
    have hl : lines.output .text ('-' :: '-' :: (m ++ '\n' :: r)) =
        '\n' :: lines.output .text r := lines_output_comment hm ('\n' :: r)
    rw [hl] at hc ⊢
    obtain ⟨hout, hno⟩ := ih nofun hp.tail.tail hc
    exact ⟨congrArg ('\n' :: ·) hout, by simpa using hno⟩
  | @block s m r ps _ hm _ ih =>
    rw [lines_output_block (hp.contained (.block m) (by simp))] at hc ⊢
    obtain ⟨ho, hrun⟩ := blocks_block (not_infix_lines hm) (lines.output .text r)
    rw [hrun] at hc
    obtain ⟨hout, hno⟩ := ih nofun hp.tail hc
    exact ⟨ho.trans hout, by simpa using hno⟩
  | @unclosed s m _ hm =>
    rw [show '/' :: '*' :: m = ['/', '*'] ++ m from rfl, lines_output_plain (by decide)] at hc
    exact absurd ((blocks_unclosed (not_infix_lines hm)).symm.trans hc) (by decide)

theorem passes_eq_live (hc : Clean (normalize q)) (hp : Plain (parts q)) :
    visible q = live q ∧ ∀ m, .unclosed m ∉ parts q := by
  have ho := closed_of_clean hc
  have h := (reads_parts q).passes_eq nofun hp (by rwa [blockState, dropLineComments_eq] at ho)
  rw [visible_eq ho, dropLineComments_eq, h.1, live]
  exact ⟨rfl, h.2⟩

/-- Where its parts are plain, the guard sees of an accepted query what is live. -/
theorem visible_eq_live (hc : Clean (normalize q)) (hp : Plain (parts q)) : visible q = live q :=
  (passes_eq_live hc hp).1

end SafeReports.Sql
