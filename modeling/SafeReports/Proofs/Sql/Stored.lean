import SafeReports.Proofs.Sql.Seam
import SafeReports.Proofs.Sql.Separator
import SafeReports.Sql.Stored

/-!
# The stored form of an accepted query

Trimming takes from an accepted query what the guard has no objection to. The
separator before a closing comment is another matter: the text taken for one
comment may hold several and text between them, and without the semicolon the
guard may read it differently.
-/

namespace SafeReports.Sql

open Text

-- ---------------------------------------------------------------------------
-- The closing comment
-- ---------------------------------------------------------------------------

/-- White space, then a line comment to the end of the text or the beginning of
a block comment. -/
inductive Closing : List Char → Prop
  | line : Blank w → '\n' ∉ m → Closing (w ++ '-' :: '-' :: m)
  | block : Blank w → Closing (w ++ '/' :: '*' :: m)

theorem blockToEnd?_spec (h : blockToEnd? s = some t) : ∃ e, s = t ++ e ∧ Blank e := by
  fun_induction blockToEnd? s generalizing t with
  | case1 => cases h
  | case2 r hr =>
    obtain rfl := Option.some.inj h
    exact ⟨r, rfl, isBlankText_iff.mp hr⟩
  | case3 r hr ih =>
    obtain ⟨u, hu, rfl⟩ := Option.map_eq_some_iff.mp h
    obtain ⟨e, he, hb⟩ := ih hu
    exact ⟨e, by rw [he]; rfl, hb⟩
  | case4 c r hc ih =>
    obtain ⟨u, hu, rfl⟩ := Option.map_eq_some_iff.mp h
    obtain ⟨e, rfl, hb⟩ := ih hu
    exact ⟨e, rfl, hb⟩

theorem comment?_spec (h : comment? s = some t) (hw : Blank w) :
    Closing (w ++ t) ∧ ∃ e, s = t ++ e ∧ Blank e := by
  unfold comment? at h
  split at h
  · rename_i r
    split at h
    · rename_i hr
      obtain rfl := Option.some.inj h
      refine ⟨.line hw fun hm => ?_, r.dropWhile (· != '\n'), ?_, isBlankText_iff.mp hr⟩
      · simpa using List.all_eq_true.mp List.all_takeWhile _ hm
      · simp [List.takeWhile_append_dropWhile]
    · cases h
  · obtain ⟨u, hu, rfl⟩ := Option.map_eq_some_iff.mp h
    obtain ⟨e, rfl, he⟩ := blockToEnd?_spec hu
    exact ⟨.block hw, e, rfl, he⟩
  · cases h

theorem closing?_spec (h : closing? s = some t) : Closing t ∧ ∃ e, s = t ++ e ∧ Blank e := by
  obtain ⟨u, hu, rfl⟩ := Option.map_eq_some_iff.mp h
  obtain ⟨hc, e, he, hb⟩ := comment?_spec hu (blank_takeWhile s)
  refine ⟨hc, e, ?_, hb⟩
  rw [List.append_assoc, ← he, List.takeWhile_append_dropWhile]

theorem splitTrailing?_spec (h : splitTrailing? s = some (b, a)) :
    Closing a ∧ ∃ m e, s = b ++ (';' :: m) ++ a ++ e ∧ (∀ c ∈ m, c = ';') ∧ Blank e := by
  induction s generalizing b with
  | nil => cases h
  | cons c r ih =>
    simp only [splitTrailing?] at h
    split at h
    · rename_i tail ht
      obtain ⟨rfl, rfl⟩ := Prod.mk.inj (Option.some.inj h)
      split at ht
      · rename_i hc
        obtain ⟨hcl, e, he, hb⟩ := closing?_spec ht
        refine ⟨hcl, r.takeWhile (· == ';'), e, ?_, fun d hd => ?_, hb⟩
        · have hr : r.takeWhile (· == ';') ++ (tail ++ e) = r := by
            rw [← he, List.takeWhile_append_dropWhile]
          simp [hc, hr]
        · simpa using List.all_eq_true.mp List.all_takeWhile _ hd
      · cases ht
    · obtain ⟨⟨b', a'⟩, hr, he⟩ := Option.map_eq_some_iff.mp h
      obtain ⟨rfl, rfl⟩ := Prod.mk.inj he
      obtain ⟨hcl, m, e, rfl, hm, hb⟩ := ih hr
      exact ⟨hcl, m, e, rfl, hm, hb⟩

-- ---------------------------------------------------------------------------
-- Trimming
-- ---------------------------------------------------------------------------

/-- More text of the first pass, without slashes and stars. -/
theorem visible_tail (hl : dropLineComments x = dropLineComments s ++ e) (hslash : '/' ∉ e)
    (hstar : '*' ∉ e) (hc : (blockState x).isOpen = false) : visible x = visible s ++ e := by
  have hopen : (blockState s).isOpen = false := by
    rw [blockState, hl, Scanner.run_append, blocks_open_plain hslash hstar] at hc
    exact hc
  rw [blockState] at hopen
  rw [visible_eq hc, visible_eq hopen, hl, Scanner.output_append,
    blocks_output_flush hopen fun t ht => hstar (by simp [ht]), ← List.append_nil e,
    (blocks_output_plain hslash []).1, ← List.append_assoc]
  rfl

/-- White space and semicolons at the end of a text. -/
theorem Passes.of_append_separators (h : Passes (normalize (s ++ e)))
    (he : ∀ c ∈ e, isBlank c = true ∨ c = ';') : Passes (normalize s) := by
  have hn : ∀ d, isBlank d = false → d ≠ ';' → d ∉ e := by
    intro d hb hs hd
    rcases he d hd with h | h
    · simp [hb] at h
    · exact hs h
  obtain ⟨e', hsub, hout⟩ := lines_output_tail (hn '-' (by decide) (by decide)) (lines.run .text s)
  have hl : dropLineComments (s ++ e) = dropLineComments s ++ e' := by
    rw [dropLineComments_eq, Scanner.output_append, hout, ← List.append_assoc, dropLineComments_eq]
    rfl
  have hslash : '/' ∉ e' := fun hm => hn '/' (by decide) (by decide) (hsub.subset hm)
  have hstar : '*' ∉ e' := fun hm => hn '*' (by decide) (by decide) (hsub.subset hm)
  have hv := visible_tail hl hslash hstar (closed_of_clean h.1)
  rw [normalize_eq, hv] at h
  obtain ⟨w, t, rfl, hw, ht⟩ := exists_blank_append e'
  rcases ht with rfl | ⟨c, r, rfl, hc⟩
  · rwa [normalForm_append_blank (by simpa using hw)] at h
  · obtain rfl : c = ';' := (he c (hsub.subset (by simp))).resolve_left (by simp [hc])
    rw [← List.append_assoc] at h
    have := h.before_mark (by decide)
    rwa [normalForm_append_blank hw] at this

theorem Passes.not_semicolon (hw : Blank w) (h : Passes (normalize (w ++ ';' :: r))) : False := by
  have hopen := closed_of_clean h.1
  have hd : '-' ∉ w ++ [';'] := by
    simpa using fun hm => absurd (hw _ hm) (by decide)
  have hs : '/' ∉ w ++ [';'] := by
    simpa using fun hm => absurd (hw _ hm) (by decide)
  rw [← List.singleton_append, ← List.append_assoc] at h hopen
  rw [blockState_plain hd hs] at hopen
  rw [normalize_eq, visible_plain hd hs hopen, List.append_assoc, List.singleton_append] at h
  exact h.not_blank_before (by decide) hw

/-- White space and separators stand around the trimmed text. -/
theorem exists_trimSeparators (q : List Char) : ∃ x y, q = x ++ trimSeparators q ++ y ∧
    (∀ c ∈ x, isBlank c = true ∨ c = ';') ∧ ∀ c ∈ y, isBlank c = true ∨ c = ';' := by
  obtain ⟨a₁, b₁, h₁, ha₁, hb₁⟩ := exists_trim isBlank q
  obtain ⟨a₂, b₂, h₂, ha₂, hb₂⟩ := exists_trim (· == ';') (strip q)
  obtain ⟨a₃, b₃, h₃, ha₃, hb₃⟩ := exists_trim isBlank (trim (· == ';') (strip q))
  have hq : q = a₁ ++ (a₂ ++ (a₃ ++ trimSeparators q ++ b₃) ++ b₂) ++ b₁ := by
    rw [trimSeparators, strip, ← h₃, ← h₂, strip, ← h₁]
  refine ⟨a₁ ++ a₂ ++ a₃, b₃ ++ b₂ ++ b₁, by simpa using hq, fun c hc => ?_, fun c hc => ?_⟩
  · simp only [List.mem_append] at hc
    rcases hc with (hc | hc) | hc
    · exact .inl (ha₁ c hc)
    · exact .inr (by simpa using ha₂ c hc)
    · exact .inl (ha₃ c hc)
  · simp only [List.mem_append] at hc
    rcases hc with (hc | hc) | hc
    · exact .inl (hb₃ c hc)
    · exact .inr (by simpa using hb₂ c hc)
    · exact .inl (hb₁ c hc)

/-- Before an accepted query no separator stands. -/
theorem Passes.blank_before (h : Passes (normalize (x ++ s)))
    (hx : ∀ c ∈ x, isBlank c = true ∨ c = ';') : Blank x := by
  obtain ⟨w, r, rfl, hw, hr⟩ := exists_blank_append x
  rcases hr with rfl | ⟨c, r, rfl, hc⟩
  · simpa using hw
  · obtain rfl : c = ';' := (hx c (by simp)).resolve_left (by simp [hc])
    exact (Passes.not_semicolon hw (by simpa using h)).elim

/-- The guard accepts an accepted query without the white space and the
separators at its ends. -/
theorem accepts_trimSeparators {g : Guard} (h : g.Accepts q) : g.Accepts (trimSeparators q) := by
  obtain ⟨hp, hc⟩ := Guard.accepts_iff.mp h
  obtain ⟨x, y, hq, hx, hy⟩ := exists_trimSeparators q
  rw [hq] at hp
  have hw : Blank x := Passes.blank_before (by rwa [List.append_assoc] at hp) hx
  have hd : '-' ∉ x := fun hm => absurd (hw _ hm) (by decide)
  have hs' : '/' ∉ x := fun hm => absurd (hw _ hm) (by decide)
  refine Guard.accepts_iff.mpr ⟨?_, ?_⟩
  · have hs := hp.of_append_separators hy
    have hopen := closed_of_clean hs.1
    rw [blockState_plain hd hs'] at hopen
    rwa [normalize_blank_append hw hopen] at hs
  · calc countSeparators (trimSeparators q)
        ≤ countSeparators (x ++ trimSeparators q ++ y) := countSeparators_le_around hw _ _
      _ = countSeparators q := by rw [← hq]
      _ ≤ 1 := hc

-- ---------------------------------------------------------------------------
-- Without the semicolon
-- ---------------------------------------------------------------------------

/-- The stored form of the query lacks the separator between these parts. -/
def DropsBetween (q before after : List Char) : Prop :=
  splitTrailing? (trimSeparators q) = some (before, after) ∧
    countSeparators before < countSeparators (before ++ [';'])

/-- The guard reads the end of the text as outside comments. -/
def EndsOutside (s : List Char) : Prop :=
  lineState s ≠ .comment ∧ (blockState s).isOpen = false

/-- A star of a block comment at the end of one text and a slash at the start of
the other close the comment. -/
def ClosesEarly (b a : List Char) : Prop :=
  lineState b ≠ .comment ∧ blockState b = .star ∧ a.head? = some '/'

/-- Nothing is lost when the separator between these parts goes. Where a comment
closes early, what it shows of the second part must pass behind what stands
before the comment; outside comments, the parts must not come together in a
pattern of the guard. -/
structure Harmless (before after : List Char) : Prop where
  early : ClosesEarly before after →
    Passes (normalForm (visible (before ++ ['/']) ++ visible after.tail))
  outside : EndsOutside before → KeepsApart (visible before) (visible after)

theorem Harmless.of_blank (he : ¬ ClosesEarly b a) (ha : Blank (visible a)) : Harmless b a :=
  ⟨fun h => absurd h he, fun _ => .of_blank ha⟩

theorem dropLineComments_append (hb : lineState b ≠ .comment) (ha : ∀ t, a = '-' :: t → False) :
    dropLineComments (b ++ a) = dropLineComments b ++ dropLineComments a := by
  have hf := lines_output_flush hb ha
  rw [lineState] at hf
  rw [dropLineComments_eq, Scanner.output_append, hf, ← List.append_assoc, dropLineComments_eq,
    dropLineComments_eq]
  rfl

theorem dropLineComments_semicolon (s : List Char) :
    dropLineComments (';' :: s) = ';' :: dropLineComments s :=
  dropLineComments_plain (w := [';']) (by decide) s

/-- A slash that closes a comment shows all that follows. -/
theorem visible_close (hb : lineState b ≠ .comment) (hs : blockState b = .star) (t : List Char) :
    visible (b ++ '/' :: t) = visible (b ++ ['/']) ++ visible t := by
  have hl : ∀ t, dropLineComments (b ++ '/' :: t) =
      dropLineComments b ++ ['/'] ++ dropLineComments t := by
    intro t
    rw [dropLineComments_append hb (by simp), ← List.singleton_append,
      dropLineComments_plain (by decide), List.append_assoc]
  have hclose : dropLineComments (b ++ ['/']) = dropLineComments b ++ ['/'] :=
    (hl []).trans (List.append_nil _)
  have hrun : blocks.run .text (dropLineComments b ++ ['/']) = .text := by
    have hs : blocks.run .text (dropLineComments b) = .star := hs
    rw [Scanner.run_append, hs]
    rfl
  rw [visible, hl, dropBlockComments, outsideBlocks_append (b := false) hrun, ← hclose]
  rfl

theorem ClosesEarly.normalize_eq (h : ClosesEarly b a) :
    normalize (b ++ a) = normalForm (visible (b ++ ['/']) ++ visible a.tail) := by
  obtain ⟨hb, hs, ha⟩ := h
  obtain ⟨t, rfl⟩ := List.head?_eq_some_iff.mp ha
  rw [Sql.normalize_eq, visible_close hb hs, List.tail_cons]

/-- In a line comment the semicolon is not read. -/
theorem normalize_drop_line (hb : lineState b = .comment) :
    normalize (b ++ ';' :: a) = normalize (b ++ a) := by
  have hl : dropLineComments (b ++ ';' :: a) = dropLineComments (b ++ a) := by
    have hst : lines.run .text b = .comment := hb
    simp only [dropLineComments_eq]
    rw [Scanner.output_append, Scanner.output_append, hst]
    rfl
  rw [normalize_eq, normalize_eq, visible, visible, hl]

/-- In a block comment the semicolon counts only between a star and a slash. -/
theorem normalize_drop_block (hb : lineState b ≠ .comment) (ho : (blockState b).isOpen = true)
    (ha : ∀ t, a = '-' :: t → False)
    (hs : blockState b = .star → ∀ t, dropLineComments a = '/' :: t → False)
    (hc : (blockState (b ++ ';' :: a)).isOpen = false) :
    normalize (b ++ ';' :: a) = normalize (b ++ a) := by
  have hl := dropLineComments_append hb ha
  have hl' : dropLineComments (b ++ ';' :: a) =
      dropLineComments b ++ ';' :: dropLineComments a := by
    rw [dropLineComments_append hb (by simp), dropLineComments_semicolon]
  -- both texts go on in the comment as if nothing of it had been read
  have hrun : (blocks.run (blockState b) (dropLineComments a)).isOpen =
      (blocks.run (blockState b) (';' :: dropLineComments a)).isOpen ∧
        blocks.output (blockState b) (dropLineComments a) =
          blocks.output (blockState b) (';' :: dropLineComments a) := by
    cases hst : blockState b with
    | text => simp [hst, BlockState.isOpen] at ho
    | slash => simp [hst, BlockState.isOpen] at ho
    | comment => exact ⟨rfl, rfl⟩
    | star => exact ⟨blocks_open_star (hs hst), blocks_output_star (hs hst)⟩
  have hc' : (blockState (b ++ a)).isOpen = false := by
    rw [blockState, hl', Scanner.run_append] at hc
    rw [blockState, hl, Scanner.run_append]
    exact hrun.1.trans hc
  have hv : visible (b ++ ';' :: a) = visible (b ++ a) := by
    rw [visible_eq hc, visible_eq hc', hl, hl', Scanner.output_append, Scanner.output_append]
    exact congrArg (_ ++ ·) hrun.2.symm
  rw [normalize_eq, normalize_eq, hv]

theorem blockState_append (hb : EndsOutside b) (ha : ∀ t, a = '-' :: t → False)
    (hs : ∀ t, dropLineComments a = '*' :: t → False) :
    (blockState (b ++ a)).isOpen = (blockState a).isOpen := by
  rw [blockState, dropLineComments_append hb.1 ha, Scanner.run_append]
  exact blocks_open_flush hb.2 hs

theorem visible_append (hb : EndsOutside b) (ha : ∀ t, a = '-' :: t → False)
    (hs : ∀ t, dropLineComments a = '*' :: t → False) (hc : (blockState a).isOpen = false) :
    visible (b ++ a) = visible b ++ visible a := by
  have hf := blocks_output_flush hb.2 hs
  rw [blockState] at hf
  rw [visible_eq ((blockState_append hb ha hs).trans hc), visible_eq hb.2, visible_eq hc,
    dropLineComments_append hb.1 ha, Scanner.output_append, hf, ← List.append_assoc]
  rfl

/-- Outside comments the parts come together. -/
theorem passes_drop_outside (hb : EndsOutside b) (ha : ∀ t, a = '-' :: t → False)
    (hs : ∀ t, dropLineComments a = '*' :: t → False)
    (h : Passes (normalize (b ++ ';' :: a))) :
    Passes (normalize (b ++ a)) ↔ KeepsApart (visible b) (visible a) := by
  have hs' : ∀ t, dropLineComments (';' :: a) = '*' :: t → False := by
    simp [dropLineComments_semicolon]
  have hsemi : (blockState (';' :: a)).isOpen = false :=
    (blockState_append hb (by simp) hs').symm.trans (closed_of_clean h.1)
  have hc : (blockState a).isOpen = false := by
    rwa [← List.singleton_append, blockState_plain (by decide) (by decide)] at hsemi
  have hv : visible (';' :: a) = ';' :: visible a :=
    visible_plain (w := [';']) (by decide) (by decide) hc
  rw [normalize_eq, visible_append hb (by simp) hs' hsemi, hv] at h
  rw [normalize_eq, visible_append hb ha hs hc]
  exact passes_join_iff (by decide) h

theorem lines_output_no_newline (h : '\n' ∉ m) : lines.output .comment m = [] := by
  rw [← List.append_nil m, lines_output_comment h]
  rfl

/-- Before a line comment at the end the semicolon is the last that is read; a
dash before it becomes a part of the comment. -/
theorem passes_drop_line (hb : lineState b ≠ .comment) (hm : '\n' ∉ m)
    (h : Passes (normalize (b ++ ';' :: '-' :: '-' :: m))) :
    Passes (normalize (b ++ '-' :: '-' :: m)) := by
  have hl : dropLineComments (b ++ '-' :: '-' :: m) = lines.written .text b := by
    have htail : lines.output (lineState b) ('-' :: '-' :: m) = [] := by
      cases hst : lineState b with
      | text => exact lines_output_no_newline hm
      | dash => exact lines_output_no_newline (m := '-' :: m) (by simpa using hm)
      | comment => exact absurd hst hb
    rw [lineState] at htail
    rw [dropLineComments_eq, Scanner.output_append, htail, List.append_nil]
  have hl' : dropLineComments (b ++ ';' :: '-' :: '-' :: m) =
      lines.written .text b ++ (lines.flush (lineState b) ++ [';']) := by
    rw [dropLineComments_append hb (by simp), dropLineComments_semicolon, dropLineComments_eq,
      dropLineComments_eq, ← List.append_assoc]
    exact congrArg (_ ++ ';' :: ·) (lines_output_no_newline hm)
  have hplain : ∀ d, d ≠ '-' → d ≠ ';' → d ∉ lines.flush (lineState b) ++ [';'] := by
    intro d hd hsemi
    cases lineState b <;> simp [lines, hd, hsemi]
  have hv := visible_tail (hl ▸ hl') (hplain '/' (by decide) (by decide))
    (hplain '*' (by decide) (by decide)) (closed_of_clean h.1)
  rw [normalize_eq, hv] at h
  cases hst : lineState b with
  | text =>
    rw [hst] at h
    exact h.before_mark (c := ';') (by decide)
  | dash =>
    rw [hst] at h
    exact h.before_mark (c := '-') (by decide)
  | comment => exact absurd hst hb

theorem Closing.cases_head (h : Closing a) :
    (∃ m, '\n' ∉ m ∧ a = '-' :: '-' :: m) ∨ ∃ c r, a = c :: r ∧ c ≠ '-' ∧ c ≠ '*' := by
  have hblank : ∀ {c w}, Blank (c :: w) → c ≠ '-' ∧ c ≠ '*' := by
    intro c w hw
    have hc := (blank_cons_iff.mp hw).1
    exact ⟨by rintro rfl; exact absurd hc (by decide), by rintro rfl; exact absurd hc (by decide)⟩
  cases h with
  | @line w m hw hm =>
    cases w with
    | nil => exact .inl ⟨m, hm, rfl⟩
    | cons c w => exact .inr ⟨c, _, rfl, hblank hw⟩
  | @block w m hw =>
    cases w with
    | nil => exact .inr ⟨'/', _, rfl, by decide, by decide⟩
    | cons c w => exact .inr ⟨c, _, rfl, hblank hw⟩

/-- The condition under which the text passes without the semicolon. -/
theorem passes_drop_iff (hcl : Closing a) (h : Passes (normalize (b ++ ';' :: a))) :
    Passes (normalize (b ++ a)) ↔ Harmless b a := by
  by_cases hb : lineState b = .comment
  · rw [← normalize_drop_line hb]
    exact iff_of_true h ⟨fun he => absurd hb he.1, fun ho => absurd hb ho.1⟩
  rcases hcl.cases_head with ⟨m, hm, rfl⟩ | ⟨c, r, rfl, hc, hc'⟩
  · refine iff_of_true (passes_drop_line hb hm h) (.of_blank (fun he => nomatch he.2.2) ?_)
    have hl : dropLineComments ('-' :: '-' :: m) = [] :=
      (dropLineComments_eq _).trans (lines_output_no_newline hm)
    rw [visible, hl]
    exact .nil
  have hd : dropLineComments (c :: r) = c :: dropLineComments r :=
    dropLineComments_plain (w := [c]) (by simpa using hc.symm) r
  have ha : ∀ t, c :: r = '-' :: t → False := fun t ht => hc (List.cons.inj ht).1
  have hs : ∀ t, dropLineComments (c :: r) = '*' :: t → False := by
    intro t ht
    rw [hd] at ht
    exact hc' (List.cons.inj ht).1
  cases ho : (blockState b).isOpen with
  | false =>
    rw [passes_drop_outside ⟨hb, ho⟩ ha hs h]
    exact ⟨fun hk => ⟨fun he => by simp [he.2.1, BlockState.isOpen] at ho, fun _ => hk⟩,
      fun hh => hh.outside ⟨hb, ho⟩⟩
  | true =>
    have hout : ¬ EndsOutside b := fun hn => by simp [hn.2] at ho
    by_cases he : blockState b = .star ∧ c = '/'
    · have hearly : ClosesEarly b (c :: r) := ⟨hb, he.1, by simp [he.2]⟩
      rw [hearly.normalize_eq]
      exact ⟨fun hp => ⟨fun _ => hp, fun hn => absurd hn hout⟩, fun hh => hh.early hearly⟩
    · have hslash : blockState b = .star → ∀ t, dropLineComments (c :: r) = '/' :: t → False := by
        intro hst t ht
        rw [hd] at ht
        exact he ⟨hst, (List.cons.inj ht).1⟩
      rw [← normalize_drop_block hb ho ha hslash (closed_of_clean h.1)]
      refine iff_of_true h ⟨fun hn => absurd ⟨hn.2.1, ?_⟩ he, fun hn => absurd hn hout⟩
      simpa using hn.2.2

-- ---------------------------------------------------------------------------
-- The stored form
-- ---------------------------------------------------------------------------

/-- What the stored form is when a separator goes. -/
theorem DropsBetween.spec (h : DropsBetween q b a) (hc : countSeparators (trimSeparators q) ≤ 1) :
    Closing a ∧ trimSeparators q = b ++ ';' :: a ∧ stored q = b ++ a ∧
      (Scan.start.run b).quote = none := by
  obtain ⟨hsplit, hlt⟩ := h
  have hq := separates_iff.mp hlt
  obtain ⟨hcl, m, e, hs, hm, he⟩ := splitTrailing?_spec hsplit
  -- one separator, and no white space after the comment
  have hm' : m = [] := by
    cases m with
    | nil => rfl
    | cons c m =>
      obtain rfl := hm c (by simp)
      have hs' : trimSeparators q = b ++ ';' :: (';' :: (m ++ a ++ e)) := by simpa using hs
      rw [hs', countSeparators_drop hq, countSeparators_drop hq] at hc
      omega
  have hsolid : EndsSolid (trimSeparators q) := by
    refine (strip_endsSolid _).resolve_left fun hn => ?_
    rw [trimSeparators] at hs
    simp [hn] at hs
  have he' : e = [] := by
    refine Classical.byContradiction fun hn => ?_
    exact ((hs ▸ hsolid).of_append hn).not_blank he
  have hs : trimSeparators q = b ++ ';' :: a := by simpa [hm', he'] using hs
  refine ⟨hcl, hs, ?_, hq⟩
  have ha : a ≠ [] := by
    rintro rfl
    rcases hcl.cases_head with ⟨m, -, hn⟩ | ⟨c, r, hn, -⟩ <;> cases hn
  have hend : EndsSolid (b ++ a) := by
    rw [hs, List.append_cons] at hsolid
    exact (hsolid.of_append ha).append b
  simp only [stored, hsplit, hlt, ↓reduceIte]
  exact trimEnd_solid hend

theorem stored_of_not_drops (h : ∀ b a, ¬ DropsBetween q b a) : stored q = trimSeparators q := by
  simp only [stored]
  split
  · rename_i b a hsplit
    exact if_neg fun hlt => h b a ⟨hsplit, hlt⟩
  · rfl

/-- The guard accepts the stored form of an accepted query exactly when the
separator that goes is harmless. -/
theorem accepts_stored_iff {g : Guard} (h : g.Accepts q) :
    g.Accepts (stored q) ↔ ∀ b a, DropsBetween q b a → Harmless b a := by
  have ht := accepts_trimSeparators h
  obtain ⟨hp, hc⟩ := Guard.accepts_iff.mp ht
  by_cases hd : ∃ b a, DropsBetween q b a
  · obtain ⟨b, a, hd⟩ := hd
    obtain ⟨hcl, hs, hst, hq⟩ := hd.spec hc
    rw [hs] at hp hc
    have hcount : countSeparators (b ++ a) ≤ 1 := by
      rw [countSeparators_drop hq] at hc
      omega
    rw [hst, Guard.accepts_iff, and_iff_left hcount, passes_drop_iff hcl hp]
    constructor
    · intro hh b' a' hd'
      obtain ⟨rfl, rfl⟩ := Prod.mk.inj (Option.some.inj (hd.1.symm.trans hd'.1))
      exact hh
    · exact fun hh => hh b a hd
  · have hn : ∀ b a, ¬ DropsBetween q b a := fun b a hba => hd ⟨b, a, hba⟩
    rw [stored_of_not_drops hn]
    exact iff_of_true ht fun b a hba => absurd hba (hn b a)

theorem accepts_stored_iff_line_comment :
    Guard.standard.Accepts "SELECT 1; -- all".toList ∧
      (Guard.standard.Accepts (stored "SELECT 1; -- all".toList) ↔
        ∀ b a, DropsBetween "SELECT 1; -- all".toList b a → Harmless b a) :=
  have h : Guard.standard.Accepts "SELECT 1; -- all".toList := by decide +kernel
  ⟨h, accepts_stored_iff h⟩

/-- Two words that the semicolon kept apart are a forbidden phrase without it. -/
theorem stored_brings_together :
    Guard.standard.Accepts "SELECT DROP; /* */ TABLE x /* */".toList ∧
      ¬ Guard.standard.Accepts (stored "SELECT DROP; /* */ TABLE x /* */".toList) := by
  decide +kernel

end SafeReports.Sql
