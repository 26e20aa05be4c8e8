import SafeReports.Proofs.Sql.Verdict

/-!
# Comments read character by character

Each of the two passes over comments is a scanner with a state of its own. A
marker has two characters, so the first waits in the state until the second
decides. What a scanner writes for a text of two parts is what it writes for the
first, then for the second from the state the first leaves.
-/

namespace SafeReports.Sql

open Text

-- ---------------------------------------------------------------------------
-- Scanners
-- ---------------------------------------------------------------------------

structure Scanner (σ : Type) where
  step : σ → Char → σ
  emit : σ → Char → List Char
  /-- What waits in the state when the text ends. -/
  flush : σ → List Char

namespace Scanner

variable (m : Scanner σ)

def run (s : σ) (t : List Char) : σ := t.foldl m.step s

def written (s : σ) : List Char → List Char
  | [] => []
  | c :: r => m.emit s c ++ written (m.step s c) r

def output (s : σ) (t : List Char) : List Char := m.written s t ++ m.flush (m.run s t)

theorem run_cons (s : σ) (c : Char) (r : List Char) :
    m.run s (c :: r) = m.run (m.step s c) r := rfl

theorem output_cons (s : σ) (c : Char) (r : List Char) :
    m.output s (c :: r) = m.emit s c ++ m.output (m.step s c) r := by
  simp [output, written, run_cons]

theorem run_append (s : σ) (t u : List Char) : m.run s (t ++ u) = m.run (m.run s t) u :=
  List.foldl_append

theorem output_append (s : σ) (t u : List Char) :
    m.output s (t ++ u) = m.written s t ++ m.output (m.run s t) u := by
  induction t generalizing s with
  | nil => rfl
  | cons c r ih => simp [output_cons, written, run_cons, ih]

end Scanner

-- ---------------------------------------------------------------------------
-- Line comments
-- ---------------------------------------------------------------------------

inductive LineState
  | text
  /-- A dash was read. -/
  | dash
  | comment
  deriving DecidableEq, Repr

def lines : Scanner LineState where
  step
    | .text, c => if c = '-' then .dash else .text
    | .dash, c => if c = '-' then .comment else .text
    | .comment, c => if c = '\n' then .text else .comment
  emit
    | .text, c => if c = '-' then [] else [c]
    | .dash, c => if c = '-' then [] else ['-', c]
    | .comment, c => if c = '\n' then [c] else []
  flush
    | .text => []
    | .dash => ['-']
    | .comment => []

theorem lines_output_dash {r : List Char} (h : ∀ t, r = '-' :: t → False) :
    lines.output .dash r = '-' :: lines.output .text r := by
  cases r with
  | nil => rfl
  | cons d t =>
    have hd : d ≠ '-' := fun hd => h t (by rw [hd])
    simp [Scanner.output_cons, lines, hd]

theorem lines_output_char {c : Char} {r : List Char} (h : ∀ t, c = '-' → r = '-' :: t → False) :
    lines.output .text (c :: r) = c :: lines.output .text r := by
  by_cases hc : c = '-'
  · subst hc
    exact lines_output_dash fun t => h t rfl
  · simp [Scanner.output_cons, lines, hc]

theorem lines_output_comment (h : '\n' ∉ m) (r : List Char) :
    lines.output .comment (m ++ r) = lines.output .comment r := by
  induction m with
  | nil => rfl
  | cons c m ih =>
    have hc : c ≠ '\n' := fun hc => h (by simp [hc])
    simpa [Scanner.output_cons, lines, hc] using ih fun hm => h (by simp [hm])

theorem outsideLines_eq (b : Bool) (s : List Char) :
    outsideLines b s = lines.output (if b then .comment else .text) s := by
  fun_induction outsideLines b s with
  | case1 b => cases b <;> rfl
  | case2 r ih => simpa [Scanner.output_cons, lines] using ih
  | case3 c r hc ih => simpa [Scanner.output_cons, lines, hc] using ih
  | case4 r ih => simpa [Scanner.output_cons, lines] using ih
  | case5 c r h ih => exact (congrArg (c :: ·) ih).trans (lines_output_char h).symm

-- ---------------------------------------------------------------------------
-- Block comments
-- ---------------------------------------------------------------------------

inductive BlockState
  | text
  /-- A slash was read. -/
  | slash
  | comment
  /-- A star was read in a comment, after its opening marker. -/
  | star
  deriving DecidableEq, Repr

def BlockState.isOpen : BlockState → Bool
  | text => false
  | slash => false
  | comment => true
  | star => true

def blocks : Scanner BlockState where
  step
    | .text, c => if c = '/' then .slash else .text
    | .slash, c => if c = '*' then .comment else if c = '/' then .slash else .text
    | .comment, c => if c = '*' then .star else .comment
    | .star, c => if c = '/' then .text else if c = '*' then .star else .comment
  emit
    | .text, c => if c = '/' then [] else [c]
    | .slash, c => if c = '*' then [] else if c = '/' then [c] else ['/', c]
    | .comment, _ => []
    | .star, _ => []
  flush
    | .text => []
    | .slash => ['/']
    | .comment => []
    | .star => []

theorem blocks_output_slash {r : List Char} (h : ∀ t, r = '*' :: t → False) :
    blocks.output .slash r = '/' :: blocks.output .text r := by
  cases r with
  | nil => rfl
  | cons d t =>
    have hd : d ≠ '*' := fun hd => h t (by rw [hd])
    by_cases hs : d = '/' <;> simp [Scanner.output_cons, blocks, hd, hs]

theorem blocks_output_char {c : Char} {r : List Char} (h : ∀ t, c = '/' → r = '*' :: t → False) :
    blocks.output .text (c :: r) = c :: blocks.output .text r := by
  by_cases hc : c = '/'
  · subst hc
    exact blocks_output_slash fun t => h t rfl
  · simp [Scanner.output_cons, blocks, hc]

theorem blocks_output_star {r : List Char} (h : ∀ t, r = '/' :: t → False) :
    blocks.output .star r = blocks.output .comment r := by
  cases r with
  | nil => rfl
  | cons d t =>
    have hd : d ≠ '/' := fun hd => h t (by rw [hd])
    by_cases hs : d = '*' <;> simp [Scanner.output_cons, blocks, hd, hs]

/-- A slash that opens nothing is forgotten at the next character. -/
theorem blocks_run_slash {d : Char} (hd : d ≠ '*') (t : List Char) :
    blocks.run .slash (d :: t) = blocks.run .text (d :: t) := by
  by_cases hs : d = '/' <;> simp [Scanner.run_cons, blocks, hd, hs]

theorem blocks_run_star {d : Char} (hd : d ≠ '/') (t : List Char) :
    blocks.run .star (d :: t) = blocks.run .comment (d :: t) := by
  by_cases hs : d = '*' <;> simp [Scanner.run_cons, blocks, hd, hs]

theorem blocks_open_slash {r : List Char} (h : ∀ t, r = '*' :: t → False) :
    (blocks.run .slash r).isOpen = (blocks.run .text r).isOpen := by
  cases r with
  | nil => rfl
  | cons d t => rw [blocks_run_slash fun hd => h t (by rw [hd])]

theorem blocks_open_char {c : Char} {r : List Char} (h : ∀ t, c = '/' → r = '*' :: t → False) :
    (blocks.run .text (c :: r)).isOpen = (blocks.run .text r).isOpen := by
  by_cases hc : c = '/'
  · subst hc
    exact blocks_open_slash fun t => h t rfl
  · simp [Scanner.run_cons, blocks, hc]

theorem blocks_open_star {r : List Char} (h : ∀ t, r = '/' :: t → False) :
    (blocks.run .star r).isOpen = (blocks.run .comment r).isOpen := by
  cases r with
  | nil => rfl
  | cons d t => rw [blocks_run_star fun hd => h t (by rw [hd])]

theorem afterBlock?_isSome {r : List Char} (h : (blocks.run .comment r).isOpen = false) :
    (afterBlock? r).isSome = true := by
  fun_induction afterBlock? r with
  | case1 => cases h
  | case2 r => rfl
  | case3 c r hc ih =>
    refine ih ?_
    by_cases hs : c = '*'
    · subst hs
      rw [← blocks_open_star fun t => hc t rfl]
      exact h
    · simpa [Scanner.run_cons, blocks, hs] using h

theorem outsideBlocks_eq (h : (blocks.run (if b then .comment else .text) s).isOpen = false) :
    outsideBlocks b s = blocks.output (if b then .comment else .text) s := by
  fun_induction outsideBlocks b s with
  | case1 b => cases b <;> rfl
  | case2 r ih => simpa [Scanner.output_cons, Scanner.run_cons, blocks] using ih h
  | case3 c r hc ih =>
    by_cases hs : c = '*'
    · subst hs
      have hr : ∀ t, r = '/' :: t → False := fun t => hc t rfl
      exact (ih ((blocks_open_star hr).symm.trans h)).trans (blocks_output_star hr).symm
    · simpa [Scanner.output_cons, Scanner.run_cons, blocks, hs] using
        ih (by simpa [Scanner.run_cons, blocks, hs] using h)
  | case4 r hr ih => simpa [Scanner.output_cons, Scanner.run_cons, blocks] using ih h
  | case5 r hr ih => exact absurd (afterBlock?_isSome h) hr
  | case6 c r hc ih =>
    rw [ih ((blocks_open_char hc).symm.trans h)]
    exact (blocks_output_char hc).symm

theorem afterBlock?_append (h : (afterBlock? r).isSome = true) (t : List Char) :
    (afterBlock? (r ++ t)).isSome = true := by
  fun_induction afterBlock? r with
  | case1 => cases h
  | case2 r => rfl
  | case3 c r hc ih =>
    have hc' : ∀ u, c = '*' → r ++ t = '/' :: u → False := by
      rintro u rfl hu
      cases r with
      | nil => cases h
      | cons d r => exact hc r rfl (by rw [(List.cons.inj hu).1])
    rw [List.cons_append, afterBlock?.eq_3 c (r ++ t) hc']
    exact ih h

/-- Where every block is closed and no marker has begun, the pass begins anew. -/
theorem outsideBlocks_append (h : blocks.run (if b then .comment else .text) s = .text)
    (t : List Char) : outsideBlocks b (s ++ t) = outsideBlocks b s ++ outsideBlocks false t := by
  fun_induction outsideBlocks b s with
  | case1 b =>
    cases b with
    | false => rfl
    | true => cases h
  | case2 r ih => exact ih h
  | case3 c r hc ih =>
    cases r with
    | nil => by_cases hs : c = '*' <;> simp [Scanner.run, blocks, hs] at h
    | cons d r =>
      have hr : blocks.run .comment (d :: r) = .text := by
        by_cases hs : c = '*'
        · subst hs
          rw [← blocks_run_star fun hd => hc r rfl (by rw [hd])]
          exact h
        · simpa [Scanner.run_cons, blocks, hs] using h
      have hc' : ∀ u, c = '*' → d :: r ++ t = '/' :: u → False :=
        fun u hs hu => hc r hs (by rw [(List.cons.inj hu).1])
      rw [List.cons_append, outsideBlocks.eq_3 c (d :: r ++ t) hc']
      exact ih hr
  | case4 r hr ih =>
    rw [List.cons_append, List.cons_append, outsideBlocks, if_pos (afterBlock?_append hr t)]
    exact ih h
  | case5 r hr ih => exact absurd (afterBlock?_isSome (congrArg BlockState.isOpen h)) hr
  | case6 c r hc ih =>
    cases r with
    | nil =>
      have hs : c ≠ '/' := by
        rintro rfl
        cases h
      rw [List.cons_append, List.nil_append, outsideBlocks.eq_5 c t fun _ h => absurd h hs]
      rfl
    | cons d r =>
      have hr : blocks.run .text (d :: r) = .text := by
        by_cases hs : c = '/'
        · subst hs
          rw [← blocks_run_slash fun hd => hc r rfl (by rw [hd])]
          exact h
        · simpa [Scanner.run_cons, blocks, hs] using h
      have hc' : ∀ u, c = '/' → d :: r ++ t = '*' :: u → False :=
        fun u hs hu => hc r hs (by rw [(List.cons.inj hu).1])
      rw [List.cons_append, outsideBlocks.eq_5 c (d :: r ++ t) hc', ih hr]
      rfl

/-- A block that is never closed leaves its opening marker. -/
theorem closed_of_no_open (hb : b = true → (afterBlock? s).isSome = true)
    (h : ¬ ['/', '*'] <:+: outsideBlocks b s) :
    (blocks.run (if b then .comment else .text) s).isOpen = false := by
  fun_induction outsideBlocks b s with
  | case1 b =>
    cases b with
    | false => rfl
    | true => simp [afterBlock?] at hb
  | case2 r ih => exact ih nofun h
  | case3 c r hc ih =>
    have ha : afterBlock? (c :: r) = afterBlock? r := afterBlock?.eq_3 c r hc
    have hr := ih (fun _ => ha ▸ hb rfl) h
    by_cases hs : c = '*'
    · subst hs
      exact (blocks_open_star fun t => hc t rfl).trans hr
    · simpa [Scanner.run_cons, blocks, hs] using hr
  | case4 r hr ih => exact ih (fun _ => hr) h
  | case5 r hr ih =>
    exact absurd ⟨[], outsideBlocks false r, by simp [outsideBlocks]⟩ h
  | case6 c r hc ih =>
    exact (blocks_open_char hc).trans
      (ih nofun fun hi => h (hi.trans (List.suffix_cons _ _).isInfix))

-- ---------------------------------------------------------------------------
-- What follows a part of a text
-- ---------------------------------------------------------------------------

/-- Outside line comments, a text that cannot end a marker is read on its own. -/
theorem lines_output_flush {st : LineState} {r : List Char} (hst : st ≠ .comment)
    (h : ∀ t, r = '-' :: t → False) :
    lines.output st r = lines.flush st ++ lines.output .text r := by
  cases st with
  | text => rfl
  | dash => exact lines_output_dash h
  | comment => exact absurd rfl hst

theorem blocks_output_flush {st : BlockState} {r : List Char} (hst : st.isOpen = false)
    (h : ∀ t, r = '*' :: t → False) :
    blocks.output st r = blocks.flush st ++ blocks.output .text r := by
  cases st with
  | text => rfl
  | slash => exact blocks_output_slash h
  | comment => cases hst
  | star => cases hst

theorem blocks_open_flush {st : BlockState} {r : List Char} (hst : st.isOpen = false)
    (h : ∀ t, r = '*' :: t → False) :
    (blocks.run st r).isOpen = (blocks.run .text r).isOpen := by
  cases st with
  | text => rfl
  | slash => exact blocks_open_slash h
  | comment => cases hst
  | star => cases hst

theorem lines_output_plain (h : '-' ∉ w) (r : List Char) :
    lines.output .text (w ++ r) = w ++ lines.output .text r := by
  induction w with
  | nil => rfl
  | cons c w ih =>
    have hc : c ≠ '-' := fun hc => h (by simp [hc])
    have hw := ih fun hw => h (by simp [hw])
    simpa [Scanner.output_cons, lines, hc] using hw

/-- A text without dashes after another: what a line comment leaves of it. -/
theorem lines_output_tail (h : '-' ∉ e) (st : LineState) :
    ∃ e', e'.Sublist e ∧ lines.output st e = lines.flush st ++ e' := by
  have htext : ∀ e, '-' ∉ e → lines.output .text e = e := by
    intro e he
    rw [← List.append_nil e, lines_output_plain he]
    rfl
  by_cases hst : st = .comment
  · subst hst
    induction e with
    | nil => exact ⟨[], .slnil, rfl⟩
    | cons c r ih =>
      have hr : '-' ∉ r := fun hr => h (by simp [hr])
      by_cases hc : c = '\n'
      · subst hc
        exact ⟨'\n' :: r, .refl _, congrArg ('\n' :: ·) (htext r hr)⟩
      · obtain ⟨e', he, hout⟩ := ih hr
        refine ⟨e', he.trans (List.sublist_cons_self c r), ?_⟩
        simpa [Scanner.output_cons, lines, hc] using hout
  · refine ⟨e, .refl e, ?_⟩
    rw [lines_output_flush hst fun t ht => h (by simp [ht]), htext e h]

theorem blocks_output_plain (h : '/' ∉ w) (r : List Char) :
    blocks.output .text (w ++ r) = w ++ blocks.output .text r ∧
      blocks.run .text (w ++ r) = blocks.run .text r := by
  induction w with
  | nil => exact ⟨rfl, rfl⟩
  | cons c w ih =>
    have hc : c ≠ '/' := fun hc => h (by simp [hc])
    have hw := ih fun hw => h (by simp [hw])
    simpa [Scanner.output_cons, Scanner.run_cons, blocks, hc] using hw

/-- A text without slashes and stars neither opens nor closes a block. -/
theorem blocks_open_plain (hs : '/' ∉ e) (ht : '*' ∉ e) (st : BlockState) :
    (blocks.run st e).isOpen = st.isOpen := by
  have hopen : ∀ e, '*' ∉ e → blocks.run .comment e = .comment := by
    intro e he
    induction e with
    | nil => rfl
    | cons c r ih =>
      have hc : c ≠ '*' := fun hc => he (by simp [hc])
      simpa [Scanner.run_cons, blocks, hc] using ih fun hr => he (by simp [hr])
  have htext : blocks.run .text e = .text := by
    rw [← List.append_nil e, (blocks_output_plain hs []).2]
    rfl
  cases st with
  | text => rw [htext]
  | slash => rw [blocks_open_slash fun t he => ht (by simp [he]), htext]; rfl
  | comment => rw [hopen e ht]
  | star => rw [blocks_open_star fun t he => hs (by simp [he]), hopen e ht]; rfl

-- ---------------------------------------------------------------------------
-- Both passes
-- ---------------------------------------------------------------------------

/-- What both passes leave of a query. -/
def visible (q : List Char) : List Char := dropBlockComments (dropLineComments q)

theorem normalize_eq (q : List Char) : normalize q = normalForm (visible q) := rfl

def lineState (q : List Char) : LineState := lines.run .text q

/-- The state of the second pass at the end of what the first leaves. -/
def blockState (q : List Char) : BlockState := blocks.run .text (dropLineComments q)

theorem dropLineComments_eq (q : List Char) : dropLineComments q = lines.output .text q :=
  outsideLines_eq false q

theorem visible_eq (h : (blockState q).isOpen = false) :
    visible q = blocks.output .text (dropLineComments q) :=
  outsideBlocks_eq (b := false) h

theorem infix_normalForm (hm : Solid m) (h : m <:+: s) : normalForm m <:+: normalForm s := by
  obtain ⟨a, b, rfl⟩ := h
  obtain ⟨c, d, hn⟩ := exists_normalForm_around hm a b
  exact ⟨normalForm a ++ gap c, gap d ++ normalForm b, by rw [hn]; simp⟩

/-- Every block comment of a query without comment markers left is closed. -/
theorem closed_of_clean (h : Clean (normalize q)) : (blockState q).isOpen = false := by
  refine closed_of_no_open (b := false) nofun fun hi => ?_
  have hm := (occursIn_marker .blockOpen).mpr (infix_normalForm (m := ['/', '*']) (by decide) hi)
  exact h _ (mem_guardPatterns.mpr (.inr (.inr ⟨_, rfl⟩))) hm

theorem dropLineComments_plain (h : '-' ∉ w) (q : List Char) :
    dropLineComments (w ++ q) = w ++ dropLineComments q := by
  rw [dropLineComments_eq, lines_output_plain h, ← dropLineComments_eq]

theorem blockState_plain (hd : '-' ∉ w) (hs : '/' ∉ w) (q : List Char) :
    blockState (w ++ q) = blockState q := by
  rw [blockState, dropLineComments_plain hd, (blocks_output_plain hs _).2, blockState]

theorem visible_plain (hd : '-' ∉ w) (hs : '/' ∉ w) (h : (blockState q).isOpen = false) :
    visible (w ++ q) = w ++ visible q := by
  rw [visible_eq (by rwa [blockState_plain hd hs]), visible_eq h, dropLineComments_plain hd,
    (blocks_output_plain hs _).1]

theorem normalize_blank_append (hw : Blank w) (h : (blockState q).isOpen = false) :
    normalize (w ++ q) = normalize q := by
  have hd : '-' ∉ w := fun hm => absurd (hw _ hm) (by decide)
  have hs : '/' ∉ w := fun hm => absurd (hw _ hm) (by decide)
  rw [normalize_eq, visible_plain hd hs h, normalForm_blank_append hw, normalize_eq]

theorem normalize_blank (h : Blank q) : normalize q = [] := by
  rw [← List.append_nil q, normalize_blank_append h rfl]
  rfl

theorem Guard.accepts_iff {g : Guard} :
    g.Accepts q ↔ Passes (normalize q) ∧ countSeparators q ≤ 1 := by
  rw [accepts_iff_violation?, violation?_eq_none_iff]
  refine and_iff_right_of_imp fun h hb => ?_
  have := h.1.2
  rw [normalize_blank hb] at this
  exact absurd this (by decide)

end SafeReports.Sql
