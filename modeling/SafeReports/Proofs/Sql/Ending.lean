import SafeReports.Proofs.Sql.Enclosure
import SafeReports.Proofs.Sql.Faithful

/-!
# The end of the wrapped query

The newline behind a query closes a line comment, but no block comment. So what
the wrapper writes there is read as it is meant exactly when no block comment of
the stored query is left open, which the guard sees to unless its two passes read
the query in another way, or the dropped separator stood in the way of a `*/`.
-/

namespace SafeReports.Sql

open Text

-- ---------------------------------------------------------------------------
-- A scanner for comments
-- ---------------------------------------------------------------------------

/-- What the end of a text is in, when `--` opens a comment up to the newline, `/*`
one through the first `*/` behind it, and the first that opens wins. -/
inductive CommentState
  | text
  /-- Outside comments, behind a dash. -/
  | dash
  /-- Outside comments, behind a slash. -/
  | slash
  | line
  | block
  /-- In a block comment, behind a star that is not of its opening. -/
  | star
  deriving DecidableEq, Repr

namespace CommentState

/-- Outside comments, behind a character that ends no marker. -/
def behind (c : Char) : CommentState :=
  if c = '-' then dash else if c = '/' then slash else text

def step : CommentState → Char → CommentState
  | text, c => behind c
  | dash, c => if c = '-' then line else behind c
  | slash, c => if c = '*' then block else behind c
  | line, c => if c = '\n' then text else line
  | block, c => if c = '*' then star else block
  | star, c => if c = '/' then text else if c = '*' then star else block

def run (s : CommentState) (t : List Char) : CommentState := t.foldl step s

def inBlock : CommentState → Bool
  | block | star => true
  | _ => false

def isOutside : CommentState → Bool
  | text | dash | slash => true
  | _ => false

theorem run_cons (s : CommentState) (c : Char) (t : List Char) :
    s.run (c :: t) = (s.step c).run t := rfl

theorem run_append (s : CommentState) (t u : List Char) :
    s.run (t ++ u) = (s.run t).run u :=
  List.foldl_append

theorem behind_isOutside (c : Char) : (behind c).isOutside = true := by
  unfold behind
  split
  · rfl
  · split <;> rfl

theorem isOutside_not_inBlock {s : CommentState} (h : s.isOutside = true) : s.inBlock = false := by
  cases s <;> first | rfl | cases h

/-- The part of a marker that the state keeps. -/
def pending : CommentState → List Char
  | dash => ['-']
  | slash => ['/']
  | _ => []

theorem pending_behind (c : Char) : pending (behind c) <:+ [c] := by
  unfold behind
  split
  · rename_i hc
    exact hc ▸ List.suffix_refl _
  · split
    · rename_i hc
      exact hc ▸ List.suffix_refl _
    · exact List.nil_suffix

/-- Nothing opens a comment in a text without markers. -/
theorem run_unmarked {s : CommentState} (h : s.isOutside = true) (hu : Unmarked (s.pending ++ t)) :
    (s.run t).isOutside = true := by
  induction t generalizing s with
  | nil => exact h
  | cons c t ih =>
    have hs : s.step c = behind c := by
      cases s with
      | text => rfl
      | dash =>
        refine if_neg ?_
        rintro rfl
        exact hu .line ⟨[], t, rfl⟩
      | slash =>
        refine if_neg ?_
        rintro rfl
        exact hu .blockOpen ⟨[], t, rfl⟩
      | line | block | star => cases h
    rw [run_cons, hs]
    apply ih (behind_isOutside c)
    obtain ⟨x, hx⟩ := pending_behind c
    refine hu.mono ⟨s.pending ++ x, [], ?_⟩
    calc s.pending ++ x ++ (pending (behind c) ++ t) ++ []
        = s.pending ++ ((x ++ pending (behind c)) ++ t) := by simp
      _ = s.pending ++ c :: t := by rw [hx]; rfl

theorem run_line (h : '\n' ∉ t) : run line t = line := by
  induction t with
  | nil => rfl
  | cons c t ih =>
    have hc : c ≠ '\n' := fun hc => h (by simp [hc])
    rw [run_cons, show step line c = line from if_neg hc]
    exact ih fun ht => h (by simp [ht])

/-- A block comment goes on up to the first `*/`. -/
theorem run_block {s : CommentState} (h : s.inBlock = true) (ht : ¬ ['*', '/'] <:+: t)
    (hs : s = star → ∀ u, t = '/' :: u → False) : (s.run t).inBlock = true := by
  induction t generalizing s with
  | nil => exact h
  | cons c t ih =>
    rw [run_cons]
    have hstep : (s.step c).inBlock = true ∧ (s.step c = star → c = '*') := by
      cases s with
      | block => by_cases hc : c = '*' <;> simp [step, hc, inBlock]
      | star =>
        have hc : c ≠ '/' := fun hc => hs rfl t (by rw [hc])
        by_cases hc' : c = '*' <;> simp [step, hc, hc', inBlock]
      | _ => cases h
    refine ih hstep.1 (not_infix_tail ht) fun hstar u hu => ?_
    subst hu
    obtain rfl := hstep.2 hstar
    exact ht ⟨[], u, rfl⟩

/-- Without slashes and stars no block comment opens or closes. -/
theorem inBlock_plain (hslash : '/' ∉ t) (hstar : '*' ∉ t) (s : CommentState) :
    (s.run t).inBlock = s.inBlock := by
  induction t generalizing s with
  | nil => rfl
  | cons c t ih =>
    have hc : c ≠ '/' := fun hc => hslash (by simp [hc])
    have hc' : c ≠ '*' := fun hc => hstar (by simp [hc])
    rw [run_cons, ih (fun ht => hslash (by simp [ht])) fun ht => hstar (by simp [ht])]
    have hb : (behind c).inBlock = false := isOutside_not_inBlock (behind_isOutside c)
    cases s with
    | text => exact hb
    | dash =>
      simp only [step]
      split
      · rfl
      · exact hb
    | slash =>
      simp only [step, hc', ↓reduceIte]
      exact hb
    | line =>
      simp only [step]
      split <;> rfl
    | block => simp only [step, hc', ↓reduceIte]
    | star =>
      simp only [step, hc, hc', ↓reduceIte]
      rfl

theorem inBlock_dash {t : List Char} (h : ∀ u, t = '-' :: u → False) :
    (run dash t).inBlock = (run text t).inBlock := by
  cases t with
  | nil => rfl
  | cons c t =>
    rw [run_cons, run_cons, show step dash c = step text c from if_neg fun hc => h t (by rw [hc])]

theorem inBlock_slash {t : List Char} (h : ∀ u, t = '*' :: u → False) :
    (run slash t).inBlock = (run text t).inBlock := by
  cases t with
  | nil => rfl
  | cons c t =>
    rw [run_cons, run_cons, show step slash c = step text c from if_neg fun hc => h t (by rw [hc])]

theorem inBlock_star {t : List Char} (h : ∀ u, t = '/' :: u → False) :
    (run star t).inBlock = (run block t).inBlock := by
  cases t with
  | nil => rfl
  | cons c t =>
    rw [run_cons, run_cons, show step star c = step block c from if_neg fun hc => h t (by rw [hc])]

/-- A character that begins no marker leaves no trace. -/
theorem inBlock_char {c : Char} {t : List Char} (hd : ∀ u, c = '-' → t = '-' :: u → False)
    (hb : ∀ u, c = '/' → t = '*' :: u → False) :
    (run text (c :: t)).inBlock = (run text t).inBlock := by
  rw [run_cons]
  by_cases hc : c = '-'
  · subst hc
    exact inBlock_dash fun u => hd u rfl
  · by_cases hc' : c = '/'
    · subst hc'
      exact inBlock_slash fun u => hb u rfl
    · rw [show step text c = text by simp [step, behind, hc, hc']]

end CommentState

open CommentState (inBlock_plain)

def commentState (q : List Char) : CommentState := CommentState.run .text q

/-- No block comment is open at the end. -/
def Closed (q : List Char) : Prop := (commentState q).inBlock = false

instance (q : List Char) : Decidable (Closed q) :=
  inferInstanceAs (Decidable ((commentState q).inBlock = false))

-- ---------------------------------------------------------------------------
-- Behind the query
-- ---------------------------------------------------------------------------

/-- What the wrapper writes behind the query is read outside comments, up to the
first marker that it brings itself, as a name to order by can. -/
def ReadsEnding (w q : List Char) : Prop :=
  ∃ ending, w = opening ++ (q ++ ending) ∧ closing <+: ending ∧
    ∀ u, u <+: ending → u ≠ [] → Unmarked u →
      (commentState (opening ++ (q ++ u))).isOutside = true

theorem wrap_eq_closing (hw : wrap (some q) a = .ok w) :
    ∃ rest, w.toList = opening ++ (stored q.toList ++ (closing ++ rest)) := by
  obtain ⟨d, l, digits, -, -, -, rfl⟩ := wrap_eq_ok_iff.mp hw
  obtain ⟨rest, h⟩ := derived_closing d digits a.orderBy
  exact ⟨rest, by rw [String.toList_ofList, h]⟩

theorem commentState_ending (q u : List Char) :
    commentState (opening ++ (q ++ u)) = (commentState q).run u := by
  have hopening : CommentState.run .text opening = .text := by decide
  rw [commentState, CommentState.run_append, hopening, CommentState.run_append, commentState]

theorem newline_unmarked : Unmarked ['\n'] := by
  intro m hm
  have hl := hm.length_le
  cases m <;> simp [Marker.text] at hl

theorem readsEnding_iff_closed (hw : w = opening ++ (q ++ (closing ++ rest))) :
    ReadsEnding w q ↔ Closed q := by
  have hclosing : closing = '\n' :: ") AS `t`".toList := by decide
  constructor
  · rintro ⟨ending, -, ⟨t, rfl⟩, h⟩
    have hout := h ['\n'] (by rw [hclosing]; exact ⟨_, rfl⟩) nofun newline_unmarked
    rw [commentState_ending] at hout
    rw [Closed]
    cases hs : commentState q with
    | block | star =>
      rw [hs] at hout
      cases hout
    | _ => rfl
  · intro h
    refine ⟨closing ++ rest, hw, List.prefix_append _ _, fun u hu hne hunmarked => ?_⟩
    rw [commentState_ending]
    cases u with
    | nil => exact absurd rfl hne
    | cons c u =>
      rw [hclosing] at hu
      obtain rfl : c = '\n' := (List.cons_prefix_cons.mp hu).1
      -- the newline leaves a line comment, and nothing behind it opens another
      have hs : (commentState q).step '\n' = .text := by
        rw [Closed] at h
        cases hs : commentState q with
        | block | star =>
          rw [hs] at h
          cases h
        | _ => rfl
      rw [CommentState.run_cons, hs]
      apply CommentState.run_unmarked rfl
      exact hunmarked.mono (List.suffix_cons _ _).isInfix

-- ---------------------------------------------------------------------------
-- The stored query
-- ---------------------------------------------------------------------------

theorem closed_append_plain (hslash : '/' ∉ t) (hstar : '*' ∉ t) (s : List Char) :
    Closed (s ++ t) ↔ Closed s := by
  rw [Closed, commentState, CommentState.run_append, inBlock_plain hslash hstar]
  rfl

/-- A text without markers in front opens no comment, even with what follows. -/
theorem commentState_plain_append (hd : '-' ∉ s) (hs : '/' ∉ s) (t : List Char) :
    commentState (s ++ t) = commentState t := by
  have htext : CommentState.run .text s = .text := by
    induction s with
    | nil => rfl
    | cons c s ih =>
      have hc : c ≠ '-' := fun hc => hd (by simp [hc])
      have hc' : c ≠ '/' := fun hc => hs (by simp [hc])
      rw [CommentState.run_cons,
        show CommentState.step .text c = .text by
          simp [CommentState.step, CommentState.behind, hc, hc']]
      exact ih (fun h => hd (by simp [h])) fun h => hs (by simp [h])
  rw [commentState, CommentState.run_append, htext, commentState]

theorem closed_trimSeparators (q : List Char) : Closed (trimSeparators q) ↔ Closed q := by
  obtain ⟨x, y, hq, hx, hy⟩ := exists_trimSeparators q
  have hplain : ∀ (d : Char) (t : List Char), (∀ c ∈ t, isBlank c = true ∨ c = ';') →
      isBlank d = false → d ≠ ';' → d ∉ t := by
    intro d t ht hb hs hd
    rcases ht d hd with h | h
    · simp [hb] at h
    · exact hs h
  have hend := closed_append_plain (hplain '/' y hy (by decide) (by decide))
    (hplain '*' y hy (by decide) (by decide)) (x ++ trimSeparators q)
  have hstart := commentState_plain_append (hplain '-' x hx (by decide) (by decide))
    (hplain '/' x hx (by decide) (by decide)) (trimSeparators q)
  rw [← hq] at hend
  rw [hend, Closed, Closed, hstart]

/-- The separator before a closing comment matters to a block comment only where
it stands between a star and a slash. -/
theorem inBlock_semicolon (hcl : Closing a) {s : CommentState}
    (h : s = .star → a.head? ≠ some '/') : ((s.step ';').run a).inBlock = (s.run a).inBlock := by
  have hhead : ∀ t, a = '*' :: t → False := by
    rintro t rfl
    rcases hcl.cases_head with ⟨m, -, hm⟩ | ⟨c, r, hr, -, hc⟩
    · cases hm
    · exact hc (List.cons.inj hr).1.symm
  cases s with
  | text | line | block => rfl
  | slash => exact (CommentState.inBlock_slash hhead).symm
  | star => exact (CommentState.inBlock_star fun t ht => h rfl (by rw [ht]; rfl)).symm
  | dash =>
    rcases hcl.cases_head with ⟨m, hm, rfl⟩ | ⟨c, r, rfl, hc, -⟩
    · -- with the dash before it the line comment begins earlier
      have htext : CommentState.run .line m = .line := CommentState.run_line hm
      have hdash : CommentState.run .line ('-' :: m) = .line :=
        CommentState.run_line (by simpa using hm)
      change (CommentState.run .line m).inBlock = (CommentState.run .line ('-' :: m)).inBlock
      rw [htext, hdash]
    · exact (CommentState.inBlock_dash fun t ht => hc (List.cons.inj ht).1).symm

/-- A star of a block comment at the end of one text and a slash at the start of
the other, which close the comment when they come together. -/
def Meets (before after : List Char) : Prop :=
  commentState before = .star ∧ after.head? = some '/'

theorem Meets.closed_iff (h : Meets b a) : Closed (b ++ a) ↔ Closed a.tail := by
  obtain ⟨hb, ha⟩ := h
  obtain ⟨t, rfl⟩ := List.head?_eq_some_iff.mp ha
  rw [Closed, commentState, CommentState.run_append]
  rw [commentState] at hb
  rw [hb]
  rfl

theorem closed_drop_iff (hcl : Closing a) (h : ¬ Meets b a) :
    Closed (b ++ a) ↔ Closed (b ++ ';' :: a) := by
  have happend : ∀ t, commentState (b ++ t) = (commentState b).run t := by
    intro t
    rw [commentState, CommentState.run_append, commentState]
  have hsame := inBlock_semicolon hcl (s := commentState b) fun hb ha => h ⟨hb, ha⟩
  rw [Closed, Closed, happend, happend, CommentState.run_cons, hsame]

theorem closed_stored_iff {g : Guard} (h : g.Accepts q) :
    Closed (stored q) ↔ (∀ b a, DropsBetween q b a → Meets b a → Closed a.tail) ∧
      ((∀ b a, DropsBetween q b a → ¬ Meets b a) → Closed q) := by
  have hc := (Guard.accepts_iff.mp (accepts_trimSeparators h)).2
  by_cases hd : ∃ b a, DropsBetween q b a
  · obtain ⟨b, a, hd⟩ := hd
    have hunique : ∀ b' a', DropsBetween q b' a' → b' = b ∧ a' = a := by
      intro b' a' hd'
      exact Prod.mk.inj (Option.some.inj (hd'.1.symm.trans hd.1))
    obtain ⟨hcl, hs, hst, -⟩ := hd.spec hc
    rw [hst]
    by_cases hm : Meets b a
    · rw [hm.closed_iff]
      constructor
      · intro ha
        refine ⟨fun b' a' hd' _ => ?_, fun hno => absurd hm (hno b a hd)⟩
        obtain ⟨rfl, rfl⟩ := hunique b' a' hd'
        exact ha
      · exact fun hh => hh.1 b a hd hm
    · rw [closed_drop_iff hcl hm, ← hs, closed_trimSeparators]
      constructor
      · intro hq
        refine ⟨fun b' a' hd' hm' => ?_, fun _ => hq⟩
        obtain ⟨rfl, rfl⟩ := hunique b' a' hd'
        exact absurd hm' hm
      · intro hh
        refine hh.2 fun b' a' hd' => ?_
        obtain ⟨rfl, rfl⟩ := hunique b' a' hd'
        exact hm
  · have hn : ∀ b a, ¬ DropsBetween q b a := fun b a hba => hd ⟨b, a, hba⟩
    rw [stored_of_not_drops hn, closed_trimSeparators]
    exact ⟨fun hq => ⟨fun b a hba => absurd hba (hn b a), fun _ => hq⟩,
      fun hh => hh.2 fun b a hba => absurd hba (hn b a)⟩

-- ---------------------------------------------------------------------------
-- What the guard sees to
-- ---------------------------------------------------------------------------

/-- The scanner and the reading in parts know the same open block comments. -/
theorem Reads.closed_iff (h : Reads s q ps) (hs : s.quote = none) (hq : QuoteFree q) :
    Closed q ↔ ∀ m, .unclosed m ∉ ps := by
  induction h with
  | nil => exact iff_of_true rfl fun _ => List.not_mem_nil
  | @char s c r ps hl hb _ ih =>
    have hc := hq c (by simp)
    have hrest := ih (Scan.step_unquoted hs hc) fun d hd => hq d (by simp [hd])
    rw [Closed, commentState, CommentState.inBlock_char (hl hs) (hb hs)]
    refine hrest.trans (forall_congr' fun m => not_congr ?_)
    rw [List.mem_cons, or_iff_right fun hm => s.part_ne_unclosed c m hm.symm]
  | @lineEnd s m _ hm =>
    refine iff_of_true ?_ (by simp)
    rw [Closed, show commentState ('-' :: '-' :: m) = CommentState.run .line m from rfl,
      CommentState.run_line hm]
    rfl
  | @line s m r ps _ hm _ ih =>
    have hstate : commentState ('-' :: '-' :: (m ++ '\n' :: r)) = commentState r := by
      change CommentState.run .line (m ++ '\n' :: r) = _
      rw [CommentState.run_append, CommentState.run_line hm]
      rfl
    have hrest := ih rfl fun d hd => hq d (by simp [hd])
    rw [Closed, hstate]
    exact hrest.trans (by simp)
  | @block s m r ps _ hm _ ih =>
    have hopen := CommentState.run_block (s := .block) rfl hm nofun
    have hstate : commentState ('/' :: '*' :: (m ++ '*' :: '/' :: r)) = commentState r := by
      change CommentState.run .block (m ++ '*' :: '/' :: r) = _
      rw [CommentState.run_append]
      cases hend : CommentState.run .block m with
      | block | star => rfl
      | _ =>
        rw [hend] at hopen
        cases hopen
    have hrest := ih rfl fun d hd => hq d (by simp [hd])
    rw [Closed, hstate]
    exact hrest.trans (by simp)
  | @unclosed s m _ hm =>
    have hopen := CommentState.run_block (s := .block) rfl hm nofun
    refine iff_of_false ?_ (by simp)
    rw [Closed, show commentState ('/' :: '*' :: m) = CommentState.run .block m from rfl, hopen]
    nofun

/-- Where no block comment has dashes on its last line, all of them are closed in
an accepted query. -/
theorem closed_of_contained {g : Guard} (h : g.Accepts q) (hq : QuoteFree q) (hc : Contained q) :
    Closed q := by
  have hplain := plain_of_unquoted hc hq.not_quoted
  have hno := (passes_eq_live (Guard.accepts_iff.mp h).1.1 hplain).2
  exact ((reads_parts q).closed_iff rfl hq).mpr hno

/-- What follows an accepted query in its wrapper is read outside comments exactly
when the block comments of the query are closed; if a `*/` comes about without the
dropped separator, then when those behind it are. They are if no block comment of
the query has dashes on its last line. -/
theorem readsEnding_iff {g : Guard} {q : String} (h : g.Accepts q.toList)
    (hq : QuoteFree q.toList) (hw : wrap (some q) a = .ok w) :
    (ReadsEnding w.toList (stored q.toList) ↔
      (∀ before after, DropsBetween q.toList before after → Meets before after →
        Closed after.tail) ∧
      ((∀ before after, DropsBetween q.toList before after → ¬ Meets before after) →
        Closed q.toList)) ∧
      (Contained q.toList → Closed q.toList) := by
  obtain ⟨rest, hw⟩ := wrap_eq_closing hw
  refine ⟨?_, closed_of_contained h hq⟩
  rw [readsEnding_iff_closed hw, closed_stored_iff h]

/-- A block comment within the query and a line comment at its end. -/
theorem readsEnding_iff_line_comment :
    Guard.standard.Accepts "SELECT 1 /* a */; -- b".toList ∧
      QuoteFree "SELECT 1 /* a */; -- b".toList ∧
      wrap (some "SELECT 1 /* a */; -- b") ⟨some (.rows 5), some "n", some "asc"⟩ =
        .ok "SELECT `t`.* FROM (SELECT 1 /* a */ -- b\n) AS `t` ORDER BY `n` ASC LIMIT 5" ∧
      ReadsEnding
        "SELECT `t`.* FROM (SELECT 1 /* a */ -- b\n) AS `t` ORDER BY `n` ASC LIMIT 5".toList
        (stored "SELECT 1 /* a */; -- b".toList) := by
  have accepted : Guard.standard.Accepts "SELECT 1 /* a */; -- b".toList := by decide +kernel
  have quotes : QuoteFree "SELECT 1 /* a */; -- b".toList := by decide
  have wrapped : wrap (some "SELECT 1 /* a */; -- b") ⟨some (.rows 5), some "n", some "asc"⟩ =
      .ok "SELECT `t`.* FROM (SELECT 1 /* a */ -- b\n) AS `t` ORDER BY `n` ASC LIMIT 5" := by
    decide +kernel
  obtain ⟨reads, closed⟩ := readsEnding_iff accepted quotes wrapped
  refine ⟨accepted, quotes, wrapped, reads.mpr ⟨fun b a hd hm => ?_, fun _ => ?_⟩⟩
  · -- what follows the dropped separator is a space
    have hsplit : splitTrailing? (trimSeparators "SELECT 1 /* a */; -- b".toList) =
        some ("SELECT 1 /* a */".toList, " -- b".toList) := by decide +kernel
    obtain ⟨rfl, rfl⟩ := Prod.mk.inj (Option.some.inj (hsplit.symm.trans hd.1))
    exact absurd hm.2 (by decide)
  · exact closed (by decide +kernel)

/-- An accepted query without quotes whose wrapper is not read to its end. -/
def LosesEnding (q : String) : Prop :=
  Guard.standard.Accepts q.toList ∧ QuoteFree q.toList ∧
    ∃ w, wrap (some q) ⟨none, none, some "ASC"⟩ = .ok w ∧ ¬ ReadsEnding w.toList (stored q.toList)

theorem losesEnding_iff {q : String} : LosesEnding q ↔
    Guard.standard.Accepts q.toList ∧ QuoteFree q.toList ∧ ¬ Closed (stored q.toList) := by
  have wrapped : wrap (some q) ⟨none, none, some "ASC"⟩ =
      .ok (String.ofList (derived (stored q.toList) "ASC".toList none none)) :=
    wrap_eq_ok_iff.mpr ⟨_, none, none, checkDirection_asc, rfl, rfl, rfl⟩
  obtain ⟨rest, hw⟩ := wrap_eq_closing wrapped
  refine and_congr_right fun _ => and_congr_right fun _ => ?_
  rw [← readsEnding_iff_closed hw, wrapped]
  simp only [Except.ok.injEq, exists_eq_left']

/-- In each of these the guard takes the end of a block comment for a part of a
comment, and the wrapper's parenthesis is in another that is never closed. -/
theorem ending_swallowed :
    LosesEnding "SELECT 1 /* -- */\n/*/" ∧ LosesEnding "SELECT 1 /* *;/* /*/" :=
  ⟨losesEnding_iff.mpr (by decide +kernel), losesEnding_iff.mpr (by decide +kernel)⟩

end SafeReports.Sql
