import SafeReports.Proofs.Sql.Agreement

/-!
# What hides from the guard

In a query without quotes, a block comment with dashes on its last line hides
its end from the guard, and with it the text that follows on that line. If no
block comment does so, the normal form of an accepted query is all its live text
and nothing else. If one does, a word behind it goes unseen.
-/

namespace SafeReports.Sql

open Text

/-- But for white space, the normal form is the live text in capitals. -/
def Faithful (q : List Char) : Prop :=
  (normalize q).filter (· != ' ') = upper (solids (live q))

instance (q : List Char) : Decidable (Faithful q) :=
  inferInstanceAs (Decidable ((normalize q).filter (· != ' ') = upper (solids (live q))))

/-- No block comment has dashes on its last line. -/
def Contained (q : List Char) : Prop := ∀ p ∈ parts q, p.IsContained

instance (q : List Char) : Decidable (Contained q) :=
  inferInstanceAs (Decidable (∀ p ∈ parts q, p.IsContained))

/-- The query with a word behind one of its block comments. -/
def behind (before : List Part) (body word : List Char) (after : List Part) : List Char :=
  sources (before ++ .block body :: (word.map .text ++ after))

theorem Faithful.of_plain (hc : Clean (normalize q)) (hp : Plain (parts q)) : Faithful q := by
  rw [Faithful, normalize_eq, visible_eq_live hc hp, filter_normalForm]

-- ---------------------------------------------------------------------------
-- A word behind a comment
-- ---------------------------------------------------------------------------

theorem ne_of_isAlpha {c d : Char} (hc : c.isAlpha = true) (hd : d.isAlpha = false) : c ≠ d := by
  rintro rfl
  simp [hc] at hd

theorem not_isQuote_of_isAlpha {c : Char} (hc : c.isAlpha = true) : Scan.isQuote c = false := by
  simp [Scan.isQuote, ne_of_isAlpha hc (d := '\'') (by decide),
    ne_of_isAlpha hc (d := '"') (by decide), ne_of_isAlpha hc (d := '\x60') (by decide)]

theorem Reads.word_append (hw : ∀ c ∈ w, c.isAlpha = true) (h : Reads .start q ps) :
    Reads .start (w ++ q) (w.map .text ++ ps) := by
  induction w with
  | nil => exact h
  | cons c w ih =>
    have hc := hw c (by simp)
    have hpart : Scan.start.part c = .text c := by
      simp [Scan.part, Scan.start, not_isQuote_of_isAlpha hc]
    have hstep : Scan.start.step c = .start := by
      simp [Scan.step, Scan.quoteAfter, Scan.start, not_isQuote_of_isAlpha hc,
        ne_of_isAlpha hc (d := '\\') (by decide)]
    have hread := ih fun d hd => hw d (by simp [hd])
    have := Reads.char (s := .start) (c := c) (fun _ _ h => ?_) (fun _ _ h => ?_) (hstep ▸ hread)
    · simpa [hpart] using this
    · exact absurd h (ne_of_isAlpha hc (by decide))
    · exact absurd h (ne_of_isAlpha hc (by decide))

theorem parts_behind (h : parts q = l ++ .block m :: r) (hw : ∀ c ∈ w, c.isAlpha = true) :
    parts (behind l m w r) = l ++ .block m :: (w.map .text ++ r) := by
  obtain ⟨⟨t, -, ht⟩, hr⟩ := (h ▸ reads_parts q).at_block
  have hread := hr _ _ (ht.word_append hw)
  rw [behind, hread.sources_eq]
  exact hread.parts_eq

theorem behind_eq (l r : List Part) (m w : List Char) :
    behind l m w r = sources l ++ '/' :: '*' :: m ++ (['*', '/'] ++ w ++ sources r) := by
  have hw : sources (w.map .text) = w := by
    induction w with
    | nil => rfl
    | cons c w ih => exact congrArg (c :: ·) ih
  have happ : ∀ ps ps', sources (ps ++ ps') = sources ps ++ sources ps' :=
    fun _ _ => List.flatMap_append
  calc behind l m w r
      = sources l ++ ((Part.block m).source ++ sources (w.map .text ++ r)) := by
        rw [behind, happ]
        rfl
    _ = sources l ++ '/' :: '*' :: m ++ (['*', '/'] ++ w ++ sources r) := by
        rw [happ, hw]
        simp [Part.source]

theorem eq_behind_nil (h : parts q = l ++ .block m :: r) : q = behind l m [] r := by
  rw [behind, List.map_nil, List.nil_append, ← h, sources_parts]

/-- Behind a block comment with dashes on its last line the guard reads nothing
up to the end of the line. -/
theorem normalize_behind (h : parts q = l ++ .block m :: r) (hm : Swallows m) (hw : '\n' ∉ w) :
    normalize (behind l m w r) = normalize q := by
  have hrun : lines.run .text (sources l ++ '/' :: '*' :: m) = .comment := by
    rw [Scanner.run_append]
    exact hm.run _
  have hout : ∀ v, '\n' ∉ v → dropLineComments (behind l m v r) =
      lines.written .text (sources l ++ '/' :: '*' :: m) ++ lines.output .comment (sources r) := by
    intro v hv
    rw [dropLineComments_eq, behind_eq, Scanner.output_append, hrun,
      lines_output_comment (by simpa using hv)]
  have hl : dropLineComments (behind l m w r) = dropLineComments q := by
    rw [eq_behind_nil h, hout w hw, hout [] List.not_mem_nil]
  rw [normalize_eq, normalize_eq, visible, visible, hl]

theorem accepts_behind {g : Guard} (h : g.Accepts q) (hq : QuoteFree q)
    (hp : parts q = l ++ .block m :: r) (hm : Swallows m) (hw : ∀ c ∈ w, c.isAlpha = true) :
    g.Accepts (behind l m w r) := by
  obtain ⟨hn, hc⟩ := Guard.accepts_iff.mp h
  have hnl : '\n' ∉ w := fun hn => absurd (hw _ hn) (by decide)
  have hsemi : ';' ∉ w := fun hn => absurd (hw _ hn) (by decide)
  have hcount : countSeparators (behind l m w r) = countSeparators q := by
    have hb : ∀ v, behind l m v r =
        sources l ++ '/' :: '*' :: m ++ ['*', '/'] ++ (v ++ sources r) := by
      intro v
      rw [behind_eq]
      simp
    have hrun := Scan.run_unquoted (s := .start) (w := sources l ++ '/' :: '*' :: m ++ ['*', '/'])
      (fun c hc => hq c (by rw [eq_behind_nil hp, hb]; exact List.mem_append_left _ hc)) rfl
    rw [eq_behind_nil hp, hb, hb, countSeparators_insert hrun
      (fun c hc => not_isQuote_of_isAlpha (hw c hc)) hsemi]
    rfl
  rw [Guard.accepts_iff, normalize_behind hp hm hnl, hcount]
  exact ⟨hn, hc⟩

theorem isAlpha_letter : ∀ c ∈ ['A'], c.isAlpha = true := List.forall_mem_singleton.mpr (by decide)

/-- A letter more in the live text is seen in its capitals. -/
theorem not_faithful_behind (h : parts q = l ++ .block m :: r) (hm : Swallows m)
    (hf : Faithful q) : ¬ Faithful (behind l m ['A'] r) := by
  intro hf'
  have hlive : live q = liveText l ++ liveText r := by
    rw [live, h, liveText_append]
    rfl
  have hlive' : live (behind l m ['A'] r) = liveText l ++ 'A' :: liveText r := by
    rw [live, parts_behind h isAlpha_letter, liveText_append]
    rfl
  rw [Faithful, normalize_behind h hm (by decide), hf, hlive, hlive'] at hf'
  have hlen := congrArg List.length hf'
  rw [← List.singleton_append, solids_append, solids_append, solids_append, upper_append,
    upper_append, upper_append, List.length_append, List.length_append, List.length_append] at hlen
  have hA : (upper (solids ['A'])).length = 1 := by decide
  omega

/-- Exactly when no block comment hides its end is the normal form of an
accepted query its live text, and stays so when a word is written behind one of
its block comments. -/
theorem contained_iff_faithful {g : Guard} (h : g.Accepts q) (hq : QuoteFree q) :
    Contained q ↔ Faithful q ∧ ∀ l m r w, parts q = l ++ .block m :: r →
      (∀ c ∈ w, c.isAlpha = true) → g.Accepts (behind l m w r) → Faithful (behind l m w r) := by
  constructor
  · intro hc
    refine ⟨.of_plain (Guard.accepts_iff.mp h).1.1 (plain_of_unquoted hc hq.not_quoted), ?_⟩
    intro l m r w hp hw ha
    have hparts := parts_behind hp hw
    refine .of_plain (Guard.accepts_iff.mp ha).1.1
      (plain_of_unquoted (fun p hm => ?_) fun d hd => ?_)
    · rw [hparts] at hm
      rcases List.mem_append.mp hm with hm | hm
      · exact hc p (by simp [hp, hm])
      rcases List.mem_cons.mp hm with rfl | hm
      · exact hc _ (by simp [hp])
      rcases List.mem_append.mp hm with hm | hm
      · obtain ⟨c, -, rfl⟩ := List.mem_map.mp hm
        exact trivial
      · exact hc p (by simp [hp, hm])
    · rw [hparts] at hd
      exact hq.not_quoted d (by rw [hp]; simpa using hd)
  · rintro ⟨hf, hb⟩ p hm
    cases p with
    | block m =>
      intro hs
      obtain ⟨l, r, hp⟩ := List.append_of_mem hm
      have ha := accepts_behind h hq hp hs isAlpha_letter
      exact not_faithful_behind hp hs hf (hb l m r ['A'] hp isAlpha_letter ha)
    | _ => exact trivial

theorem contained_iff_faithful_comment :
    Guard.standard.Accepts "SELECT a /* all */ FROM t".toList ∧
      QuoteFree "SELECT a /* all */ FROM t".toList ∧
      (Contained "SELECT a /* all */ FROM t".toList ↔
        Faithful "SELECT a /* all */ FROM t".toList ∧ ∀ l m r w,
          parts "SELECT a /* all */ FROM t".toList = l ++ .block m :: r →
          (∀ c ∈ w, c.isAlpha = true) → Guard.standard.Accepts (behind l m w r) →
          Faithful (behind l m w r)) :=
  have h : Guard.standard.Accepts "SELECT a /* all */ FROM t".toList := by decide +kernel
  have hq : QuoteFree "SELECT a /* all */ FROM t".toList := by decide
  ⟨h, hq, contained_iff_faithful h hq⟩

/-- What follows the first comment is live, a second statement included, and
the guard sees nothing of it. -/
theorem hidden_statement :
    Guard.standard.Accepts "SELECT 1 /* -- */ FROM t; DROP TABLE t /* \n */".toList ∧
      QuoteFree "SELECT 1 /* -- */ FROM t; DROP TABLE t /* \n */".toList ∧
      ¬ Faithful "SELECT 1 /* -- */ FROM t; DROP TABLE t /* \n */".toList := by
  decide +kernel

end SafeReports.Sql
