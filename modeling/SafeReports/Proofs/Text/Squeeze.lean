import SafeReports.Text.Blank

/-!
# Squeezing white space

A text is squeezed when its runs of white space are collapsed and its ends
trimmed. White space at the ends of a text leaves the result as it is; between
two parts that are not white space it counts as one space or as none.
-/

namespace SafeReports.Text

def squeeze (s : List Char) : List Char := strip (collapse s)

/-- White space and nothing else. -/
def Blank (s : List Char) : Prop := ∀ c ∈ s, isBlank c = true

instance (s : List Char) : Decidable (Blank s) :=
  List.decidableBAll (isBlank · = true) s

def StartsSolid (s : List Char) : Prop := ∃ c r, s = c :: r ∧ isBlank c = false

def EndsSolid (s : List Char) : Prop := ∃ r c, s = r ++ [c] ∧ isBlank c = false

/-- No white space at either end, and not empty. -/
def Solid (s : List Char) : Prop := StartsSolid s ∧ EndsSolid s

theorem solid_iff : Solid s ↔
    s.head?.any (!isBlank ·) = true ∧ s.getLast?.any (!isBlank ·) = true := by
  refine and_congr ?_ ?_
  · cases s <;> simp [StartsSolid]
  · rcases List.eq_nil_or_concat s with rfl | ⟨r, c, rfl⟩
    · simp [EndsSolid]
    · simp [EndsSolid, and_assoc]

instance : Decidable (Solid s) := decidable_of_iff _ solid_iff.symm

/-- What a run of white space becomes. -/
def gap : List Char → List Char
  | [] => []
  | _ :: _ => [' ']

theorem isBlankText_iff : isBlankText s = true ↔ Blank s := by
  simp [isBlankText, Blank]

theorem Blank.nil : Blank [] := by
  simp [Blank]

theorem blank_space : Blank [' '] := by
  decide

theorem blank_cons_iff : Blank (c :: r) ↔ isBlank c = true ∧ Blank r :=
  List.forall_mem_cons

theorem blank_append_iff : Blank (s ++ t) ↔ Blank s ∧ Blank t :=
  List.forall_mem_append

theorem Blank.append (hs : Blank s) (ht : Blank t) : Blank (s ++ t) :=
  blank_append_iff.mpr ⟨hs, ht⟩

theorem blank_gap (s : List Char) : Blank (gap s) := by
  cases s with
  | nil => exact .nil
  | cons c r => exact blank_space

theorem blank_takeWhile (s : List Char) : Blank (s.takeWhile isBlank) :=
  List.all_eq_true.mp List.all_takeWhile

theorem StartsSolid.append (h : StartsSolid s) (t : List Char) : StartsSolid (s ++ t) := by
  obtain ⟨c, r, rfl, hc⟩ := h
  exact ⟨c, r ++ t, rfl, hc⟩

theorem EndsSolid.append (h : EndsSolid t) (s : List Char) : EndsSolid (s ++ t) := by
  obtain ⟨r, c, rfl, hc⟩ := h
  exact ⟨s ++ r, c, by simp, hc⟩

theorem StartsSolid.not_blank (h : StartsSolid s) : ¬ Blank s := by
  obtain ⟨c, r, rfl, hc⟩ := h
  intro hb
  simp [(blank_cons_iff.mp hb).1] at hc

theorem StartsSolid.ne_nil (h : StartsSolid s) : s ≠ [] := by
  rintro rfl
  exact h.not_blank .nil

theorem EndsSolid.not_blank (h : EndsSolid s) : ¬ Blank s := by
  obtain ⟨r, c, rfl, hc⟩ := h
  intro hb
  simp [hb c (by simp)] at hc

/-- White space, then the rest. -/
theorem exists_blank_append (s : List Char) :
    ∃ a t, s = a ++ t ∧ Blank a ∧ (t = [] ∨ StartsSolid t) := by
  induction s with
  | nil => exact ⟨[], [], rfl, .nil, .inl rfl⟩
  | cons c r ih =>
    cases hc : isBlank c with
    | false => exact ⟨[], c :: r, rfl, .nil, .inr ⟨c, r, rfl, hc⟩⟩
    | true =>
      obtain ⟨a, t, rfl, ha, ht⟩ := ih
      exact ⟨c :: a, t, rfl, blank_cons_iff.mpr ⟨hc, ha⟩, ht⟩

theorem exists_append_blank (s : List Char) :
    ∃ t b, s = t ++ b ∧ Blank b ∧ (t = [] ∨ EndsSolid t) := by
  obtain ⟨a, t, h, ha, ht⟩ := exists_blank_append s.reverse
  refine ⟨t.reverse, a.reverse, ?_, ?_, ?_⟩
  · rw [← List.reverse_append, ← h, List.reverse_reverse]
  · intro c hc
    exact ha c (List.mem_reverse.mp hc)
  · rcases ht with rfl | ⟨c, r, rfl, hc⟩
    · exact .inl rfl
    · exact .inr ⟨r.reverse, c, by simp, hc⟩

theorem EndsSolid.of_append (h : EndsSolid (s ++ t)) (ht : t ≠ []) : EndsSolid t := by
  obtain ⟨r, c, hr, hc⟩ := h
  obtain ⟨q, d, rfl⟩ := (List.eq_nil_or_concat t).resolve_left ht
  have h := List.append_inj_right' (by simpa using hr : s ++ q ++ [d] = r ++ [c]) rfl
  exact ⟨q, d, by simp, List.singleton_inj.mp h ▸ hc⟩

theorem StartsSolid.of_append (h : StartsSolid (s ++ t)) (hs : s ≠ []) : StartsSolid s := by
  obtain ⟨c, r, hr, hc⟩ := h
  cases s with
  | nil => exact absurd rfl hs
  | cons d q => exact ⟨d, q, rfl, (List.cons.inj hr).1 ▸ hc⟩

theorem exists_blank_append_startsSolid (h : ¬ Blank s) :
    ∃ a t, s = a ++ t ∧ Blank a ∧ StartsSolid t := by
  obtain ⟨a, t, rfl, ha, ht⟩ := exists_blank_append s
  rcases ht with rfl | ht
  · exact absurd (by simpa using ha) h
  · exact ⟨a, t, rfl, ha, ht⟩

theorem EndsSolid.exists_blank_append (h : EndsSolid s) :
    ∃ a m, s = a ++ m ∧ Blank a ∧ Solid m := by
  obtain ⟨a, m, rfl, ha, hm⟩ := exists_blank_append_startsSolid h.not_blank
  exact ⟨a, m, rfl, ha, hm, h.of_append hm.ne_nil⟩

theorem StartsSolid.exists_append_blank (h : StartsSolid s) :
    ∃ m b, s = m ++ b ∧ Blank b ∧ Solid m := by
  obtain ⟨m, b, rfl, hb, hm⟩ := Text.exists_append_blank s
  rcases hm with rfl | hm
  · exact absurd (by simpa using hb) h.not_blank
  · exact ⟨m, b, rfl, hb, h.of_append fun hn => hm.not_blank (hn ▸ .nil), hm⟩

-- ---------------------------------------------------------------------------
-- Trimming
-- ---------------------------------------------------------------------------

theorem trimEnd_blank (hb : Blank b) (s : List Char) :
    trimEnd isBlank (s ++ b) = trimEnd isBlank s := by
  have h : ∀ c ∈ b.reverse, isBlank c = true := fun c hc => hb c (List.mem_reverse.mp hc)
  simp only [trimEnd, List.reverse_append, List.dropWhile_append_of_pos h]

theorem trimEnd_solid (h : EndsSolid s) : trimEnd isBlank s = s := by
  obtain ⟨r, c, rfl, hc⟩ := h
  simp [trimEnd, hc]

theorem dropWhile_solid (h : StartsSolid s) : s.dropWhile isBlank = s := by
  obtain ⟨c, r, rfl, hc⟩ := h
  simp [hc]

theorem trimEnd_append (h : EndsSolid s) (t : List Char) :
    trimEnd isBlank (s ++ t) = s ++ trimEnd isBlank t := by
  obtain ⟨t, b, rfl, hb, ht⟩ := exists_append_blank t
  rw [← List.append_assoc, trimEnd_blank hb, trimEnd_blank hb]
  rcases ht with rfl | ht
  · rw [List.append_nil, trimEnd_solid h]
    exact (List.append_nil s).symm
  · rw [trimEnd_solid (ht.append s), trimEnd_solid ht]

theorem trim_sublist (drop : Char → Bool) (s : List Char) : (trim drop s).Sublist s := by
  have he : (trimEnd drop (s.dropWhile drop)).Sublist (s.dropWhile drop) := by
    have h := List.reverse_sublist.mpr
      (List.dropWhile_sublist drop (l := (s.dropWhile drop).reverse))
    rwa [List.reverse_reverse] at h
  exact he.trans (List.dropWhile_sublist drop)

theorem exists_trimEnd (drop : Char → Bool) (s : List Char) :
    ∃ b, s = trimEnd drop s ++ b ∧ ∀ c ∈ b, drop c = true := by
  refine ⟨(s.reverse.takeWhile drop).reverse, ?_, fun c hc => ?_⟩
  · rw [trimEnd, ← List.reverse_append, List.takeWhile_append_dropWhile, List.reverse_reverse]
  · exact List.all_eq_true.mp List.all_takeWhile c (List.mem_reverse.mp hc)

theorem strip_solid (h : Solid s) : strip s = s := by
  rw [strip, trim, dropWhile_solid h.1, trimEnd_solid h.2]

theorem strip_eq_trimEnd (h : StartsSolid s) : strip s = trimEnd isBlank s := by
  rw [strip, trim, dropWhile_solid h]

theorem strip_isPrefix (h : StartsSolid s) : strip s <+: s := by
  obtain ⟨b, hb, -⟩ := exists_trimEnd isBlank s
  rw [strip_eq_trimEnd h]
  exact ⟨b, hb.symm⟩

theorem strip_blank_append (ha : Blank a) (s : List Char) : strip (a ++ s) = strip s := by
  rw [strip, trim, List.dropWhile_append_of_pos ha, strip, trim]

theorem strip_append_blank (hb : Blank b) (s : List Char) : strip (s ++ b) = strip s := by
  rw [strip, trim, strip, trim, List.dropWhile_append]
  split
  · -- nothing solid on the left: both sides are empty
    rename_i h
    have hs : s.dropWhile isBlank = [] := List.isEmpty_iff.mp h
    have h' : b.dropWhile isBlank = [] := by
      have hd : (b ++ []).dropWhile isBlank = [].dropWhile isBlank :=
        List.dropWhile_append_of_pos hb
      simpa using hd
    rw [hs, h']
  · exact trimEnd_blank hb _

theorem exists_trim (drop : Char → Bool) (s : List Char) :
    ∃ a b, s = a ++ trim drop s ++ b ∧ (∀ c ∈ a, drop c = true) ∧ ∀ c ∈ b, drop c = true := by
  obtain ⟨b, hb, hd⟩ := exists_trimEnd drop (s.dropWhile drop)
  refine ⟨s.takeWhile drop, b, ?_, List.all_eq_true.mp List.all_takeWhile, hd⟩
  rw [trim, List.append_assoc, ← hb, List.takeWhile_append_dropWhile]

/-- Nothing that trimming takes is left at the ends. -/
theorem trim_ends (drop : Char → Bool) (s : List Char) :
    (∀ c ∈ (trim drop s).head?, drop c = false) ∧ ∀ c ∈ (trim drop s).getLast?, drop c = false := by
  have hhead : ∀ t : List Char, ∀ c ∈ (t.dropWhile drop).head?, drop c = false := by
    intro t c hc
    have h := List.head?_dropWhile_not drop t
    rwa [Option.mem_def.mp hc] at h
  constructor
  · intro c hc
    obtain ⟨r, hr⟩ := List.head?_eq_some_iff.mp hc
    obtain ⟨b, hb, -⟩ := exists_trimEnd drop (s.dropWhile drop)
    rw [← trim, hr] at hb
    exact hhead s c (by rw [hb]; rfl)
  · intro c hc
    refine hhead (s.dropWhile drop).reverse c ?_
    rwa [trim, trimEnd, List.getLast?_reverse] at hc

theorem strip_nil_or_solid (s : List Char) : strip s = [] ∨ Solid (strip s) := by
  obtain ⟨a, t, rfl, ha, ht⟩ := exists_blank_append s
  rw [strip_blank_append ha]
  rcases ht with rfl | ht
  · exact .inl rfl
  · obtain ⟨m, b, rfl, hb, hm⟩ := ht.exists_append_blank
    rw [strip_append_blank hb, strip_solid hm]
    exact .inr hm

theorem strip_isInfix (s : List Char) : strip s <:+: s := by
  obtain ⟨a, b, hs, -, -⟩ := exists_trim isBlank s
  exact ⟨a, b, hs.symm⟩

theorem strip_eq_nil_iff : strip s = [] ↔ Blank s := by
  constructor
  · intro h
    obtain ⟨a, b, hs, ha, hb⟩ := exists_trim isBlank s
    rw [hs, ← strip, h, List.append_nil]
    exact Blank.append ha hb
  · intro h
    have hs := strip_blank_append h []
    rw [List.append_nil] at hs
    exact hs

theorem strip_endsSolid (s : List Char) : strip s = [] ∨ EndsSolid (strip s) :=
  (strip_nil_or_solid s).imp_right And.right

theorem strip_strip (s : List Char) : strip (strip s) = strip s := by
  rcases strip_nil_or_solid s with h | h
  · rw [h]
    rfl
  · exact strip_solid h

-- ---------------------------------------------------------------------------
-- Collapsing
-- ---------------------------------------------------------------------------

theorem collapseFrom_append (b : Bool) (s t : List Char) :
    collapseFrom b (s ++ t) =
      collapseFrom b s ++ collapseFrom (s.foldl (fun _ c => isBlank c) b) t := by
  induction s generalizing b with
  | nil => rfl
  | cons c r ih =>
    cases hc : isBlank c <;> cases b <;> simp [collapseFrom, hc, ih]

theorem collapse_endsSolid_append (h : EndsSolid s) (t : List Char) :
    collapse (s ++ t) = collapse s ++ collapse t := by
  obtain ⟨r, c, rfl, hc⟩ := h
  rw [collapse, collapseFrom_append]
  simp [collapse, hc]

theorem collapseFrom_startsSolid (h : StartsSolid s) (b : Bool) :
    collapseFrom b s = collapse s := by
  obtain ⟨c, r, rfl, hc⟩ := h
  simp [collapse, collapseFrom, hc]

theorem collapseFrom_true_blank_append (ha : Blank a) (s : List Char) :
    collapseFrom true (a ++ s) = collapseFrom true s := by
  induction a with
  | nil => rfl
  | cons c r ih =>
    obtain ⟨hc, hr⟩ := blank_cons_iff.mp ha
    simpa [collapseFrom, hc] using ih hr

theorem collapse_blank_append (ha : Blank a) (hs : s = [] ∨ StartsSolid s) :
    collapse (a ++ s) = gap a ++ collapse s := by
  have hf : collapseFrom true s = collapse s := by
    rcases hs with rfl | hs
    · rfl
    · exact collapseFrom_startsSolid hs true
  cases a with
  | nil => rfl
  | cons c r =>
    obtain ⟨hc, hr⟩ := blank_cons_iff.mp ha
    simp [collapse, collapseFrom, hc, gap, collapseFrom_true_blank_append hr, hf]

theorem collapse_blank (h : Blank b) : collapse b = gap b := by
  have hb := collapse_blank_append h (.inl rfl)
  simpa [collapse, collapseFrom] using hb

theorem collapse_startsSolid (h : StartsSolid s) : StartsSolid (collapse s) := by
  obtain ⟨c, r, rfl, hc⟩ := h
  exact ⟨c, collapseFrom false r, by simp [collapse, collapseFrom, hc], hc⟩

theorem collapse_endsSolid (h : EndsSolid s) : EndsSolid (collapse s) := by
  obtain ⟨r, c, rfl, hc⟩ := h
  exact ⟨collapse r, c, by simp [collapse, collapseFrom_append, collapseFrom, hc], hc⟩

-- ---------------------------------------------------------------------------
-- Squeezing
-- ---------------------------------------------------------------------------

theorem squeeze_solid (h : Solid s) : squeeze s = collapse s :=
  strip_solid ⟨collapse_startsSolid h.1, collapse_endsSolid h.2⟩

theorem squeeze_blank (h : Blank b) : squeeze b = [] := by
  rw [squeeze, collapse_blank h, ← List.append_nil (gap b), strip_blank_append (blank_gap b)]
  rfl

theorem squeeze_blank_append (ha : Blank a) (s : List Char) : squeeze (a ++ s) = squeeze s := by
  obtain ⟨b, t, rfl, hb, ht⟩ := exists_blank_append s
  rw [← List.append_assoc, squeeze, collapse_blank_append (ha.append hb) ht,
    strip_blank_append (blank_gap _), squeeze, collapse_blank_append hb ht,
    strip_blank_append (blank_gap _)]

theorem squeeze_append_blank (hb : Blank b) (s : List Char) : squeeze (s ++ b) = squeeze s := by
  obtain ⟨t, c, rfl, hc, ht⟩ := exists_append_blank s
  rcases ht with rfl | ht
  · rw [squeeze_blank (by simpa using hc.append hb), squeeze_blank (by simpa using hc)]
  · rw [List.append_assoc, squeeze, collapse_endsSolid_append ht,
      collapse_blank (hc.append hb), strip_append_blank (blank_gap _), squeeze,
      collapse_endsSolid_append ht, collapse_blank hc, strip_append_blank (blank_gap _)]

theorem squeeze_surrounded (ha : Blank a) (hm : Solid m) (hb : Blank b) :
    squeeze (a ++ m ++ b) = collapse m := by
  rw [squeeze_append_blank hb, squeeze_blank_append ha, squeeze_solid hm]

/-- Between two parts that are not white space, a run of it is a space. -/
theorem squeeze_join (hs : EndsSolid s) (hb : Blank b) (ht : StartsSolid t) :
    squeeze (s ++ b ++ t) = squeeze s ++ gap b ++ squeeze t := by
  obtain ⟨a, m, rfl, ha, hm⟩ := hs.exists_blank_append
  obtain ⟨n, d, rfl, hd, hn⟩ := ht.exists_append_blank
  have hmid : Solid (m ++ b ++ n) :=
    ⟨by simpa using hm.1.append (b ++ n), hn.2.append (m ++ b)⟩
  have hl : squeeze (a ++ m) = collapse m := by rw [squeeze_blank_append ha, squeeze_solid hm]
  have hr : squeeze (n ++ d) = collapse n := by rw [squeeze_append_blank hd, squeeze_solid hn]
  calc squeeze (a ++ m ++ b ++ (n ++ d))
      = squeeze (a ++ (m ++ b ++ n) ++ d) := by simp
    _ = collapse (m ++ (b ++ n)) := by rw [squeeze_surrounded ha hmid hd, List.append_assoc]
    _ = collapse m ++ gap b ++ collapse n := by
      rw [collapse_endsSolid_append hm.2, collapse_blank_append hb (.inr hn.1),
        List.append_assoc]
    _ = squeeze (a ++ m) ++ gap b ++ squeeze (n ++ d) := by rw [hl, hr]

-- ---------------------------------------------------------------------------
-- Parts of a squeezed text
-- ---------------------------------------------------------------------------

theorem collapse_append_startsSolid (h : StartsSolid t) (s : List Char) :
    collapse (s ++ t) = collapse s ++ collapse t := by
  rw [collapse, collapseFrom_append, collapseFrom_startsSolid h]
  rfl

theorem collapseFrom_solid (hc : isBlank c = false) (b : Bool) (r : List Char) :
    collapseFrom b (c :: r) = c :: collapse r := by
  simp [collapseFrom, hc, collapse]

/-- A collapsed text can be cut before what is solid where the text can. -/
theorem exists_of_collapseFrom_append (hs : collapseFrom b m = s ++ t) (ht : StartsSolid t) :
    ∃ m₁ m₂, m = m₁ ++ m₂ ∧ collapseFrom b m₁ = s ∧ StartsSolid m₂ ∧ collapse m₂ = t := by
  induction m generalizing b s with
  | nil =>
    obtain ⟨-, rfl⟩ := List.append_eq_nil_iff.mp hs.symm
    exact absurd .nil ht.not_blank
  | cons c r ih =>
    -- the first character is written, and goes to the left part, or it is left out
    have written (d : Char) (inRun : Bool)
        (h : ∀ q, collapseFrom b (c :: q) = d :: collapseFrom inRun q) (hn : s ≠ []) :
        ∃ m₁ m₂, c :: r = m₁ ++ m₂ ∧ collapseFrom b m₁ = s ∧ StartsSolid m₂ ∧
          collapse m₂ = t := by
      obtain ⟨e, s, rfl⟩ := List.exists_cons_of_ne_nil hn
      obtain ⟨rfl, hr⟩ := List.cons.inj ((h r).symm.trans hs)
      obtain ⟨m₁, m₂, rfl, rfl, h₂⟩ := ih hr
      exact ⟨c :: m₁, m₂, rfl, h m₁, h₂⟩
    cases hc : isBlank c with
    | false =>
      by_cases hn : s = []
      · rw [hn, List.nil_append] at hs
        refine ⟨[], c :: r, rfl, hn.symm, ⟨c, r, rfl, hc⟩, ?_⟩
        rw [← hs, collapseFrom_solid hc, collapse, collapseFrom_solid hc]
      · exact written c false (collapseFrom_solid hc b) hn
    | true =>
      cases b with
      | true =>
        obtain ⟨m₁, m₂, rfl, rfl, h₂⟩ := ih (by simpa [collapseFrom, hc] using hs)
        exact ⟨c :: m₁, m₂, rfl, by simp [collapseFrom, hc], h₂⟩
      | false =>
        refine written ' ' true (fun q => by simp [collapseFrom, hc]) ?_
        rintro rfl
        obtain ⟨d, q, rfl, hd⟩ := ht
        obtain ⟨rfl, -⟩ : ' ' = d ∧ _ := by simpa [collapseFrom, hc] using hs
        exact absurd hd (by decide)

theorem exists_of_endsSolid_append (hs : collapse m = s ++ t) (h : EndsSolid s) :
    ∃ m₁ m₂, m = m₁ ++ m₂ ∧ EndsSolid m₁ ∧ collapse m₁ = s ∧ collapse m₂ = t := by
  obtain ⟨r, c, rfl, hc⟩ := h
  obtain ⟨m₁, m₂, rfl, h₁, ⟨d, q, rfl, hd⟩, h₂⟩ :=
    exists_of_collapseFrom_append (s := r) (t := c :: t) (hs.trans (by simp)) ⟨c, t, rfl, hc⟩
  obtain ⟨rfl, rfl⟩ := List.cons.inj ((collapseFrom_solid hd false q).symm.trans h₂)
  refine ⟨m₁ ++ [d], q, by simp, ⟨m₁, d, rfl, hd⟩, ?_, rfl⟩
  rw [collapse_append_startsSolid ⟨d, [], rfl, hd⟩, collapse, h₁]
  exact congrArg (r ++ ·) (collapseFrom_solid hd false [])

section Ends

/-! No white space has the property `p`. Then the first character of a text has
it exactly when that of the collapsed text has it, and so has the last. -/

variable {p : Char → Bool} (hp : ∀ c, isBlank c = true → p c = false)
include hp

theorem any_head?_append_blank (hb : Blank b) (s : List Char) :
    (s ++ b).head?.any p = s.head?.any p := by
  cases s with
  | nil =>
    cases b with
    | nil => rfl
    | cons c r => exact hp c (blank_cons_iff.mp hb).1
  | cons c r => rfl

theorem any_getLast?_blank_append (ha : Blank a) (s : List Char) :
    (a ++ s).getLast?.any p = s.getLast?.any p := by
  rcases List.eq_nil_or_concat s with rfl | ⟨r, c, rfl⟩
  · rcases List.eq_nil_or_concat a with rfl | ⟨r, c, rfl⟩
    · rfl
    · simpa using hp c (ha c (by simp))
  · simp [← List.append_assoc]

theorem any_head?_collapse (s : List Char) : (collapse s).head?.any p = s.head?.any p := by
  obtain ⟨a, t, rfl, ha, ht⟩ := exists_blank_append s
  rw [collapse_blank_append ha ht]
  cases a with
  | nil =>
    rcases ht with rfl | ⟨c, r, rfl, hc⟩
    · rfl
    · rw [List.nil_append, collapse, collapseFrom_solid hc]
      rfl
  | cons c r => exact (hp ' ' (by decide)).trans (hp c (blank_cons_iff.mp ha).1).symm

theorem any_getLast?_collapse (s : List Char) :
    (collapse s).getLast?.any p = s.getLast?.any p := by
  obtain ⟨t, b, rfl, hb, ht⟩ := exists_append_blank s
  rcases ht with rfl | ⟨r, c, rfl, hc⟩
  · rw [List.nil_append, collapse_blank hb, ← List.append_nil (gap b), ← List.append_nil b,
      any_getLast?_blank_append hp (blank_gap _), any_getLast?_blank_append hp hb]
  · rw [collapse_endsSolid_append ⟨r, c, rfl, hc⟩, collapse_append_startsSolid ⟨c, [], rfl, hc⟩,
      collapse_blank hb, collapse, collapse, collapseFrom_solid hc]
    rcases List.eq_nil_or_concat b with rfl | ⟨q, d, rfl⟩
    · simp [gap, collapse, collapseFrom]
    · have hg : gap (q ++ [d]) = [' '] := by
        cases q <;> rfl
      simp [hg, ← List.append_assoc, hp ' ' (by decide), hp d (hb d (by simp))]

/-- A solid middle is there after squeezing, with the same ends around it. -/
theorem exists_squeeze_around (hy : Solid y) (x z : List Char) :
    ∃ u w, squeeze (x ++ y ++ z) = u ++ collapse y ++ w ∧
      u.getLast?.any p = x.getLast?.any p ∧ w.head?.any p = z.head?.any p := by
  obtain ⟨a, x, rfl, ha, hx⟩ := exists_blank_append x
  obtain ⟨z, b, rfl, hb, hz⟩ := exists_append_blank z
  have hm : Solid (x ++ y ++ z) := by
    constructor
    · rcases hx with rfl | hx
      · exact hy.1.append z
      · exact (hx.append y).append z
    · rcases hz with rfl | hz
      · simpa using hy.2.append x
      · exact hz.append (x ++ y)
  refine ⟨collapse x, collapse z, ?_, ?_, ?_⟩
  · calc squeeze (a ++ x ++ y ++ (z ++ b))
        = squeeze (a ++ (x ++ y ++ z) ++ b) := by simp
      _ = collapse (x ++ y ++ z) := squeeze_surrounded ha hm hb
      _ = collapse x ++ collapse y ++ collapse z := by
        rw [collapse_endsSolid_append (hy.2.append x), collapse_append_startsSolid hy.1]
  · rw [any_getLast?_collapse hp, any_getLast?_blank_append hp ha]
  · rw [any_head?_collapse hp, any_head?_append_blank hp hb]

/-- What is solid in a squeezed text comes from something solid in the text. -/
theorem exists_of_squeeze_eq (hs : squeeze s = u ++ v ++ w) (hv : Solid v) :
    ∃ x y z, s = x ++ y ++ z ∧ Solid y ∧ collapse y = v ∧
      u.getLast?.any p = x.getLast?.any p ∧ w.head?.any p = z.head?.any p := by
  obtain ⟨a, t, rfl, ha, ht⟩ := exists_blank_append s
  rcases ht with rfl | ht
  · rw [List.append_nil, squeeze_blank ha] at hs
    obtain ⟨huv, -⟩ := List.append_eq_nil_iff.mp hs.symm
    exact absurd ((List.append_eq_nil_iff.mp huv).2 ▸ .nil) hv.1.not_blank
  obtain ⟨m, b, rfl, hb, hm⟩ := ht.exists_append_blank
  rw [← List.append_assoc, squeeze_surrounded ha hm hb, List.append_assoc] at hs
  obtain ⟨x, m, rfl, hx, hm', h⟩ := exists_of_collapseFrom_append hs (hv.1.append w)
  obtain ⟨y, z, rfl, hy, hyv, hz⟩ := exists_of_endsSolid_append h hv.2
  refine ⟨a ++ x, y, z ++ b, by simp, ⟨hm'.of_append ?_, hy⟩, hyv, ?_, ?_⟩
  · rintro rfl
    exact hy.not_blank .nil
  · rw [any_getLast?_blank_append hp ha, ← hx]
    exact any_getLast?_collapse hp x
  · rw [any_head?_append_blank hp hb, ← hz, any_head?_collapse hp]

end Ends

end SafeReports.Text
