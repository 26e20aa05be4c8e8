import SafeReports.Proofs.Sql.Trailing

/-!
# Storing what is stored

The ends are trimmed in a fixed number of turns and one separator is looked for,
once. What is stored can therefore have something to trim at its ends, and the
separator that went may have kept apart an earlier one and the comment.
-/

namespace SafeReports.Sql

open Text

-- ---------------------------------------------------------------------------
-- Texts that are stored as they are
-- ---------------------------------------------------------------------------

theorem stored_sublist (q : List Char) : (stored q).Sublist (trimSeparators q) := by
  rcases removes_or_stored_eq q with ⟨b, m, a, h⟩ | h
  · rw [h.stored, h.trimmed]
    exact (List.Sublist.refl b).append (List.sublist_append_right m a)
  · rw [h]

theorem stored_eq_self_iff : stored s = s ↔ trimSeparators s = s ∧
    ∀ b a, FirstTrail s b a → (Scan.start.run b).quote ≠ none := by
  constructor
  · intro h
    have ht : trimSeparators s = s := by
      obtain ⟨x, y, hs, -⟩ := exists_trimSeparators s
      have hw : (trimSeparators s).Sublist s := by
        conv => rhs; rw [hs]
        exact (List.sublist_append_right x _).trans (List.sublist_append_left _ y)
      have hsub := stored_sublist s
      rw [h] at hsub
      exact hw.antisymm hsub
    refine ⟨ht, fun b a hf hq => ?_⟩
    obtain ⟨m, hr⟩ := removes_iff.mpr ⟨by rwa [ht], hq⟩
    exact hr.stored_ne (by rw [h, ht])
  · rintro ⟨ht, hf⟩
    rcases firstTrail_or_stored_eq s with ⟨b, a, hb, hq⟩ | h
    · rw [ht] at hb
      exact absurd hq (hf b a hb)
    · rw [h, ht]

-- ---------------------------------------------------------------------------
-- What the stored form brings together
-- ---------------------------------------------------------------------------

/-- What may stand before a comment and not keep it from being one: white space,
and a dash before a line comment. -/
inductive Bare (a : List Char) : List Char → Prop
  | blank : Blank w → Bare a w
  | dash : Blank w → a.head? = some '-' → Bare a (w ++ ['-'])

/-- The last separator of a text has the comment behind it. -/
def Exposes (b a : List Char) : Prop := ∃ u v, b = u ++ ';' :: v ∧ Bare a v

/-- A comment keeps the separators in it. -/
def KeepsOwn (a : List Char) : Prop :=
  ∀ u v, FirstTrail a u v → (Scan.start.run u).quote ≠ none

theorem Bare.quoteFree (h : Bare a v) : QuoteFree v := by
  cases h with
  | blank hv => exact quoteFree_of_blank hv
  | dash hw =>
    intro c hc
    rcases List.mem_append.mp hc with hc | hc
    · exact quoteFree_of_blank hw c hc
    · rw [List.mem_singleton.mp hc]
      rfl

/-- What is open behind the separators is open before them. -/
theorem Bare.quote_eq (h : Bare a v) (u : List Char) (hm : ∀ c ∈ m, c = ';') :
    (Scan.start.run (u ++ ';' :: (m ++ v))).quote = (Scan.start.run u).quote := by
  have hfree : QuoteFree (';' :: (m ++ v)) := by
    refine List.forall_mem_cons.mpr ⟨rfl, List.forall_mem_append.mpr ⟨fun c hc => ?_, h.quoteFree⟩⟩
    rw [hm c hc]
    rfl
  rw [Scan.run_append]
  exact Scan.quote_run hfree (Scan.start_proper.run u)

theorem Bare.endComment (h : Bare a v) (ha : EndComment a) : EndComment (v ++ a) := by
  cases h with
  | blank hv => exact .blank_append hv ha
  | @dash w hw hd =>
    cases ha with
    | blank hc =>
      obtain rfl := Option.some.inj hd
      exact absurd hc (by decide)
    | line hm =>
      rw [List.append_assoc]
      exact .blank_append hw (.line (by simpa using hm))
    | block => cases hd

theorem Bare.exposes {b u v : List Char} (h : Bare a v) (hb : b = u ++ ';' :: (m ++ v))
    (hm : ∀ c ∈ m, c = ';') : Exposes b a := by
  rcases List.eq_nil_or_concat m with rfl | ⟨l, c, rfl⟩
  · exact ⟨u, v, hb, h⟩
  · refine ⟨u ++ ';' :: l, v, ?_, h⟩
    rw [hb, hm c (by simp)]
    simp

/-- The end of a block comment lies in the part that ends the text. -/
theorem EndComment.block_behind {m x : List Char} (h : EndComment a)
    (hx : ['*', '/'] <:+ x ++ a) : ['*', '/'] <:+ x ++ (m ++ a) := by
  have hne := h.head?_ne (c := '*') (by decide) (by decide) (by decide)
  have ha : ['*', '/'] <:+ a := by
    cases a with
    | nil => cases h
    | cons c t =>
      have hc : c ≠ '*' := fun he => hne (by rw [he]; rfl)
      have ht : t ≠ [] := by
        rintro rfl
        cases h with
        | blank _ h => cases h
      exact ((ends_block_iff hc ht).mp hx).trans (List.suffix_cons c t)
  exact (ha.trans (List.suffix_append m a)).trans (List.suffix_append x _)

/-- Without the run a comment to the end follows the last separator before it, if
that is bare, or a separator of the comment's own. -/
theorem Removes.trails (h : Removes q b m a) (ht : Trail (b ++ a) u v) :
    (∃ n w, b = u ++ ';' :: (n ++ w) ∧ (∀ c ∈ n, c = ';') ∧ Bare a w) ∨
      ∃ x, u = b ++ x ∧ Trail a x v := by
  obtain ⟨hf, -⟩ := removes_iff.mp ⟨m, h⟩
  have ha := hf.trail.2
  have hm : '\n' ∉ m := fun hn => absurd (h.semicolons _ hn) (by decide)
  cases ht.stands with
  | behind hu hx => exact .inr ⟨_, hu, hx⟩
  | across _ _ hn => exact absurd hn ha.head?_ne_semicolon
  | @before n w hb hn hv hw =>
    refine .inl ⟨n, w, hb, hn, ?_⟩
    -- with the run the text has no comment to the end behind this separator
    have hno : ¬ EndComment (w ++ (m ++ a)) := by
      intro he
      rw [hb] at hf
      exact hf.not_before ⟨⟨n, by rw [h.trimmed, hb]; simp, hn⟩, he⟩
    cases hw with
    | behind hw => exact .blank hw
    | dash hw hv hd => exact hv ▸ .dash hw hd
    | slash _ _ hs => exact absurd hs (ha.head?_ne (by decide) (by decide) (by decide))
    | line hw hv hx ht =>
      refine absurd ?_ hno
      rw [hv, List.append_assoc]
      exact .blank_append hw (.line (by simp [hx, hm, ht]))
    | block hw hv hx =>
      refine absurd ?_ hno
      rw [hv, List.append_assoc]
      exact .blank_append hw (.block (ha.block_behind hx))

theorem Trail.append (h : Trail a x v) (b : List Char) : Trail (b ++ a) (b ++ x) v := by
  obtain ⟨⟨m, rfl, hm⟩, hv⟩ := h
  exact ⟨⟨m, by simp, hm⟩, hv⟩

theorem firstTrail_append_iff (h : ∀ u v, Trail (b ++ a) u v → ∃ x, u = b ++ x ∧ Trail a x v) :
    FirstTrail (b ++ a) u v ↔ ∃ x, u = b ++ x ∧ FirstTrail a x v := by
  constructor
  · rintro ⟨ht, hf⟩
    obtain ⟨x, rfl, hx⟩ := h u v ht
    refine ⟨x, rfl, hx, fun y w hy => ?_⟩
    exact (List.prefix_append_right_inj b).mp (hf _ w (hy.append b))
  · rintro ⟨x, rfl, ht, hf⟩
    refine ⟨ht.append b, fun u w hu => ?_⟩
    obtain ⟨y, rfl, hy⟩ := h u w hu
    exact (List.prefix_append_right_inj b).mpr (hf y w hy)

theorem Removes.keeps_iff (h : Removes q b m a) :
    (∀ u v, FirstTrail (b ++ a) u v → (Scan.start.run u).quote ≠ none) ↔
      ¬ Exposes b a ∧ KeepsOwn a := by
  obtain ⟨hf, hq⟩ := removes_iff.mp ⟨m, h⟩
  have hexposed : ∀ {u n w}, b = u ++ ';' :: (n ++ w) → (∀ c ∈ n, c = ';') → Bare a w →
      (Scan.start.run u).quote = none := by
    rintro u n w rfl hn hw
    exact (hw.quote_eq u hn).symm.trans hq
  have hown {x} : (Scan.start.run (b ++ x)).quote = (Scan.start.run x).quote := by
    rw [Scan.run_append, Scan.run_of_unquoted hq]
  by_cases he : Exposes b a
  · refine iff_of_false (fun hall => ?_) fun hn => hn.1 he
    obtain ⟨u, w, hb, hw⟩ := he
    have hu : Trail (b ++ a) u (w ++ a) := ⟨⟨[], by simp [hb], by simp⟩, hw.endComment hf.trail.2⟩
    obtain ⟨u', v', hu'⟩ := hu.exists_first
    rcases h.trails hu'.trail with ⟨n, w', hb', hn, hw'⟩ | ⟨x, hx, -⟩
    · exact hall u' v' hu' (hexposed hb' hn hw')
    · obtain rfl : u' = u ++ ';' :: (w ++ x) := by simp [hx, hb]
      exact hu'.not_before hu
  · rw [and_iff_right he]
    have hbehind : ∀ u v, Trail (b ++ a) u v → ∃ x, u = b ++ x ∧ Trail a x v := by
      intro u v hu
      refine (h.trails hu).resolve_left ?_
      rintro ⟨n, w, hb, hn, hw⟩
      exact he (hw.exposes hb hn)
    constructor
    · intro hall x v hx
      rw [← hown]
      exact hall _ v ((firstTrail_append_iff hbehind).mpr ⟨x, rfl, hx⟩)
    · intro hown' u v hu
      obtain ⟨x, rfl, hx⟩ := (firstTrail_append_iff hbehind).mp hu
      rw [hown]
      exact hown' x v hx

/-- What is stored would be stored as it is: nothing is left to trim, no comment
to the end follows an earlier separator that is bare without the run, and the
comment keeps its own separators. -/
structure Lasting (q : List Char) : Prop where
  trimmed : trimSeparators (stored q) = stored q
  apart : ∀ b m a, Removes q b m a → ¬ Exposes b a
  own : ∀ b m a, Removes q b m a → KeepsOwn a

theorem stored_stored_iff : stored (stored q) = stored q ↔ Lasting q := by
  rw [stored_eq_self_iff]
  rcases removes_or_stored_eq q with ⟨b, m, a, h⟩ | hs
  · have hk := h.keeps_iff
    rw [← h.stored] at hk
    constructor
    · rintro ⟨ht, hf⟩
      obtain ⟨he, ho⟩ := hk.mp hf
      refine ⟨ht, fun b' m' a' h' => ?_, fun b' m' a' h' => ?_⟩
      · obtain ⟨rfl, rfl⟩ := h.unique h'
        exact he
      · obtain ⟨rfl, rfl⟩ := h.unique h'
        exact ho
    · exact fun hl => ⟨hl.trimmed, hk.mpr ⟨hl.apart b m a h, hl.own b m a h⟩⟩
  · have hno : ∀ b m a, ¬ Removes q b m a := fun b m a h => h.stored_ne hs
    constructor
    · rintro ⟨ht, -⟩
      exact ⟨ht, fun b m a h => absurd h (hno b m a), fun b m a h => absurd h (hno b m a)⟩
    · refine fun hl => ⟨hl.trimmed, fun b a hf hq => ?_⟩
      rw [hs] at hf
      obtain ⟨m, hr⟩ := hf.removes hq
      exact hno b m a hr

-- ---------------------------------------------------------------------------
-- Accepted queries
-- ---------------------------------------------------------------------------

theorem Guard.Accepts.solid_trimSeparators {g : Guard} (h : g.Accepts q) :
    Solid (trimSeparators q) ∧ (trimSeparators q).head? ≠ some ';' := by
  obtain ⟨hblank, hp, -⟩ :=
    violation?_eq_none_iff.mp (Guard.accepts_iff_violation?.mp (accepts_trimSeparators h))
  constructor
  · refine (strip_nil_or_solid _).resolve_left fun hn => hblank ?_
    rw [trimSeparators, hn]
    exact .nil
  · intro hh
    obtain ⟨r, hr⟩ := List.head?_eq_some_iff.mp hh
    rw [hr] at hp
    exact Passes.not_semicolon (w := []) .nil hp

/-- The ends of the trimmed text are those of the stored form. -/
theorem Guard.Accepts.stored_ends {g : Guard} (h : g.Accepts q) :
    Solid (stored q) ∧ (stored q).head? ≠ some ';' ∧
      (stored q).getLast? = (trimSeparators q).getLast? := by
  obtain ⟨hs, hh⟩ := h.solid_trimSeparators
  rcases removes_or_stored_eq q with ⟨b, m, a, hr⟩ | he
  · have ha := (removes_iff.mp ⟨m, hr⟩).1.trail.2.ne_nil
    obtain ⟨m, rfl⟩ := hr.head_run
    rw [hr.trimmed] at hs hh ⊢
    rw [hr.stored]
    cases b with
    | nil => exact absurd rfl hh
    | cons c b =>
      have hend : EndsSolid a := by
        rw [← List.append_assoc] at hs
        exact hs.2.of_append ha
      refine ⟨⟨(hs.1.of_append (List.cons_ne_nil c b)).append a, hend.append _⟩, hh, ?_⟩
      rw [List.getLast?_append_of_ne_nil _ ha, ← List.append_assoc,
        List.getLast?_append_of_ne_nil _ ha]
  · rw [he]
    exact ⟨hs, hh, rfl⟩

/-- One separator goes, and it was the only one. -/
theorem Removes.count_eq_zero (h : Removes q b m a) (hc : countSeparators (trimSeparators q) ≤ 1) :
    countSeparators (b ++ a) = 0 := by
  obtain ⟨-, hq⟩ := removes_iff.mp ⟨m, h⟩
  have hs := h.semicolons
  obtain ⟨m, rfl⟩ := h.head_run
  rw [h.trimmed, List.cons_append, countSeparators_drop hq] at hc
  cases m with
  | nil => exact Nat.le_zero.mp (Nat.le_of_succ_le_succ hc)
  | cons c m =>
    obtain rfl := hs c (by simp)
    rw [List.cons_append, countSeparators_drop hq] at hc
    omega

/-- For an accepted query all hangs on the end of the trimmed text. -/
theorem Guard.Accepts.lasting_iff {g : Guard} (h : g.Accepts q) :
    Lasting q ↔ (trimSeparators q).getLast? ≠ some ';' := by
  obtain ⟨hs, hh, hl⟩ := h.stored_ends
  have hcount := (Guard.accepts_iff.mp (accepts_trimSeparators h)).2
  rw [← hl]
  constructor
  · intro hlast
    have hne : stored q ≠ [] := fun hn => hs.1.not_blank (hn ▸ .nil)
    exact ((trimSeparators_eq_self_iff.mp hlast.trimmed).resolve_left hne).2.2
  · intro hlast
    refine ⟨trimSeparators_eq_self_iff.mpr (.inr ⟨hs, hh, hlast⟩), fun b m a hr => ?_,
      fun b m a hr => ?_⟩
    · have hzero := Scan.count_eq_zero_iff.mp (hr.count_eq_zero hcount)
      have hq := (removes_iff.mp ⟨m, hr⟩).2
      rintro ⟨u, w, rfl, hw⟩
      refine hzero u (w ++ a) (by simp) ?_
      exact (hw.quote_eq (m := []) u (by simp)).symm.trans hq
    · have hzero := Scan.count_eq_zero_iff.mp (hr.count_eq_zero hcount)
      have hq := (removes_iff.mp ⟨m, hr⟩).2
      intro u v hf
      obtain ⟨n, rfl, -⟩ := hf.trail.1
      have hu := hzero (b ++ u) (n ++ v) (by simp)
      rwa [Scan.run_append, Scan.run_of_unquoted hq] at hu

theorem quoteFree_of_separators (h : ∀ c ∈ y, isBlank c = true ∨ c = ';') : QuoteFree y := by
  intro c hc
  rcases h c hc with hb | rfl
  · exact quoteFree_of_blank (w := [c]) (by simpa [Blank] using hb) c (by simp)
  · rfl

/-- A separator left at the end was one of two, unless a span is open there. -/
theorem two_separators (hq : (Scan.start.run (s ++ ';' :: (w ++ ';' :: r))).quote = none)
    (hy : ∀ c ∈ w ++ ';' :: r, isBlank c = true ∨ c = ';') :
    2 ≤ countSeparators (s ++ ';' :: (w ++ ';' :: r)) := by
  have hfree : QuoteFree (w ++ ';' :: r) := quoteFree_of_separators hy
  have hs : (Scan.start.run s).quote = none := by
    rw [Scan.run_append] at hq
    have hrest : QuoteFree (';' :: (w ++ ';' :: r)) := List.forall_mem_cons.mpr ⟨rfl, hfree⟩
    exact (Scan.quote_run hrest (Scan.start_proper.run s)).symm.trans hq
  have hw : (Scan.start.run (s ++ w)).quote = none := by
    rw [Scan.run_append]
    exact Scan.run_unquoted (fun c hc => hfree c (List.mem_append_left _ hc)) hs
  rw [countSeparators_drop hs, ← List.append_assoc, countSeparators_drop hw]
  omega

theorem trimSeparators_blank (hx : Blank x) (hy : Blank y) (s : List Char) :
    trimSeparators (x ++ s ++ y) = trimSeparators s := by
  rw [trimSeparators, strip_append_blank hy, strip_blank_append hx, trimSeparators]

/-- An accepted query that closes its quoted spans does not change when it is
stored again. -/
theorem Guard.Accepts.lasting {g : Guard} (h : g.Accepts q)
    (hq : (Scan.start.run q).quote = none) : Lasting q := by
  obtain ⟨hp, hc⟩ := Guard.accepts_iff.mp h
  rw [h.lasting_iff]
  intro hlast
  obtain ⟨x, y, hqe, hx, hy⟩ := exists_trimSeparators q
  have hxb : Blank x := Passes.blank_before (by rwa [hqe, List.append_assoc] at hp) hx
  obtain ⟨w, z, rfl, hw, hz⟩ := exists_blank_append y
  rcases hz with rfl | ⟨c, r, rfl, hcr⟩
  · have hself : trimSeparators (trimSeparators q) = trimSeparators q := by
      rw [List.append_nil] at hqe
      conv => rhs; rw [hqe]
      rw [trimSeparators_blank hxb hw]
    have hne : trimSeparators q ≠ [] := fun hn => by simp [hn] at hlast
    exact ((trimSeparators_eq_self_iff.mp hself).resolve_left hne).2.2 hlast
  · obtain rfl : c = ';' := (hy c (by simp)).resolve_left (by simp [hcr])
    obtain ⟨t, ht⟩ := List.getLast?_eq_some_iff.mp hlast
    have hqt : q = (x ++ t) ++ ';' :: (w ++ ';' :: r) := by
      rw [hqe, ht]
      simp
    rw [hqt] at hq hc
    have := two_separators hq hy
    omega

end SafeReports.Sql
