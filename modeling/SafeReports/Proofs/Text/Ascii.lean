import SafeReports.Proofs.Text.NormalForm
import SafeReports.Text.Word

/-!
# Words in ASCII texts

In an ASCII text the upper case is taken character by character and leaves white
space and word boundaries where they are. A collapsed text spells words with
single spaces between them when the text itself has the words in this order, in
any letter case and with any white space between them.
-/

namespace SafeReports.Text

def Ascii (s : List Char) : Prop := ∀ c ∈ s, c.toNat < 0x80

instance (s : List Char) : Decidable (Ascii s) :=
  List.decidableBAll (fun c : Char => c.toNat < 0x80) s

def capitals (s : List Char) : List Char := s.map Char.toUpper

/-- A letter, a digit or the underscore. -/
def isNameChar (c : Char) : Bool := c.isAlphanum || c == '_'

/-- A word that is not empty and holds no white space. -/
def Unbroken (w : List Char) : Prop := w ≠ [] ∧ ∀ c ∈ w, isBlank c = false

instance (w : List Char) : Decidable (Unbroken w) :=
  have := List.decidableBAll (isBlank · = false) w
  inferInstanceAs (Decidable (w ≠ [] ∧ ∀ c ∈ w, isBlank c = false))

/-- The words stand in the text one after the other, in any letter case, with
white space between them and nothing else. -/
inductive Spread : List (List Char) → List Char → Prop
  | word : capitals y = w → Spread [w] y
  | gap : capitals y = w → g ≠ [] → Blank g → Spread ws z → Spread (w :: ws) (y ++ g ++ z)

-- ---------------------------------------------------------------------------
-- Characters
-- ---------------------------------------------------------------------------

/-- What holds of every ASCII code point holds of an ASCII character. -/
theorem forall_ascii {P : Char → Prop} (h : ∀ n < 0x80, P (Char.ofNat n)) {c : Char}
    (hc : c.toNat < 0x80) : P c := by
  rw [← Char.ofNat_toNat c]
  exact h c.toNat hc

theorem isBlank_toUpper (c : Char) : isBlank c.toUpper = isBlank c := by
  rw [Bool.eq_iff_iff]
  constructor
  · intro h
    rcases toUpper_cases c with hc | hc
    · rwa [hc] at h
    · simp [isInert_of_isBlank h] at hc
  · intro h
    rwa [toUpper_of_not_lower (toNat_of_isInert (isInert_of_isBlank h)).2]

theorem toNat_of_isNameChar (h : isNameChar c = true) :
    48 ≤ c.toNat ∧ c.toNat ≤ 57 ∨ 65 ≤ c.toNat ∧ c.toNat ≤ 90 ∨ c.toNat = 95 ∨
      97 ≤ c.toNat ∧ c.toNat ≤ 122 := by
  have hchar : c.isAlphanum = (decide (c.val ≥ 'A'.val ∧ c.val ≤ 'Z'.val) ||
      (decide (c.val ≥ 'a'.val) && decide (c.val ≤ 'z'.val)) ||
      (decide (c.val ≥ '0'.val) && decide (c.val ≤ '9'.val))) := rfl
  simp only [isNameChar, hchar, Bool.or_eq_true, Bool.and_eq_true, decide_eq_true_eq, beq_iff_eq,
    ge_iff_le, UInt32.le_iff_toNat_le] at h
  rcases h with ((h | h) | h) | rfl
  · exact .inr (.inl h)
  · exact .inr (.inr (.inr h))
  · exact .inl h
  · exact .inr (.inr (.inl rfl))

theorem isNameChar_blank (c : Char) (h : isBlank c = true) : isNameChar c = false := by
  cases hn : isNameChar c with
  | false => rfl
  | true =>
    have hr := toNat_of_isNameChar hn
    simp only [isBlank, Bool.or_eq_true, Bool.and_eq_true, decide_eq_true_eq, beq_iff_eq] at h
    omega

theorem toUpper_ascii {c : Char} (h : c.toNat < 0x80) :
    c.toUpper.toNat < 0x80 ∧ c.toUpper.toUpper = c.toUpper ∧
      isWord c.toUpper = isNameChar c :=
  forall_ascii (P := fun c => c.toUpper.toNat < 0x80 ∧ c.toUpper.toUpper = c.toUpper ∧
    isWord c.toUpper = isNameChar c) (by decide) h

-- ---------------------------------------------------------------------------
-- Texts
-- ---------------------------------------------------------------------------

theorem ascii_append_iff : Ascii (s ++ t) ↔ Ascii s ∧ Ascii t :=
  List.forall_mem_append

theorem Ascii.capitals (h : Ascii s) : Ascii (capitals s) := by
  intro c hc
  obtain ⟨d, hd, rfl⟩ := List.mem_map.mp hc
  exact (toUpper_ascii (h d hd)).1

theorem Ascii.capitals_capitals (h : Ascii s) :
    Text.capitals (Text.capitals s) = Text.capitals s := by
  rw [Text.capitals, Text.capitals, List.map_map]
  exact List.map_congr_left fun c hc => (toUpper_ascii (h c hc)).2.1

theorem Ascii.upper_eq (h : Ascii s) : upper s = Text.capitals s := by
  induction s with
  | nil => rfl
  | cons c r ih =>
    obtain ⟨hc, hr⟩ := List.forall_mem_cons.mp h
    rw [upper_cons, ih hr, upperChar, if_pos hc]
    rfl

theorem Ascii.squeeze (h : Ascii s) : Ascii (squeeze s) := by
  intro c hc
  cases hb : isBlank c with
  | true =>
    rw [eq_space_of_mem_squeeze hc hb]
    decide
  | false =>
    have hs : c ∈ solids (Text.squeeze s) := List.mem_filter.mpr ⟨hc, by simp [hb]⟩
    rw [solids_squeeze] at hs
    exact h c (List.mem_filter.mp hs).1

theorem Ascii.normalForm_eq (h : Ascii s) : normalForm s = Text.capitals (Text.squeeze s) :=
  h.squeeze.upper_eq

theorem Ascii.any_head?_capitals (h : Ascii s) :
    (Text.capitals s).head?.any isWord = s.head?.any isNameChar := by
  rw [Text.capitals, List.head?_map, Option.any_map]
  cases s with
  | nil => rfl
  | cons c r => exact (toUpper_ascii (h c (by simp))).2.2

theorem Ascii.any_getLast?_capitals (h : Ascii s) :
    (Text.capitals s).getLast?.any isWord = s.getLast?.any isNameChar := by
  rw [Text.capitals, List.getLast?_map, Option.any_map]
  rcases List.eq_nil_or_concat s with rfl | ⟨r, c, rfl⟩
  · rfl
  · simpa using (toUpper_ascii (h c (by simp))).2.2

-- ---------------------------------------------------------------------------
-- Words
-- ---------------------------------------------------------------------------

theorem Unbroken.solid (h : Unbroken w) : Solid w := by
  refine solid_iff.mpr ⟨?_, ?_⟩
  · obtain ⟨c, r, rfl⟩ := List.exists_cons_of_ne_nil h.1
    simp [h.2 c (by simp)]
  · obtain ⟨r, c, rfl⟩ := (List.eq_nil_or_concat w).resolve_left h.1
    simp [h.2 c (by simp)]

theorem unbroken_capitals_iff : Unbroken (capitals y) ↔ Unbroken y := by
  simp [Unbroken, capitals, isBlank_toUpper]

theorem solid_capitals_iff : Solid (capitals y) ↔ Solid y := by
  simp [solid_iff, capitals, Option.any_map, isBlank_toUpper]

/-- A collapsed text without white space has lost none. -/
theorem eq_of_collapse_unbroken (h : ∀ c ∈ collapse y, isBlank c = false) : collapse y = y := by
  induction y with
  | nil => rfl
  | cons c r ih =>
    cases hc : isBlank c with
    | true =>
      have hs : ' ' ∈ collapse (c :: r) := by simp [collapse, collapseFrom, hc]
      exact absurd (h _ hs) (by decide)
    | false =>
      rw [collapse, collapseFrom_solid hc] at h ⊢
      rw [ih fun d hd => h d (by simp [hd])]

theorem collapse_unbroken (h : ∀ c ∈ y, isBlank c = false) : collapse y = y := by
  induction y with
  | nil => rfl
  | cons c r ih =>
    rw [collapse, collapseFrom_solid (h c (by simp)), ih fun d hd => h d (by simp [hd])]

theorem Spread.spelled (h : Spread ws y) (hw : ∀ w ∈ ws, Unbroken w) :
    Solid y ∧ capitals (collapse y) = [' '].intercalate ws := by
  induction h with
  | @word y w hy =>
    subst hy
    have hu : Unbroken y := unbroken_capitals_iff.mp (hw (capitals y) (by simp))
    rw [collapse_unbroken hu.2, List.intercalate_singleton]
    exact ⟨hu.solid, rfl⟩
  | @gap y w g ws z hy hg hb hz ih =>
    subst hy
    have hu : Unbroken y := unbroken_capitals_iff.mp (hw (capitals y) (by simp))
    obtain ⟨hs, hc⟩ := ih fun w h => hw w (by simp [h])
    obtain ⟨d, q, rfl⟩ := List.exists_cons_of_ne_nil hg
    have hne : ws ≠ [] := by
      rintro rfl
      cases hz
    refine ⟨⟨(hu.solid.1.append _).append z, hs.2.append _⟩, ?_⟩
    rw [List.append_assoc, collapse_endsSolid_append hu.solid.2,
      collapse_blank_append hb (.inr hs.1), collapse_unbroken hu.2,
      List.intercalate_cons_of_ne_nil hne, ← hc]
    simp [capitals, Text.gap]

/-- A collapsed text that begins with white space comes from white space and the rest. -/
theorem EndsSolid.exists_gap (h : EndsSolid m) (hm : collapse m = d :: r)
    (hd : isBlank d = true) : ∃ g z, m = g ++ z ∧ g ≠ [] ∧ Blank g ∧ Solid z ∧ collapse z = r := by
  obtain ⟨g, z, rfl, hg, hz⟩ := h.exists_blank_append
  rw [collapse_blank_append hg (.inr hz.1)] at hm
  cases g with
  | nil =>
    obtain ⟨e, q, he, hb⟩ := collapse_startsSolid hz.1
    obtain ⟨rfl, -⟩ := List.cons.inj (he.symm.trans hm)
    simp [hd] at hb
  | cons e g => exact ⟨e :: g, z, rfl, by simp, hg, hz, (List.cons.inj hm).2⟩

theorem spread_of_spelled (hne : ws ≠ []) (hw : ∀ w ∈ ws, Unbroken w) (hy : Solid y)
    (h : capitals (collapse y) = [' '].intercalate ws) : Spread ws y := by
  -- on the words: the first one ends where the collapsed text has its first space
  induction ws generalizing y with
  | nil => exact absurd rfl hne
  | cons w ws ih =>
    have hu : Unbroken w := hw w (by simp)
    cases ws with
    | nil =>
      rw [List.intercalate_singleton] at h
      have hc : Unbroken (collapse y) := unbroken_capitals_iff.mp (h ▸ hu)
      exact .word (eq_of_collapse_unbroken hc.2 ▸ h)
    | cons w' ws =>
      rw [List.intercalate_cons_cons, List.append_assoc] at h
      obtain ⟨a, b, hab, ha, hb⟩ := List.map_eq_append_iff.mp h
      obtain ⟨d, r, rfl, hd, hr⟩ := List.map_eq_cons_iff.mp hb
      have hua : Unbroken a := unbroken_capitals_iff.mp (by rwa [capitals, ha])
      obtain ⟨y₁, m, rfl, -, rfl, hm⟩ := exists_of_endsSolid_append hab hua.solid.2
      rw [eq_of_collapse_unbroken hua.2] at ha
      have hne : m ≠ [] := by
        rintro rfl
        cases hm
      have hdb : isBlank d = true := by
        rw [← isBlank_toUpper, hd]
        rfl
      obtain ⟨g, z, rfl, hg, hgb, hz, rfl⟩ := (hy.2.of_append hne).exists_gap hm hdb
      have hs := ih (by simp) (fun w h => hw w (by simp [h])) hz hr
      rw [← List.append_assoc]
      exact .gap ha hg hgb hs

theorem spread_iff (hne : ws ≠ []) (hw : ∀ w ∈ ws, Unbroken w) :
    Spread ws y ↔ Solid y ∧ capitals (collapse y) = [' '].intercalate ws :=
  ⟨fun h => h.spelled hw, fun h => spread_of_spelled hne hw h.1 h.2⟩

end SafeReports.Text
