import SafeReports.Proofs.Sql.Parenthesis
import SafeReports.Proofs.Text.Spaced

/-!
# Normal forms of queries

A normal form has single spaces and capital letters only. It is its own normal form
unless a comment opens in it: what is left around a comment may make up a new one.
-/

namespace SafeReports.Sql

open Text

/-- Single spaces between what is no white space, and no letter with an upper case
other than itself. -/
structure IsNormal (n : List Char) : Prop where
  spaced : Spaced n
  capital : ∀ c ∈ n, upperChar c = [c]

theorem isNormal_normalize (q : List Char) : IsNormal (normalize q) where
  spaced := spaced_normalForm (visible q)
  capital _ := upperChar_of_mem_normalForm

theorem visible_of_not_opened (hl : ¬ Marker.line.text.toList <:+: s)
    (hb : ¬ Marker.blockOpen.text.toList <:+: s) : visible s = s := by
  rw [visible, dropLineComments, outsideLines_unmarked hl, dropBlockComments,
    outsideBlocks_unmarked hb]

theorem Guard.Accepts.unmarked {g : Guard} (h : g.Accepts q) : Unmarked (normalize q) :=
  (clean_iff_tables.mp (Guard.accepts_iff.mp h).1.1).2.2

/-- A normal form is normal, and its own normal form if it opens no comment, which
one of an accepted query never does. -/
theorem normalize_normalize (q : List Char) :
    IsNormal (normalize q) ∧
      (¬ Marker.line.text.toList <:+: normalize q →
        ¬ Marker.blockOpen.text.toList <:+: normalize q →
          normalize (normalize q) = normalize q) ∧
      ∀ g : Guard, g.Accepts q → normalize (normalize q) = normalize q := by
  have again (hl : ¬ Marker.line.text.toList <:+: normalize q)
      (hb : ¬ Marker.blockOpen.text.toList <:+: normalize q) :
      normalize (normalize q) = normalize q := by
    rw [normalize_eq (normalize q), visible_of_not_opened hl hb, normalize_eq,
      normalForm_normalForm]
  exact ⟨isNormal_normalize q, again, fun g h => again (h.unmarked .line) (h.unmarked .blockOpen)⟩

def sharpStreet : List Char := "select\t/**/ 'Straße'  as ŉ -- x\n from/* */ t\n".toList

/-- The capital of a letter may be more than one. -/
theorem normalize_normalize_street :
    normalize sharpStreet = "SELECT 'STRASSE' AS ʼN FROM T".toList ∧
      ¬ Marker.line.text.toList <:+: normalize sharpStreet ∧
      ¬ Marker.blockOpen.text.toList <:+: normalize sharpStreet ∧
      Guard.standard.Accepts sharpStreet ∧
      normalize (normalize sharpStreet) = normalize sharpStreet := by
  have hn : normalize sharpStreet = "SELECT 'STRASSE' AS ʼN FROM T".toList := by decide +kernel
  have hl : ¬ Marker.line.text.toList <:+: normalize sharpStreet := by decide +kernel
  have hb : ¬ Marker.blockOpen.text.toList <:+: normalize sharpStreet := by decide +kernel
  have ha : Guard.standard.Accepts sharpStreet := by decide +kernel
  exact ⟨hn, hl, hb, ha, (normalize_normalize sharpStreet).2.1 hl hb⟩

/-- Around a comment that goes, another may come to stand, and go the next time. -/
example : normalize "/-/**/- x".toList = "/-- X".toList ∧ normalize "/-- X".toList = "/".toList := by
  decide +kernel

end SafeReports.Sql
