import SafeReports.Proofs.Text.Squeeze
import SafeReports.Sql.Derived

/-!
# Quoted identifiers

Between its backticks a name has each of its own doubled, so a reader who takes
two for one stops at the backtick that closes the identifier and at no other. What
is read there is the name, whatever follows, and nothing of the name is left over.
-/

namespace SafeReports.Sql

open Text

-- ---------------------------------------------------------------------------
-- A reader of identifiers
-- ---------------------------------------------------------------------------

/-- A text with each backtick doubled. -/
def double (s : List Char) : List Char := s.flatMap fun c => if c = '\x60' then [c, c] else [c]

/-- The name before the first single backtick, where two stand for one, and what
follows that backtick. -/
def nameBefore? : List Char → Option (List Char × List Char)
  | [] => none
  | '\x60' :: '\x60' :: r => (nameBefore? r).map fun (name, rest) => ('\x60' :: name, rest)
  | '\x60' :: r => some ([], r)
  | c :: r => (nameBefore? r).map fun (name, rest) => (c :: name, rest)

/-- The name of the identifier that a text begins with, and what follows it. -/
def identifier? : List Char → Option (List Char × List Char)
  | '\x60' :: r => nameBefore? r
  | _ => none

@[simp] theorem double_nil : double [] = [] := rfl

theorem double_backtick (s : List Char) : double ('\x60' :: s) = '\x60' :: '\x60' :: double s := rfl

theorem double_cons (hc : c ≠ '\x60') (s : List Char) : double (c :: s) = c :: double s := by
  simp [double, hc]

theorem double_append (s t : List Char) : double (s ++ t) = double s ++ double t :=
  List.flatMap_append

theorem double_reverse (s : List Char) : (double s).reverse = double s.reverse := by
  induction s with
  | nil => rfl
  | cons c s ih =>
    rw [List.reverse_cons, double_append, ← ih]
    by_cases hc : c = '\x60'
    · subst hc
      simp [double_backtick]
    · simp [double_cons hc]

theorem quoteIdentifier_eq (s : List Char) :
    quoteIdentifier s = '\x60' :: (double (bareIdentifier s) ++ ['\x60']) := rfl

theorem nameBefore?_eq_some_iff : nameBefore? t = some (name, rest) ↔
    t = double name ++ '\x60' :: rest ∧ rest.head? ≠ some '\x60' := by
  constructor
  · intro h
    fun_induction nameBefore? t generalizing name with
    | case1 => cases h
    | case2 r ih =>
      obtain ⟨⟨name, rest⟩, hr, he⟩ := Option.map_eq_some_iff.mp h
      obtain ⟨rfl, rfl⟩ := Prod.mk.inj he
      obtain ⟨rfl, hrest⟩ := ih hr
      exact ⟨rfl, hrest⟩
    | case3 r hr =>
      obtain ⟨rfl, rfl⟩ := Prod.mk.inj (Option.some.inj h)
      refine ⟨rfl, fun hh => ?_⟩
      obtain ⟨u, rfl⟩ := List.head?_eq_some_iff.mp hh
      exact hr u rfl
    | case4 c r _ hc ih =>
      obtain ⟨⟨name, rest⟩, hr, he⟩ := Option.map_eq_some_iff.mp h
      obtain ⟨rfl, rfl⟩ := Prod.mk.inj he
      obtain ⟨rfl, hrest⟩ := ih hr
      exact ⟨by rw [double_cons hc, List.cons_append], hrest⟩
  · rintro ⟨rfl, hrest⟩
    induction name with
    | nil =>
      cases rest with
      | nil => rfl
      | cons c r =>
        have hc : c ≠ '\x60' := fun he => hrest (congrArg some he)
        simp [nameBefore?, hc]
    | cons c name ih =>
      by_cases hc : c = '\x60'
      · subst hc
        simp [double_backtick, nameBefore?, ih]
      · simp [double_cons hc, nameBefore?, hc, ih]

/-- What is read as an identifier is a name with each backtick doubled, between two
of them, and what follows is no third. -/
theorem identifier?_eq_some_iff : identifier? t = some (name, rest) ↔
    t = '\x60' :: (double name ++ '\x60' :: rest) ∧ rest.head? ≠ some '\x60' := by
  unfold identifier?
  split
  · rw [nameBefore?_eq_some_iff, List.cons.injEq, eq_self, true_and]
  · rename_i ht
    refine iff_of_false nofun ?_
    rintro ⟨rfl, -⟩
    exact ht _ rfl

/-- From the end of a text an identifier is read as from the beginning. -/
theorem identifier_at_end_inj :
    s ++ ' ' :: '\x60' :: (double name ++ ['\x60']) =
        t ++ ' ' :: '\x60' :: (double name' ++ ['\x60']) ↔ s = t ∧ name = name' := by
  have hread : ∀ s name : List Char,
      identifier? (s ++ ' ' :: '\x60' :: (double name ++ ['\x60'])).reverse =
        some (name.reverse, ' ' :: s.reverse) := by
    intro s name
    refine identifier?_eq_some_iff.mpr ⟨?_, nofun⟩
    simp [double_reverse]
  constructor
  · intro h
    have he := hread s name
    rw [h, hread t name', Option.some.injEq, Prod.mk.injEq, List.cons.injEq] at he
    exact ⟨(List.reverse_inj.mp he.2.2).symm, (List.reverse_inj.mp he.1).symm⟩
  · rintro ⟨rfl, rfl⟩
    rfl

-- ---------------------------------------------------------------------------
-- Quoting
-- ---------------------------------------------------------------------------

theorem exists_bareIdentifier (s : List Char) : ∃ m n,
    s = List.replicate m '\x60' ++ bareIdentifier s ++ List.replicate n '\x60' ∧
      (bareIdentifier s).head? ≠ some '\x60' ∧ (bareIdentifier s).getLast? ≠ some '\x60' := by
  obtain ⟨a, b, hs, ha, hb⟩ := exists_trim (· == '\x60') s
  obtain ⟨hhead, hlast⟩ := trim_ends (· == '\x60') s
  refine ⟨a.length, b.length, ?_, fun h => ?_, fun h => ?_⟩
  · rw [← List.eq_replicate_of_mem fun c hc => beq_iff_eq.mp (ha c hc),
      ← List.eq_replicate_of_mem fun c hc => beq_iff_eq.mp (hb c hc)]
    exact hs
  · exact absurd (hhead _ h) (by decide)
  · exact absurd (hlast _ h) (by decide)

theorem identifier?_quoteIdentifier (h : rest.head? ≠ some '\x60') (s : List Char) :
    identifier? (quoteIdentifier s ++ rest) = some (bareIdentifier s, rest) := by
  refine identifier?_eq_some_iff.mpr ⟨?_, h⟩
  rw [quoteIdentifier_eq, List.cons_append, List.append_assoc, List.singleton_append]

/-- A quoted identifier is read to its end as one, whatever but a backtick follows it,
and gives the name without the backticks around it; so it tells that name. -/
theorem quoteIdentifier_reads_back (s : List Char) :
    (∃ m n, s = List.replicate m '\x60' ++ bareIdentifier s ++ List.replicate n '\x60' ∧
      (bareIdentifier s).head? ≠ some '\x60' ∧ (bareIdentifier s).getLast? ≠ some '\x60') ∧
      identifier? (quoteIdentifier s) = some (bareIdentifier s, []) ∧
      (∀ rest, rest.head? ≠ some '\x60' →
        identifier? (quoteIdentifier s ++ rest) = some (bareIdentifier s, rest)) ∧
      ∀ t, quoteIdentifier s = quoteIdentifier t ↔ bareIdentifier s = bareIdentifier t := by
  have hread : ∀ s, identifier? (quoteIdentifier s) = some (bareIdentifier s, []) := by
    intro s
    rw [← List.append_nil (quoteIdentifier s)]
    exact identifier?_quoteIdentifier (by simp) s
  refine ⟨exists_bareIdentifier s, hread s, fun rest h => identifier?_quoteIdentifier h s,
    fun t => ⟨fun h => ?_, fun h => ?_⟩⟩
  · have hs := hread s
    rw [h, hread t, Option.some.injEq, Prod.mk.injEq] at hs
    exact hs.1.symm
  · rw [quoteIdentifier_eq, h, quoteIdentifier_eq]

/-- A name of backticks, and more of it behind them, is one identifier in an order. -/
theorem quoteIdentifier_reads_back_order :
    (" ASC LIMIT 5".toList).head? ≠ some '\x60' ∧
      identifier? (quoteIdentifier "`a`` DESC, `b`".toList ++ " ASC LIMIT 5".toList) =
        some ("a`` DESC, `b".toList, " ASC LIMIT 5".toList) := by
  have h : (" ASC LIMIT 5".toList).head? ≠ some '\x60' := by decide +kernel
  have hbare : bareIdentifier "`a`` DESC, `b`".toList = "a`` DESC, `b".toList := by decide +kernel
  obtain ⟨-, -, hread, -⟩ := quoteIdentifier_reads_back "`a`` DESC, `b`".toList
  rw [hbare] at hread
  exact ⟨h, hread _ h⟩

end SafeReports.Sql
