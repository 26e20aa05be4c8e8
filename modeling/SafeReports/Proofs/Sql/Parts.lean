import Mathlib.Data.Nat.Digits.Defs
import SafeReports.Proofs.Sql.Enclosure
import SafeReports.Proofs.Sql.Identifier

/-!
# The parts of a wrapped query

The wrapper takes a query with any name to order by, a direction in letters of any
case and a positive limit that is not too long to be written. From what it writes they
can be told again, though the query and the name are free to hold all that the wrapper
writes itself: its text is read from the right, where the digits of the limit, the
direction and the quoted name have each a beginning that none of them holds.
-/

namespace SafeReports.Sql

open Text (Writable maxDigits numeral upper)

-- ---------------------------------------------------------------------------
-- What the wrapper takes
-- ---------------------------------------------------------------------------

/-- A row limit is a positive number. -/
def Limit.IsPositive : Limit → Prop
  | rows n => 0 < n
  | unusable _ => False

/-- A row limit is a positive number that is not too long to be written. -/
def Limit.IsValid : Limit → Prop
  | rows n => 0 < n ∧ Writable n.toNat
  | unusable _ => False

/-- A direction is `ASC` or `DESC` in letters of any case. -/
def IsDirection (direction : Option String) : Prop :=
  ∃ d, direction = some d ∧ (upper d.toList = "ASC".toList ∨ upper d.toList = "DESC".toList)

theorem checkDirection_ok_iff {direction : Option String} :
    (∃ up, checkDirection direction = .ok up) ↔ IsDirection direction := by
  cases direction with
  | none => exact iff_of_false (by simp [checkDirection]) (by simp [IsDirection])
  | some d =>
    simp only [checkDirection, IsDirection, Option.some.injEq, exists_eq_left']
    split
    · exact iff_of_true ⟨_, rfl⟩ ‹_›
    · exact iff_of_false (by simp) ‹_›

theorem checkLimit_eq_ok_iff {limit : Option Limit} : checkLimit limit = .ok m ↔
    limit = m.map (fun n : Nat => .rows n) ∧ ∀ n ∈ m, 0 < n := by
  constructor
  · intro h
    match limit with
    | none =>
      obtain rfl := Except.ok.inj h
      exact ⟨rfl, nofun⟩
    | some (.rows (.ofNat (n + 1))) =>
      obtain rfl := Except.ok.inj h
      exact ⟨rfl, fun k hk => Option.some.inj hk ▸ Nat.succ_pos n⟩
    | some (.rows (.ofNat 0)) | some (.rows (.negSucc n)) | some (.unusable j) => cases h
  · rintro ⟨rfl, hm⟩
    match m with
    | none => rfl
    | some 0 => exact absurd (hm 0 rfl) (Nat.lt_irrefl 0)
    | some (n + 1) => rfl

theorem writeLimit_eq_ok_iff : writeLimit l = .ok digits ↔
    digits = l.map numeral ∧ ∀ n ∈ l, Writable n := by
  cases l with
  | none => simp [writeLimit, eq_comm]
  | some n =>
    by_cases hn : Writable n
    · simp [writeLimit, hn, eq_comm]
    · simp [writeLimit, hn]

theorem writeLimit_eq_error_iff : writeLimit l = .error err ↔
    err = .longLimit ∧ ∃ n ∈ l, ¬ Writable n := by
  cases l with
  | none => simp [writeLimit]
  | some n =>
    by_cases hn : Writable n
    · simp [writeLimit, hn]
    · simp [writeLimit, hn, eq_comm]

theorem limit_written_iff {limit : Option Limit} :
    (∃ l digits, checkLimit limit = .ok l ∧ writeLimit l = .ok digits) ↔
      ∀ l ∈ limit, l.IsValid := by
  simp only [checkLimit_eq_ok_iff, writeLimit_eq_ok_iff]
  constructor
  · rintro ⟨l, -, ⟨rfl, hpos⟩, -, hw⟩ m hm
    obtain ⟨n, hn, rfl⟩ := Option.map_eq_some_iff.mp hm
    exact ⟨Int.natCast_pos.mpr (hpos n hn), hw n hn⟩
  · intro h
    match limit with
    | none => exact ⟨none, none, ⟨rfl, nofun⟩, rfl, nofun⟩
    | some (.rows n) =>
      obtain ⟨hpos, hw⟩ := h _ rfl
      refine ⟨some n.toNat, some (numeral n.toNat), ⟨?_, ?_⟩, rfl, ?_⟩
      · rw [Option.map_some, Int.toNat_of_nonneg (Int.le_of_lt hpos)]
      · exact fun m hm => Option.some.inj hm ▸ Int.pos_iff_toNat_pos.mp hpos
      · exact fun m hm => Option.some.inj hm ▸ hw
    | some (.unusable j) => exact (h _ rfl).elim

theorem wrap_ok_iff : (∃ sql, wrap (some q) a = .ok sql) ↔
    IsDirection a.direction ∧ ∀ l ∈ a.limit, l.IsValid := by
  rw [← checkDirection_ok_iff, ← limit_written_iff]
  constructor
  · rintro ⟨sql, h⟩
    obtain ⟨d, l, digits, hd, hl, hw, -⟩ := wrap_eq_ok_iff.mp h
    exact ⟨⟨d, hd⟩, l, digits, hl, hw⟩
  · rintro ⟨⟨d, hd⟩, l, digits, hl, hw⟩
    exact ⟨_, wrap_eq_ok_iff.mpr ⟨d, l, digits, hd, hl, hw, rfl⟩⟩

/-- Direction, form of the limit and its length are looked at in this order. -/
theorem wrap_eq_error_iff : wrap (some q) a = .error err ↔
    checkDirection a.direction = .error err ∨ IsDirection a.direction ∧
      (checkLimit a.limit = .error err ∨
        ∃ l, checkLimit a.limit = .ok l ∧ writeLimit l = .error err) := by
  rw [← checkDirection_ok_iff]
  simp only [wrap]
  cases checkDirection a.direction with
  | error e => simp [bind, Except.bind]
  | ok d =>
    cases checkLimit a.limit with
    | error e => simp [bind, Except.bind]
    | ok l => cases hl : writeLimit l <;> simp [bind, Except.bind, pure, Except.pure, hl]

-- ---------------------------------------------------------------------------
-- What it writes
-- ---------------------------------------------------------------------------

inductive Direction
  | asc
  | desc

def Direction.text : Direction → List Char
  | asc => "ASC".toList
  | desc => "DESC".toList

/-- What a wrapped query is made of. The order has a bare name. -/
structure Parts where
  query : List Char
  order : Option (List Char × Direction)
  limit : Option Nat

def orderClause : Option (List Char × Direction) → List Char
  | none => []
  | some (name, direction) =>
    " ORDER BY ".toList ++ '\x60' :: (double name ++ ['\x60']) ++ ' ' :: direction.text

def limitClause : Option Nat → List Char
  | none => []
  | some n => " LIMIT ".toList ++ numeral n

@[simp] theorem orderClause_none : orderClause none = [] := rfl

theorem orderClause_some (name : List Char) (direction : Direction) :
    orderClause (some (name, direction)) =
      " ORDER BY ".toList ++ '\x60' :: (double name ++ ['\x60']) ++ ' ' :: direction.text := rfl

@[simp] theorem limitClause_none : limitClause none = [] := rfl

theorem limitClause_some (n : Nat) :
    limitClause (some n) = " LIMIT ".toList ++ numeral n := rfl

def Parts.text (p : Parts) : List Char :=
  opening ++ p.query ++ closing ++ orderClause p.order ++ limitClause p.limit

/-- The order that a name and a direction ask for; an empty name asks for none. -/
def order (orderBy : Option String) (direction : Direction) : Option (List Char × Direction) :=
  match orderBy with
  | none => none
  | some o => if o = "" then none else some (bareIdentifier o.toList, direction)

theorem orderClause_order (o : String) (direction : Direction) :
    orderClause (order (some o) direction) = if o = "" then [] else
      " ORDER BY ".toList ++ quoteIdentifier o.toList ++ ' ' :: direction.text := by
  dsimp only [order]
  split <;> rfl

theorem derived_eq_text (query : List Char) (direction : Direction) (limit : Option Nat)
    (orderBy : Option String) : derived query direction.text (limit.map numeral) orderBy =
      Parts.text ⟨query, order orderBy direction, limit⟩ := by
  unfold Parts.text
  cases orderBy with
  | none => cases limit <;> rfl
  | some o =>
    rw [orderClause_order]
    cases limit <;> rfl

-- ---------------------------------------------------------------------------
-- Read from the right
-- ---------------------------------------------------------------------------

/-- The last space of a text tells what stands on both of its sides. -/
theorem append_space_inj (hs : ' ' ∉ s) (hs' : ' ' ∉ s') :
    t ++ ' ' :: s = t' ++ ' ' :: s' ↔ t = t' ∧ s = s' := by
  constructor
  · intro h
    rcases List.append_eq_append_iff.mp h with ⟨u, rfl, hu⟩ | ⟨u, rfl, hu⟩
    · cases u with
      | nil => simpa using hu
      | cons c u =>
        obtain ⟨-, rfl⟩ := List.cons.inj hu
        simp at hs
    · cases u with
      | nil => simpa [eq_comm] using hu
      | cons c u =>
        obtain ⟨-, rfl⟩ := List.cons.inj hu
        simp at hs'
  · rintro ⟨rfl, rfl⟩
    rfl

theorem Direction.space_not_mem (d : Direction) : ' ' ∉ d.text := by
  cases d <;> decide

theorem Direction.text_inj {d d' : Direction} : d.text = d'.text ↔ d = d' := by
  cases d <;> cases d' <;> simp [text]

theorem Direction.getLast?_text (d : Direction) (s : List Char) :
    (s ++ ' ' :: d.text).getLast? = some 'C' := by
  cases d <;> simp [text]

theorem getLast?_closing (s : List Char) : (s ++ closing).getLast? = some '\x60' := by
  have h : closing = "\n) AS `t".toList ++ ['\x60'] := by decide
  rw [h, ← List.append_assoc, List.getLast?_concat]

theorem numeral_inj {m n : Nat} : numeral m = numeral n ↔ m = n := by
  refine ⟨fun h => ?_, congrArg _⟩
  rw [← Nat.ofDigitChars_ten_toDigits (n := m), ← Nat.ofDigitChars_ten_toDigits (n := n)]
  exact congrArg (Nat.ofDigitChars 10 · 0) h

theorem isDigit_numeral {n : Nat} (h : c ∈ numeral n) : c.isDigit = true :=
  Nat.isDigit_of_mem_toDigits (by decide) (by decide) h

/-- The text ends in a digit, as no text without a limit does. -/
def EndsInDigit (s : List Char) : Prop := ∃ c ∈ s.getLast?, c.isDigit = true

theorem append_limitClause_some (s : List Char) (n : Nat) :
    s ++ limitClause (some n) = s ++ " LIMIT".toList ++ ' ' :: numeral n := by
  have h : " LIMIT ".toList = " LIMIT".toList ++ [' '] := by decide +kernel
  rw [limitClause_some, h]
  generalize " LIMIT".toList = limit
  simp

theorem endsInDigit_limitClause (s : List Char) (n : Nat) :
    EndsInDigit (s ++ limitClause (some n)) := by
  obtain ⟨u, c, hu⟩ := (List.eq_nil_or_concat (numeral n)).resolve_left Nat.toDigits_ne_nil
  refine ⟨c, ?_, isDigit_numeral (n := n) (hu ▸ by simp)⟩
  rw [append_limitClause_some, hu, List.concat_eq_append, ← List.cons_append, ← List.append_assoc]
  exact List.getLast?_concat

/-- The digits at the end of a text are those of the limit. -/
theorem append_limitClause_inj (hs : ¬ EndsInDigit s) (ht : ¬ EndsInDigit t) :
    s ++ limitClause l = t ++ limitClause l' ↔ s = t ∧ l = l' := by
  have hdigits : ∀ n : Nat, ' ' ∉ numeral n := fun n h =>
    absurd (isDigit_numeral h) (by decide)
  constructor
  · intro h
    cases l with
    | none =>
      rw [limitClause_none, List.append_nil] at h
      cases l' with
      | none => exact ⟨by rwa [limitClause_none, List.append_nil] at h, rfl⟩
      | some n => exact absurd (h ▸ endsInDigit_limitClause t n) hs
    | some m =>
      cases l' with
      | none =>
        rw [limitClause_none, List.append_nil] at h
        exact absurd (h ▸ endsInDigit_limitClause s m) ht
      | some n =>
        rw [append_limitClause_some, append_limitClause_some,
          append_space_inj (hdigits m) (hdigits n), numeral_inj] at h
        exact ⟨List.append_cancel_right h.1, congrArg some h.2⟩
  · rintro ⟨rfl, rfl⟩
    rfl

theorem append_orderClause_some (s name : List Char) (d : Direction) :
    s ++ orderClause (some (name, d)) =
      s ++ " ORDER BY".toList ++ ' ' :: '\x60' :: (double name ++ ['\x60']) ++ ' ' :: d.text := by
  have h : " ORDER BY ".toList = " ORDER BY".toList ++ [' '] := by decide +kernel
  rw [orderClause_some, h]
  generalize " ORDER BY".toList = order
  simp

/-- Before the limit stands an order, which ends in its direction, or none. -/
theorem append_orderClause_inj : s ++ closing ++ orderClause o = t ++ closing ++ orderClause o' ↔
    s = t ∧ o = o' := by
  have hother : ∀ (u v name : List Char) (d : Direction),
      u ++ closing ≠ v ++ orderClause (some (name, d)) := by
    intro u v name d h
    have hlast := getLast?_closing u
    rw [h, append_orderClause_some, d.getLast?_text] at hlast
    cases hlast
  constructor
  · intro h
    match o, o' with
    | none, none =>
      rw [orderClause_none, List.append_nil, List.append_nil] at h
      exact ⟨List.append_cancel_right h, rfl⟩
    | none, some (name, d) =>
      rw [orderClause_none, List.append_nil] at h
      exact (hother s _ name d h).elim
    | some (name, d), none =>
      rw [orderClause_none, List.append_nil] at h
      exact (hother t _ name d h.symm).elim
    | some (name, d), some (name', d') =>
      rw [append_orderClause_some, append_orderClause_some,
        append_space_inj d.space_not_mem d'.space_not_mem, identifier_at_end_inj,
        Direction.text_inj] at h
      obtain ⟨⟨hst, rfl⟩, rfl⟩ := h
      exact ⟨List.append_cancel_right (List.append_cancel_right hst), rfl⟩
  · rintro ⟨rfl, rfl⟩
    rfl

theorem not_endsInDigit_orderClause (s : List Char) (o : Option (List Char × Direction)) :
    ¬ EndsInDigit (s ++ closing ++ orderClause o) := by
  rintro ⟨c, hc, hd⟩
  cases o with
  | none =>
    rw [orderClause_none, List.append_nil, getLast?_closing] at hc
    obtain rfl := Option.some.inj hc
    cases hd
  | some o =>
    obtain ⟨name, d⟩ := o
    rw [orderClause_some, ← List.append_assoc, d.getLast?_text] at hc
    obtain rfl := Option.some.inj hc
    cases hd

/-- A wrapped text has its parts in one way only. -/
theorem Parts.text_injective : Function.Injective Parts.text := by
  rintro ⟨query, order, limit⟩ ⟨query', order', limit'⟩ h
  obtain ⟨hfront, rfl⟩ := (append_limitClause_inj (not_endsInDigit_orderClause _ _)
    (not_endsInDigit_orderClause _ _)).mp h
  obtain ⟨hquery, rfl⟩ := append_orderClause_inj.mp hfront
  obtain rfl := List.append_cancel_left hquery
  rfl

-- ---------------------------------------------------------------------------
-- What a wrapped query tells
-- ---------------------------------------------------------------------------

/-- No order was asked for, or the same one twice. -/
inductive SameOrder : Option String → String → Option String → String → Prop
  | neither (ho : o = none ∨ o = some "") (ho' : o' = none ∨ o' = some "") : SameOrder o d o' d'
  | both (ho : o ≠ "") (ho' : o' ≠ "") (name : bareIdentifier o.toList = bareIdentifier o'.toList)
      (direction : upper d.toList = upper d'.toList) : SameOrder (some o) d (some o') d'

theorem order_eq_none_iff : order o d = none ↔ o = none ∨ o = some "" := by
  unfold order
  split
  · exact iff_of_true rfl (.inl rfl)
  · split <;> simp [*]

theorem order_eq_some_iff : order o d = some (name, d') ↔
    ∃ n, o = some n ∧ n ≠ "" ∧ bareIdentifier n.toList = name ∧ d = d' := by
  unfold order
  split
  · exact iff_of_false nofun nofun
  · split <;> simp [*]

theorem order_eq_order_iff {e e' : Direction} (hd : upper d.toList = e.text)
    (hd' : upper d'.toList = e'.text) : order o e = order o' e' ↔ SameOrder o d o' d' := by
  constructor
  · intro h
    cases ho : order o e with
    | none => exact .neither (order_eq_none_iff.mp ho) (order_eq_none_iff.mp (h.symm.trans ho))
    | some p =>
      obtain ⟨n, rfl, hn, hname, rfl⟩ := order_eq_some_iff.mp ho
      obtain ⟨n', rfl, hn', hname', rfl⟩ := order_eq_some_iff.mp (h.symm.trans ho)
      exact .both hn hn' (hname.trans hname'.symm) (hd.trans hd'.symm)
  · rintro (⟨ho, ho'⟩ | ⟨hn, hn', hname, hupper⟩)
    · exact (order_eq_none_iff.mpr ho).trans (order_eq_none_iff.mpr ho').symm
    · obtain rfl := Direction.text_inj.mp (hd.symm.trans (hupper.trans hd'))
      exact (order_eq_some_iff.mpr ⟨_, rfl, hn, hname, rfl⟩).trans
        (order_eq_some_iff.mpr ⟨_, rfl, hn', rfl, rfl⟩).symm

/-- The value that asks for a limit, or for none. -/
def limitValue : Option Nat → Json
  | none => .null
  | some n => .int n

theorem limitValue_inj : limitValue l = limitValue l' ↔ l = l' := by
  cases l <;> cases l' <;> simp [limitValue]

theorem ofJson?_eq_iff {l : Option Nat} :
    Limit.ofJson? j = l.map (fun n : Nat => .rows n) ↔ j = limitValue l := by
  cases j <;> cases l <;> simp [Limit.ofJson?, limitValue]

theorem checkDirection_text :
    checkDirection (some d) = .ok up ↔ ∃ e : Direction, upper d.toList = e.text ∧ up = e.text := by
  simp only [checkDirection]
  split
  · rename_i h
    rw [Except.ok.injEq]
    constructor
    · rintro rfl
      exact h.elim (fun h => ⟨.asc, h, h⟩) fun h => ⟨.desc, h, h⟩
    · rintro ⟨e, hd, rfl⟩
      exact hd
  · rename_i h
    refine iff_of_false (by simp) ?_
    rintro ⟨e, hd, -⟩
    cases e with
    | asc => exact h (.inl hd)
    | desc => exact h (.inr hd)

theorem wrap_eq_ok_parts : wrap (some q) ⟨Limit.ofJson? j, o, some d⟩ = .ok w ↔
    ∃ (e : Direction) (l : Option Nat), upper d.toList = e.text ∧ j = limitValue l ∧
      (∀ n ∈ l, 0 < n) ∧ (∀ n ∈ l, Writable n) ∧
      w.toList = Parts.text ⟨stored q.toList, order o e, l⟩ := by
  rw [wrap_eq_ok_iff]
  constructor
  · rintro ⟨up, l, digits, hd, hl, hdigits, rfl⟩
    obtain ⟨e, he, rfl⟩ := checkDirection_text.mp hd
    obtain ⟨hj, hpos⟩ := checkLimit_eq_ok_iff.mp hl
    obtain ⟨rfl, hw⟩ := writeLimit_eq_ok_iff.mp hdigits
    exact ⟨e, l, he, ofJson?_eq_iff.mp hj, hpos, hw, by rw [String.toList_ofList, derived_eq_text]⟩
  · rintro ⟨e, l, he, hj, hpos, hwritable, hw⟩
    refine ⟨e.text, l, l.map numeral, checkDirection_text.mpr ⟨e, he, rfl⟩,
      checkLimit_eq_ok_iff.mpr ⟨ofJson?_eq_iff.mpr hj, hpos⟩,
      writeLimit_eq_ok_iff.mpr ⟨rfl, hwritable⟩, ?_⟩
    rw [derived_eq_text, ← hw, String.ofList_toList]

theorem writable_iff {n : Nat} : Writable n ↔ n < 10 ^ maxDigits :=
  Nat.length_toDigits_le_iff (by decide) (by decide)

theorem not_writable_toNat_iff {n : Int} : ¬ Writable n.toNat ↔ 10 ^ maxDigits ≤ n := by
  rw [writable_iff, Nat.not_lt]
  generalize maxDigits = k
  have hpos : 0 < 10 ^ k := Nat.pow_pos (by decide)
  have hcast : ((10 ^ k : Nat) : Int) = 10 ^ k := Int.natCast_pow 10 k
  omega

theorem Limit.isValid_ofJson? : (∀ l ∈ ofJson? j, l.IsValid) ↔
    (j = .null ∨ ∃ n > 0, j = .int n) ∧ ¬ ∃ n ≥ 10 ^ maxDigits, j = .int n := by
  cases j with
  | int n => simp [ofJson?, IsValid, ← not_writable_toNat_iff]
  | null | bool | float | str | arr | obj => simp [ofJson?, IsValid]

theorem checkDirection_error (h : checkDirection (some d) = .error err) : err = .badDirection := by
  simp only [checkDirection] at h
  split at h
  · cases h
  · exact (Except.error.inj h).symm

theorem checkLimit_error (h : checkLimit l = .error err) : err = .badLimit := by
  unfold checkLimit at h
  split at h
  · cases h
  · cases h
  · exact (Except.error.inj h).symm

theorem wrap_error_ne_notText (h : wrap (some q) ⟨l, o, some d⟩ = .error err) : err ≠ .notText := by
  rintro rfl
  rcases wrap_eq_error_iff.mp h with h | ⟨-, h | ⟨n, -, h⟩⟩
  · cases checkDirection_error h
  · cases checkLimit_error h
  · cases (writeLimit_eq_error_iff.mp h).1

theorem wrap_longLimit_iff : wrap (some q) ⟨l, o, some d⟩ = .error .longLimit ↔
    IsDirection (some d) ∧ ∃ n : Nat, l = some (.rows n) ∧ ¬ Writable n := by
  rw [wrap_eq_error_iff]
  constructor
  · rintro (h | ⟨hd, h | ⟨m, hl, h⟩⟩)
    · cases checkDirection_error h
    · cases checkLimit_error h
    · obtain ⟨-, n, rfl, hn⟩ := writeLimit_eq_error_iff.mp h
      obtain ⟨rfl, -⟩ := checkLimit_eq_ok_iff.mp hl
      exact ⟨hd, n, rfl, hn⟩
  · rintro ⟨hd, n, rfl, hn⟩
    have hpos : 0 < n := Nat.pos_of_ne_zero fun h => hn (h ▸ by decide)
    refine .inr ⟨hd, .inr ⟨some n, checkLimit_eq_ok_iff.mpr ⟨rfl, fun m hm => ?_⟩,
      writeLimit_eq_error_iff.mpr ⟨rfl, n, rfl, hn⟩⟩⟩
    exact Option.some.inj hm ▸ hpos

theorem ofJson?_long_iff : (∃ n : Nat, Limit.ofJson? j = some (.rows n) ∧ ¬ Writable n) ↔
    ∃ n ≥ 10 ^ maxDigits, j = .int n := by
  have hpos : (0 : Int) ≤ 10 ^ maxDigits := Int.pow_nonneg (by decide)
  constructor
  · rintro ⟨n, hj, hn⟩
    obtain rfl : j = .int n := ofJson?_eq_iff (l := some n).mp hj
    exact ⟨n, not_writable_toNat_iff.mp hn, rfl⟩
  · rintro ⟨n, hn, rfl⟩
    refine ⟨n.toNat, ?_, not_writable_toNat_iff.mpr hn⟩
    rw [Int.toNat_of_nonneg (Int.le_trans hpos hn)]
    rfl

/-- The wrapper refuses a direction or limit of another form, or a limit that is too
long to be written, and no more; and what it writes tells its parts: the query as it
is stored, the limit, and an order. -/
theorem wrap_determines_parts (q : String) (j : Json) (o : Option String) (d : String) :
    ((∃ err, wrap (some q) ⟨Limit.ofJson? j, o, some d⟩ = .error err ∧ err ≠ .notText) ↔
      ¬ (upper d.toList = "ASC".toList ∨ upper d.toList = "DESC".toList) ∨
        ¬ (j = .null ∨ ∃ n > 0, j = .int n) ∨ ∃ n ≥ 10 ^ maxDigits, j = .int n) ∧
    (wrap (some q) ⟨Limit.ofJson? j, o, some d⟩ = .error .longLimit ↔
      (upper d.toList = "ASC".toList ∨ upper d.toList = "DESC".toList) ∧
        ∃ n ≥ 10 ^ maxDigits, j = .int n) ∧
    ∀ q' j' o' d' w w', wrap (some q) ⟨Limit.ofJson? j, o, some d⟩ = .ok w →
      wrap (some q') ⟨Limit.ofJson? j', o', some d'⟩ = .ok w' →
      (w = w' ↔ stored q.toList = stored q'.toList ∧ j = j' ∧ SameOrder o d o' d') := by
  have hdir : (upper d.toList = "ASC".toList ∨ upper d.toList = "DESC".toList) ↔
      IsDirection (some d) := by simp [IsDirection]
  rw [hdir]
  refine ⟨?_, wrap_longLimit_iff.trans (and_congr_right fun _ => ofJson?_long_iff), ?_⟩
  · have hok := wrap_ok_iff (q := q) (a := ⟨Limit.ofJson? j, o, some d⟩)
    rw [Limit.isValid_ofJson?] at hok
    rw [← not_not (a := ∃ n ≥ 10 ^ maxDigits, j = .int n), ← not_and_or, ← not_and_or, ← hok]
    cases h : wrap (some q) ⟨Limit.ofJson? j, o, some d⟩ with
    | ok w => exact iff_of_false nofun fun hw => hw ⟨w, rfl⟩
    | error err => exact iff_of_true ⟨err, rfl, wrap_error_ne_notText h⟩ nofun
  · intro q' j' o' d' w w' hw hw'
    obtain ⟨e, l, hd, rfl, -, -, hw⟩ := wrap_eq_ok_parts.mp hw
    obtain ⟨e', l', hd', rfl, -, -, hw'⟩ := wrap_eq_ok_parts.mp hw'
    rw [← String.toList_inj, hw, hw', Parts.text_injective.eq_iff, Parts.mk.injEq,
      order_eq_order_iff hd hd', limitValue_inj, and_comm (a := SameOrder o d o' d')]

/-- Two ways to ask for one text, and a limit of too many digits. -/
theorem wrap_determines_parts_spelling :
    (∃ w, wrap (some "SELECT 1 AS a;") ⟨Limit.ofJson? (.int 5), some "`a`", some "asc"⟩ = .ok w ∧
      wrap (some " SELECT 1 AS a") ⟨Limit.ofJson? (.int 5), some "a", some "Asc"⟩ = .ok w ∧
      stored "SELECT 1 AS a;".toList = stored " SELECT 1 AS a".toList ∧
      SameOrder (some "`a`") "asc" (some "a") "Asc") ∧
    wrap (some "SELECT 1") ⟨Limit.ofJson? (.int (10 ^ maxDigits)), none, some "Asc"⟩ =
      .error .longLimit := by
  have hw : wrap (some "SELECT 1 AS a;") ⟨Limit.ofJson? (.int 5), some "`a`", some "asc"⟩ =
      .ok "SELECT `t`.* FROM (SELECT 1 AS a\n) AS `t` ORDER BY `a` ASC LIMIT 5" :=
    wrap_eq_ok_parts.mpr
      ⟨.asc, some 5, by decide +kernel, rfl, by decide, by decide, by decide +kernel⟩
  have hw' : wrap (some " SELECT 1 AS a") ⟨Limit.ofJson? (.int 5), some "a", some "Asc"⟩ =
      .ok "SELECT `t`.* FROM (SELECT 1 AS a\n) AS `t` ORDER BY `a` ASC LIMIT 5" :=
    wrap_eq_ok_parts.mpr
      ⟨.asc, some 5, by decide +kernel, rfl, by decide, by decide, by decide +kernel⟩
  obtain ⟨-, -, hparts⟩ := wrap_determines_parts "SELECT 1 AS a;" (.int 5) (some "`a`") "asc"
  obtain ⟨hq, -, ho⟩ := (hparts _ _ _ _ _ _ hw hw').mp rfl
  refine ⟨⟨_, hw, hw', hq, ho⟩, ?_⟩
  obtain ⟨-, hlong, -⟩ := wrap_determines_parts "SELECT 1" (.int (10 ^ maxDigits)) none "Asc"
  exact hlong.mpr ⟨.inl (by decide), _, Int.le_refl _, rfl⟩

end SafeReports.Sql
