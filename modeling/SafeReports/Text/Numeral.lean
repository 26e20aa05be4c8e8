/-!
# Numerals

Decimal digits of ASCII: as many as a number needs, with leading zeros up to a
width, or exactly as many as a field has.
-/

namespace SafeReports.Text

def digitValue (c : Char) : Nat := c.toNat - 48

/-- The number that digits stand for. -/
def numberOf (digits : List Char) : Nat := digits.foldl (fun n d => n * 10 + digitValue d) 0

def numeral (n : Nat) : List Char := Nat.toDigits 10 n

/-- The number of digits up to which an integer is converted from and to a text. -/
def maxDigits : Nat := 4300

/-- The number is not too long to be written. -/
def Writable (n : Nat) : Prop := (numeral n).length ≤ maxDigits

instance (n : Nat) : Decidable (Writable n) := inferInstanceAs (Decidable (_ ≤ _))

/-- With leading zeros up to a width. -/
def padded (width n : Nat) : List Char :=
  List.replicate (width - (numeral n).length) '0' ++ numeral n

/-- The last `width` digits of a number. -/
def lastDigits : Nat → Nat → List Char
  | 0, _ => []
  | width + 1, n => lastDigits width (n / 10) ++ [Nat.digitChar (n % 10)]

theorem length_lastDigits (width n : Nat) : (lastDigits width n).length = width := by
  induction width generalizing n with
  | zero => rfl
  | succ width ih => simp [lastDigits, ih]

theorem digitValue_digitChar {d : Nat} (h : d < 10) : digitValue (Nat.digitChar d) = d := by
  have all : ∀ d : Fin 10, digitValue (Nat.digitChar d) = d := by decide
  exact all ⟨d, h⟩

theorem isDigit_digitChar {d : Nat} (h : d < 10) : (Nat.digitChar d).isDigit = true := by
  have all : ∀ d : Fin 10, (Nat.digitChar d).isDigit = true := by decide
  exact all ⟨d, h⟩

theorem isDigit_of_mem_lastDigits (width n : Nat) :
    ∀ c ∈ lastDigits width n, c.isDigit = true := by
  induction width generalizing n with
  | zero => simp [lastDigits]
  | succ width ih =>
    intro c hc
    rcases List.mem_append.1 hc with h | h
    · exact ih _ c h
    · rw [List.mem_singleton.1 h]
      exact isDigit_digitChar (Nat.mod_lt _ (by decide))

theorem numberOf_append_singleton (ds : List Char) (d : Char) :
    numberOf (ds ++ [d]) = numberOf ds * 10 + digitValue d := by
  simp [numberOf]

theorem numberOf_lastDigits {width n : Nat} (h : n < Nat.pow 10 width) :
    numberOf (lastDigits width n) = n := by
  induction width generalizing n with
  | zero => exact (Nat.lt_one_iff.1 h).symm
  | succ width ih =>
    have h : n < Nat.pow 10 width * 10 := h
    rw [lastDigits, numberOf_append_singleton, ih (by omega),
      digitValue_digitChar (Nat.mod_lt _ (by decide))]
    omega

def signed (negative : Bool) (n : Nat) : Int := if negative then -n else n

def signChars (negative : Bool) : List Char := if negative then ['-'] else []

end SafeReports.Text
