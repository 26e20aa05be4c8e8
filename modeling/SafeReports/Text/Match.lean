/-!
# Finding a word in a text

Words are matched character by character, letter case included.
-/

namespace SafeReports.Text

/-- What follows `word` at the start of the text. -/
def after? : List Char → List Char → Option (List Char)
  | [], s => some s
  | w :: ws, c :: s => if w = c then after? ws s else none
  | _ :: _, [] => none

/-- What follows the first occurrence of `word`. -/
def findAfter? (word : List Char) : List Char → Option (List Char)
  | [] => after? word []
  | c :: r => (after? word (c :: r)).or (findAfter? word r)

theorem after?_eq_some_iff {word s rest : List Char} :
    after? word s = some rest ↔ s = word ++ rest := by
  induction word generalizing s with
  | nil => simp [after?]
  | cons w ws ih =>
    cases s with
    | nil => simp [after?]
    | cons c s =>
      by_cases h : w = c
      · simp [after?, h, ih]
      · simp [after?, h, Ne.symm h]

end SafeReports.Text
