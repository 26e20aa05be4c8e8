import SafeReports.Timestamp

/-!
# Written timestamps are read back

Every timestamp is the one that its own text stands for.
-/

namespace SafeReports.Timestamp

open Text

theorem number?_lastDigits (width n : Nat) (rest : List Char) (h : n < Nat.pow 10 width) :
    number? width (lastDigits width n ++ rest) = some (n, rest) := by
  have hl := length_lastDigits width n
  have ht : (lastDigits width n ++ rest).take width = lastDigits width n := by
    rw [List.take_append_of_le_length (by omega), List.take_of_length_le (by omega)]
  have hd : (lastDigits width n ++ rest).drop width = rest := by
    rw [List.drop_append_of_le_length (by omega), List.drop_of_length_le (by omega)]
    rfl
  have hall : (lastDigits width n).all Char.isDigit = true :=
    List.all_eq_true.2 (isDigit_of_mem_lastDigits width n)
  simp [number?, ht, hd, hl, hall, numberOf_lastDigits h]

theorem offsetSeconds?_text (hours minutes : Nat) (hh : hours < 24) (hm : minutes < 60) :
    offsetSeconds? (lastDigits 2 hours ++ ':' :: lastDigits 2 minutes) =
      some ((hours * 60 + minutes) * 60) := by
  have e := number?_lastDigits 2 minutes [] (show minutes < 100 by omega)
  rw [List.append_nil] at e
  rw [offsetSeconds?, number?_lastDigits 2 hours _ (show hours < 100 by omega)]
  simp [char?, e, hh, hm]

theorem offset?_offsetText (o : Int) (h : o.natAbs < 86400 ∧ o % 60 = 0) :
    offset? (offsetText o) = some (some o) := by
  have e := offsetSeconds?_text (o.natAbs / 60 / 60) (o.natAbs / 60 % 60) (by omega) (by omega)
  have hn : (o.natAbs / 60 / 60 * 60 + o.natAbs / 60 % 60) * 60 = o.natAbs := by omega
  rw [hn] at e
  by_cases hs : o < 0
  · have ho : -(o.natAbs : Int) = o := by omega
    simp only [offsetText, hs, ↓reduceIte, offset?, e]
    exact congrArg (some ∘ some) ho
  · have ho : (o.natAbs : Int) = o := by omega
    simp only [offsetText, hs, ↓reduceIte, offset?, e]
    exact congrArg (some ∘ some) ho

/-- The end of a text after its seconds and their fraction. -/
def EndsTime (rest : List Char) : Prop := ∀ c ∈ rest.head?, c.isDigit = false ∧ c ≠ '.' ∧ c ≠ ','

theorem endsTime_offsetText (o : Option Int) : EndsTime ((o.map offsetText).getD []) := by
  intro c hc
  cases o with
  | none => cases hc
  | some o =>
    by_cases ho : o < 0 <;> simp [offsetText, ho] at hc <;> subst hc <;> decide

theorem takeWhile_isDigit_of_endsTime {rest : List Char} (h : EndsTime rest) :
    rest.takeWhile Char.isDigit = [] ∧ rest.dropWhile Char.isDigit = rest := by
  cases rest with
  | nil => exact ⟨rfl, rfl⟩
  | cons c r => simp [(h c rfl).1]

theorem microOfDigits_lastDigits (micro : Nat) (h : micro < 1000000) :
    microOfDigits (lastDigits 6 micro) = micro := by
  have hl := length_lastDigits 6 micro
  have hn : numberOf (lastDigits 6 micro) = micro := numberOf_lastDigits h
  simp [microOfDigits, hl, List.take_of_length_le, hn]

theorem seconds?_text (second micro : Nat) (rest : List Char) (hs : second < 60)
    (hm : micro < 1000000) (hr : EndsTime rest) :
    seconds? (':' :: (lastDigits 2 second ++ (fractionText micro ++ rest))) =
      some (second, micro, rest) := by
  rw [seconds?, number?_lastDigits 2 second _ (show second < 100 by omega)]
  by_cases h : micro = 0
  · subst h
    cases rest with
    | nil => rfl
    | cons c r =>
      obtain ⟨_, hp, hc⟩ := hr c rfl
      simp [fractionText, hp, hc]
  · have hd := isDigit_of_mem_lastDigits 6 micro
    have he : (lastDigits 6 micro).isEmpty = false := by
      simp [lastDigits]
    simp only [fractionText, h, ↓reduceIte, List.cons_append, Option.bind_eq_bind, Option.bind_some,
      List.takeWhile_append_of_pos hd, List.dropWhile_append_of_pos hd,
      takeWhile_isDigit_of_endsTime hr, List.append_nil, he]
    simp [microOfDigits_lastDigits micro hm]

theorem daysInMonth_le (year month : Nat) : daysInMonth year month ≤ 31 := by
  unfold daysInMonth
  split <;> split <;> decide

theorem onDate?_text (t : Timestamp) :
    onDate? t.year t.month t.day (lastDigits 2 t.hour ++ ':' :: (lastDigits 2 t.minute ++
      ':' :: (lastDigits 2 t.second ++ (fractionText t.micro ++
        (t.offset.map offsetText).getD [])))) = some t := by
  obtain ⟨_, _, _, _, _, _, hh, hm, hs, hu, ho⟩ := t.valid
  have hoff : offset? ((t.offset.map offsetText).getD []) = some t.offset := by
    cases e : t.offset with
    | none => rfl
    | some o => exact offset?_offsetText o (ho o e)
  rw [onDate?, number?_lastDigits 2 t.hour _ (show t.hour < 100 by omega)]
  simp only [char?, ↓reduceIte, Option.bind_eq_bind, Option.bind_some]
  rw [number?_lastDigits 2 t.minute _ (show t.minute < 100 by omega), Option.bind_some]
  rw [seconds?_text _ _ _ hs hu (endsTime_offsetText t.offset), Option.bind_some, hoff]
  simp [of?, t.valid]

theorem ofText?_text (t : Timestamp) : ofText? t.text = some t := by
  obtain ⟨_, _, _, _, _, hd, _⟩ := t.valid
  have := daysInMonth_le t.year t.month
  rw [ofText?, text, String.toList_ofList, chars, ofChars?,
    number?_lastDigits 4 t.year _ (show t.year < 10000 by omega)]
  simp only [char?, ↓reduceIte, Option.bind_eq_bind, Option.bind_some]
  rw [number?_lastDigits 2 t.month _ (show t.month < 100 by omega)]
  simp only [↓reduceIte, Option.bind_some]
  rw [number?_lastDigits 2 t.day _ (show t.day < 100 by omega)]
  simp [separates, onDate?_text]

end SafeReports.Timestamp
