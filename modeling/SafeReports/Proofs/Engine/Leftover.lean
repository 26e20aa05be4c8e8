import SafeReports.Proofs.Engine.Readable

/-!
# What is left in a message

Readers are told more than two hundred characters of a query when its mention is
left in the message: it is taken off only behind a comma and a text, with something
behind it. A state is left when it stands right behind the first one.
-/

namespace SafeReports.Engine

open Text

-- ---------------------------------------------------------------------------
-- Bounded queries
-- ---------------------------------------------------------------------------

/-- The most of a query that readers see: it is cut short with three dots. -/
def maxShown : Nat := maxQueryLength + 3

/-- No more than a query cut short stands behind the first mention and white space. -/
def Bounded (s : List Char) : Prop :=
  ∀ before rest, FirstAt mention s before rest → (rest.dropWhile isBlank).length ≤ maxShown

theorem bounded_iff (h : FirstAt mention s before rest) :
    Bounded s ↔ (rest.dropWhile isBlank).length ≤ maxShown := by
  constructor
  · intro hb
    exact hb before rest h
  · intro hl before' rest' h'
    obtain ⟨-, rfl⟩ := h.unique mention_ne_nil h'
    exact hl

theorem bounded_unmentioned (h : ¬ mention <:+: s) : Bounded s :=
  fun _ _ hf => absurd hf.isInfix h

theorem bounded_iff_findAfter? : Bounded s ↔
    (findAfter? mention s).all (fun rest => (rest.dropWhile isBlank).length ≤ maxShown) = true := by
  cases hf : findAfter? mention s with
  | none => exact iff_of_true (bounded_unmentioned (findAfter?_eq_none_iff.mp hf)) rfl
  | some rest =>
    obtain ⟨before, hb⟩ := (findAfter?_eq_some_iff mention_ne_nil).mp hf
    rw [bounded_iff hb, Option.all_some, decide_eq_true_iff]

instance : Decidable (Bounded s) := decidable_of_iff _ bounded_iff_findAfter?.symm

theorem length_shortened_le (query : List Char) : (shortened query).length ≤ maxShown := by
  unfold shortened
  split
  · exact Nat.le_add_right_of_le ‹_›
  · rw [List.length_append]
    exact Nat.add_le_add_right (List.length_take_le maxQueryLength query) 3

theorem bounded_append_addition (h : ¬ mention <:+: message) (query : List Char) :
    Bounded (message ++ addition query) := by
  by_cases hq : query = []
  · rw [hq]
    exact bounded_unmentioned (by rwa [addition, if_pos rfl, List.append_nil])
  · rw [addition_eq hq, ← List.append_assoc, bounded_iff (firstAt_mention h _)]
    calc ((' ' :: shortened query).dropWhile isBlank).length
      _ = ((shortened query).dropWhile isBlank).length := rfl
      _ ≤ (shortened query).length := (List.dropWhile_sublist isBlank).length_le
      _ ≤ maxShown := length_shortened_le query

-- ---------------------------------------------------------------------------
-- Mentions that stay
-- ---------------------------------------------------------------------------

theorem not_mem_reading? {c : Complaint} (h : c.reading? = some (code, text)) : 'q' ∉ code := by
  unfold Complaint.reading? at h
  split at h
  · cases h
    exact List.not_mem_nil
  · exact (isCode_findCode? h).not_mem (by decide +kernel) (by decide +kernel)

/-- Of a message without state and error code nothing is told when it is cut down to
a state, and else all that is before its query. -/
theorem told_plain {c : Complaint} (h : c.reading? = none) :
    c.told = if Stated (strip (beforeQuery c.message.toList)) then []
      else strip (beforeQuery c.message.toList) := by
  have hstate : findState? c.message.toList = none := by
    unfold Complaint.reading? at h
    split at h
    · cases h
    · assumption
  rw [Complaint.told, h]
  dsimp only
  split
  · rename_i hs
    obtain ⟨state, rest, hstate', he⟩ := hs
    obtain ⟨a, b, hab⟩ := strip_isInfix (beforeQuery c.message.toList)
    obtain ⟨d, hd⟩ := beforeQuery_isPrefix c.message.toList
    have ht : c.message.toList = a ++ state ++ (rest ++ (b ++ d)) := by
      rw [← hd, ← hab, he]
      simp only [List.append_assoc]
    -- A state with anything behind it would have been found, also inside the message.
    have hr := findState?_eq_none hstate hstate' ht
    obtain rfl : rest = [] := (List.append_eq_nil_iff.mp hr).1
    rw [dropState, afterState?_eq_some_iff.mpr ⟨state, hstate', he⟩]
    rfl
  · rename_i hs
    rw [stated_iff, Bool.not_eq_true, Option.isSome_eq_false_iff, Option.isNone_iff_eq_none] at hs
    rw [dropState, hs]

/-- The first mention stays in what is told, and `rest` is told behind it. -/
inductive Complaint.Stays (c : Complaint) : List Char → Prop
  | read (reading : c.reading? = some (code, text)) (first : FirstAt mention text before query)
      (joined : ∀ kept, ¬ TakenOff before query kept) :
      Stays c (trimEnd isBlank (splitQuery query).1)
  | plain (reading : c.reading? = none) (first : FirstAt mention c.message.toList before query)
      (joined : ∀ kept, ¬ SetsOff before kept)
      (unstated : ¬ Stated (strip (beforeQuery c.message.toList))) :
      Stays c (trimEnd isBlank (beforeQuery query))

section
variable {c : Complaint} {before rest : List Char}

theorem SetsOff.unmentioned (h : SetsOff before kept) (hf : FirstAt mention s before rest) :
    ¬ mention <:+: kept := by
  obtain ⟨w, -, rfl⟩ := h
  intro hi
  apply hf.first
  rw [List.append_assoc]
  exact hi.trans (List.prefix_append kept _).isInfix

theorem Complaint.Stays.told (h : c.Stays rest) : ∃ before, FirstAt mention c.told before rest := by
  cases h with
  | @read code text before query reading first joined =>
    have here : FirstAt mention (before ++ mention ++ (splitQuery query).1) before
        (splitQuery query).1 := ⟨rfl, first.first⟩
    rw [Complaint.told_eq reading, splitQueryAfterFirst_joined first joined]
    exact (here.prepend mention_head? (not_mem_reading? reading)).strip mention_solid
  | @plain before query reading first joined unstated =>
    have here : FirstAt mention (before ++ mention ++ beforeQuery query) before
        (beforeQuery query) := ⟨rfl, first.first⟩
    rw [told_plain reading, if_neg unstated, beforeQuery_joined first joined]
    exact here.strip mention_solid

theorem Complaint.exists_stays (h : mention <:+: c.told) : ∃ rest, c.Stays rest := by
  cases reading : c.reading? with
  | some o =>
    obtain ⟨code, text⟩ := o
    have told : mention <:+: (splitQueryAfterFirst text).1 := by
      rw [← infix_append_iff_right mention_head? (not_mem_reading? reading)]
      rw [Complaint.told_eq reading] at h
      exact h.trans (strip_isInfix _)
    by_cases hm : mention <:+: text
    · obtain ⟨before, query, first⟩ := exists_firstAt mention_ne_nil hm
      refine ⟨_, .read reading first fun kept hk => ?_⟩
      rw [splitQueryAfterFirst_takenOff first hk] at told
      exact hk.setsOff.unmentioned first told
    · rw [splitQueryAfterFirst_unmentioned hm] at told
      exact absurd told hm
  | none =>
    rw [told_plain reading] at h
    split at h
    · exact absurd (List.infix_nil.mp h) mention_ne_nil
    · rename_i unstated
      have told : mention <:+: beforeQuery c.message.toList := h.trans (strip_isInfix _)
      obtain ⟨before, query, first⟩ := exists_firstAt mention_ne_nil
        (told.trans (beforeQuery_isPrefix c.message.toList).isInfix)
      refine ⟨_, .plain reading first (fun kept hk => ?_) unstated⟩
      rw [beforeQuery_setOff first hk] at told
      exact hk.unmentioned first told

end

/-- What readers see of a query is bounded unless the first mention stays and too much
is told behind it, with the query that is added. -/
theorem readable_bounded_iff (c : Complaint) : Bounded c.readable.toList ↔
    ∀ rest, c.Stays rest → ((rest ++ addition c.asked).dropWhile isBlank).length ≤ maxShown := by
  rw [c.readable_eq]
  by_cases h : mention <:+: c.told
  · obtain ⟨rest, stays⟩ := Complaint.exists_stays h
    obtain ⟨before, first⟩ := stays.told
    rw [bounded_iff (first.append _)]
    constructor
    · intro hl rest' stays'
      obtain ⟨before', first'⟩ := stays'.told
      obtain ⟨-, rfl⟩ := first.unique mention_ne_nil first'
      exact hl
    · intro hall
      exact hall rest stays
  · refine iff_of_true (bounded_append_addition h c.asked) fun rest stays => ?_
    obtain ⟨before, first⟩ := stays.told
    exact absurd first.isInfix h

def behindSemicolon : Complaint where
  message := String.ofList
    ("SQLSTATE[42000]: Syntax error; query was: SELECT ".toList ++ List.replicate 300 'x')
  cause := none
  context := none

theorem unbounded_behind_semicolon : ¬ Bounded behindSemicolon.readable.toList := by
  have message : behindSemicolon.message.toList =
      "SQLSTATE[42000]: Syntax error; query was: SELECT ".toList ++ List.replicate 300 'x' :=
    String.toList_ofList
  rw [behindSemicolon.readable_eq, Complaint.told, Complaint.asked, Complaint.reading?, message]
  decide +kernel

-- ---------------------------------------------------------------------------
-- States that stay
-- ---------------------------------------------------------------------------

/-- The first closing bracket ends a state. -/
def Closes (s : List Char) : Prop := ∃ a b, s = a ++ "]:".toList ++ b ∧ ']' ∉ a

/-- A text begins with a state that its end does not close. -/
def Opens (s : List Char) : Prop := ∃ code, s = "SQLSTATE[".toList ++ code ∧ ']' ∉ code

theorem Stated.append (h : Stated s) (t : List Char) : Stated (s ++ t) := by
  obtain ⟨state, rest, hs, rfl⟩ := h
  exact ⟨state, rest ++ t, hs, List.append_assoc ..⟩

theorem not_stated_nil : ¬ Stated [] := by decide +kernel

theorem addition_cons (h : query ≠ []) :
    addition query = ',' :: (" query was: ".toList ++ shortened query) := by
  rw [addition_eq h]
  rfl

section
variable {s t l r : List Char}

theorem exists_behind (h : s ++ d :: t = l ++ r) (hd : d ∉ l) :
    ∃ x, s = l ++ x ∧ x ++ d :: t = r := by
  rcases List.append_eq_append_iff.mp h with ⟨x, rfl, hx⟩ | ⟨x, rfl, hx⟩
  · cases x with
    | nil => exact ⟨[], by simp, hx⟩
    | cons e x =>
      obtain ⟨rfl, -⟩ := List.cons.inj hx
      exact absurd (List.mem_append_right s List.mem_cons_self) hd
  · exact ⟨x, rfl, hx.symm⟩

theorem exists_before (h : s ++ d :: t = l ++ r) (hd : d ∉ r) :
    ∃ x, l = s ++ d :: x ∧ t = x ++ r := by
  rcases List.append_eq_append_iff.mp h with ⟨x, rfl, hx⟩ | ⟨x, rfl, rfl⟩
  · cases x with
    | nil =>
      rw [List.nil_append] at hx
      exact absurd (hx ▸ List.mem_cons_self) hd
    | cons e x =>
      obtain ⟨rfl, rfl⟩ := List.cons.inj hx
      exact ⟨x, rfl, rfl⟩
  · exact absurd (List.mem_append_right x List.mem_cons_self) hd

end

/-- A state that goes across a comma is opened before it and closed behind it. -/
theorem IsState.of_comma (h : IsState (s ++ ',' :: t)) :
    Opens s ∧ ∃ a, t = a ++ "]:".toList ∧ ']' ∉ a := by
  generalize hs : s ++ ',' :: t = state at h
  obtain @⟨code, -, inside⟩ := h
  rw [List.append_assoc] at hs
  obtain ⟨x, rfl, hx⟩ := exists_behind hs (by decide +kernel)
  obtain ⟨a, rfl, rfl⟩ := exists_before hx (by decide +kernel)
  rw [List.mem_append, not_or, List.mem_cons, not_or] at inside
  exact ⟨⟨x, rfl, inside.1⟩, a, rfl, inside.2.2⟩

theorem stated_append_comma_iff :
    Stated (s ++ ',' :: t) ↔ Stated s ∨ Opens s ∧ Closes t := by
  constructor
  · rintro ⟨state, rest, hs, he⟩
    rcases List.append_eq_append_iff.mp he with ⟨x, rfl, hx⟩ | ⟨x, rfl, -⟩
    · rcases List.cons_eq_append_iff.mp hx with ⟨rfl, -⟩ | ⟨t', rfl, rfl⟩
      · rw [List.append_nil] at hs
        exact .inl ⟨s, [], hs, (List.append_nil s).symm⟩
      · obtain ⟨ho, a, rfl, ha⟩ := hs.of_comma
        exact .inr ⟨ho, a, rest, rfl, ha⟩
    · exact .inl ⟨state, x, hs, rfl⟩
  · rintro (h | ⟨⟨code, rfl, hcode⟩, a, b, rfl, ha⟩)
    · exact h.append _
    · have inside : ']' ∉ code ++ ',' :: a := by
        rw [List.mem_append, not_or, List.mem_cons, not_or]
        exact ⟨hcode, by decide, ha⟩
      refine ⟨_, b, .mk (by simp) inside, ?_⟩
      simp only [List.append_assoc, List.cons_append]

theorem closes_append_iff (h : ']' ∉ s) : Closes (s ++ t) ↔ Closes t := by
  have bracket : ∀ a b : List Char, a ++ "]:".toList ++ b = a ++ ']' :: ':' :: b := by
    intro a b
    rw [List.append_assoc]
    rfl
  constructor
  · rintro ⟨a, b, he, ha⟩
    rw [bracket] at he
    obtain ⟨x, rfl, rfl⟩ := exists_behind he.symm h
    rw [List.mem_append, not_or] at ha
    exact ⟨x, b, (bracket x b).symm, ha.2⟩
  · rintro ⟨a, b, rfl, ha⟩
    refine ⟨s ++ a, b, by simp only [List.append_assoc], ?_⟩
    rw [List.mem_append, not_or]
    exact ⟨h, ha⟩

/-- A message and its query begin with a state when the message does, or when the
query closes one that the message opens. -/
theorem stated_append_addition_iff : Stated (message ++ addition query) ↔
    Stated message ∨ Opens message ∧ query ≠ [] ∧ Closes (shortened query) := by
  by_cases hq : query = []
  · rw [addition, if_pos hq, List.append_nil, or_iff_left fun h => h.2.1 hq]
  · rw [addition_cons hq, stated_append_comma_iff, closes_append_iff (by decide +kernel),
      and_iff_right hq]

theorem Opens.startsState (h : Opens s) : "SQLSTATE[".toList <+: s := by
  obtain ⟨code, rfl, -⟩ := h
  exact List.prefix_append _ code

theorem Stated.startsState (h : Stated s) : "SQLSTATE[".toList <+: s := by
  obtain ⟨_, rest, @⟨code, -, -⟩, rfl⟩ := h
  exact ⟨code ++ "]:".toList ++ rest, by simp only [List.append_assoc]⟩

/-- A message that is read from an error code on is told from it on. -/
theorem not_startsState_of_code {c : Complaint} (hs : findState? c.message.toList = none)
    (hc : findCode? c.message.toList = some (code, text)) : ¬ "SQLSTATE[".toList <+: c.told := by
  have reading : c.reading? = some (code, text) := by rw [Complaint.reading?, hs, hc]
  have isCode := isCode_findCode? hc
  have kept := strip_isPrefix (isCode.startsSolid.append (splitQueryAfterFirst text).1)
  rw [Complaint.told_eq reading]
  intro h
  obtain ⟨r, hr⟩ := h.trans kept
  obtain ⟨d, m, rfl, -⟩ := isCode.startsSolid
  obtain ⟨rfl, -⟩ := List.cons.inj hr
  exact isCode.not_mem (by decide +kernel) (by decide +kernel) List.mem_cons_self

theorem told_isPrefix {c : Complaint} (h : findState? c.message.toList = some rest) :
    c.told <+: rest.dropWhile isBlank := by
  have reading : c.reading? = some ([], rest.dropWhile isBlank) := by rw [Complaint.reading?, h]
  rw [Complaint.told_eq reading, List.nil_append]
  obtain ⟨a, t, rfl, ha, ht⟩ := exists_blank_append rest
  rw [List.dropWhile_append_of_pos ha]
  rcases ht with rfl | ht
  · exact List.prefix_rfl
  · rw [dropWhile_solid ht]
    have kept := splitQueryAfterFirst_isPrefix t
    by_cases hn : (splitQueryAfterFirst t).1 = []
    · rw [hn]
      exact List.nil_prefix
    · obtain ⟨b, hb⟩ := kept
      exact (strip_isPrefix ((hb ▸ ht).of_append hn)).trans ⟨b, hb⟩

/-- Readers are told a state when one stands right behind the first, before the query,
or is opened there and closed in the query. -/
theorem readable_stated_iff (c : Complaint) :
    (Stated c.readable.toList ↔ ∃ rest, findState? c.message.toList = some rest ∧
      (Stated c.told ∨ Opens c.told ∧ c.asked ≠ [] ∧ Closes (shortened c.asked))) ∧
      (Stated c.readable.toList → ∃ rest, findState? c.message.toList = some rest ∧
        "SQLSTATE[".toList <+: rest.dropWhile isBlank) := by
  have iff : Stated c.readable.toList ↔ ∃ rest, findState? c.message.toList = some rest ∧
      (Stated c.told ∨ Opens c.told ∧ c.asked ≠ [] ∧ Closes (shortened c.asked)) := by
    rw [c.readable_eq, stated_append_addition_iff]
    cases hs : findState? c.message.toList with
    | some rest => exact ⟨fun h => ⟨rest, rfl, h⟩, fun ⟨_, _, h⟩ => h⟩
    | none =>
      refine iff_of_false ?_ nofun
      cases hc : findCode? c.message.toList with
      | some o =>
        have hn := not_startsState_of_code hs hc
        rintro (h | ⟨h, -⟩)
        · exact hn h.startsState
        · exact hn h.startsState
      | none =>
        have reading : c.reading? = none := by rw [Complaint.reading?, hs, hc]
        rintro (h | ⟨-, h, -⟩)
        · rw [told_plain reading] at h
          split at h
          · exact not_stated_nil h
          · contradiction
        · exact h (by rw [Complaint.asked, reading])
  refine ⟨iff, fun h => ?_⟩
  obtain ⟨rest, hs, h⟩ := iff.mp h
  refine ⟨rest, hs, List.IsPrefix.trans ?_ (told_isPrefix hs)⟩
  rcases h with h | ⟨h, -⟩
  · exact h.startsState
  · exact h.startsState

def passedOn : Complaint :=
  ⟨"SQLSTATE[HY000]: SQLSTATE[42S02]: Base table or view not found", none, none⟩

theorem second_state_told : Stated passedOn.readable.toList := by decide +kernel

end SafeReports.Engine
