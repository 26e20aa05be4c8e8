import SafeReports.Proofs.Engine.Mention
import SafeReports.Proofs.Engine.State

/-!
# What readers are told

A complaint is read behind its first state or from its first error code on. The
first mention of a query is taken off, and the query is added again, cut short;
when the complaint tells none, the one behind it may.
-/

namespace SafeReports.Engine

open Text

/-- A query as readers see it. -/
def shortened (query : List Char) : List Char :=
  if query.length ≤ maxQueryLength then query else query.take maxQueryLength ++ "...".toList

/-- What readers see of a query behind the message. -/
def addition (query : List Char) : List Char :=
  if query = [] then [] else ", query was: ".toList ++ shortened query

theorem addition_eq (h : query ≠ []) :
    addition query = ", query was: ".toList ++ shortened query := if_neg h

theorem withQuery_eq (message query : List Char) :
    withQuery message query = message ++ addition query := by
  cases query with
  | nil => exact (List.append_nil message).symm
  | cons c r =>
    rw [addition_eq (List.cons_ne_nil c r), ← List.append_assoc]
    by_cases h : (c :: r).length ≤ maxQueryLength
    · rw [shortened, if_pos h]
      exact congrArg _ (if_neg (Nat.not_lt.mpr h))
    · rw [shortened, if_neg h]
      exact congrArg _ (if_pos (Nat.not_le.mp h))

namespace Complaint

/-- What is read of a message with a state or an error code: that code, and the text
behind either. -/
def reading? (c : Complaint) : Option (List Char × List Char) :=
  match findState? c.message.toList with
  | some rest => some ([], rest.dropWhile isBlank)
  | none => findCode? c.message.toList

/-- The message without its query. -/
def told (c : Complaint) : List Char :=
  match c.reading? with
  | some (code, text) => strip (code ++ (splitQueryAfterFirst text).1)
  | none => dropState (strip (beforeQuery c.message.toList))

/-- The query that readers see, before it is cut short. -/
def asked (c : Complaint) : List Char :=
  match c.reading? with
  | some (_, text) =>
    let own := strip ((splitQueryAfterFirst text).2.getD [])
    if own.isEmpty then c.previousQuery else own
  | none => []

theorem readable_eq (c : Complaint) : c.readable.toList = c.told ++ addition c.asked := by
  simp only [readable, told, asked, reading?, String.toList_ofList]
  cases findState? c.message.toList with
  | some rest => exact withQuery_eq _ _
  | none =>
    cases findCode? c.message.toList with
    | some o => exact withQuery_eq _ _
    | none => exact (List.append_nil _).symm

-- ---------------------------------------------------------------------------
-- The query of the complaint behind
-- ---------------------------------------------------------------------------

section
variable {c : Complaint}

theorem previousQuery_eq (h : c.cause.or c.context = some previous)
    (hf : FirstAt mention previous.toList before query) : c.previousQuery = strip query := by
  have hq : findAfter? mention previous.toList = some query :=
    (findAfter?_eq_some_iff mention_ne_nil).mpr ⟨before, hf⟩
  simp only [previousQuery, h]
  exact congrArg (fun o => strip (o.getD [])) hq

theorem previousQuery_eq_nil (h : ∀ previous before query, c.cause.or c.context = some previous →
    FirstAt mention previous.toList before query → Blank query) : c.previousQuery = [] := by
  unfold previousQuery
  split
  · rfl
  · rename_i previous hp
    cases hq : findAfter? mention previous.toList with
    | none => exact congrArg (fun o => strip (o.getD [])) hq
    | some query =>
      obtain ⟨before, hf⟩ := (findAfter?_eq_some_iff mention_ne_nil).mp hq
      exact (congrArg (fun o => strip (o.getD [])) hq).trans
        (strip_eq_nil_iff.mpr (h previous before query hp hf))

-- ---------------------------------------------------------------------------
-- Messages with a state
-- ---------------------------------------------------------------------------

theorem reading?_of_state (hm : c.message.toList = state ++ rest) (hs : IsState state)
    (hr : rest ≠ []) : c.reading? = some ([], rest.dropWhile isBlank) := by
  rw [reading?, hm, findState?_append hs hr]

theorem told_eq (h : c.reading? = some (code, text)) :
    c.told = strip (code ++ (splitQueryAfterFirst text).1) := by
  rw [told, h]

theorem asked_own (h : c.reading? = some (code, text))
    (hq : (splitQueryAfterFirst text).2 = some query) (hb : ¬ Blank query) :
    c.asked = strip query := by
  rw [asked, h]
  dsimp only
  rw [hq, Option.getD_some, if_neg]
  rw [List.isEmpty_iff, strip_eq_nil_iff]
  exact hb

theorem asked_previous (h : c.reading? = some (code, text))
    (hq : (splitQueryAfterFirst text).2 = none) : c.asked = c.previousQuery := by
  rw [asked, h]
  dsimp only
  rw [hq]
  rfl

end

end Complaint

-- ---------------------------------------------------------------------------
-- Messages as they are written
-- ---------------------------------------------------------------------------

theorem queryWas_eq : ", query was: ".toList = ',' :: ([' '] ++ (mention ++ [' '])) := by
  decide +kernel

/-- Behind a text without a mention, one after a comma is the first. -/
theorem firstAt_mention (h : ¬ mention <:+: text) (query : List Char) :
    FirstAt mention (text ++ ", query was: ".toList ++ query) (text ++ [',', ' '])
      (' ' :: query) := by
  have here : FirstAt mention (mention ++ ' ' :: query) [] (' ' :: query) :=
    (firstAt_nil_iff mention_ne_nil).mpr rfl
  have spaced := here.prepend mention_head? (t := [' ']) (by decide)
  have behind := spaced.behind mention_ne_nil comma_not_mem_mention h
  have ht : text ++ ", query was: ".toList ++ query =
      text ++ ',' :: ([' '] ++ (mention ++ ' ' :: query)) := by
    rw [queryWas_eq]
    simp only [List.append_assoc, List.cons_append, List.nil_append]
  rw [ht]
  exact behind

theorem stateColon_eq : "]: ".toList = "]:".toList ++ [' '] := by decide +kernel

theorem takenOff_comma (hne : text ≠ []) (query : List Char) :
    TakenOff (text ++ [',', ' ']) (' ' :: query) text :=
  ⟨⟨[' '], blank_space, rfl⟩, hne, List.cons_ne_nil _ _⟩

namespace Complaint

theorem readable_own {c : Complaint}
    (h : c.reading? = some ([], text ++ ", query was: ".toList ++ query)) (ht : StartsSolid text)
    (hm : ¬ mention <:+: text) (hq : ¬ Blank query) :
    c.readable.toList = strip text ++ ", query was: ".toList ++ shortened (strip query) := by
  have off := splitQueryAfterFirst_takenOff (firstAt_mention hm query)
    (takenOff_comma ht.ne_nil query)
  have hb : ¬ Blank (' ' :: query) := fun hb => hq (blank_cons_iff.mp hb).2
  have hne : strip query ≠ [] := fun hn => hq (strip_eq_nil_iff.mp hn)
  have hs : strip (' ' :: query) = strip query := strip_blank_append blank_space query
  rw [readable_eq, told_eq h, asked_own h (by rw [off]) hb, off, hs, addition_eq hne,
    List.nil_append, List.append_assoc]

theorem readable_alone {c : Complaint} (h : c.reading? = some ([], text))
    (hm : ¬ mention <:+: text) : c.readable.toList = strip text ++ addition c.previousQuery := by
  have alone := splitQueryAfterFirst_unmentioned hm
  rw [readable_eq, told_eq h, asked_previous h (by rw [alone]), alone, List.nil_append]

end Complaint

theorem Complaint.reading?_written {c : Complaint} {code a t : List Char} (named : code ≠ [])
    (inside : ']' ∉ code) (ha : Blank a) (ht : StartsSolid t)
    (hm : c.message.toList = "SQLSTATE[".toList ++ code ++ "]: ".toList ++ (a ++ t)) :
    c.reading? = some ([], t) := by
  have split : c.message.toList =
      "SQLSTATE[".toList ++ code ++ "]:".toList ++ ([' '] ++ a ++ t) := by
    rw [hm, stateColon_eq]
    simp only [List.append_assoc]
  rw [reading?_of_state split (.mk named inside) (by simp),
    List.dropWhile_append_of_pos (blank_space.append ha), dropWhile_solid ht]

/-- A message with a state is told as it is written, with its own query or else the
one that the complaint behind it mentions first. -/
theorem readable_parses {code text : String} (named : code ≠ "") (inside : ']' ∉ code.toList)
    (solid : ¬ Blank text.toList) (unmentioned : ¬ mention <:+: text.toList)
    (cause context : Option String) :
    (∀ query : String, ¬ Blank query.toList →
      (Complaint.readable ⟨"SQLSTATE[" ++ code ++ "]: " ++ text ++ ", query was: " ++ query,
          cause, context⟩).toList =
        strip text.toList ++ ", query was: ".toList ++ shortened (strip query.toList)) ∧
      (∀ previous before query, cause.or context = some previous →
        FirstAt mention previous.toList before query → ¬ Blank query →
          (Complaint.readable ⟨"SQLSTATE[" ++ code ++ "]: " ++ text, cause, context⟩).toList =
            strip text.toList ++ ", query was: ".toList ++ shortened (strip query)) ∧
      ((∀ previous before query, cause.or context = some previous →
        FirstAt mention previous.toList before query → Blank query) →
          (Complaint.readable ⟨"SQLSTATE[" ++ code ++ "]: " ++ text, cause, context⟩).toList =
            strip text.toList) := by
  have named : code.toList ≠ [] := fun h => named (String.toList_eq_nil_iff.mp h)
  obtain ⟨a, t, ht, ha, starts⟩ := exists_blank_append_startsSolid solid
  have free : ¬ mention <:+: t := fun hi =>
    unmentioned (hi.trans (ht ▸ (List.suffix_append a t).isInfix))
  have alone : Complaint.reading? ⟨"SQLSTATE[" ++ code ++ "]: " ++ text, cause, context⟩ =
      some ([], t) :=
    Complaint.reading?_written named inside ha starts (by simp only [String.toList_append, ht])
  rw [ht, strip_blank_append ha]
  -- The query is the one of the message, the one behind it, or there is none.
  refine ⟨fun query hq => ?_, fun previous before query hp hf hq => ?_, fun h => ?_⟩
  · have own := starts.append (", query was: ".toList ++ query.toList)
    rw [← List.append_assoc] at own
    refine Complaint.readable_own (Complaint.reading?_written named inside ha own ?_) starts free hq
    simp only [String.toList_append, ht, List.append_assoc]
  · have hne : strip query ≠ [] := fun hn => hq (strip_eq_nil_iff.mp hn)
    rw [Complaint.readable_alone alone free, Complaint.previousQuery_eq hp hf, addition_eq hne,
      List.append_assoc]
  · rw [Complaint.readable_alone alone free, Complaint.previousQuery_eq_nil h]
    exact List.append_nil _

theorem readable_parses_unknown_column :
    (Complaint.readable
        ⟨"SQLSTATE[42S22]: Column not found, query was: SELECT b", none, none⟩).toList =
        "Column not found, query was: SELECT b".toList ∧
      (Complaint.readable ⟨"SQLSTATE[42S22]: Column not found",
          some "no such column: b, query was: SELECT b", none⟩).toList =
        "Column not found, query was: SELECT b".toList ∧
      (Complaint.readable ⟨"SQLSTATE[42S22]: Column not found", none, none⟩).toList =
        "Column not found".toList := by
  have parses := readable_parses (show "42S22" ≠ "" by decide) (by decide +kernel)
    (show ¬ Blank "Column not found".toList by decide +kernel) (by decide +kernel)
  have first : FirstAt mention "no such column: b, query was: SELECT b".toList
      "no such column: b, ".toList " SELECT b".toList := ⟨by decide +kernel, by decide +kernel⟩
  refine ⟨?_, ?_, ?_⟩
  · exact (parses none none).1 "SELECT b" (by decide +kernel)
  · exact (parses (some "no such column: b, query was: SELECT b") none).2.1 _ _ _ rfl first
      (by decide +kernel)
  · exact (parses none none).2.2 nofun

end SafeReports.Engine
