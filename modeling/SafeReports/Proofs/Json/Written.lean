import SafeReports.Json.Parser
import SafeReports.Proofs.Json.Dictionary

/-!
# Objects as they are written

The members of an object as they stand in a text, repeated names included. What the
reader makes of the object is the dictionary of these.
-/

namespace SafeReports.Json

-- ---------------------------------------------------------------------------
-- The members in the text
-- ---------------------------------------------------------------------------

/-- One name, the colon and its value. -/
def member (fuel depth : Nat) (s : List Char) : Except Fault ((String × Json) × List Char) :=
  match skipSpace s with
  | '"' :: rest =>
    match chars fuel [] rest with
    | .error fault => .error fault
    | .ok (key, rest) =>
      match skipSpace rest with
      | ':' :: rest => (value fuel depth rest).map fun (x, r) => ((String.ofList key, x), r)
      | _ => .error .malformed
  | _ => .error .malformed

/-- Members up to the closing brace. -/
def pairs : Nat → Nat → List Char → Except Fault (Members × List Char)
  | 0, _, _ => .error .malformed
  | fuel + 1, depth, s =>
    match member fuel depth s with
    | .error fault => .error fault
    | .ok (m, rest) =>
      match skipSpace rest with
      | ',' :: r => (pairs fuel depth r).map fun (ms, r) => (m :: ms, r)
      | '\x7d' :: r => .ok ([m], r)
      | _ => .error .malformed

def object (fuel depth : Nat) (s : List Char) : Except Fault (Members × List Char) :=
  match skipSpace s with
  | '\x7b' :: rest =>
    match depth with
    | 0 => .error .tooDeep
    | depth + 1 =>
      match skipSpace rest with
      | '\x7d' :: r => .ok ([], r)
      | _ => pairs fuel depth rest
  | _ => .error .malformed

/-- The members of the one object of a text. -/
def membersOf (depth : Nat) (s : String) : Except Fault Members :=
  match object (2 * s.toList.length) depth s.toList with
  | .error fault => .error fault
  | .ok (ms, rest) => if (skipSpace rest).isEmpty then .ok ms else .error .malformed

-- ---------------------------------------------------------------------------
-- What the reader makes of them
-- ---------------------------------------------------------------------------

theorem map_eq_ok_iff {x : Except Fault α} {f : α → β} :
    x.map f = .ok b ↔ ∃ a, x = .ok a ∧ f a = b := by
  cases x <;> simp [Except.map]

theorem map_map (x : Except Fault α) (f : α → β) (g : β → γ) :
    (x.map f).map g = x.map (g ∘ f) := by
  cases x <;> rfl

theorem members_succ (fuel depth : Nat) (acc : Members) (s : List Char) :
    members (fuel + 1) depth acc s =
      match member fuel depth s with
      | .error fault => .error fault
      | .ok (m, rest) =>
        match skipSpace rest with
        | ',' :: r => members fuel depth (put m.1 m.2 acc) r
        | '\x7d' :: r => .ok (put m.1 m.2 acc, r)
        | _ => .error .malformed := by
  rw [members, member]
  generalize skipSpace s = t
  split
  · simp only
    rcases chars fuel [] _ with fault | ⟨key, rest⟩
    · rfl
    · simp only
      generalize skipSpace rest = t'
      split
      · rename_i tail
        simp only [Except.map]
        cases value fuel depth tail with
        | error fault => rfl
        | ok o => rfl
      · simp only
  · simp only

theorem members_eq (fuel depth : Nat) (acc : Members) (s : List Char) :
    members fuel depth acc s = (pairs fuel depth s).map fun (ms, r) => (putAll acc ms, r) := by
  induction fuel generalizing acc s with
  | zero => rfl
  | succ fuel ih =>
    rw [members_succ, pairs]
    cases member fuel depth s with
    | error fault => rfl
    | ok o =>
      obtain ⟨m, rest⟩ := o
      dsimp only
      split
      · rw [ih, map_map]
        rfl
      · rfl
      · rfl

theorem magnitude_ne_obj (negative : Bool) (s : List Char) :
    magnitude negative s ≠ .ok (.obj ms, r) := by
  intro h
  simp only [magnitude] at h
  split at h <;> split at h
  · cases h
  · split at h
    · split at h <;> cases h
    · cases h
  · cases h
  · split at h
    · split at h <;> cases h
    · cases h

/-- No word and no number is an object. -/
theorem scalar_ne_obj (s : List Char) : scalar s ≠ .ok (.obj ms, r) := by
  intro h
  unfold scalar at h
  split at h
  · rename_i v hv
    obtain rfl := Except.ok.inj h
    obtain ⟨m, hm, h⟩ := List.exists_of_findSome?_eq_some hv
    obtain ⟨rest, -, h⟩ := Option.map_eq_some_iff.mp h
    simp only [List.mem_cons, List.not_mem_nil, or_false] at hm
    rcases hm with rfl | rfl | rfl | rfl | rfl <;> cases h
  · unfold number at h
    split at h
    · split at h
      · cases h
      · exact magnitude_ne_obj _ _ h
    · exact magnitude_ne_obj _ _ h

theorem value_eq_obj_iff (fuel depth : Nat) (s : List Char) :
    value (fuel + 1) depth s = .ok (.obj ms, r) ↔
      ∃ ps, object fuel depth s = .ok (ps, r) ∧ putAll [] ps = ms := by
  rw [value, object]
  generalize skipSpace s = t
  split
  · simp [map_eq_ok_iff]
  · cases depth with
    | zero => simp
    | succ depth =>
      simp only
      split <;> simp [map_eq_ok_iff]
  · cases depth with
    | zero => simp
    | succ depth =>
      simp only
      generalize skipSpace _ = t'
      split
      · constructor
        · intro h
          cases h
          exact ⟨[], rfl, rfl⟩
        · rintro ⟨ps, h, rfl⟩
          cases h
          rfl
      · rw [members_eq, map_map]
        simp only [map_eq_ok_iff]
        constructor
        · rintro ⟨⟨ps, r'⟩, hp, h⟩
          cases h
          exact ⟨ps, hp, rfl⟩
        · rintro ⟨ps, hp, rfl⟩
          exact ⟨(ps, r), hp, rfl⟩
  · simp only
    constructor
    · intro h
      exact absurd h (scalar_ne_obj _)
    · rintro ⟨ps, h, -⟩
      cases h

theorem read_eq_obj_iff (depth : Nat) (s : String) :
    read depth s = .ok (.obj ms) ↔ ∃ ps, membersOf depth s = .ok ps ∧ putAll [] ps = ms := by
  simp only [read, membersOf]
  constructor
  · intro h
    split at h
    · cases h
    · rename_i j rest hv
      split at h
      · rename_i hr
        obtain rfl := Except.ok.inj h
        obtain ⟨ps, ho, rfl⟩ := (value_eq_obj_iff _ _ _).mp hv
        exact ⟨ps, by simp [ho, hr], rfl⟩
      · cases h
  · rintro ⟨ps, h, rfl⟩
    split at h
    · cases h
    · rename_i ms rest ho
      split at h
      · rename_i hr
        obtain rfl := Except.ok.inj h
        rw [(value_eq_obj_iff _ _ _).mpr ⟨_, ho, rfl⟩]
        exact if_pos hr
      · cases h

end SafeReports.Json
