import SafeReports.Json.Basic

/-!
# Members as a dictionary

Members put in one after another are a dictionary: each name stands once, in the
order in which the names first came, and has the last of its values.
-/

namespace SafeReports.Json

/-- The members that pairs of name and value make, put in one after another: names
in the order in which they first came, each with the last of its values. -/
structure IsDict (pairs : List (String × Json)) (members : Members) : Prop where
  names : members.map Prod.fst = (pairs.map Prod.fst).eraseDups
  values : ∀ name, members.lookup name = pairs.reverse.lookup name

theorem lookup_cons (key : String) (value : Json) (members : Members) (name : String) :
    List.lookup name ((key, value) :: members) =
      if name = key then some value else members.lookup name := by
  rw [List.lookup_cons]
  by_cases h : name = key
  · rw [if_pos h, beq_iff_eq.mpr h]
  · rw [if_neg h, beq_false_of_ne h]

theorem lookup_put (key : String) (value : Json) (members : Members) (name : String) :
    (put key value members).lookup name =
      if name = key then some value else members.lookup name := by
  induction members with
  | nil => exact lookup_cons key value [] name
  | cons m members ih =>
    obtain ⟨k, v⟩ := m
    simp only [put]
    split
    · subst k
      rw [lookup_cons, lookup_cons]
      split <;> rfl
    · rename_i hk
      rw [lookup_cons, lookup_cons, ih]
      split
      · rename_i hn
        rw [if_neg (hn ▸ hk)]
      · rfl

theorem names_put (key : String) (value : Json) (members : Members) :
    (put key value members).map Prod.fst = if key ∈ members.map Prod.fst
      then members.map Prod.fst else members.map Prod.fst ++ [key] := by
  induction members with
  | nil => rfl
  | cons m members ih =>
    obtain ⟨k, v⟩ := m
    by_cases hk : k = key
    · simp [put, hk]
    · simp only [put, hk, ↓reduceIte, List.map_cons, ih, List.mem_cons, Ne.symm hk, false_or]
      split <;> rfl

theorem isDict_nil : IsDict [] [] := ⟨rfl, fun _ => rfl⟩

theorem IsDict.put {pairs members : Members} (h : IsDict pairs members) (key : String)
    (value : Json) :
    IsDict (pairs ++ [(key, value)]) (Json.put key value members) where
  names := by
    have hmem : key ∈ members.map Prod.fst ↔ key ∈ pairs.map Prod.fst := by
      rw [h.names, List.mem_eraseDups]
    rw [names_put, List.map_append, List.eraseDups_append, ← h.names]
    by_cases hk : key ∈ pairs.map Prod.fst
    · simp [hmem.mpr hk, hk, List.removeAll]
    · have hone : [key].eraseDups = [key] := rfl
      simp [hmem, hk, List.removeAll, hone]
  values name := by
    rw [lookup_put, h.values, List.reverse_append]
    exact (lookup_cons key value pairs.reverse name).symm

theorem IsDict.foldl_put {pairs members : Members} (h : IsDict pairs members)
    (more : List (String × Json)) : IsDict (pairs ++ more)
      (more.foldl (fun members (name, value) => Json.put name value members) members) := by
  induction more generalizing pairs members with
  | nil => rwa [List.append_nil]
  | cons m more ih =>
    obtain ⟨key, value⟩ := m
    rw [← List.singleton_append, ← List.append_assoc]
    exact ih (h.put key value)

-- ---------------------------------------------------------------------------
-- Names
-- ---------------------------------------------------------------------------

theorem nodup_put {members : Members} (h : (members.map Prod.fst).Nodup) (key : String)
    (value : Json) : ((put key value members).map Prod.fst).Nodup := by
  rw [names_put]
  split
  · exact h
  · rename_i hk
    rw [List.nodup_append]
    refine ⟨h, List.pairwise_singleton _ key, ?_⟩
    rintro name hn _ hkey rfl
    obtain rfl := List.mem_singleton.mp hkey
    exact hk hn

theorem nodup_putAll {members : Members} (h : (members.map Prod.fst).Nodup) (extra : Members) :
    ((putAll members extra).map Prod.fst).Nodup := by
  unfold putAll
  induction extra generalizing members with
  | nil => exact h
  | cons m extra ih => exact ih (nodup_put h m.1 m.2)

theorem lookup_eq_none {members : Members} {name : String} (h : name ∉ members.map Prod.fst) :
    members.lookup name = none := by
  rw [List.lookup_eq_none_iff]
  intro m hm
  rw [bne_iff_ne]
  rintro rfl
  exact h (List.mem_map_of_mem hm)

/-- Where each name stands once, it does not matter from which end it is looked for. -/
theorem lookup_reverse {members : Members} (h : (members.map Prod.fst).Nodup) (name : String) :
    members.reverse.lookup name = members.lookup name := by
  induction members with
  | nil => rfl
  | cons m members ih =>
    obtain ⟨key, value⟩ := m
    obtain ⟨hk, hr⟩ := List.nodup_cons.mp h
    rw [List.reverse_cons, List.lookup_append, ih hr, lookup_cons, lookup_cons]
    split
    · rename_i hn
      rw [hn, lookup_eq_none hk]
      rfl
    · exact Option.or_none

-- ---------------------------------------------------------------------------
-- One dictionary over another
-- ---------------------------------------------------------------------------

theorem isDict_putAll (pairs : Members) : IsDict pairs (putAll [] pairs) :=
  isDict_nil.foldl_put pairs

theorem nodup_putAll_nil (pairs : Members) : ((putAll [] pairs).map Prod.fst).Nodup :=
  @nodup_putAll [] .nil pairs

/-- What the one has counts, and else what the other has. -/
theorem lookup_putAll_putAll (base extra : Members) (name : String) :
    (putAll (putAll [] base) (putAll [] extra)).lookup name =
      (extra.reverse.lookup name).or (base.reverse.lookup name) := by
  have merged : IsDict (base ++ putAll [] extra) (putAll (putAll [] base) (putAll [] extra)) :=
    (isDict_putAll base).foldl_put _
  rw [merged.values, List.reverse_append, List.lookup_append,
    lookup_reverse (nodup_putAll_nil extra), (isDict_putAll extra).values]

end SafeReports.Json
