import SafeReports.Proofs.Sql.Separator

/-!
# Reading a query in one pass

A query read from left to right as a database reads it: quoted spans and
comments exclude each other, and the first that opens wins. Quotes are those of
the separator count. A line comment runs up to the newline, a block comment
through the first `*/` after its opening marker, and a block that is never
closed runs to the end.
-/

namespace SafeReports.Sql

inductive Part
  /-- A character outside spans and comments. -/
  | text (c : Char)
  /-- A character of a quoted span, the quotes included. -/
  | quoted (c : Char)
  | line (body : List Char)
  | block (body : List Char)
  | unclosed (body : List Char)
  deriving DecidableEq, Repr

namespace Part

/-- The part as it stands in the query. -/
def source : Part → List Char
  | text c => [c]
  | quoted c => [c]
  | line m => '-' :: '-' :: m
  | block m => '/' :: '*' :: m ++ ['*', '/']
  | unclosed m => '/' :: '*' :: m

/-- What is not comment. -/
def live : Part → List Char
  | text c => [c]
  | quoted c => [c]
  | line _ => []
  | block _ => []
  | unclosed _ => []

end Part

/-- What a reading is in, with what was read of a comment. -/
inductive Mode
  | live (scan : Scan)
  | line (body : List Char)
  | block (body : List Char)

def Scan.part (s : Scan) (c : Char) : Part :=
  if s.quote = none ∧ isQuote c = false then .text c else .quoted c

def partsFrom : Mode → List Char → List Part
  | .live _, [] => []
  | .line m, [] => [.line m]
  | .block m, [] => [.unclosed m]
  | .live ⟨none, _⟩, '-' :: '-' :: r => partsFrom (.line []) r
  | .live ⟨none, _⟩, '/' :: '*' :: r => partsFrom (.block []) r
  | .live s, c :: r => s.part c :: partsFrom (.live (s.step c)) r
  | .line m, c :: r =>
    if c = '\n' then .line m :: .text c :: partsFrom (.live .start) r
    else partsFrom (.line (m ++ [c])) r
  | .block m, '*' :: '/' :: r => .block m :: partsFrom (.live .start) r
  | .block m, c :: r => partsFrom (.block (m ++ [c])) r

def parts (q : List Char) : List Part := partsFrom (.live .start) q

def sources (ps : List Part) : List Char := ps.flatMap Part.source

def liveText (ps : List Part) : List Char := ps.flatMap Part.live

theorem liveText_append (ps ps' : List Part) :
    liveText (ps ++ ps') = liveText ps ++ liveText ps' :=
  List.flatMap_append

/-- The query without its comments. -/
def live (q : List Char) : List Char := liveText (parts q)

example : live "SELECT '--', 1 /* -- */ + 2 -- 'x".toList = "SELECT '--', 1  + 2 ".toList := by
  decide

-- ---------------------------------------------------------------------------
-- Readings as derivations
-- ---------------------------------------------------------------------------

/-- A reading from a state of the scan, comments as wholes. -/
inductive Reads : Scan → List Char → List Part → Prop
  | nil {s : Scan} : Reads s [] []
  | char {s : Scan} {c : Char} {r : List Char} {ps : List Part} :
      (s.quote = none → ∀ t, c = '-' → r = '-' :: t → False) →
      (s.quote = none → ∀ t, c = '/' → r = '*' :: t → False) →
      Reads (s.step c) r ps → Reads s (c :: r) (s.part c :: ps)
  | lineEnd {s : Scan} {m : List Char} :
      s.quote = none → '\n' ∉ m → Reads s ('-' :: '-' :: m) [.line m]
  | line {s : Scan} {m r : List Char} {ps : List Part} : s.quote = none → '\n' ∉ m →
      Reads .start r ps →
      Reads s ('-' :: '-' :: (m ++ '\n' :: r)) (.line m :: .text '\n' :: ps)
  | block {s : Scan} {m r : List Char} {ps : List Part} : s.quote = none →
      ¬ ['*', '/'] <:+: m → Reads .start r ps →
      Reads s ('/' :: '*' :: (m ++ '*' :: '/' :: r)) (.block m :: ps)
  | unclosed {s : Scan} {m : List Char} :
      s.quote = none → ¬ ['*', '/'] <:+: m → Reads s ('/' :: '*' :: m) [.unclosed m]

theorem infix_append_pair {a b c d : Char} (h : [a, b] <:+: m ++ [c] ++ [d]) :
    [a, b] <:+: m ++ [c] ∨ c = a ∧ d = b := by
  rcases List.infix_concat_iff.mp h with h | h
  · obtain ⟨x, hx⟩ := h
    have hx : x ++ [a] ++ [b] = m ++ [c] ++ [d] := by simpa using hx
    obtain ⟨hx, hb⟩ := List.append_inj' hx rfl
    obtain ⟨-, ha⟩ := List.append_inj' hx rfl
    exact .inr ⟨(List.singleton_inj.mp ha).symm, (List.singleton_inj.mp hb).symm⟩
  · exact .inl h

/-- What a reading from a mode says of the text from the comment on. -/
def Mode.Reads : Mode → List Char → List Part → Prop
  | .live s, q, ps => Sql.Reads s q ps
  | .line m, q, ps => '\n' ∉ m →
      ∀ s : Scan, s.quote = none → Sql.Reads s ('-' :: '-' :: (m ++ q)) ps
  | .block m, q, ps => ¬ ['*', '/'] <:+: m ++ q.take 1 →
      ∀ s : Scan, s.quote = none → Sql.Reads s ('/' :: '*' :: (m ++ q)) ps

theorem reads_partsFrom (mode : Mode) (q : List Char) : mode.Reads q (partsFrom mode q) := by
  fun_induction partsFrom mode q with
  | case1 s => exact .nil
  | case2 m =>
    intro hm s hs
    simpa using Sql.Reads.lineEnd hs hm
  | case3 m =>
    intro hm s hs
    simpa using Sql.Reads.unclosed hs (by simpa using hm)
  | case4 b r ih => exact ih (by simp) _ rfl
  | case5 b r ih =>
    refine ih (fun h => ?_) _ rfl
    have h₁ := h.length_le
    have h₂ := List.length_take_le 1 r
    simp only [List.nil_append, List.length_cons, List.length_nil] at h₁
    omega
  | case6 s c r hl hb ih =>
    have hs : s.quote = none → s = ⟨none, s.afterBackslash⟩ := fun h => by rw [← h]
    exact .char (fun h t => hl _ t (hs h)) (fun h t => hb _ t (hs h)) ih
  | case7 m r ih =>
    intro hm s hs
    exact .line hs hm ih
  | case8 m c r hc ih =>
    intro hm s hs
    simpa using ih (by simpa using ⟨hm, Ne.symm hc⟩) s hs
  | case9 m r ih =>
    intro hm s hs
    exact .block hs (fun h => hm (h.trans (List.prefix_append m _).isInfix)) ih
  | case10 m c r hc ih =>
    intro hm s hs
    -- no `*/` where the comment meets what follows
    have hm' : ¬ ['*', '/'] <:+: m ++ [c] ++ r.take 1 := by
      intro h
      cases r with
      | nil => exact hm (by simpa using h)
      | cons d r =>
        rcases infix_append_pair h with h | ⟨rfl, rfl⟩
        · exact hm h
        · exact hc r rfl rfl
    simpa using ih hm' s hs

theorem reads_parts (q : List Char) : Reads .start q (parts q) :=
  reads_partsFrom (.live .start) q

theorem not_infix_tail {x y c : Char} (hm : ¬ [x, y] <:+: c :: m) : ¬ [x, y] <:+: m :=
  fun h => hm (h.trans (List.suffix_cons c m).isInfix)

/-- The body of a line comment is held. -/
theorem partsFrom_line_append (m₀ r : List Char) (hm : '\n' ∉ m) :
    partsFrom (.line m₀) (m ++ r) = partsFrom (.line (m₀ ++ m)) r := by
  induction m generalizing m₀ with
  | nil => simp
  | cons c m ih =>
    have hc : c ≠ '\n' := fun hc => hm (by simp [hc])
    simpa [partsFrom, hc] using ih (m₀ ++ [c]) fun h => hm (by simp [h])

theorem partsFrom_line (m₀ r : List Char) (hm : '\n' ∉ m) :
    partsFrom (.line m₀) (m ++ '\n' :: r) =
      .line (m₀ ++ m) :: .text '\n' :: partsFrom (.live .start) r := by
  rw [partsFrom_line_append m₀ _ hm]
  simp [partsFrom]

theorem partsFrom_lineEnd (m₀ : List Char) (hm : '\n' ∉ m) :
    partsFrom (.line m₀) m = [.line (m₀ ++ m)] := by
  simpa [partsFrom] using partsFrom_line_append m₀ [] hm

/-- The body of a block comment is held, up to the marker that closes it. -/
theorem partsFrom_block_append (m₀ r : List Char) (hm : ¬ ['*', '/'] <:+: m)
    (hr : r.head? ≠ some '/') :
    partsFrom (.block m₀) (m ++ r) = partsFrom (.block (m₀ ++ m)) r := by
  induction m generalizing m₀ with
  | nil => simp
  | cons c m ih =>
    have hc : ∀ t, c = '*' → m ++ r = '/' :: t → False := by
      rintro t rfl ht
      cases m with
      | nil => exact hr (by rw [← List.nil_append r, ht]; rfl)
      | cons d m =>
        obtain rfl : d = '/' := (List.cons.inj ht).1
        exact hm ⟨[], m, rfl⟩
    rw [List.cons_append, partsFrom.eq_9 _ _ _ hc, ih _ (not_infix_tail hm), List.append_assoc]
    rfl

theorem partsFrom_block (m₀ r : List Char) (hm : ¬ ['*', '/'] <:+: m) :
    partsFrom (.block m₀) (m ++ '*' :: '/' :: r) =
      .block (m₀ ++ m) :: partsFrom (.live .start) r := by
  rw [partsFrom_block_append m₀ _ hm (by simp), partsFrom]

theorem partsFrom_unclosed (m₀ : List Char) (hm : ¬ ['*', '/'] <:+: m) :
    partsFrom (.block m₀) m = [.unclosed (m₀ ++ m)] := by
  simpa [partsFrom] using partsFrom_block_append m₀ [] hm (by simp)

theorem Scan.part_source (s : Scan) (c : Char) : (s.part c).source = [c] := by
  unfold part
  split <;> rfl

theorem Scan.part_live (s : Scan) (c : Char) : (s.part c).live = [c] := by
  unfold part
  split <;> rfl

theorem Scan.part_ne_unclosed (s : Scan) (c : Char) (m : List Char) : s.part c ≠ .unclosed m := by
  unfold part
  split <;> nofun

theorem liveText_part (s : Scan) (c : Char) (ps : List Part) :
    liveText (s.part c :: ps) = c :: liveText ps := by
  simp [liveText, s.part_live]

/-- A query has one reading. -/
theorem Reads.partsFrom_eq (h : Reads s q ps) : partsFrom (.live s) q = ps := by
  induction h with
  | nil => rfl
  | @char s c r ps hl hb _ ih =>
    rw [← ih]
    refine partsFrom.eq_6 s c r (fun b t hs => ?_) (fun b t hs => ?_)
    · exact hl (by rw [hs]) t
    · exact hb (by rw [hs]) t
  | @lineEnd s m hs hm =>
    obtain ⟨_, b⟩ := s
    obtain rfl := hs
    exact partsFrom_lineEnd [] hm
  | @line s m r ps hs hm _ ih =>
    obtain ⟨_, b⟩ := s
    obtain rfl := hs
    rw [← ih]
    exact partsFrom_line [] r hm
  | @block s m r ps hs hm _ ih =>
    obtain ⟨_, b⟩ := s
    obtain rfl := hs
    rw [← ih]
    exact partsFrom_block [] r hm
  | @unclosed s m hs hm =>
    obtain ⟨_, b⟩ := s
    obtain rfl := hs
    exact partsFrom_unclosed [] hm

theorem Reads.parts_eq (h : Reads .start q ps) : parts q = ps := h.partsFrom_eq

theorem Reads.sources_eq (h : Reads s q ps) : sources ps = q := by
  induction h with
  | nil => rfl
  | char _ _ _ ih => simpa [sources, Scan.part_source] using ih
  | lineEnd => simp [sources, Part.source]
  | line _ _ _ ih => simpa [sources, Part.source] using ih
  | block _ _ _ ih => simpa [sources, Part.source] using ih
  | unclosed => simp [sources, Part.source]

/-- The parts of a query are all of it. -/
theorem sources_parts (q : List Char) : sources (parts q) = q := (reads_parts q).sources_eq

/-- A character that is no quote leaves the span open. -/
theorem Reads.quoted_pair {a b : Char} (h : Reads s (a :: b :: r) ps)
    (hs : ∃ k, s.quote = some k ∧ Scan.isQuote k = true) (ha : Scan.isQuote a = false) :
    [.quoted a, .quoted b] <:+: ps := by
  obtain ⟨k, hk, hkq⟩ := hs
  have hak : a ≠ k := by
    rintro rfl
    simp [ha] at hkq
  have hstep : (s.step a).quote = some k := by simp [Scan.step, Scan.quoteAfter, hk, hak]
  cases h with
  | lineEnd hs | line hs | block hs | unclosed hs => simp [hk] at hs
  | char _ _ h =>
    cases h with
    | lineEnd hs | line hs | block hs | unclosed hs => simp [hstep] at hs
    | @char _ _ _ ps _ _ _ => exact ⟨[], ps, by simp [Scan.part, hk, hstep]⟩

/-- Outside quoted spans a text without quotes opens none. -/
theorem Reads.not_quoted (h : Reads s q ps) (hs : s.quote = none)
    (hq : QuoteFree q) (d : Char) : .quoted d ∉ ps := by
  induction h with
  | nil => exact List.not_mem_nil
  | @char s c r ps _ _ _ ih =>
    have hc := hq c (by simp)
    have hp : s.part c = .text c := by simp [Scan.part, hs, hc]
    have hstep := Scan.step_unquoted hs hc
    simpa [hp] using ih hstep fun e he => hq e (by simp [he])
  | lineEnd => simp
  | line _ _ _ ih => simpa using ih rfl fun e he => hq e (by simp [he])
  | block _ _ _ ih => simpa using ih rfl fun e he => hq e (by simp [he])
  | unclosed => simp

/-- Behind a closed block comment a reading begins anew, whatever follows. -/
theorem Reads.at_block (h : Reads s q (l ++ .block m :: ps)) :
    (∃ r, q = sources l ++ (Part.block m).source ++ r ∧ Reads .start r ps) ∧
      ∀ r' ps', Reads .start r' ps' →
        Reads s (sources l ++ (Part.block m).source ++ r') (l ++ .block m :: ps') := by
  generalize hp : l ++ .block m :: ps = ps₀ at h
  induction h generalizing l with
  | nil => simp at hp
  | @char s c r ps₀ hl hb _ ih =>
    have hsrc := s.part_source c
    cases l with
    | nil =>
      have hc : s.part c = .block m := (List.cons.inj hp).1.symm
      unfold Scan.part at hc
      split at hc <;> cases hc
    | cons p l =>
      obtain ⟨rfl, hl'⟩ := List.cons.inj hp
      obtain ⟨⟨t, rfl, ht⟩, hr⟩ := ih hl'
      refine ⟨⟨t, by simp [sources, hsrc], ht⟩, fun r' ps' h' => ?_⟩
      -- the first character of what follows `c` is the same
      have hhead : ∀ {d u}, sources l ++ (Part.block m).source ++ r' = d :: u →
          ∃ v, sources l ++ (Part.block m).source ++ t = d :: v := by
        intro d u hu
        cases hx : sources l ++ (Part.block m).source with
        | nil => simp [Part.source] at hx
        | cons e x =>
          rw [hx] at hu
          exact ⟨x ++ t, by rw [(List.cons.inj hu).1.symm]; rfl⟩
      have := Reads.char (fun hs u hc hu => ?_) (fun hs u hc hu => ?_) (hr r' ps' h')
      · simpa [sources, hsrc] using this
      · obtain ⟨v, hv⟩ := hhead hu
        exact hl hs v hc hv
      · obtain ⟨v, hv⟩ := hhead hu
        exact hb hs v hc hv
  | lineEnd => rcases l with _ | ⟨p, _ | ⟨p', l⟩⟩ <;> simp at hp
  | @line s m' r ps₀ hs hm _ ih =>
    rcases l with _ | ⟨p, _ | ⟨p', l⟩⟩
    · simp at hp
    · simp at hp
    · simp only [List.cons_append, List.cons.injEq] at hp
      obtain ⟨rfl, rfl, hp⟩ := hp
      obtain ⟨⟨t, rfl, ht⟩, hr⟩ := ih hp
      refine ⟨⟨t, by simp [sources, Part.source], ht⟩, fun r' ps' h' => ?_⟩
      simpa [sources, Part.source] using Reads.line hs hm (hr r' ps' h')
  | @block s m' r ps₀ hs hm hrd ih =>
    cases l with
    | nil =>
      obtain ⟨h₁, rfl⟩ := List.cons.inj hp
      obtain rfl := Part.block.inj h₁
      refine ⟨⟨r, by simp [sources, Part.source], hrd⟩, fun r' ps' h' => ?_⟩
      simpa [sources, Part.source] using Reads.block hs hm h'
    | cons p l =>
      obtain ⟨rfl, hl'⟩ := List.cons.inj hp
      obtain ⟨⟨t, rfl, ht⟩, hr⟩ := ih hl'
      refine ⟨⟨t, by simp [sources, Part.source], ht⟩, fun r' ps' h' => ?_⟩
      simpa [sources, Part.source] using Reads.block hs hm (hr r' ps' h')
  | unclosed => rcases l with _ | ⟨p, _ | ⟨p', l⟩⟩ <;> simp at hp

end SafeReports.Sql
