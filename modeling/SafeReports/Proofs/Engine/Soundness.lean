import SafeReports.Proofs.Engine.Journal

/-!
# Sound journals

The calls of a journal are the trace of the session, and what belongs to one
request is an account of its stream, whatever stands between. Every request keeps
this so: it moves one stream, and the others stay as they are.
-/

namespace SafeReports.Engine

open Executor (Stream rowsGiven)

theorem Account.number {e : Executor} {script : List Reply} {r : Request}
    (h : Account e script r stream calls given) (hc : calls ≠ []) :
    ∃ n, (n, .cursor) ∈ calls ∧ ∀ call ∈ calls, call.1 = n := by
  have key (n : Nat) (rest : List Call) : ∃ m, (m, .cursor) ∈ callsOn n (.cursor :: rest) ∧
      ∀ call ∈ callsOn n (.cursor :: rest), call.1 = m :=
    ⟨n, by simp [callsOn], by simp [callsOn]⟩
  cases h with
  | fresh | idle => exact absurd rfl hc
  | denied | reading | closed | table => exact key _ _

theorem account_opening (e : Executor) (script : List Reply) (r : Request) :
    Account e script r r.opening [] [] := by
  cases r with
  | next | close => exact .idle
  | _ => exact .fresh rfl

namespace Journal

/-- Every request has its account, with the stream in the state of that request;
a cursor belongs to the request that holds it. -/
structure Sound (e : Executor) (script : List Reply) (j : Journal) (state : Nat → Stream)
    (holder : Nat → Nat) : Prop where
  trace : j.work.session.trace = j.entries.flatMap Entry.calls
  follows : j.work.session.Follows script
  streams : ∀ name, j.work.stream? name = (j.origin name).map state
  distinct : ∀ name other k, j.origin name = some k → j.origin other = some k → name = other
  begun : ∀ name k, j.origin name = some k → ∃ r, j.request? k = some r
  owned : ∀ entry ∈ j.entries, ∀ k, entry.owner = some k → k < j.entries.length
  account : ∀ k r, j.request? k = some r → Account e script r (state k) (j.calls k) (j.rows k)
  held : ∀ entry ∈ j.entries, ∀ call ∈ entry.calls,
    entry.owner = some (holder call.1) ∧ call.1 < j.work.session.taken
  ended : ∀ k, j.ended k = true ↔ state k = .over ∧ j.owned k ≠ []
  untouched : ∀ k r, j.request? k = some r → j.owned k = [] → state k = r.opening
  unasked : ∀ k entry, (j.owned k).head? = some entry → entry.request.pulls = false →
    state k = .over ∧ j.calls k = []

/-- A stream serves a request: the step keeps its account, and the answer ends it
if it is over. -/
structure Serves (e : Executor) (script : List Reply) (r : Request) (s s' : Session)
    (stream stream' : Stream) (entry : Entry) : Prop where
  keeps : Keeps e script r s s' stream stream' entry.calls entry.answer.given
  ends : entry.answer.ends = true ↔ stream' = .over
  rests : stream = .over → stream' = .over ∧ entry.calls = []

/-- What one request does to a sound journal: its own stream begins, and the
stream it belongs to serves it. -/
structure Step (e : Executor) (script : List Reply) (j : Journal) (r : Request)
    (state state' : Nat → Stream) : Prop where
  other : ∀ k, j.owner r ≠ some k → state' k = Function.update state j.entries.length r.opening k
  serves : ∀ k r', j.owner r = some k → (j.add e r).request? k = some r' →
    Serves e script r' j.work.session (j.add e r).work.session
      (Function.update state j.entries.length r.opening k) (state' k) (j.entry e r)
  idle : j.owner r = none → (j.add e r).work.session = j.work.session
  streams : ∀ name, (j.add e r).work.stream? name = (j.originAfter r name).map state'
  quiet : ∀ k, j.owner r = some k → r.pulls = false → j.owned k = [] → (j.entry e r).calls = []

section
variable {e : Executor} {script : List Reply} {j : Journal} {state state' : Nat → Stream}
  {holder : Nat → Nat}

theorem Sound.owned_length (hs : Sound e script j state holder) :
    j.owned j.entries.length = [] := by
  refine List.filter_eq_nil_iff.mpr fun entry hmem ho => ?_
  exact Nat.lt_irrefl _ (hs.owned entry hmem _ (by simpa using ho))

theorem Sound.begun_ne (hs : Sound e script j state holder) (h : j.origin name = some k) :
    k ≠ j.entries.length := by
  obtain ⟨r, hr⟩ := hs.begun name k h
  exact Nat.ne_of_lt (request?_lt hr)

theorem Sound.owner_lt (hs : Sound e script j state holder) (ho : j.owner r = some k) :
    k < j.entries.length + 1 := by
  have hn (name) (h : j.origin name = some k) : k < j.entries.length + 1 := by
    obtain ⟨r, hr⟩ := hs.begun name k h
    exact Nat.lt_succ_of_lt (request?_lt hr)
  cases r with
  | check | rows | table =>
    obtain rfl := Option.some.inj ho
    exact Nat.lt_succ_self _
  | start name | next name | close name => exact hn name ho

theorem originAfter_cases (ho : j.originAfter r name = some k) :
    k = j.entries.length ∧ (∃ query a batch, r = .start name query a batch) ∨
      j.origin name = some k ∧ ∀ query a batch, r ≠ .start name query a batch := by
  cases r with
  | start other query a batch =>
    by_cases hn : name = other
    · subst hn
      simp only [originAfter, Function.update_self, Option.some.injEq] at ho
      exact .inl ⟨ho.symm, _, _, _, rfl⟩
    · simp only [originAfter, Function.update_of_ne hn] at ho
      exact .inr ⟨ho, by simp [Ne.symm hn]⟩
  | _ => exact .inr ⟨ho, nofun⟩

theorem Sound.account_begun (hs : Sound e script j state holder)
    (hr : (j.add e r).request? k = some r') :
    Account e script r' (Function.update state j.entries.length r.opening k) (j.calls k)
      (j.rows k) := by
  rw [request?_add] at hr
  by_cases hk : k = j.entries.length
  · subst hk
    rw [if_pos rfl] at hr
    obtain rfl := Option.some.inj hr
    rw [Function.update_self, calls, rows, hs.owned_length]
    exact account_opening e script r
  · rw [if_neg hk] at hr
    rw [Function.update_of_ne hk]
    exact hs.account k r' hr

theorem Sound.ne_length (hs : Sound e script j state holder) (ho : j.owned k ≠ []) :
    k ≠ j.entries.length := by
  rintro rfl
  exact ho hs.owned_length

theorem Sound.asked (hs : Sound e script j state holder) (ho : j.owner r = some k) :
    ∃ r', (j.add e r).request? k = some r' := by
  have hk : k < (j.add e r).entries.length := by simpa [add] using hs.owner_lt ho
  exact ⟨_, Option.map_eq_some_iff.mpr ⟨_, List.getElem?_eq_getElem hk, rfl⟩⟩

/-- The session after the step: the trace goes on by the calls of the entry, and
new cursors are taken from the script. -/
theorem Sound.session_add (hs : Sound e script j state holder)
    (h : Step e script j r state state') :
    (j.add e r).work.session.trace = j.work.session.trace ++ (j.entry e r).calls ∧
      (j.add e r).work.session.Follows script ∧
      j.work.session.taken ≤ (j.add e r).work.session.taken := by
  cases ho : j.owner r with
  | none =>
    have hi := h.idle ho
    rw [hi]
    refine ⟨?_, hs.follows, Nat.le_refl _⟩
    rw [entry_calls, hi, List.drop_length, List.append_nil]
  | some k =>
    obtain ⟨r', hr'⟩ := hs.asked (e := e) ho
    have hk := (h.serves k r' ho hr').keeps
    exact ⟨hk.trace, hk.follows, hk.taken⟩

theorem Sound.account_add (hs : Sound e script j state holder)
    (h : Step e script j r state state') (hr : (j.add e r).request? k = some r') :
    Account e script r' (state' k) ((j.add e r).calls k) ((j.add e r).rows k) := by
  have ha := hs.account_begun hr
  by_cases ho : j.owner r = some k
  · rw [calls_add_self e j r k ho, rows_add_self e j r k ho]
    exact (h.serves k r' ho hr).keeps.account _ _ ha
  · rw [calls_add_other e j r k ho, rows_add_other e j r k ho, h.other k ho]
    exact ha

/-- The calls of a step are on the cursor that the stream has, or on a new one. -/
theorem Sound.number_add (hs : Sound e script j state holder)
    (h : Step e script j r state state') (ho : j.owner r = some k)
    (hc : call ∈ (j.entry e r).calls) :
    call.1 < (j.add e r).work.session.taken ∧
      (call.1 < j.work.session.taken → holder call.1 = k) := by
  obtain ⟨r', hr'⟩ := hs.asked (e := e) ho
  have hk := (h.serves k r' ho hr').keeps
  have hm : call ∈ (j.add e r).calls k := by
    rw [calls_add_self e j r k ho]
    exact List.mem_append_right _ hc
  obtain ⟨n, hn, hall⟩ := (hs.account_add h hr').number (List.ne_nil_of_mem hm)
  obtain rfl := hall call hm
  rw [calls_add_self e j r k ho] at hn
  -- The cursor of the account was taken by an earlier entry or by this one.
  rcases List.mem_append.mp hn with hn | hn
  · obtain ⟨entry, hentry, hcall⟩ := List.mem_flatMap.mp hn
    obtain ⟨hmem, howner⟩ := List.mem_filter.mp hentry
    obtain ⟨hh, hlt⟩ := hs.held entry hmem _ hcall
    rw [hh] at howner
    exact ⟨Nat.lt_of_lt_of_le hlt hk.taken, fun _ => by simpa using howner⟩
  · obtain ⟨hle, hlt⟩ := hk.fresh _ hn
    exact ⟨hlt, fun hlt' => absurd hle (Nat.not_le_of_lt hlt')⟩

theorem Sound.held_add (hs : Sound e script j state holder)
    (h : Step e script j r state state') :
    ∀ entry ∈ (j.add e r).entries, ∀ call ∈ entry.calls,
      entry.owner = some (if call.1 < j.work.session.taken then holder call.1
        else (j.owner r).getD 0) ∧ call.1 < (j.add e r).work.session.taken := by
  intro entry hmem call hc
  rcases List.mem_append.mp hmem with hmem | hmem
  · obtain ⟨ho, hlt⟩ := hs.held entry hmem call hc
    rw [if_pos hlt]
    exact ⟨ho, Nat.lt_of_lt_of_le hlt (hs.session_add h).2.2⟩
  · obtain rfl := List.mem_singleton.mp hmem
    cases ho : j.owner r with
    | none =>
      have ht := (hs.session_add h).1
      rw [h.idle ho, List.self_eq_append_right] at ht
      rw [ht] at hc
      cases hc
    | some k =>
      obtain ⟨hlt, hh⟩ := hs.number_add h ho hc
      refine ⟨ho.trans ?_, hlt⟩
      split
      · rw [hh ‹_›]
      · rfl

theorem Sound.ended_add (hs : Sound e script j state holder)
    (h : Step e script j r state state') (k : Nat) :
    (j.add e r).ended k = true ↔ state' k = .over ∧ (j.add e r).owned k ≠ [] := by
  by_cases ho : j.owner r = some k
  · obtain ⟨r', hr'⟩ := hs.asked (e := e) ho
    have hv := h.serves k r' ho hr'
    rw [ended_add_self e j r k ho, owned_add_self e j r k ho, Bool.or_eq_true, hv.ends, hs.ended]
    constructor
    · rintro (⟨hover, hne⟩ | hover)
      · rw [Function.update_of_ne (hs.ne_length hne)] at hv
        exact ⟨(hv.rests hover).1, by simp⟩
      · exact ⟨hover, by simp⟩
    · exact fun hover => .inr hover.1
  · rw [ended_add_other e j r k ho, owned_add_other e j r k ho, h.other k ho, hs.ended]
    by_cases hk : j.owned k = []
    · simp [hk]
    · rw [Function.update_of_ne (hs.ne_length hk)]

theorem Sound.untouched_add (hs : Sound e script j state holder)
    (h : Step e script j r state state') (hr : (j.add e r).request? k = some r')
    (hk : (j.add e r).owned k = []) : state' k = r'.opening := by
  have ho : j.owner r ≠ some k := by
    intro ho
    rw [owned_add_self e j r k ho] at hk
    simp at hk
  rw [owned_add_other e j r k ho] at hk
  rw [request?_add] at hr
  rw [h.other k ho]
  by_cases hlen : k = j.entries.length
  · subst hlen
    rw [if_pos rfl] at hr
    obtain rfl := Option.some.inj hr
    rw [Function.update_self]
  · rw [if_neg hlen] at hr
    rw [Function.update_of_ne hlen]
    exact hs.untouched k r' hr hk

theorem ends_of_not_pulls (hp : r.pulls = false) : (j.entry e r).answer.ends = true := by
  cases r with
  | start => rfl
  | close name =>
    simp only [entry, Workbench.handle]
    cases j.work.stream? name <;> rfl
  | check | rows | table | next => cases hp

theorem Sound.unasked_add {entry : Entry} (hs : Sound e script j state holder)
    (h : Step e script j r state state') (hf : ((j.add e r).owned k).head? = some entry)
    (hp : entry.request.pulls = false) : state' k = .over ∧ (j.add e r).calls k = [] := by
  by_cases ho : j.owner r = some k
  · obtain ⟨r', hr'⟩ := hs.asked (e := e) ho
    have hv := h.serves k r' ho hr'
    rw [owned_add_self e j r k ho] at hf
    rw [calls_add_self e j r k ho]
    cases hk : j.owned k with
    | nil =>
      rw [hk] at hf
      obtain rfl : j.entry e r = entry := Option.some.inj hf
      refine ⟨hv.ends.mp (ends_of_not_pulls hp), ?_⟩
      rw [h.quiet k ho hp hk, calls, hk]
      rfl
    | cons first rest =>
      have hne : j.owned k ≠ [] := by simp [hk]
      rw [hk] at hf
      obtain rfl : first = entry := Option.some.inj hf
      obtain ⟨hover, hc⟩ := hs.unasked k first (by rw [hk]; rfl) hp
      rw [Function.update_of_ne (hs.ne_length hne)] at hv
      rw [hc, (hv.rests hover).2]
      exact ⟨(hv.rests hover).1, rfl⟩
  · rw [owned_add_other e j r k ho] at hf
    have hne : j.owned k ≠ [] := by
      intro hk
      simp [hk] at hf
    rw [calls_add_other e j r k ho, h.other k ho, Function.update_of_ne (hs.ne_length hne)]
    exact hs.unasked k entry hf hp

theorem Sound.step (hs : Sound e script j state holder) (h : Step e script j r state state') :
    ∃ holder', Sound e script (j.add e r) state' holder' := by
  obtain ⟨htrace, hfollows, -⟩ := hs.session_add h
  -- A cursor keeps its holder; those that the step takes belong to whose the request is.
  have hlen : (j.add e r).entries.length = j.entries.length + 1 := by simp [add]
  refine ⟨fun n => if n < j.work.session.taken then holder n else (j.owner r).getD 0, ?_, hfollows,
    h.streams, ?_, ?_, ?_, fun k r' hr => hs.account_add h hr,
    hs.held_add h, hs.ended_add h, fun k r' => hs.untouched_add h,
    fun k entry => hs.unasked_add h⟩
  · rw [htrace, hs.trace]
    simp [add]
  · intro name other k hn hother
    rcases originAfter_cases hn with ⟨hk, _, _, _, hr⟩ | ⟨hn, -⟩ <;>
      rcases originAfter_cases hother with ⟨hk', _, _, _, hr'⟩ | ⟨hother, -⟩
    · exact (Request.start.inj (hr.symm.trans hr')).1
    · exact absurd hk (hs.begun_ne hother)
    · exact absurd hk' (hs.begun_ne hn)
    · exact hs.distinct name other k hn hother
  · intro name k hn
    rw [request?_add]
    rcases originAfter_cases hn with ⟨rfl, -⟩ | ⟨hn, -⟩
    · exact ⟨r, if_pos rfl⟩
    · obtain ⟨r', hr'⟩ := hs.begun name k hn
      exact ⟨r', by rw [if_neg (Nat.ne_of_lt (request?_lt hr')), hr']⟩
  · intro entry hmem k ho
    rw [hlen]
    rcases List.mem_append.mp hmem with hmem | hmem
    · exact Nat.lt_succ_of_lt (hs.owned entry hmem k ho)
    · obtain rfl := List.mem_singleton.mp hmem
      exact hs.owner_lt ho

-- ---------------------------------------------------------------------------
-- The step of each request
-- ---------------------------------------------------------------------------

theorem Serves.of_keeps {s s' : Session} {entry : Entry} {calls : List (Nat × Call)}
    (h : Keeps e script r s s' stream stream' calls entry.answer.given)
    (hc : entry.calls = s'.trace.drop s.trace.length)
    (ends : entry.answer.ends = true ↔ stream' = .over)
    (rests : stream = .over → stream' = .over ∧ s' = s) :
    Serves e script r s s' stream stream' entry := by
  have he : entry.calls = calls := by rw [hc, h.trace, List.drop_left]
  refine ⟨he ▸ h, ends, fun ho => ?_⟩
  obtain ⟨ho', rfl⟩ := rests ho
  exact ⟨ho', by rw [hc, List.drop_length]⟩

/-- A request that is a call of its own: its stream begins and ends. -/
theorem Sound.step_own (hs : Sound e script j state holder)
    (ho : j.owner r = some j.entries.length) (hr : j.originAfter r = j.origin)
    (hw : (j.add e r).work.streams = j.work.streams) (hp : r.pulls = true)
    (hopen : r.opening ≠ .over) (hends : (j.entry e r).answer.ends = true)
    (hk : ∃ calls, Keeps e script r j.work.session (j.add e r).work.session r.opening .over calls
      (j.entry e r).answer.given) :
    Step e script j r state
      (Function.update (Function.update state j.entries.length r.opening)
        j.entries.length .over) where
  other k hk := Function.update_of_ne (fun h => hk (ho.trans (congrArg some h.symm))) _ _
  serves k r' hk' hr' := by
    obtain rfl : j.entries.length = k := Option.some.inj (ho.symm.trans hk')
    rw [request?_add, if_pos rfl] at hr'
    obtain rfl := Option.some.inj hr'
    obtain ⟨calls, hk⟩ := hk
    rw [Function.update_self, Function.update_self]
    exact .of_keeps hk rfl (iff_of_true hends rfl) fun h => absurd h hopen
  idle h := by
    rw [ho] at h
    cases h
  streams name := by
    rw [hr, Function.update_idem, show (j.add e r).work.stream? name = j.work.stream? name by
      rw [Workbench.stream?, Workbench.stream?, hw], hs.streams]
    refine Option.map_congr fun k hk => ?_
    rw [Function.update_of_ne (hs.begun_ne hk)]
  quiet k _ h := by
    rw [hp] at h
    cases h

/-- A request about the stream of a name, which it leaves in another state. -/
theorem Sound.step_named (hs : Sound e script j state holder) (ho : j.owner r = j.origin name)
    (hr : j.originAfter r = j.origin) (hopen : r.opening = .over) (hk : j.origin name = some k)
    (stream' : Stream)
    (hw : (j.add e r).work = j.work.put name stream' (j.add e r).work.session)
    (hserves : ∀ r', Serves e script r' j.work.session (j.add e r).work.session (state k) stream'
      (j.entry e r))
    (hquiet : r.pulls = false → ∀ r' : Request, state k = r'.opening → (j.entry e r).calls = []) :
    Step e script j r state
      (Function.update (Function.update state j.entries.length .over) k stream') := by
  obtain ⟨rk, hrk⟩ := hs.begun name k hk
  have hne := hs.begun_ne hk
  rw [hk] at ho
  refine ⟨fun k' hk' => ?_, fun k' r' hk' _ => ?_, ?_, fun other => ?_, fun k' hk' hp h0 => ?_⟩
  · rw [hopen, Function.update_of_ne]
    rintro rfl
    exact hk' ho
  · obtain rfl := Option.some.inj (ho.symm.trans hk')
    rw [Function.update_self, Function.update_of_ne hne]
    exact hserves r'
  · intro h
    rw [ho] at h
    cases h
  · rw [hr, hw, Workbench.stream?_put]
    by_cases hn : other = name
    · rw [if_pos hn, hn, hk, Option.map_some, Function.update_self]
    · rw [if_neg hn, hs.streams]
      refine Option.map_congr fun k' hk' => ?_
      rw [Function.update_of_ne, Function.update_of_ne (hs.begun_ne hk')]
      rintro rfl
      exact hn (hs.distinct other name k' hk' hk)
  · obtain rfl := Option.some.inj (ho.symm.trans hk')
    exact hquiet hp rk (hs.untouched k rk hrk h0)

theorem Sound.step_unknown (ho : j.owner r = none) (hopen : r.opening = .over)
    (hr : j.originAfter r = j.origin) (hw : (j.add e r).work = j.work)
    (hs : Sound e script j state holder) :
    Step e script j r state (Function.update state j.entries.length .over) where
  other k _ := by rw [hopen]
  serves k r' h := by
    rw [ho] at h
    cases h
  idle _ := by rw [hw]
  streams name := by
    rw [hr, hw, hs.streams]
    refine Option.map_congr fun k hk => ?_
    rw [Function.update_of_ne (hs.begun_ne hk)]
  quiet k h := by
    rw [ho] at h
    cases h

theorem abandon_opening (r : Request) (s : Session) :
    (Executor.abandon r.opening s).1.session = s := by
  cases r <;> rfl

/-- A name that starts has the new stream, and the others have theirs. -/
theorem Sound.streams_start (hs : Sound e script j state holder)
    (hi : state' j.entries.length = .fresh query a batch)
    (hstate : ∀ other k, other ≠ name → j.origin other = some k → state' k = state k)
    (other : String) : (j.add e (.start name query a batch)).work.stream? other =
      (j.originAfter (.start name query a batch) other).map state' := by
  have hw : (j.add e (.start name query a batch)).work =
      j.work.put name (.fresh query a batch) (j.add e (.start name query a batch)).work.session :=
    rfl
  rw [hw, Workbench.stream?_put, originAfter]
  by_cases hn : other = name
  · rw [if_pos hn, hn, Function.update_self, Option.map_some, hi]
  · rw [if_neg hn, Function.update_of_ne hn, hs.streams]
    exact Option.map_congr fun k hk => (hstate other k hn hk).symm

theorem Sound.step_start_new (hs : Sound e script j state holder) (query : Option String)
    (a : Sql.Arrangement) (batch : Int) (ho : j.origin name = none) :
    Step e script j (.start name query a batch) state
      (Function.update state j.entries.length (.fresh query a batch)) where
  other _ _ := rfl
  serves k _ h := by cases ho.symm.trans h
  idle _ := by simp [add, Workbench.handle, Workbench.put, hs.streams, ho]
  streams := hs.streams_start (Function.update_self ..) fun _ _ _ hk =>
    Function.update_of_ne (hs.begun_ne hk) _ _
  quiet k h := by cases ho.symm.trans h

/-- The stream that had the name is given up. -/
theorem Sound.step_start_again (hs : Sound e script j state holder) (query : Option String)
    (a : Sql.Arrangement) (batch : Int) (ho : j.origin name = some k) :
    Step e script j (.start name query a batch) state
      (Function.update (Function.update state j.entries.length (.fresh query a batch)) k .over) := by
  obtain ⟨rk, hrk⟩ := hs.begun name k ho
  have hne := hs.begun_ne ho
  have hsession : (j.add e (.start name query a batch)).work.session =
      (Executor.abandon (state k) j.work.session).1.session := by
    simp [add, Workbench.handle, Workbench.put, hs.streams, ho]
  refine ⟨fun k' hk' => ?_, fun k' r' hk' _ => ?_, fun h => ?_,
    hs.streams_start ?_ fun other k' hn hk' => ?_, fun k' hk' _ h0 => ?_⟩
  · refine Function.update_of_ne ?_ _ _
    rintro rfl
    exact hk' ho
  · obtain rfl := Option.some.inj (ho.symm.trans hk')
    rw [Function.update_self, Function.update_of_ne hne]
    obtain ⟨calls, hkeeps⟩ := Executor.keeps_abandon (e := e) (r := r') hs.follows (state k)
    rw [← hsession] at hkeeps
    refine .of_keeps hkeeps rfl (iff_of_true rfl rfl) fun hover => ⟨rfl, ?_⟩
    rw [hsession, hover]
    rfl
  · cases ho.symm.trans h
  · rw [Function.update_of_ne hne.symm, Function.update_self]
  · rw [Function.update_of_ne, Function.update_of_ne (hs.begun_ne hk')]
    rintro rfl
    exact hn (hs.distinct other name k' hk' ho)
  · obtain rfl := Option.some.inj (ho.symm.trans hk')
    rw [entry_calls, hsession, hs.untouched k rk hrk h0, abandon_opening, List.drop_length]

theorem Sound.step_start (hs : Sound e script j state holder) (name : String)
    (query : Option String) (a : Sql.Arrangement) (batch : Int) :
    ∃ state', Step e script j (.start name query a batch) state state' := by
  cases ho : j.origin name with
  | none => exact ⟨_, hs.step_start_new query a batch ho⟩
  | some k => exact ⟨_, hs.step_start_again query a batch ho⟩

theorem Sound.step_about (hs : Sound e script j state holder) (name : String)
    (ho : j.owner r = j.origin name) (hr : j.originAfter r = j.origin) (hopen : r.opening = .over)
    (unknown : j.work.stream? name = none → (j.add e r).work = j.work)
    (known : ∀ k, j.work.stream? name = some (state k) → ∃ stream',
      (j.add e r).work = j.work.put name stream' (j.add e r).work.session ∧
        (∀ r', Serves e script r' j.work.session (j.add e r).work.session (state k) stream'
          (j.entry e r)) ∧
        (r.pulls = false → ∀ r' : Request, state k = r'.opening → (j.entry e r).calls = [])) :
    ∃ state', Step e script j r state state' := by
  have hstream := hs.streams name
  cases hk : j.origin name with
  | none =>
    rw [hk, Option.map_none] at hstream
    exact ⟨_, step_unknown (ho.trans hk) hopen hr (unknown hstream) hs⟩
  | some k =>
    rw [hk, Option.map_some] at hstream
    obtain ⟨stream', hw, hserves, hquiet⟩ := known k hstream
    exact ⟨_, hs.step_named ho hr hopen hk stream' hw hserves hquiet⟩

theorem Sound.step_next (hs : Sound e script j state holder) (name : String) :
    ∃ state', Step e script j (.next name) state state' := by
  refine hs.step_about name rfl rfl rfl (fun h => by simp [add, Workbench.handle, h])
    fun k h => ⟨(e.next (state k) j.work.session).2,
      by simp [add, Workbench.handle, h, Workbench.put], fun r' => ?_, fun hp => by cases hp⟩
  have ha : (j.entry e (.next name)).answer = .row (e.next (state k) j.work.session).1.result := by
    simp [entry, Workbench.handle, h]
  have hsession : (j.add e (.next name)).work.session =
      (e.next (state k) j.work.session).1.session := by
    simp [add, Workbench.handle, h, Workbench.put]
  obtain ⟨calls, hkeeps⟩ := Executor.pulls_next (e := e) (r := r') hs.follows (state k)
  have hadv := Executor.advances_next e (state k) j.work.session
  rw [← hsession, show rowsGiven _ = (j.entry e (.next name)).answer.given by rw [ha]; rfl]
    at hkeeps
  refine .of_keeps hkeeps rfl ?_ fun hover => ?_
  · rw [ha, Answer.ends_row, List.isEmpty_iff]
    rcases hadv with ⟨row, hrow, hne, -⟩ | ⟨hrow, hover⟩
    · exact iff_of_false (by simp [hrow, rowsGiven]) hne
    · exact iff_of_true hrow hover
  · rw [hsession, hover]
    exact ⟨rfl, rfl⟩

theorem Sound.step_close (hs : Sound e script j state holder) (name : String) :
    ∃ state', Step e script j (.close name) state state' := by
  refine hs.step_about name rfl rfl rfl (fun h => by simp [add, Workbench.handle, h])
    fun k h => ⟨.over, by simp [add, Workbench.handle, h, Workbench.put, Executor.abandon_over],
      fun r' => ?_, fun _ r' hopening => ?_⟩ <;>
    have hsession : (j.add e (.close name)).work.session =
        (Executor.abandon (state k) j.work.session).1.session := by
      simp [add, Workbench.handle, h, Workbench.put]
  · have ha : (j.entry e (.close name)).answer =
        .done (Executor.abandon (state k) j.work.session).1.result := by
      simp [entry, Workbench.handle, h]
    obtain ⟨calls, hkeeps⟩ := Executor.keeps_abandon (e := e) (r := r') hs.follows (state k)
    rw [← hsession, show [] = (j.entry e (.close name)).answer.given by rw [ha]; rfl] at hkeeps
    refine .of_keeps hkeeps rfl (by rw [ha]; exact iff_of_true rfl rfl) fun hover => ?_
    rw [hsession, hover]
    exact ⟨rfl, rfl⟩
  · rw [entry_calls, hsession, hopening, abandon_opening, List.drop_length]

theorem Sound.exists_step (hs : Sound e script j state holder) (r : Request) :
    ∃ state', Step e script j r state state' := by
  cases r with
  | check query =>
    exact ⟨_, hs.step_own rfl rfl rfl rfl nofun rfl (Executor.keeps_check hs.follows query)⟩
  | rows query a batch =>
    exact ⟨_, hs.step_own rfl rfl rfl rfl nofun rfl (Executor.keeps_rows hs.follows query a batch)⟩
  | table query a =>
    exact ⟨_, hs.step_own rfl rfl rfl rfl nofun rfl (Executor.keeps_table hs.follows rfl query a)⟩
  | start name query a batch => exact hs.step_start name query a batch
  | next name => exact hs.step_next name
  | close name => exact hs.step_close name

-- ---------------------------------------------------------------------------
-- Runs
-- ---------------------------------------------------------------------------

theorem sound_ofScript (e : Executor) (script : List Reply) :
    Sound e script (ofScript script) (fun _ => .over) fun _ => 0 where
  trace := rfl
  follows := rfl
  streams _ := rfl
  distinct _ _ _ h := by cases h
  begun _ _ h := by cases h
  owned _ h := by cases h
  account _ _ h := by simp [request?, ofScript] at h
  held _ h := by cases h
  ended k := by simp [ended, owned, ofScript]
  untouched _ _ h := by simp [request?, ofScript] at h
  unasked _ _ h := by simp [owned, ofScript] at h

theorem sound_keep (e : Executor) (script : List Reply) (requests : List Request) :
    ∃ state holder, Sound e script (keep e script requests) state holder := by
  induction requests using List.reverseRecOn with
  | nil => exact ⟨_, _, sound_ofScript e script⟩
  | append_singleton requests r ih =>
    obtain ⟨state, holder, hs⟩ := ih
    obtain ⟨state', h⟩ := hs.exists_step r
    rw [keep_append]
    exact ⟨state', hs.step h⟩

end

end Journal

end SafeReports.Engine
