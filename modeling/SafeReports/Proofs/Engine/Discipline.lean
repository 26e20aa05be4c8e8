import SafeReports.Proofs.Engine.Soundness

/-!
# Cursors under interleaving

When every cursor can be taken, each is executed once, fetched from after that and
closed once, when the stream that holds it ends and not before; nothing is called
on it behind that. What a stream has given is the beginning of the rows of its own
cursor. Streams that share a session do not disturb one another in this. Whole
tables are left out: their reader does not close its cursor after an error.
-/

namespace SafeReports.Engine

open Executor (Stream)

namespace Journal

/-- How the engine is used for a request: not at all, or on one cursor, on which
nothing is called for another request. -/
inductive Orderly (script : List Reply) (j : Journal) (k : Nat) : Prop
  | idle (calls : j.calls k = []) (rows : j.rows k = [])
  | cursor (n : Nat) (sql : String) (fetches : List Call)
      (fetch : ∀ call ∈ fetches, call.isFetch = true)
      (calls : j.calls k =
        callsOn n (.cursor :: .execute sql :: fetches ++ if j.ended k then [.close] else []))
      (alone : j.work.session.trace.filter (·.1 == n) = j.calls k)
      (rows : j.rows k <+: (replyAt script n).results)

/-- A stream is given up before its first row is asked for. -/
def GivenUpFirst (j : Journal) (k : Nat) : Prop :=
  ∃ entry, (j.owned k).head? = some entry ∧ entry.request.pulls = false

theorem filter_calls {entries : List Entry}
    (hown : ∀ entry ∈ entries, entry.owner = some k → ∀ call ∈ entry.calls, call.1 = n)
    (hother : ∀ entry ∈ entries, entry.owner ≠ some k → ∀ call ∈ entry.calls, call.1 ≠ n) :
    (entries.flatMap Entry.calls).filter (·.1 == n) =
      (entries.filter (·.owner == some k)).flatMap Entry.calls := by
  induction entries with
  | nil => rfl
  | cons entry rest ih =>
    obtain ⟨hown, hown'⟩ := List.forall_mem_cons.mp hown
    obtain ⟨hother, hother'⟩ := List.forall_mem_cons.mp hother
    rw [List.flatMap_cons, List.filter_append, ih hown' hother']
    by_cases ho : entry.owner = some k
    · rw [List.filter_cons_of_pos (by simpa using ho), List.flatMap_cons,
        List.filter_eq_self.mpr fun call hc => by simpa using hown ho call hc]
    · rw [List.filter_cons_of_neg (by simpa using ho),
        List.filter_eq_nil_iff.mpr fun call hc => by simpa using hother ho call hc, List.nil_append]

variable {e : Executor} {script : List Reply} {j : Journal} {state : Nat → Stream}
  {holder : Nat → Nat}

theorem mem_calls : call ∈ j.calls k ↔
    ∃ entry ∈ j.entries, entry.owner = some k ∧ call ∈ entry.calls := by
  simp [calls, owned, and_assoc]

theorem Sound.holder_eq (hs : Sound e script j state holder) (hc : call ∈ j.calls k) :
    holder call.1 = k := by
  obtain ⟨entry, hmem, ho, hc⟩ := mem_calls.mp hc
  exact (Option.some.inj (ho.symm.trans (hs.held entry hmem call hc).1)).symm

/-- What is called on the cursor of a request is what is called for it. -/
theorem Sound.filter_trace (hs : Sound e script j state holder) (hc : j.calls k ≠ [])
    (hn : ∀ call ∈ j.calls k, call.1 = n) :
    j.work.session.trace.filter (·.1 == n) = j.calls k := by
  have hk : holder n = k := by
    obtain ⟨call, hcall⟩ := List.exists_mem_of_ne_nil _ hc
    rw [← hn call hcall, hs.holder_eq hcall]
  rw [hs.trace]
  refine filter_calls (fun entry hmem ho call hc => hn call (mem_calls.mpr ⟨entry, hmem, ho, hc⟩))
    fun entry hmem ho call hc heq => ho ?_
  rw [(hs.held entry hmem call hc).1, heq, hk]

theorem cursorError_replyAt (taken : ∀ p ∈ script, p.cursorError = none) (n : Nat) :
    (replyAt script n).cursorError = none := by
  rw [replyAt]
  cases hp : script[n]? with
  | none => rfl
  | some p => exact taken p (List.mem_of_getElem? hp)

theorem Sound.orderly (hs : Sound e script j state holder)
    (taken : ∀ p ∈ script, p.cursorError = none) (hr : j.request? k = some r)
    (hplain : r.isTable = false) : j.Orderly script k := by
  have ha := hs.account k r hr
  have hended := hs.ended k
  have howned (hc : j.calls k ≠ []) : j.owned k ≠ [] := by
    intro h
    simp [calls, h] at hc
  have hfilter (n : Nat) (hc : j.calls k ≠ []) := hs.filter_trace (n := n) hc
  generalize hstate : state k = stream at ha hended
  generalize hcalls : j.calls k = made at ha howned hfilter
  generalize hrows : j.rows k = given at ha
  cases ha with
  | fresh | idle => exact .idle hcalls hrows
  | @denied _ n _ error => exact absurd (cursorError_replyAt taken n) error
  | @reading sql _ _ _ c _ _ runs fetches reply rows =>
    have hend : j.ended k = false := by simpa using hended
    refine .cursor c.number sql _ fetches ?_ ?_ (hrows ▸ ⟨_, rows⟩)
    · rw [hcalls, hend]
      simp
    · rw [hcalls]
      exact hfilter _ (by simp [callsOn]) fun _ hc => (mem_callsOn.mp hc).1
  | @closed sql _ _ n runs fetches rows =>
    have hend : j.ended k = true := hended.mpr ⟨rfl, howned (by simp [callsOn])⟩
    refine .cursor n sql _ fetches ?_ ?_ (hrows ▸ rows)
    · rw [hcalls, hend]
      rfl
    · rw [hcalls]
      exact hfilter _ (by simp [callsOn]) fun _ hc => (mem_callsOn.mp hc).1
  | table runs whole => exact absurd whole (by simp [hplain])

end Journal

/-- Every request is orderly: its cursor is executed, fetched from and, when its
stream has ended, closed, and what it has given is the beginning of the rows of
that cursor. A stream that is given up before its first row takes none. -/
theorem cursors_orderly (e : Executor) {script : List Reply} {requests : List Request}
    (taken : ∀ p ∈ script, p.cursorError = none)
    (plain : ∀ r ∈ requests, r.isTable = false) :
    let j := Journal.keep e script requests
    j.work = (Workbench.ofScript script).run e requests ∧
      (∀ call ∈ j.work.session.trace, ∃ k < requests.length, call ∈ j.calls k) ∧
      (∀ k < requests.length, j.Orderly script k) ∧
      ∀ k, j.GivenUpFirst k → j.calls k = [] := by
  intro j
  obtain ⟨state, holder, hs⟩ := Journal.sound_keep e script requests
  have hlen : j.entries.length = requests.length := by
    rw [← Journal.keep_requests e script requests, List.length_map]
  refine ⟨Journal.keep_work e script requests, fun call hc => ?_, fun k hk => ?_, fun k hk => ?_⟩
  · rw [hs.trace] at hc
    obtain ⟨entry, hmem, hc⟩ := List.mem_flatMap.mp hc
    have ho := (hs.held entry hmem call hc).1
    exact ⟨_, hlen ▸ hs.owned entry hmem _ ho, Journal.mem_calls.mpr ⟨entry, hmem, ho, hc⟩⟩
  · have hr : j.request? k = some requests[k] :=
      (Journal.keep_request? ..).trans (List.getElem?_eq_getElem hk)
    exact hs.orderly taken hr (plain _ (List.getElem_mem hk))
  · obtain ⟨entry, hf, hp⟩ := hk
    exact (hs.unasked k entry hf hp).2

/-- Two results of two rows each; closing the first cursor fails. -/
def twoResults : List Reply :=
  [{ columns := some ["a"], rows := [[.int 1], [.int 2]],
      closeError := some ⟨.operational, ⟨"gone", none, none⟩⟩ },
    { columns := some ["b"], rows := [[.int 3], [.int 4]] }]

def anyRows : Sql.Arrangement := ⟨none, none, some "ASC"⟩

/-- Three streams side by side; the third is given up at once and the first one is
read to its end. -/
def sideBySide : List Request :=
  [.start "a" (some "SELECT 1") anyRows 1, .start "b" (some "SELECT 2") anyRows 500,
    .start "c" (some "SELECT 3") anyRows 500, .next "a", .next "b", .close "c", .next "c",
    .next "a", .next "a"]

theorem cursors_orderly_beside :
    (∀ p ∈ twoResults, p.cursorError = none) ∧ (∀ r ∈ sideBySide, r.isTable = false) ∧
      (Journal.keep {} twoResults sideBySide).Orderly twoResults 0 ∧
      (Journal.keep {} twoResults sideBySide).ended 0 = true ∧
      (Journal.keep {} twoResults sideBySide).Orderly twoResults 1 ∧
      (Journal.keep {} twoResults sideBySide).ended 1 = false ∧
      (Journal.keep {} twoResults sideBySide).calls 2 = [] := by
  have taken : ∀ p ∈ twoResults, p.cursorError = none := by simp [twoResults]
  have plain : ∀ r ∈ sideBySide, r.isTable = false := by simp [sideBySide, Request.isTable]
  obtain ⟨-, -, ho, hg⟩ := cursors_orderly {} taken plain
  exact ⟨taken, plain, ho 0 (by decide), by decide +kernel, ho 1 (by decide), by decide +kernel,
    hg 2 ⟨_, rfl, rfl⟩⟩

end SafeReports.Engine
