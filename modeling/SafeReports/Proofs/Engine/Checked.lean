import SafeReports.Proofs.Engine.Soundness
import SafeReports.Proofs.Sql.Parts
import SafeReports.Proofs.Sql.Verdict

/-!
# Only checked text is executed

With revalidation on, nothing is called on a session before the guard has accepted
the query and its direction and row limit are found valid, and what is executed is
the wrapped query. This holds over any requests, whatever streams are open side by
side and whatever the engine replies.
-/

namespace SafeReports.Engine

open Sql (Arrangement)

namespace Executor

/-- The arrangement with the default row limit where none is given. -/
def limited (e : Executor) (a : Arrangement) : Arrangement :=
  { a with limit := a.limit.or e.defaultLimit }

/-- The guard accepts the query, and direction and row limit are valid. -/
def Allows (e : Executor) (query : Option String) (a : Arrangement) : Prop :=
  (e.guard.validate query).1 = none ∧ Sql.IsDirection a.direction ∧
    ∀ l ∈ (e.limited a).limit, l.IsValid

theorem prepare_eq (e : Executor) (he : e.revalidate = true) (query : Option String)
    (a : Arrangement) : (e.prepare query a).1 = .ok sql ↔
      (e.guard.validate query).1 = none ∧ Sql.wrap query (e.limited a) = .ok sql := by
  simp only [prepare, he, ↓reduceIte, limited]
  rcases e.guard.validate query with ⟨_ | v, log⟩
  · cases Sql.wrap query { a with limit := a.limit.or e.defaultLimit } <;> simp
  · simp

theorem prepare_of_wrap {e : Executor} (hv : (e.guard.validate query).1 = none)
    (hw : Sql.wrap query (e.limited a) = .ok sql) : (e.prepare query a).1 = .ok sql := by
  rcases hg : e.guard.validate query with ⟨violation, log⟩
  obtain rfl : violation = none := by simpa [hg] using hv
  rw [limited] at hw
  cases hr : e.revalidate <;> simp [prepare, hr, hg, hw]

theorem runs_allowed {e : Executor} (he : e.revalidate = true)
    (h : (e.prepare query a).1 = .ok sql) :
    e.Allows query a := by
  obtain ⟨hv, hw⟩ := (e.prepare_eq he query a).mp h
  obtain ⟨q, rfl⟩ := Sql.Guard.validate_text hv
  exact ⟨hv, Sql.wrap_ok_iff.mp ⟨sql, hw⟩⟩

end Executor

variable {e : Executor} {script : List Reply} {r : Request}

theorem Account.runs (h : Account e script r stream calls given) (hc : calls ≠ []) :
    ∃ sql, e.Runs r sql := by
  cases h with
  | fresh | idle => exact absurd rfl hc
  | denied runs | reading runs | closed runs | table runs => exact ⟨_, runs⟩

theorem Account.executes (h : Account e script r stream calls given)
    (hc : (n, .execute sql) ∈ calls) : e.Runs r sql := by
  cases h with
  | fresh | idle => cases hc
  | denied => simp at hc
  | @reading text calls _ _ _ _ _ runs fetches =>
    have hno : .execute sql ∉ calls := fun hm => nomatch fetches _ hm
    obtain rfl : sql = text := by simpa [hno] using (mem_callsOn.mp hc).2
    exact runs
  | @closed text calls _ _ runs fetches =>
    have hno : .execute sql ∉ calls := fun hm => nomatch fetches _ hm
    obtain rfl : sql = text := by simpa [hno] using (mem_callsOn.mp hc).2
    exact runs
  | @table text calls _ runs whole others =>
    have hno : .execute sql ∉ calls := fun hm => others _ hm sql rfl
    obtain rfl : sql = text := by simpa [hno] using (mem_callsOn.mp hc).2
    exact runs

/-- Every call is made for a request, and each text that is executed for one is
its query, accepted by the guard and wrapped; for a request that is not allowed
nothing is called at all. -/
theorem executes_checked (he : e.revalidate = true) (script : List Reply)
    (requests : List Request) :
    let j := Journal.keep e script requests
    j.work = (Workbench.ofScript script).run e requests ∧
      j.work.session.trace = j.entries.flatMap Entry.calls ∧
      (∀ entry ∈ j.entries, entry.calls ≠ [] → ∃ k < requests.length, entry.owner = some k) ∧
      ∀ k r, requests[k]? = some r →
        (∀ n sql, (n, .execute sql) ∈ j.calls k → ∃ q a, r.asked? = some (some q, a) ∧
          (e.guard.validate (some q)).1 = none ∧ Sql.wrap (some q) (e.limited a) = .ok sql) ∧
        ∀ query a, r.asked? = some (query, a) → ¬ e.Allows query a → j.calls k = [] := by
  intro j
  obtain ⟨state, holder, hs⟩ := Journal.sound_keep e script requests
  have hlen : j.entries.length = requests.length := by
    rw [← Journal.keep_requests e script requests, List.length_map]
  refine ⟨Journal.keep_work e script requests, hs.trace, fun entry hmem hc => ?_,
    fun k r hr => ⟨fun n sql hc => ?_, fun query a hasked hno => ?_⟩⟩
  · obtain ⟨call, hcall⟩ := List.exists_mem_of_ne_nil _ hc
    have ho := (hs.held entry hmem call hcall).1
    exact ⟨_, hlen ▸ hs.owned entry hmem _ ho, ho⟩
  · have ha := hs.account k r ((Journal.keep_request? ..).trans hr)
    obtain ⟨query, a, hasked, hp⟩ := ha.executes hc
    obtain ⟨hv, hw⟩ := (e.prepare_eq he query a).mp hp
    obtain ⟨q, rfl⟩ := Sql.Guard.validate_text hv
    exact ⟨q, a, hasked, hv, hw⟩
  · have ha := hs.account k r ((Journal.keep_request? ..).trans hr)
    by_contra hc
    obtain ⟨sql, query', a', hasked', hp⟩ := ha.runs hc
    obtain ⟨rfl, rfl⟩ := Prod.mk.inj (Option.some.inj (hasked.symm.trans hasked'))
    exact hno (Executor.runs_allowed he hp)

/-- Two streams side by side, of which the guard rejects the second. -/
def dropBeside : List Request :=
  [.start "rows" (some "SELECT 1") ⟨some (.rows 2), none, some "ASC"⟩ 500,
    .start "drop" (some "DROP TABLE t") ⟨none, none, some "ASC"⟩ 500, .next "drop", .next "rows"]

theorem executes_checked_beside :
    ({} : Executor).revalidate = true ∧
      (0, .execute "SELECT `t`.* FROM (SELECT 1\n) AS `t` LIMIT 2") ∈
        (Journal.keep {} [] dropBeside).calls 0 ∧
      (∃ q a, (Request.asked? dropBeside[0]) = some (some q, a) ∧
        Sql.wrap (some q) (({} : Executor).limited a) =
          .ok "SELECT `t`.* FROM (SELECT 1\n) AS `t` LIMIT 2") ∧
      (Journal.keep {} [] dropBeside).calls 1 = [] := by
  obtain ⟨-, -, -, h⟩ := executes_checked (e := {}) rfl [] dropBeside
  have hrun : (0, .execute "SELECT `t`.* FROM (SELECT 1\n) AS `t` LIMIT 2") ∈
      (Journal.keep {} [] dropBeside).calls 0 := by decide +kernel
  obtain ⟨q, a, ha, -, hw⟩ := (h 0 _ rfl).1 0 _ hrun
  refine ⟨rfl, hrun, ⟨q, a, ha, hw⟩, (h 1 _ rfl).2 _ _ rfl fun hallow => ?_⟩
  exact absurd hallow.1 (by decide +kernel)

end SafeReports.Engine
