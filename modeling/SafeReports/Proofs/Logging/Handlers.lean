import SafeReports.Logging.Root

/-!
# Handlers of a log

A handler knows its log by the path from the top without `..`, and whoever sets the log up
looks for that path as they wrote theirs. So a further call for a log does without another
handler only if its directory is written in that way.
-/

namespace SafeReports

-- ---------------------------------------------------------------------------
-- Paths without `..`
-- ---------------------------------------------------------------------------

namespace FilePath

theorem up_not_mem_step {p : FilePath} (h : ".." ∉ p) (component : String) :
    ".." ∉ p.step component := by
  rw [step]
  split
  · exact fun hm => h (List.dropLast_subset p hm)
  · next hc => simpa [h] using Ne.symm hc

theorem up_not_mem_foldl (p : FilePath) {start : FilePath} (h : ".." ∉ start) :
    ".." ∉ p.foldl step start := by
  induction p generalizing start with
  | nil => exact h
  | cons c p ih => exact ih (up_not_mem_step h c)

theorem up_not_mem_normal (p : FilePath) : ".." ∉ p.normal :=
  up_not_mem_foldl p List.not_mem_nil

theorem foldl_step_of_not_mem {p : FilePath} (h : ".." ∉ p) (start : FilePath) :
    p.foldl step start = start ++ p := by
  induction p generalizing start with
  | nil => simp
  | cons c p ih =>
    have hc : c ≠ ".." := fun he => h (he ▸ List.mem_cons_self)
    rw [List.foldl_cons, ih (List.not_mem_of_not_mem_cons h), step, if_neg hc]
    simp

theorem normal_of_not_mem {p : FilePath} (h : ".." ∉ p) : p.normal = p :=
  foldl_step_of_not_mem h []

end FilePath

namespace WrittenPath

/-- Written from the top and without `..`. -/
def IsPlain : WrittenPath → Prop
  | absolute p => ".." ∉ p
  | relative _ => False

instance : (w : WrittenPath) → Decidable w.IsPlain
  | absolute p => inferInstanceAs (Decidable (".." ∉ p))
  | relative _ => inferInstanceAs (Decidable False)

/-- A plain path is the one that is written as it is known. -/
theorem eq_absolute_iff (cwd : FilePath) (w : WrittenPath) {p : FilePath} (hp : ".." ∉ p) :
    absolute p = w ↔ w.IsPlain ∧ w.normal cwd = p := by
  cases w with
  | absolute q =>
    constructor
    · rintro ⟨⟩
      exact ⟨hp, FilePath.normal_of_not_mem hp⟩
    · rintro ⟨hq, rfl⟩
      rw [normal, base, components, List.nil_append, FilePath.normal_of_not_mem hq]
  | relative q => exact ⟨nofun, fun h => h.1.elim⟩

theorem isPlain_child {name : String} (hn : name ≠ "..") (w : WrittenPath) :
    (w.child name).IsPlain ↔ w.IsPlain := by
  cases w with
  | absolute p => simp [child, IsPlain, Ne.symm hn]
  | relative p => rfl

end WrittenPath

namespace Logging

-- ---------------------------------------------------------------------------
-- One call
-- ---------------------------------------------------------------------------

/-- A request for a log in a directory, and for a level. -/
structure Call where
  directory : WrittenPath
  level : Int
  deriving DecidableEq

namespace Call

def log (c : Call) : WrittenPath := c.directory.child Root.fileName

/-- The log file, by its path from the top. -/
def file (cwd : FilePath) (c : Call) : FilePath := c.log.normal cwd

theorem isPlain_log (c : Call) : c.log.IsPlain ↔ c.directory.IsPlain :=
  WrittenPath.isPlain_child (by decide) c.directory

end Call

namespace Root

/-- The logs of the handlers. -/
def paths (root : Root) : List FilePath := root.handlers.map (·.path)

/-- Whether the directory of a call can be made. -/
def makes (root : Root) (cwd : FilePath) (c : Call) : Bool :=
  (root.tree.makeDirectories (c.directory.base cwd) false c.directory.components).1.isOk

theorem path_openLog {tree next : FileTree LogText} {path : FilePath} {h : Handler}
    (opened : openLog tree path = (.ok h, next)) : h.path = path := by
  rw [openLog] at opened
  split at opened
  · cases opened
  · split at opened <;> · cases opened; rfl

/-- What a call comes to, by where it ends. -/
inductive Setup (root : Root) (cwd : FilePath) (c : Call) : Except PathError Unit × Root → Prop
  | unmade (e : PathError) (tree : FileTree LogText) (made : root.makes cwd c = false) :
    Setup root cwd c (.error e, { root with tree := tree })
  | found (tree : FileTree LogText) (made : root.makes cwd c = true)
      (known : c.log ∈ root.paths.map .absolute) :
    Setup root cwd c (.ok (), { root with tree := tree, level := c.level })
  | unopened (e : PathError) (tree : FileTree LogText) (made : root.makes cwd c = true) :
    Setup root cwd c (.error e, { root with tree := tree, level := c.level })
  | opened (h : Handler) (tree : FileTree LogText) (made : root.makes cwd c = true)
      (unknown : c.log ∉ root.paths.map .absolute) (path : h.path = c.file cwd) :
    Setup root cwd c
      (.ok (), { level := c.level, handlers := root.handlers ++ [h], tree := tree })

theorem setupIn_setup (root : Root) (cwd : FilePath) (c : Call) :
    Setup root cwd c (root.setupIn cwd c.directory c.level) := by
  have known_iff : (root.handlers.any fun h => .absolute h.path == c.log) = true ↔
      c.log ∈ root.paths.map .absolute := by
    simp [paths]
  rw [setupIn]
  split
  · next e tree h => exact .unmade e tree (by rw [makes, h]; rfl)
  · next tree h =>
    have made : root.makes cwd c = true := by rw [makes, h]; rfl
    dsimp only
    split
    · next known => exact .found tree made (known_iff.mp known)
    · next unknown =>
      split
      · next e tree _ => exact .unopened e tree made
      · next opened =>
        exact .opened _ _ made (fun hc => unknown (known_iff.mpr hc)) (path_openLog opened)

/-- A call that succeeds adds a handler unless it finds its log as it is written. -/
theorem paths_of_ok {root next : Root} {cwd : FilePath} {c : Call}
    (h : root.setupIn cwd c.directory c.level = (.ok (), next)) :
    next.paths =
      if c.log ∈ root.paths.map .absolute then root.paths else root.paths ++ [c.file cwd] := by
  have setup := h ▸ setupIn_setup root cwd c
  cases setup with
  | found tree made known => rw [if_pos known]; rfl
  | opened h tree made unknown path => rw [if_neg unknown]; simp [paths, path]

theorem paths_of_error {root next : Root} {cwd : FilePath} {c : Call} {e : PathError}
    (h : root.setupIn cwd c.directory c.level = (.error e, next)) : next.paths = root.paths := by
  have setup := h ▸ setupIn_setup root cwd c
  cases setup <;> rfl

/-- The level is set as soon as the directory is made. -/
theorem level_setupIn (root : Root) (cwd : FilePath) (c : Call) :
    (root.setupIn cwd c.directory c.level).2.level =
      if root.makes cwd c then c.level else root.level := by
  have setup := setupIn_setup root cwd c
  generalize root.setupIn cwd c.directory c.level = after at setup ⊢
  cases setup with
  | unmade _ _ made => simp [made]
  | found _ made _ | unopened _ _ made | opened _ _ made _ _ => simp [made]

end Root

-- ---------------------------------------------------------------------------
-- Calls in a row
-- ---------------------------------------------------------------------------

/-- The root, and the calls so far that succeeded. -/
structure Session where
  root : Root
  done : List Call := []

namespace Session

def call (cwd : FilePath) (s : Session) (c : Call) : Session :=
  match s.root.setupIn cwd c.directory c.level with
  | (.ok _, root) => ⟨root, s.done ++ [c]⟩
  | (.error _, root) => ⟨root, s.done⟩

def calls (cwd : FilePath) (s : Session) (cs : List Call) : Session := cs.foldl (call cwd) s

/-- Every log that was asked for has one handler, and no other has any. -/
def OneEach (cwd : FilePath) (s : Session) : Prop :=
  ∀ file, s.root.paths.count file = if file ∈ s.done.map (·.file cwd) then 1 else 0

end Session

/-- The handlers of a log for which there were these calls: one for the first of them, and
one more for each further call that is not plain. -/
def handlersFor : List Call → Nat
  | [] => 0
  | _ :: again => again.countP (fun c => ¬ c.directory.IsPlain) + 1

theorem handlersFor_concat (cs : List Call) (c : Call) :
    handlersFor (cs ++ [c]) =
      if cs ≠ [] ∧ c.directory.IsPlain then handlersFor cs else handlersFor cs + 1 := by
  cases cs with
  | nil => rfl
  | cons first again =>
    by_cases plain : c.directory.IsPlain <;> simp [handlersFor, plain]

theorem handlersFor_eq_zero {cs : List Call} : handlersFor cs = 0 ↔ cs = [] := by
  cases cs <;> simp [handlersFor]

theorem handlersFor_eq_iff (cs : List Call) :
    handlersFor cs = (if cs = [] then 0 else 1) ↔ ∀ c ∈ cs.tail, c.directory.IsPlain := by
  cases cs <;> simp [handlersFor]

/-- What the calls so far leave behind. -/
structure Session.Accounted (cwd : FilePath) (s : Session) : Prop where
  known : ∀ file ∈ s.root.paths, ".." ∉ file
  count : ∀ file, s.root.paths.count file = handlersFor (s.done.filter (·.file cwd = file))

namespace Session

variable {cwd : FilePath}

/-- A call finds its log if it is plain and another call asked for the log before. -/
theorem Accounted.found_iff {s : Session} (hs : s.Accounted cwd) (c : Call) :
    c.log ∈ s.root.paths.map .absolute ↔
      s.done.filter (·.file cwd = c.file cwd) ≠ [] ∧ c.directory.IsPlain := by
  have asked : c.file cwd ∈ s.root.paths ↔ s.done.filter (·.file cwd = c.file cwd) ≠ [] := by
    rw [← List.count_pos_iff, hs.count, Nat.pos_iff_ne_zero, ne_eq, handlersFor_eq_zero]
  rw [← asked, ← c.isPlain_log, List.mem_map]
  constructor
  · rintro ⟨p, hp, hw⟩
    obtain ⟨plain, rfl⟩ := (c.log.eq_absolute_iff cwd (hs.known p hp)).mp hw
    exact ⟨hp, plain⟩
  · rintro ⟨hp, plain⟩
    exact ⟨_, hp, (c.log.eq_absolute_iff cwd (hs.known _ hp)).mpr ⟨plain, rfl⟩⟩

theorem Accounted.call {s : Session} (hs : s.Accounted cwd) (c : Call) :
    (s.call cwd c).Accounted cwd := by
  rw [Session.call]
  split
  · next root h =>
    have paths := Root.paths_of_ok h
    simp only [hs.found_iff c] at paths
    refine ⟨fun file hf => ?_, fun file => ?_⟩
    · rw [paths] at hf
      split at hf
      · exact hs.known file hf
      · rcases List.mem_append.mp hf with old | new
        · exact hs.known file old
        · exact List.mem_singleton.mp new ▸ FilePath.up_not_mem_normal _
    · rw [List.filter_append, paths]
      by_cases same : c.file cwd = file
      · subst same
        rw [List.filter_cons_of_pos (by simp), List.filter_nil, handlersFor_concat, ← hs.count]
        split <;> simp
      · rw [List.filter_cons_of_neg (by simpa using same), List.filter_nil, List.append_nil,
          ← hs.count]
        split <;> simp [same]
  · next root h =>
    have paths := Root.paths_of_error h
    exact ⟨paths ▸ hs.known, paths ▸ hs.count⟩

theorem Accounted.calls {s : Session} (hs : s.Accounted cwd) (cs : List Call) :
    (s.calls cwd cs).Accounted cwd := by
  induction cs generalizing s with
  | nil => exact hs
  | cons c cs ih => exact ih (hs.call c)

theorem Accounted.oneEach_iff {s : Session} (hs : s.Accounted cwd) :
    s.OneEach cwd ↔
      s.done.Pairwise fun b c => b.file cwd = c.file cwd → c.directory.IsPlain := by
  have each (file : FilePath) :
      (s.root.paths.count file = if file ∈ s.done.map (·.file cwd) then 1 else 0) ↔
        ∀ c ∈ (s.done.filter (·.file cwd = file)).tail, c.directory.IsPlain := by
    have none : s.done.filter (·.file cwd = file) = [] ↔ file ∉ s.done.map (·.file cwd) := by
      simp
    rw [← handlersFor_eq_iff, hs.count, ← ite_not]
    simp only [none]
  constructor
  · intro one
    refine List.pairwise_iff_forall_sublist.mpr fun {b c} sub same => ?_
    let asked (b : Call) : Bool := b.file cwd = c.file cwd
    have both : [b, c].filter asked = [b, c] := by simp [asked, same]
    have pair := (both ▸ sub.filter asked).tail
    exact (each _).mp (one _) c (List.singleton_sublist.mp pair)
  · intro plain file
    refine (each file).mpr fun c hc => ?_
    have of := plain.filter (·.file cwd = file)
    have asked : ∀ b ∈ s.done.filter (·.file cwd = file), b.file cwd = file := by
      simp only [List.mem_filter, decide_eq_true_eq, and_imp, imp_self, implies_true]
    cases calls : s.done.filter (·.file cwd = file) with
    | nil => rw [calls] at hc; cases hc
    | cons b again =>
      rw [calls] at hc of asked
      exact List.rel_of_pairwise_cons of hc
        ((asked b List.mem_cons_self).trans (asked c (List.mem_cons_of_mem b hc)).symm)

/-- After any calls, a log has one handler for the first call that asked for it and succeeded,
and one more for each later one that was not plain. So every log has one handler if and only
if each call for a log that was asked for before was plain. The level is that of the last call
that could make its directory. -/
theorem one_handler_each_iff (cwd : FilePath) (level : Int) (tree : FileTree LogText)
    (cs : List Call) :
    let s := Session.calls cwd ⟨{ level := level, tree := tree }, []⟩ cs
    (∀ file, s.root.paths.count file = handlersFor (s.done.filter (·.file cwd = file))) ∧
      (s.OneEach cwd ↔
        s.done.Pairwise fun b c => b.file cwd = c.file cwd → c.directory.IsPlain) ∧
      ∀ c, (s.call cwd c).root.level = if s.root.makes cwd c then c.level else s.root.level := by
  have start : Accounted cwd ⟨{ level := level, tree := tree }, []⟩ := ⟨nofun, fun _ => rfl⟩
  refine ⟨(start.calls cs).count, (start.calls cs).oneEach_iff, fun c => ?_⟩
  rw [← Root.level_setupIn, Session.call]
  split <;> next h => rw [h]

/-- Two calls for one log, the second with a detour. -/
theorem second_handler :
    let s := Session.calls [] ⟨{}, []⟩
      [⟨.absolute ["a"], LogRecord.infoLevel⟩, ⟨.absolute ["a", "..", "a"], LogRecord.infoLevel⟩]
    s.done.map (·.file []) = [["a", "reports.log"], ["a", "reports.log"]] ∧
      s.root.paths = [["a", "reports.log"], ["a", "reports.log"]] ∧ ¬ s.OneEach [] := by
  refine ⟨by decide +kernel, by decide +kernel, fun one => ?_⟩
  exact absurd (one ["a", "reports.log"]) (by decide +kernel)

/-- Below the working directory it takes no detour: any second call adds a handler. -/
example :
    let c : Call := ⟨.relative ["logs"], LogRecord.infoLevel⟩
    (Session.calls ["home"] ⟨{}, []⟩ [c, c]).root.paths =
      [["home", "logs", "reports.log"], ["home", "logs", "reports.log"]] := by
  decide +kernel

end Session

end Logging

end SafeReports
