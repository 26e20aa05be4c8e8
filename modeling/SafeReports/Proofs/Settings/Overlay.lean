import SafeReports.Proofs.Construction
import SafeReports.Proofs.Json.Written
import SafeReports.Settings.Overlay

/-!
# User settings over the defaults

Of a name that both files give the user's value counts, and of one that a file gives
more than once the last. Only what counts is checked: the configuration has these
values, or the faults are theirs. This holds however values of other kinds are
converted, and however deep the files may be nested.
-/

namespace SafeReports

-- ---------------------------------------------------------------------------
-- What a configuration takes
-- ---------------------------------------------------------------------------

/-- The value of a setting: the default one, or what is given as it reads. -/
inductive Reading.Settles (read : FieldValue → Reading α) (absent : α) : Option Json → α → Prop
  | absent : Settles read absent none absent
  | given (h : read (.given j) = .ok a) : Settles read absent (some j) a

theorem Reading.settles_of_optional {read : FieldValue → Reading α} {given : Option Json}
    (h : optional (given.map .given) absent read = .ok a) : Settles read absent given a := by
  cases given with
  | none =>
    obtain rfl := Except.ok.inj h
    exact .absent
  | some j => exact .given h

namespace Config

open Reading (Settles positive settles_of_optional)

/-- A configuration of what is given: its settings, and everything else as it is. -/
structure Takes (conv : Conversions) (given : String → Option Json) (c : Config) : Prop where
  appName : Settles conv.text "custom-report-suite" (given "app_name") c.appName
  version : Settles conv.text "0.1.0" (given "version") c.version
  reportsEnabled : Settles conv.truthValue true (given "reports_enabled") c.reportsEnabled
  maxQueryLength : Settles (positive conv) 65536 (given "max_query_length") c.maxQueryLength
  previewLength : Settles (positive conv) 100 (given "preview_length") c.previewLength
  defaultRowLimit : Settles (positive conv) 1000 (given "default_row_limit") c.defaultRowLimit
  checkExecutionOnSave :
    Settles conv.truthValue true (given "check_execution_on_save") c.checkExecutionOnSave
  extras : ∀ name, c.extras.lookup name = if name ∈ fieldNames then none else given name
  names : (c.extras.map Prod.fst).Nodup

/-- The faults of what is given under each name, in the order of the settings. -/
def errors (conv : Conversions) (given : String → Option Json) : List FieldError :=
  (fields conv).flatMap fun f => f.errors ((given f.name).map .given)

theorem errors_eq_nil_iff : errors conv given = [] ↔
    ∀ f ∈ fields conv, ∃ a, f.reading ((given f.name).map .given) = .ok a := by
  simp only [errors, List.flatMap_eq_nil_iff, Field.errors, Reading.errors_eq_nil_iff]

theorem lookup_extras (members : Json.Members) (name : String) :
    (members.filter isExtra).lookup name =
      if name ∈ fieldNames then none else members.lookup name := by
  induction members with
  | nil => exact (ite_self none).symm
  | cons m members ih =>
    obtain ⟨key, value⟩ := m
    have extra : isExtra (key, value) = true ↔ key ∉ fieldNames := by simp [isExtra]
    rw [List.filter_cons, Json.lookup_cons]
    split
    · rename_i hkey
      rw [Json.lookup_cons, ih]
      split
      · rename_i hn
        rw [if_neg (hn ▸ extra.mp hkey)]
      · rfl
    · rename_i hkey
      rw [ih]
      split
      · rfl
      · rename_i hn
        rw [if_neg]
        rintro rfl
        exact hkey (extra.mpr hn)

theorem IsBuilder.takes {make : Json.Members → Except (List FieldError) Config}
    (builder : IsBuilder conv make) {given : String → Option Json} {merged : Json.Members}
    {c : Config} (h : make merged = .ok c) (gives : ∀ name, merged.lookup name = given name)
    (once : (merged.map Prod.fst).Nodup) : c.Takes conv given := by
  have values := (builder.constructs merged).values c h
  simp only [fields, List.forall_mem_cons, gives] at values
  obtain ⟨hname, hversion, henabled, hmax, hpreview, hrows, hcheck, -⟩ := values
  have extras := builder.extras merged c h
  exact {
    appName := settles_of_optional hname
    version := settles_of_optional hversion
    reportsEnabled := settles_of_optional henabled
    maxQueryLength := settles_of_optional hmax
    previewLength := settles_of_optional hpreview
    defaultRowLimit := settles_of_optional hrows
    checkExecutionOnSave := settles_of_optional hcheck
    extras := fun name => by rw [extras, lookup_extras, gives]
    names := extras ▸ once.sublist (List.filter_sublist.map Prod.fst) }

end Config

-- ---------------------------------------------------------------------------
-- Both files
-- ---------------------------------------------------------------------------

namespace Settings

open Json (Members membersOf putAll)

/-- What a file holds if there is one: an object of these members, as they stand there. -/
def Holds (depth : Nat) (members : Members) : Option String → Prop
  | none => members = []
  | some text => membersOf depth text = .ok members

/-- What counts of all that the files give under a name. -/
def given (base user : Members) (name : String) : Option Json :=
  (user.reverse.lookup name).or (base.reverse.lookup name)

section
variable {build : Members → Except (List FieldError) Config} {depth : Nat} {text : String}
  {base user : Members} {file : Option String}

theorem parseFile_of_membersOf (h : membersOf depth text = .ok base) :
    parseFile depth text = .ok (.obj (putAll [] base)) := by
  rw [parseFile, (Json.read_eq_obj_iff depth text).mpr ⟨base, h, rfl⟩]

theorem load_merged (build : Members → Except (List FieldError) Config) (path : String)
    (hbase : membersOf depth text = .ok base) (huser : Holds depth user file) :
    ∃ members : Members, (members.map Prod.fst).Nodup ∧
      (∀ name, members.lookup name = given base user name) ∧
      loadWith build depth path (some text) file =
        match build members with
        | .ok c => .ok c
        | .error errors => .error (.invalid errors) := by
  cases file with
  | none =>
    obtain rfl : user = [] := huser
    refine ⟨putAll [] base, Json.nodup_putAll_nil base,
      fun name => (Json.isDict_putAll base).values name, ?_⟩
    simp only [loadWith, parseFile_of_membersOf hbase]
    rfl
  | some userText =>
    refine ⟨putAll (putAll [] base) (putAll [] user),
      Json.nodup_putAll (Json.nodup_putAll_nil base) _, Json.lookup_putAll_putAll base user, ?_⟩
    simp only [loadWith, parseFile_of_membersOf hbase, parseFile_of_membersOf huser]
    rfl

/-- The configuration of two files is that of what counts in them, or has its faults. -/
theorem load_overlay {conv : Conversions} (builder : Config.IsBuilder conv build) (path : String)
    (hbase : membersOf depth text = .ok base) (huser : Holds depth user file) :
    ((∃ c, loadWith build depth path (some text) file = .ok c) ↔
        ∀ f ∈ Config.fields conv, ∃ a, f.reading ((given base user f.name).map .given) = .ok a) ∧
      (∀ c, loadWith build depth path (some text) file = .ok c →
        c.Takes conv (given base user)) ∧
      ∀ e, loadWith build depth path (some text) file = .error e →
        e = .invalid (Config.errors conv (given base user)) := by
  obtain ⟨members, once, gives, hload⟩ := load_merged build path hbase huser
  have constructs := builder.constructs members
  simp only [gives] at constructs
  rw [hload, ← constructs.ok_iff]
  cases h : build members with
  | ok c =>
    refine ⟨iff_of_true ⟨c, rfl⟩ ⟨c, rfl⟩, fun c' hc => ?_, nofun⟩
    obtain rfl := Except.ok.inj hc
    exact builder.takes h gives once
  | error faults =>
    obtain ⟨rfl, -⟩ := constructs.faults faults h
    refine ⟨iff_of_false nofun nofun, nofun, fun e he => ?_⟩
    exact (Except.error.inj he).symm

end

def unlimited : Members :=
  [("max_query_length", .str "0"), ("theme", .str "light"), ("theme", .str "dark")]

def limited : Members :=
  [("max_query_length", .str "none"), ("max_query_length", .str "5_000")]

def unlimitedFile : String := Json.write (.obj unlimited)

def limitedFile : String := Json.write (.obj limited)

/-- A limit that is none is no fault of the defaults if the user has another, and one
of the user whatever the defaults have. -/
theorem load_overlay_limited :
    Config.IsBuilder .lax Config.ofMembers ∧
      membersOf Json.maxDepth unlimitedFile = .ok unlimited ∧
      membersOf Json.maxDepth limitedFile = .ok limited ∧
      (∃ c, load "default.json" (some unlimitedFile) (some limitedFile) = .ok c ∧
        c.maxQueryLength = 5000 ∧ c.extras.lookup "theme" = some (.str "dark")) ∧
      load "default.json" (some limitedFile) (some unlimitedFile) =
        .error (.invalid [⟨"max_query_length", .notPositive⟩]) := by
  have builder : Config.IsBuilder .lax Config.ofMembers := Config.isBuilder_build .lax
  have hunlimited : membersOf Json.maxDepth unlimitedFile = .ok unlimited := by cbv
  have hlimited : membersOf Json.maxDepth limitedFile = .ok limited := by cbv
  refine ⟨builder, hunlimited, hlimited, ?_, ?_⟩
  · have huser : Holds Json.maxDepth limited (some limitedFile) := hlimited
    obtain ⟨ok, takes, -⟩ := load_overlay builder "default.json" hunlimited huser
    have none : Config.errors .lax (given unlimited limited) = [] := by decide +kernel
    obtain ⟨c, hc⟩ := ok.mpr (Config.errors_eq_nil_iff.mp none)
    refine ⟨c, hc, ?_, (takes c hc).extras "theme"⟩
    have settles := (takes c hc).maxQueryLength
    generalize c.maxQueryLength = n at settles ⊢
    cases settles with
    | given h =>
      have reads : Reading.positive .lax (.given (.str "5_000")) = .ok 5000 := by rfl
      exact Except.ok.inj (h.symm.trans reads)
  · have huser : Holds Json.maxDepth unlimited (some unlimitedFile) := hunlimited
    obtain ⟨ok, -, faulty⟩ := load_overlay builder "default.json" hlimited huser
    have one : Config.errors .lax (given limited unlimited) =
        [⟨"max_query_length", .notPositive⟩] := by
      decide +kernel
    cases h : load "default.json" (some limitedFile) (some unlimitedFile) with
    | ok c =>
      have none := Config.errors_eq_nil_iff.mpr (ok.mp ⟨c, h⟩)
      rw [one] at none
      cases none
    | error e => rw [faulty e h, one]

end Settings

end SafeReports
