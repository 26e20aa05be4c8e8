import SafeReports.Proofs.Text.Squeeze
import SafeReports.Report.Definition
import SafeReports.Settings.Config
import SafeReports.Timestamp.RoundTrip

/-!
# Construction of models

A model declares its fields: how each is read, what it is when nothing is given, and
where its value goes. Constructing one either gives every field the value it reads or
reports each field that reads none. How values of other kinds are converted is left
open; the models check what comes of it.
-/

namespace SafeReports

theorem bind_eq_ok {ε α β : Type} {x : Except ε α} {f : α → Except ε β} {b : β} :
    x >>= f = .ok b ↔ ∃ a, x = .ok a ∧ f a = .ok b := by
  cases x with
  | ok a => exact ⟨fun h => ⟨a, rfl, h⟩, fun ⟨_, ha, h⟩ => Except.ok.inj ha ▸ h⟩
  | error e => exact iff_of_false nofun nofun

theorem Reading.errors_eq_nil_iff {r : Reading α} {field : String} :
    r.errors field = [] ↔ ∃ a, r = .ok a := by
  cases r with
  | ok a => exact iff_of_true rfl ⟨a, rfl⟩
  | error fault => exact iff_of_false nofun nofun

-- ---------------------------------------------------------------------------
-- Fields
-- ---------------------------------------------------------------------------

/-- A field of a model. -/
structure Field (M : Type) where
  {α : Type}
  name : String
  read : FieldValue → Reading α
  absent : Reading α
  get : M → α

namespace Field

variable {M : Type}

def reading (f : Field M) (given : Option FieldValue) : Reading f.α := given.elim f.absent f.read

def errors (f : Field M) (given : Option FieldValue) : List FieldError :=
  (f.reading given).errors f.name

end Field

/-- What is constructed of these fields: a model with the value that each of them
reads, or the errors of those that read none, in their order. -/
structure Constructs (fields : List (Field M)) (given : String → Option FieldValue)
    (result : Except (List FieldError) M) : Prop where
  values : ∀ m, result = .ok m → ∀ f ∈ fields, f.reading (given f.name) = .ok (f.get m)
  faults : ∀ errors, result = .error errors →
    errors = fields.flatMap (fun f => f.errors (given f.name)) ∧ errors ≠ []

namespace Constructs

variable {M : Type} {fields : List (Field M)} {given : String → Option FieldValue}
  {result : Except (List FieldError) M}

theorem ok_iff (h : Constructs fields given result) :
    (∃ m, result = .ok m) ↔ ∀ f ∈ fields, ∃ a, f.reading (given f.name) = .ok a := by
  cases result with
  | ok m => exact iff_of_true ⟨m, rfl⟩ fun f hf => ⟨_, h.values m rfl f hf⟩
  | error errors =>
    obtain ⟨rfl, some⟩ := h.faults errors rfl
    refine iff_of_false nofun fun reads => some ?_
    exact List.flatMap_eq_nil_iff.mpr fun f hf => Reading.errors_eq_nil_iff.mpr (reads f hf)

/-- A model is constructed of values that read as its own. -/
theorem exists_of_reads (h : Constructs fields given result) (m : M)
    (reads : ∀ f ∈ fields, f.reading (given f.name) = .ok (f.get m)) :
    ∃ m', result = .ok m' ∧ ∀ f ∈ fields, f.get m' = f.get m := by
  obtain ⟨m', hm⟩ := h.ok_iff.mpr fun f hf => ⟨_, reads f hf⟩
  exact ⟨m', hm, fun f hf => Except.ok.inj ((h.values m' hm f hf).symm.trans (reads f hf))⟩

end Constructs

-- ---------------------------------------------------------------------------
-- Conversions
-- ---------------------------------------------------------------------------

/-- A value of the kind of a field is taken as it is, a moment also from its text. -/
structure Conversions.IsFaithful (conv : Conversions) : Prop where
  text : ∀ s, conv.text (.given (.str s)) = .ok s
  integer : ∀ n, conv.integer (.given (.int n)) = .ok n
  truthValue : ∀ b, conv.truthValue (.given (.bool b)) = .ok b
  moment : ∀ t, conv.moment (.moment t) = .ok t
  momentText : ∀ t : Timestamp, conv.moment (.given (.str t.text)) = .ok t

theorem Conversions.lax_isFaithful : lax.IsFaithful where
  text _ := rfl
  integer _ := rfl
  truthValue _ := rfl
  moment _ := rfl
  momentText t := by
    have h := Timestamp.ofText?_text t
    rw [Timestamp.ofText?] at h
    simp only [lax, Reading.moment, Reading.momentOfText, h]

section
variable {conv : Conversions}

theorem Reading.positive_ok_iff {v : FieldValue} {n : Int} :
    positive conv v = .ok n ↔ conv.integer v = .ok n ∧ 0 < n := by
  rw [positive, bind_eq_ok]
  constructor
  · rintro ⟨m, hm, h⟩
    split at h
    · cases h
    · rename_i hn
      obtain rfl := Except.ok.inj h
      exact ⟨hm, Int.not_le.mp hn⟩
  · rintro ⟨hm, hn⟩
    exact ⟨n, hm, if_neg (Int.not_le.mpr hn)⟩

theorem Reading.optional_positive {given : Option FieldValue} {absent n : Int}
    (h : optional given absent (positive conv) = .ok n) (default : 0 < absent) : 0 < n := by
  cases given with
  | none =>
    obtain rfl := Except.ok.inj h
    exact default
  | some v => exact (positive_ok_iff.mp h).2

end

-- ---------------------------------------------------------------------------
-- Configurations
-- ---------------------------------------------------------------------------

namespace Config

/-- The settings in their order. -/
def fields (conv : Conversions) : List (Field Config) := [
  ⟨"app_name", conv.text, .ok "custom-report-suite", appName⟩,
  ⟨"version", conv.text, .ok "0.1.0", version⟩,
  ⟨"reports_enabled", conv.truthValue, .ok true, reportsEnabled⟩,
  ⟨"max_query_length", Reading.positive conv, .ok 65536, maxQueryLength⟩,
  ⟨"preview_length", Reading.positive conv, .ok 100, previewLength⟩,
  ⟨"default_row_limit", Reading.positive conv, .ok 1000, defaultRowLimit⟩,
  ⟨"check_execution_on_save", conv.truthValue, .ok true, checkExecutionOnSave⟩]

/-- Configurations are constructed of the settings that members give, and all other
members are kept as they are. -/
structure IsBuilder (conv : Conversions) (build : Json.Members → Except (List FieldError) Config) :
    Prop where
  constructs : ∀ members, Constructs (fields conv)
    (fun name => (members.lookup name).map .given) (build members)
  extras : ∀ members c, build members = .ok c → c.extras = members.filter isExtra

theorem isBuilder_build (conv : Conversions) : IsBuilder conv (build conv) where
  constructs members := by
    refine ⟨fun c h => ?_, fun errors h => ?_⟩
    · simp only [build] at h
      split at h
      · rename_i hname hversion henabled hmax hpreview hrows hcheck
        obtain rfl := Except.ok.inj h
        simp only [fields, List.forall_mem_cons]
        exact ⟨hname, hversion, henabled, hmax, hpreview, hrows, hcheck, List.forall_mem_nil _⟩
      · cases h
    · simp only [build] at h
      split at h
      · cases h
      · rename_i hno
        obtain rfl := Except.error.inj h
        refine ⟨by simp [fields, Field.errors, Field.reading, Reading.optional, Json.find?],
          fun hnil => ?_⟩
        simp only [List.append_eq_nil_iff, Reading.errors_eq_nil_iff] at hnil
        obtain ⟨⟨⟨⟨⟨⟨⟨_, ha⟩, ⟨_, hv⟩⟩, ⟨_, hr⟩⟩, ⟨_, hm⟩⟩, ⟨_, hp⟩⟩, ⟨_, hl⟩⟩, ⟨_, hc⟩⟩ := hnil
        exact hno _ _ _ _ _ _ _ ha hv hr hm hp hl hc
  extras members c h := by
    simp only [build] at h
    split at h
    · obtain rfl := Except.ok.inj h
      rfl
    · cases h

/-- The limits of a configuration are positive numbers. -/
structure IsLimited (c : Config) : Prop where
  maxQueryLength : 0 < c.maxQueryLength
  previewLength : 0 < c.previewLength
  defaultRowLimit : 0 < c.defaultRowLimit

theorem IsBuilder.isLimited {make : Json.Members → Except (List FieldError) Config}
    (builder : IsBuilder conv make) {given : Json.Members} {c : Config} (h : make given = .ok c) :
    c.IsLimited := by
  have values := (builder.constructs given).values c h
  simp only [fields, List.forall_mem_cons] at values
  obtain ⟨-, -, -, hmax, hpreview, hrows, -, -⟩ := values
  exact ⟨Reading.optional_positive hmax (by decide), Reading.optional_positive hpreview (by decide),
    Reading.optional_positive hrows (by decide)⟩

end Config

-- ---------------------------------------------------------------------------
-- Reports
-- ---------------------------------------------------------------------------

namespace Report

/-- The fields of a report in their order. -/
def fields (conv : Conversions) : List (Field Report) := [
  ⟨"report_id", Reading.nullable conv.integer, .ok none, id⟩,
  ⟨"report_name", readName conv, .error .missing, name⟩,
  ⟨"query_definition", conv.text, .error .missing, query⟩,
  ⟨"created_at", Reading.nullable conv.moment, .ok none, createdAt⟩,
  ⟨"updated_at", Reading.nullable conv.moment, .ok none, updatedAt⟩]

/-- Reports are constructed of what is given under the names of their fields. -/
def IsBuilder (conv : Conversions)
    (build : (String → Option FieldValue) → Except (List FieldError) Report) : Prop :=
  ∀ given, Constructs (fields conv) given (build given)

theorem isBuilder_build (conv : Conversions) : IsBuilder conv (build conv) := by
  refine fun given => ⟨fun r h => ?_, fun errors h => ?_⟩
  · simp only [build] at h
    split at h
    · rename_i hid hname hquery hcreated hupdated
      obtain rfl := Except.ok.inj h
      simp only [fields, List.forall_mem_cons]
      exact ⟨hid, hname, hquery, hcreated, hupdated, List.forall_mem_nil _⟩
    · cases h
  · simp only [build] at h
    split at h
    · cases h
    · rename_i hno
      obtain rfl := Except.error.inj h
      refine ⟨by simp [fields, Field.errors, Field.reading, Reading.optional, Reading.required],
        fun hnil => ?_⟩
      simp only [List.append_eq_nil_iff, Reading.errors_eq_nil_iff] at hnil
      obtain ⟨⟨⟨⟨⟨_, hi⟩, ⟨_, hn⟩⟩, ⟨_, hq⟩⟩, ⟨_, hc⟩⟩, ⟨_, hu⟩⟩ := hnil
      exact hno _ _ _ _ _ hi hn hq hc hu

theorem trimName_trimName (s : String) : trimName (trimName s) = trimName s := by
  simp only [trimName, String.toList_ofList, Text.strip_strip]

theorem readName_ok_iff {conv : Conversions} {n : String} : readName conv v = .ok n ↔
    ∃ s, conv.text v = .ok s ∧ trimName s = n ∧ n ≠ "" := by
  rw [readName, bind_eq_ok]
  refine exists_congr fun s => and_congr_right fun _ => ?_
  constructor
  · intro h
    dsimp only at h
    split at h
    · cases h
    · rename_i notBlank
      obtain rfl := Except.ok.inj h
      exact ⟨rfl, notBlank⟩
  · rintro ⟨rfl, notBlank⟩
    exact if_neg notBlank

theorem IsBuilder.name
    {make : (String → Option FieldValue) → Except (List FieldError) Report}
    (builder : IsBuilder conv make) {given : String → Option FieldValue} {r : Report}
    (h : make given = .ok r) : trimName r.name = r.name ∧ r.name ≠ "" := by
  have values := (builder given).values r h
  simp only [fields, List.forall_mem_cons] at values
  obtain ⟨-, hname, -⟩ := values
  simp only [Field.reading] at hname
  cases hg : given "report_name" with
  | none =>
    rw [hg] at hname
    cases hname
  | some v =>
    rw [hg] at hname
    obtain ⟨s, -, hs, notBlank⟩ := readName_ok_iff.mp hname
    exact ⟨by rw [← hs, trimName_trimName], notBlank⟩

end Report

end SafeReports
