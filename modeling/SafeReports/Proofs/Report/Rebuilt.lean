import SafeReports.Proofs.Construction

/-!
# Built again from their own values

The values of a configuration or a report stand for themselves: built again from them,
whatever they were read from before, it comes out the same. A report may be given its
times as they are or as texts. Of the conversions this asks no more than that they take
a value of the right kind as it is.
-/

namespace SafeReports

open Text

variable {conv : Conversions}

-- ---------------------------------------------------------------------------
-- Configurations
-- ---------------------------------------------------------------------------

theorem Reading.positive_own (faithful : conv.IsFaithful) {n : Int} (h : 0 < n) :
    positive conv (.given (.int n)) = .ok n :=
  positive_ok_iff.mpr ⟨faithful.integer n, h⟩

namespace Config

theorem filter_members {c : Config} (h : ∀ m ∈ c.extras, isExtra m = true) :
    c.members.filter isExtra = c.extras := by
  rw [members, List.filter_append, List.filter_eq_self.mpr h]
  rfl

variable {make : Json.Members → Except (List FieldError) Config}

/-- Only members that are no settings are kept as extras. -/
theorem IsBuilder.isExtra (builder : IsBuilder conv make) {given : Json.Members} {c : Config}
    (h : make given = .ok c) : ∀ m ∈ c.extras, Config.isExtra m = true := by
  rw [builder.extras given c h]
  exact fun m hm => (List.mem_filter.mp hm).2

theorem IsBuilder.make_members (builder : IsBuilder conv make) (faithful : conv.IsFaithful)
    {c : Config} (limited : c.IsLimited) (extra : ∀ m ∈ c.extras, Config.isExtra m = true) :
    make c.members = .ok c := by
  have reads : ∀ f ∈ fields conv,
      f.reading ((c.members.lookup f.name).map .given) = .ok (f.get c) := by
    simp only [fields, List.forall_mem_cons]
    exact ⟨faithful.text _, faithful.text _, faithful.truthValue _,
      Reading.positive_own faithful limited.maxQueryLength,
      Reading.positive_own faithful limited.previewLength,
      Reading.positive_own faithful limited.defaultRowLimit, faithful.truthValue _,
      List.forall_mem_nil _⟩
  obtain ⟨c', hc, same⟩ := (builder.constructs c.members).exists_of_reads c reads
  have extras : c'.extras = c.extras := (builder.extras _ c' hc).trans (filter_members extra)
  simp only [fields, List.forall_mem_cons] at same
  obtain ⟨hname, hversion, henabled, hmax, hpreview, hrows, hcheck, -⟩ := same
  rw [hc, Config.ext hname hversion henabled hmax hpreview hrows hcheck extras]

end Config

-- ---------------------------------------------------------------------------
-- Reports
-- ---------------------------------------------------------------------------

namespace Report

theorem solid_of_trimmed {name : String} (trimmed : trimName name = name) (notBlank : name ≠ "") :
    Solid name.toList := by
  have hs : strip name.toList = name.toList := by
    rw [← congrArg String.toList trimmed, trimName, String.toList_ofList, strip_strip]
  refine hs ▸ (strip_nil_or_solid name.toList).resolve_left ?_
  rw [hs]
  simpa using notBlank

section
variable (faithful : conv.IsFaithful)
include faithful

theorem readName_own {name : String} (trimmed : trimName name = name) (notBlank : name ≠ "") :
    readName conv (.given (.str name)) = .ok name :=
  readName_ok_iff.mpr ⟨name, faithful.text name, trimmed, notBlank⟩

theorem readId_own (id : Option Int) :
    Reading.nullable conv.integer (.given ((id.map Json.int).getD .null)) = .ok id := by
  cases id with
  | none => rfl
  | some i => exact congrArg (Except.map some) (faithful.integer i)

theorem readTime_own (time : Option Timestamp) :
    Reading.nullable conv.moment (.ofMoment time) = .ok time := by
  cases time with
  | none => rfl
  | some t => exact congrArg (Except.map some) (faithful.moment t)

theorem readTime_text (time : Option Timestamp) :
    Reading.nullable conv.moment (.given (FieldValue.ofMoment time).toJson) = .ok time := by
  cases time with
  | none => rfl
  | some t => exact congrArg (Except.map some) (faithful.momentText t)

end

variable {make : (String → Option FieldValue) → Except (List FieldError) Report}
  {given : String → Option FieldValue} {r : Report}

theorem IsBuilder.make_of_reads (builder : IsBuilder conv make)
    (reads : ∀ f ∈ fields conv, f.reading (given f.name) = .ok (f.get r)) : make given = .ok r := by
  obtain ⟨r', hr, same⟩ := (builder given).exists_of_reads r reads
  simp only [fields, List.forall_mem_cons] at same
  obtain ⟨hid, hname, hquery, hcreated, hupdated, -⟩ := same
  rw [hr, Report.ext hid hname hquery hcreated hupdated]

end Report

/-- A configuration comes out the same when it is built again from its members, and a
report when it is from its fields, with times as they are or as texts. The name of a
report is not empty, and no white space is at its ends. -/
theorem rebuilt_same (faithful : conv.IsFaithful)
    {config : Json.Members → Except (List FieldError) Config}
    (configs : Config.IsBuilder conv config)
    {report : (String → Option FieldValue) → Except (List FieldError) Report}
    (reports : Report.IsBuilder conv report) :
    (∀ members c, config members = .ok c → config c.members = .ok c) ∧
      ∀ given r, report given = .ok r →
        report (Draft.ofReport r).given = .ok r ∧
          report (fun name => ((Draft.ofReport r).members.lookup name).map .given) = .ok r ∧
          Solid r.name.toList := by
  refine ⟨fun members c h => ?_, fun given r h => ?_⟩
  · exact configs.make_members faithful (configs.isLimited h) (configs.isExtra h)
  · obtain ⟨trimmed, notBlank⟩ := reports.name h
    have name := Report.readName_own faithful trimmed notBlank
    refine ⟨reports.make_of_reads ?_, reports.make_of_reads ?_,
      Report.solid_of_trimmed trimmed notBlank⟩
    · simp only [Report.fields, List.forall_mem_cons]
      exact ⟨Report.readId_own faithful _, name, faithful.text _, Report.readTime_own faithful _,
        Report.readTime_own faithful _, List.forall_mem_nil _⟩
    · simp only [Report.fields, List.forall_mem_cons]
      exact ⟨Report.readId_own faithful _, name, faithful.text _, Report.readTime_text faithful _,
        Report.readTime_text faithful _, List.forall_mem_nil _⟩

/-- A setting from a truth value and one from a text with blanks, beside an extra; a name with
blanks and an id from a text, with a time that lacks its seconds. -/
def looseMembers : Json.Members :=
  [("max_query_length", .bool true), ("default_row_limit", .str " 7 "), ("theme", .null),
    ("report_id", .str "12.0"), ("report_name", .str " Sales\n"),
    ("query_definition", .str "SELECT 1"), ("created_at", .str "2024-02-29 08:30")]

theorem rebuilt_same_loose :
    Conversions.lax.IsFaithful ∧ Config.IsBuilder .lax Config.ofMembers ∧
    Report.IsBuilder .lax (Report.build .lax) ∧
    (∃ c, Config.ofMembers looseMembers = .ok c ∧ c.maxQueryLength = 1 ∧ c.defaultRowLimit = 7 ∧
      Config.ofMembers c.members = .ok c) ∧
    ∃ r, Report.ofMembers looseMembers = .ok r ∧ r.id = some 12 ∧ r.name = "Sales" ∧
      Report.build .lax (Draft.ofReport r).given = .ok r := by
  have config : ∃ c, Config.ofMembers looseMembers = .ok c ∧ c.maxQueryLength = 1 ∧
      c.defaultRowLimit = 7 := ⟨_, by rfl, by rfl, by rfl⟩
  have report : ∃ r, Report.ofMembers looseMembers = .ok r ∧ r.id = some 12 ∧
      r.name = "Sales" := ⟨_, by rfl, by rfl, by rfl⟩
  obtain ⟨c, hc, query, limit⟩ := config
  obtain ⟨r, hr, id, name⟩ := report
  have configs : Config.IsBuilder .lax Config.ofMembers := Config.isBuilder_build .lax
  have reports := Report.isBuilder_build .lax
  obtain ⟨again, drawn⟩ := rebuilt_same Conversions.lax_isFaithful configs reports
  exact ⟨Conversions.lax_isFaithful, configs, reports, ⟨c, hc, query, limit, again _ c hc⟩,
    r, hr, id, name, (drawn _ r hr).1⟩

end SafeReports
