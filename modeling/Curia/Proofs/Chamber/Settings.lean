import Curia.Chamber.Config
import Curia.Proofs.Json.Paths
import Curia.Proofs.Records

/-!
Settings are read back from their text. Sections and fields that are taken out of the text leave
their standard values, and nothing but them.
-/

namespace Curia

open Json (Reads)

namespace Config

/-! ### Parts of settings -/

/-- What may be left out of settings: sections and, in some of them, fields. -/
inductive Part where
  | consensus
  | filter
  | filterVersion
  | filterBudget
  | router
  | ledger
  | ledgerPath
  deriving DecidableEq

/-- Where the part stands. -/
def Part.path : Part → List String
  | consensus => ["consensus"]
  | filter => ["filter"]
  | filterVersion => ["filter", "filter_version"]
  | filterBudget => ["filter", "processing_budget_ms"]
  | router => ["router"]
  | ledger => ["ledger"]
  | ledgerPath => ["ledger", "db_path"]

/-- The settings with the standard values of the parts that are left out. -/
def without (parts : List Part) (c : Config) : Config where
  permitted := if .consensus ∈ parts then standard.permitted else c.permitted
  filter :=
    { version :=
        if .filter ∈ parts ∨ .filterVersion ∈ parts then standard.filter.version
        else c.filter.version
      budget :=
        if .filter ∈ parts ∨ .filterBudget ∈ parts then standard.filter.budget
        else c.filter.budget }
  routing := if .router ∈ parts then standard.routing else c.routing
  ledgerPath :=
    if .ledger ∈ parts ∨ .ledgerPath ∈ parts then standard.ledgerPath else c.ledgerPath

theorem without_nil (c : Config) : c.without [] = c := by
  simp [without]

variable {parts : List Part}

theorem Part.path_injective : Function.Injective Part.path := by
  intro p q h
  cases p <;> cases q <;> first | rfl | (revert h; decide)

theorem mem_paths (p : Part) : p.path ∈ parts.map Part.path ↔ p ∈ parts :=
  List.mem_map_of_injective Part.path_injective

/-- What stands below a section that has no fields of its own. -/
theorem pathsUnder_eq_nil {name : String} {p : Part} (hp : p ∉ parts)
    (h : ∀ q : Part, q.path.head? = some name → q = p) :
    Json.pathsUnder name (parts.map Part.path) = [] := by
  refine List.eq_nil_iff_forall_not_mem.2 fun path hpath => ?_
  obtain ⟨q, hq, heq⟩ := List.mem_map.1 (Json.mem_pathsUnder.1 hpath)
  have hqp : q = p := h q (by rw [heq]; rfl)
  exact hp (hqp ▸ hq)

/-! ### Sections -/

theorem plain_consensusJson (permitted : SortedSet Outcome) : (consensusJson permitted).Plain := by
  refine Json.plain_record (List.forall_mem_singleton.2 (Json.plain_array fun v hv => ?_))
  obtain ⟨o, -, rfl⟩ := List.mem_map.1 hv
  exact Json.plain_name o

theorem reads_consensus (permitted : SortedSet Outcome) :
    Reads consensusOfJson (consensusJson permitted) permitted := by
  intro w h
  obtain ⟨r, hr, hfields⟩ := Record.exists_read_record h ["permitted_outcomes"]
  have hpermitted : r.required "permitted_outcomes" (Json.asList Named.ofJson) =
      .ok permitted.toList :=
    hfields.required (by decide) rfl (Json.reads_array Json.reads_name _)
  simp only [consensusOfJson, hr, hpermitted, Decoded.ok_bind, SortedSet.ofList_toList]
  rfl

theorem plain_routerJson (routing : RoutingTable) : (routerJson routing).Plain :=
  Json.plain_record (List.forall_mem_singleton.2 routing.plain_toJson)

theorem reads_router (routing : RoutingTable) : Reads routerOfJson (routerJson routing) routing := by
  intro w h
  obtain ⟨r, hr, hfields⟩ := Record.exists_read_record h ["routing"]
  have hrouting : r.required "routing" RoutingTable.ofJson = .ok routing :=
    hfields.required (by decide) rfl routing.reads
  simp only [routerOfJson, hr, hrouting, Decoded.ok_bind]

theorem plain_ledgerJson (path : Option String) : (ledgerJson path).Plain :=
  Json.plain_record (List.forall_mem_singleton.2 (Json.plain_ofOption Json.plain_string path))

theorem reads_ledger_without (path : Option String) (paths : List (List String)) :
    Reads ledgerOfJson ((ledgerJson path).without paths)
      (if ["db_path"] ∈ paths then none else path) := by
  intro w h
  obtain ⟨r, hr, hfields⟩ := Record.exists_read_without h ["db_path"]
  simp only [ledgerOfJson, hr, Decoded.ok_bind]
  by_cases hmem : ["db_path"] ∈ paths
  · rw [if_pos hmem]
    exact hfields.optional_of_none (by decide) (if_pos hmem) _
  · rw [if_neg hmem]
    have hfound : (Json.ofOption .string path).without (Json.pathsUnder "db_path" paths) =
        .ofOption .string path := by
      cases path <;> rfl
    refine hfields.optional (by decide) ((if_neg hmem).trans ?_) (Json.reads_ofOption_string path)
    exact congrArg some hfound

end Config

namespace FilterConfig

theorem plain_toJson {c : FilterConfig} (h : c.budget < UInt64.size) : c.toJson.Plain := by
  refine Json.plain_record ?_
  simp [Json.plain_nat h]

theorem reads_without {c : FilterConfig} (h : c.budget < UInt64.size)
    (paths : List (List String)) :
    Reads ofJson (c.toJson.without paths)
      { version := if ["filter_version"] ∈ paths then standard.version else c.version
        budget := if ["processing_budget_ms"] ∈ paths then standard.budget else c.budget } := by
  intro w hw
  obtain ⟨r, hr, hfields⟩ :=
    Record.exists_read_without hw ["filter_version", "processing_budget_ms"]
  have hversion := hfields.withDefault_ite (by decide : "filter_version" ∈ _) rfl standard.version
    fun _ => Json.reads_string c.version
  have hbudget := hfields.withDefault_ite (by decide : "processing_budget_ms" ∈ _) rfl
    standard.budget fun _ => Json.reads_nat h
  simp only [ofJson, hr, hversion, hbudget, Decoded.ok_bind]
  rfl

end FilterConfig

namespace Config

/-! ### Settings -/

theorem plain_toJson {c : Config} (h : c.filter.budget < UInt64.size) : c.toJson.Plain := by
  refine Json.plain_record ?_
  simp [plain_consensusJson, FilterConfig.plain_toJson h, plain_routerJson, plain_ledgerJson]

theorem reads_without {c : Config} (h : c.filter.budget < UInt64.size) (parts : List Part) :
    Reads ofJson (c.toJson.without (parts.map Part.path)) (c.without parts) := by
  intro w hw
  obtain ⟨r, hr, hfields⟩ :=
    Record.exists_read_without hw ["consensus", "filter", "router", "ledger"]
  have hconsensus : r.withDefault "consensus" standard.permitted consensusOfJson =
      .ok (c.without parts).permitted := by
    have hmem : ["consensus"] ∈ parts.map Part.path ↔ .consensus ∈ parts := mem_paths .consensus
    simp only [without, ← hmem]
    refine hfields.withDefault_ite (by decide) rfl standard.permitted fun hp => ?_
    rw [pathsUnder_eq_nil (mt hmem.2 hp) (fun q => by cases q <;> decide), Json.without_nil]
    exact reads_consensus c.permitted
  have hfilter : r.withDefault "filter" standard.filter FilterConfig.ofJson =
      .ok (c.without parts).filter := by
    have hmem : ["filter"] ∈ parts.map Part.path ↔ .filter ∈ parts := mem_paths .filter
    have hversion : ["filter_version"] ∈ Json.pathsUnder "filter" (parts.map Part.path) ↔
        .filterVersion ∈ parts := Json.mem_pathsUnder.trans (mem_paths .filterVersion)
    have hbudget : ["processing_budget_ms"] ∈ Json.pathsUnder "filter" (parts.map Part.path) ↔
        .filterBudget ∈ parts := Json.mem_pathsUnder.trans (mem_paths .filterBudget)
    rw [hfields.withDefault_ite (by decide) rfl standard.filter
      fun _ => FilterConfig.reads_without h _]
    simp only [hmem, hversion, hbudget]
    by_cases hp : .filter ∈ parts <;> simp [without, hp, standard]
  have hrouter : r.withDefault "router" standard.routing routerOfJson =
      .ok (c.without parts).routing := by
    have hmem : ["router"] ∈ parts.map Part.path ↔ .router ∈ parts := mem_paths .router
    simp only [without, ← hmem]
    refine hfields.withDefault_ite (by decide) rfl standard.routing fun hp => ?_
    rw [pathsUnder_eq_nil (mt hmem.2 hp) (fun q => by cases q <;> decide), Json.without_nil]
    exact reads_router c.routing
  have hledger : r.withDefault "ledger" standard.ledgerPath ledgerOfJson =
      .ok (c.without parts).ledgerPath := by
    have hmem : ["ledger"] ∈ parts.map Part.path ↔ .ledger ∈ parts := mem_paths .ledger
    have hpath : ["db_path"] ∈ Json.pathsUnder "ledger" (parts.map Part.path) ↔
        .ledgerPath ∈ parts := Json.mem_pathsUnder.trans (mem_paths .ledgerPath)
    rw [hfields.withDefault_ite (by decide) rfl standard.ledgerPath
      fun _ => reads_ledger_without c.ledgerPath _]
    simp only [hmem, hpath]
    by_cases hp : .ledger ∈ parts <;> simp [without, hp, standard]
  simp only [ofJson, hr, hconsensus, hfilter, hrouter, hledger, Decoded.ok_bind]
  rfl

theorem ofText_without {c : Config} (h : c.filter.budget < UInt64.size) (parts : List Part)
    {w : Json} (hw : (c.toJson.without (parts.map Part.path)).Rearranged w) :
    ofText w.render = .ok (c.without parts) := by
  have hplain : w.Plain := ((plain_toJson h).without _).of_rearranged hw
  simp only [ofText, Json.parse_render hplain.integral, reads_without h parts w hw]

/-- Settings with a budget of 64 bits are read back from their text. Whatever sections and fields
are taken out of the text, it is still read, and the settings have their standard values for what
was taken out and are the same in all else. The members of objects may stand in any order. -/
theorem standard_where_left_out (c : Config) (h : c.filter.budget < UInt64.size) :
    ofText c.toJson.render = .ok c ∧
      ∀ parts : List Part,
        ofText (c.toJson.without (parts.map Part.path)).render = .ok (c.without parts) ∧
          ∀ w : Json, (c.toJson.without (parts.map Part.path)).Rearranged w →
            ofText w.render = .ok (c.without parts) := by
  have hself (parts : List Part) :
      ofText (c.toJson.without (parts.map Part.path)).render = .ok (c.without parts) :=
    ofText_without h parts (.refl ((plain_toJson h).without _).names)
  refine ⟨?_, fun parts => ⟨hself parts, fun w => ofText_without h parts⟩⟩
  simpa only [List.map_nil, Json.without_nil, without_nil] using hself []

/-- Two sections, a field of a third and a field of a section that is left out anyway. The budget is
the greatest that there is. -/
theorem standard_where_left_out_of_four :
    let c : Config :=
      { permitted := .ofList [.refer]
        filter := ⟨"v\"1\"", UInt64.size - 1⟩
        routing := .ofList [(.refer, .escalation)]
        ledgerPath := some "C:\\é" }
    let parts : List Part := [.filterBudget, .ledger, .ledgerPath, .consensus]
    let w : Json := .object
      [("router", .object [("routing", .object [("REFER", .string "ESCALATION")])]),
       ("filter", .object [("filter_version", .string "v\"1\"")])]
    c.filter.budget < UInt64.size ∧ ofText c.toJson.render = .ok c ∧
      (c.toJson.without (parts.map Part.path)).Rearranged w ∧
      ofText w.render = .ok
        { c with permitted := standard.permitted, filter.budget := 200, ledgerPath := none } := by
  intro c parts w
  have hbudget : c.filter.budget < UInt64.size := by decide
  obtain ⟨htext, hwithout⟩ := standard_where_left_out c hbudget
  have hw : (c.toJson.without (parts.map Part.path)).Rearranged w := by
    have hleft : c.toJson.without (parts.map Part.path) = .object
        [("filter", .object [("filter_version", .string "v\"1\"")]),
         ("router", .object [("routing", .object [("REFER", .string "ESCALATION")])])] := by
      decide +kernel
    have hnames : w.NamesDiffer := by
      simp [w, Json.NamesDiffer, Json.MembersNamesDiffer]
    rw [hleft]
    exact ⟨hnames, Json.meaning_eq_of_reordered (.here (by decide) (.swap _ _ _))⟩
  exact ⟨hbudget, htext, hw, (hwithout parts).2 w hw⟩

end Config

end Curia
