import DocGuard.OoxmlReports
import DocGuard.Worker

/-!
What the policy releases of the worker's results: the content was analyzed to its
end on the way that its family takes, and what the policy allows shows nothing that
any of the analyzers looks for.
-/
namespace DocGuard.Worker
open DocGuard.Archive (Bytes Exhibits FileFamily Legible nestedFiles observations opened)
open DocGuard.Checks DocGuard.Contract DocGuard.Decisions DocGuard.Domain DocGuard.Engine DocGuard.Findings
open DocGuard.NameSecurity DocGuard.Registry
open DocGuard.Sanitizer (Floats WorkerRequest parseRequest requestFields validateRequest)
open DocGuard.Sha256 (sha256)

/-! ### Decisions that release -/

section Decisions
variable {digest : List UInt8 → Text} {result : Option AnalysisResult} {failureCode : Option Text} {scanState : ScanState}
variable {evaluatedAt : Option DateTime} {now : Int} {e : PolicyEvaluation}

/-- Neither a quarantine nor a block: there is a complete result about content of a supported type. -/
theorem released_result
    (evaluated : evaluatePolicy digest shipped result failureCode scanState evaluatedAt now = .ok e)
    (released : e.decision = .ALLOW ∨ e.decision = .REVIEW) :
    ∃ r, result = some r ∧ r.status = .SUCCESS ∧ ∃ t ∈ supportedReleaseTypes, r.detectedType = some t := by
  have decided := evaluatePolicy_decided evaluated
  have whole : ¬Incomplete result failureCode scanState := by
    rcases released with allowed | reviewed
    · exact fun incomplete => (decided.allow.mp allowed).2.1 (.inl incomplete)
    · exact fun incomplete => (decided.review.mp reviewed).2.1 (.inl incomplete)
  cases result with
  | none => exact absurd (.inl trivial) whole
  | some r =>
    have complete : ¬IncompleteResult (some r) := fun incomplete => whole (.inl incomplete)
    simp only [IncompleteResult,not_or,not_not,not_forall] at complete
    obtain ⟨status,⟨t,supported,same⟩,_⟩ := complete
    exact ⟨r,rfl,status,t,supported,same⟩

/-- A finding with this code is enough for a decision other than ALLOW. -/
def Weighty (code : Text) : Prop :=
  ∃ p ∈ shippedPolicies, p.findingCode = code ∧
    (20 ≤ p.contribution ∨ p.hardBlock = true ∨ p.minimumDecision = some .QUARANTINE)

instance (code : Text) : Decidable (Weighty code) := by
  unfold Weighty; infer_instance

theorem compounds_require : ∀ k ∈ shippedCompounds, k.requiredFindings ≠ [] := by decide +kernel

theorem contributions_nonneg (decided : Decided result failureCode scanState e.toEvaluationFields) :
    ∀ n ∈ e.contributions.map (·.contribution), 0 ≤ n := by
  intro n listed
  obtain ⟨c,among,rfl⟩ := List.mem_map.mp listed
  obtain ⟨p,member,_,rfl⟩ | ⟨k,triggered,rfl⟩ := (decided.listed c).mp among
  · exact (shippedPolicies_rows member).1
  · exact (shippedCompounds_rows triggered.1).2.1

theorem allowed_light (evaluated : evaluatePolicy digest shipped result failureCode scanState evaluatedAt now = .ok e)
    (allowed : e.decision = .ALLOW) {code : Text} (present : Present result code) : ¬Weighty code := by
  have decided := evaluatePolicy_decided evaluated
  obtain ⟨unblocked,calm,low⟩ := decided.allow.mp allowed
  rintro ⟨p,listed,rfl,heavy | hard | floor⟩
  · have counted := List.mem_map_of_mem (f := fun c : PolicyContribution => c.contribution)
      ((decided.listed (findingContribution p)).mpr (.inl ⟨p,listed,present,rfl⟩))
    have most := List.single_le_sum (contributions_nonneg decided) _ counted
    have score := decided.score
    have own : (findingContribution p).contribution = p.contribution := rfl
    omega
  · exact unblocked ⟨p,listed,hard,present⟩
  · exact calm (.inr (.inl (.inl ⟨p,listed,floor,present⟩)))

/-- A success on content of a supported type, without findings, is allowed. -/
theorem silent_allowed {r : AnalysisResult} {t : Text}
    (evaluated : evaluatePolicy digest shipped (some r) none .ANALYZING evaluatedAt now = .ok e)
    (success : r.status = .SUCCESS) (supported : t ∈ supportedReleaseTypes) (detected : r.detectedType = some t)
    (silent : r.findings = []) : e.decision = .ALLOW := by
  have decided := evaluatePolicy_decided evaluated
  have absent (code : Text) : ¬Present (some r) code := by
    rintro ⟨_,same,f,member,_⟩
    cases same
    rw [silent] at member
    cases member
  have untriggered (k : CompoundPolicy) : ¬Triggered (some r) k := by
    rintro ⟨listed,all⟩
    obtain ⟨code,required⟩ := List.exists_mem_of_ne_nil _ (compounds_require k listed)
    exact absent code (all code required)
  have unscored : e.contributions = [] := by
    refine List.eq_nil_iff_forall_not_mem.mpr fun c member => ?_
    obtain ⟨p,_,present,_⟩ | ⟨k,triggered,_⟩ := (decided.listed c).mp member
    · exact absent _ present
    · exact untriggered k triggered
  have score : e.riskScore = 0 := by
    rw [decided.score,unscored]
    rfl
  refine decided.allow.mpr ⟨?_,?_,by omega⟩
  · rintro ⟨p,_,_,present⟩
    exact absent _ present
  · rintro ((incomplete | other | ended) | (⟨p,_,_,present⟩ | ⟨k,triggered,_⟩) | heavy)
    · rcases incomplete with status | unsupported | ⟨_,code,present,_⟩
      · exact status success
      · exact unsupported t supported detected
      · exact absent code present
    · exact other rfl
    · exact ended.1 rfl
    · exact absent _ present
    · exact untriggered k triggered
    · omega

end Decisions

/-! ### From the result back to the analysis -/

variable {env : Environment} {floats : Floats}

theorem analyze_result {ran : Orchestrator.Execution AnalysisResult} {r : AnalysisResult}
    (passed : (Orchestrator.analyze ran).result = some r) : ran = .ended false false 0 (.ok r) := by
  cases ran with
  | isolationError => cases passed
  | ended timedOut outputLimitExceeded exitCode stdout =>
    cases stdout with
    | error e =>
      simp only [Orchestrator.analyze] at passed
      split_ifs at passed <;> cases passed
    | ok r' =>
      simp only [Orchestrator.analyze] at passed
      cases timedOut with
      | true => cases passed
      | false =>
        cases outputLimitExceeded with
        | true => cases passed
        | false =>
          by_cases exit : exitCode = 0
          · simp only [Bool.false_eq_true,if_false,exit,ne_eq,not_true] at passed
            have same : r' = r := by
              split_ifs at passed
              · exact Option.some.inj passed
              · exact Option.some.inj passed
              · exact Option.some.inj passed
            rw [same,exit]
          · simp only [Bool.false_eq_true,if_false,ne_eq,exit,not_false_eq_true,if_true] at passed
            cases passed

theorem modelValidate_fields {fields : ResultFields} {r : AnalysisResult}
    (valid : AnalysisResult.modelValidate fields = .ok r) : r.toResultFields = fields := by
  unfold AnalysisResult.modelValidate at valid
  split at valid
  · cases valid
    rfl
  · cases valid

theorem execution_analyzed {isolation : Isolation} {ending : Ending} {r : AnalysisResult}
    (ran : execution isolation ending = .ended false false 0 (.ok r)) : ending = .analyzed r.toResultFields := by
  unfold execution at ran
  split at ran
  · cases ran
  · injection ran with _ _ _ valid
    rw [modelValidate_fields valid]
  · injection ran with _ _ _ valid
    cases valid
  · injection ran with _ _ _ valid
    cases valid

/-- The analysis of a sample has come to a successful end. -/
structure Succeeds (env : Environment) (filename : Option Text) (claimed : Option (Option Text)) (fields : ResultFields)
    (content : Bytes) (identification : FileIdentification) (structural : Structural) (rules : Yara.YaraAnalysis) : Prop where
  read : env.content = some content
  identified : identifyFile env.tables env.mimeRun env.descriptionRun = some identification
  structured : analyzeStructure env content identification.family = .ok structural
  complete : structural.complete = true
  scanned : runYaraAnalysis env = .ok rules
  scannedAll : rules.parserStatus = .COMPLETE
  reported : ∃ name claim, filename = some name ∧ claimed = some claim ∧
    fields = resultFields env content identification name claim structural rules

/-- The parts of an analysis of identified content that has come to its end. -/
theorem analyzeSample_identified {filename : Option Text} {claimed : Option (Option Text)} {fields : ResultFields}
    {content : Bytes} {identification : FileIdentification} (ended : analyzeSample env filename claimed = .analyzed fields)
    (read : env.content = some content)
    (identified : identifyFile env.tables env.mimeRun env.descriptionRun = some identification) :
    ∃ name claim structural rules, filename = some name ∧ claimed = some claim ∧
      analyzeStructure env content identification.family = .ok structural ∧ runYaraAnalysis env = .ok rules ∧
        fields = resultFields env content identification name claim structural rules := by
  unfold analyzeSample at ended
  rw [read] at ended
  dsimp only at ended
  rw [identified] at ended
  cases filename with
  | none => cases ended
  | some name =>
    cases claimed with
    | none => cases ended
    | some claim =>
      dsimp only at ended
      split at ended
      · rename_i fields' analyzed
        cases ended
        simp only [analyzeIdentified,bind_ok] at analyzed
        obtain ⟨structural,structured,rules,scanned,same⟩ := analyzed
        cases same
        exact ⟨name,claim,structural,rules,rfl,rfl,structured,scanned,rfl⟩
      · cases ended

theorem analyzeSample_succeeds {filename : Option Text} {claimed : Option (Option Text)} {fields : ResultFields}
    (ended : analyzeSample env filename claimed = .analyzed fields) (success : fields.status = .SUCCESS) :
    ∃ content identification structural rules,
      Succeeds env filename claimed fields content identification structural rules := by
  cases read : env.content with
  | none =>
    rw [analyzeSample,read] at ended
    cases ended
  | some content =>
    cases identified : identifyFile env.tables env.mimeRun env.descriptionRun with
    | none =>
      rw [analyzeSample,read] at ended
      dsimp only at ended
      rw [identified] at ended
      cases ended
      cases success
    | some identification =>
      obtain ⟨name,claim,structural,rules,named,claims,structured,scanned,same⟩ :=
        analyzeSample_identified ended read identified
      have status : analysisStatus identification structural rules = .SUCCESS :=
        (congrArg ResultFields.status same).symm.trans success
      unfold analysisStatus at status
      split_ifs at status with lacking supported
      simp only [not_or,Bool.not_eq_false,not_not] at lacking
      exact ⟨content,identification,structural,rules,read,identified,structured,lacking.1,scanned,lacking.2,
        name,claim,named,claims,same⟩

theorem main_analyzed {raw : Text} {fields : ResultFields} (ended : main env floats raw = .analyzed fields) :
    ∃ request, parseRequest floats raw = .ok request ∧
      analyzeSample env (requestFilename request) (requestContentType request) = .analyzed fields := by
  unfold main at ended
  split at ended
  · cases ended
  · rename_i request parsed
    dsimp only at ended
    split_ifs at ended
    exact ⟨request,parsed,ended⟩

/-! ### The way that content takes -/

/-- The analysis has come to the end of the content, on the way that its family takes. -/
inductive Covered (env : Environment) (content : Bytes) : FileFamily → Prop where
  | pdf {analysis : Analysis} (ran : env.analyzePdf content = .ok analysis) (complete : analysis.complete = true) :
    Covered env content .PDF
  | ole {analysis : Analysis} (ran : env.analyzeOleOffice content = .ok (some analysis))
    (complete : analysis.complete = true) : Covered env content .OLE_COMPOUND
  | office {family : FileFamily} {analysis : Ooxml.OfficeAnalysis} (package : family = .ZIP ∨ family = .OOXML_CANDIDATE)
    (ran : Ooxml.analyzeOoxml env.office Vba.DEFAULT_OFFICE_LIMITS content = .ok (some analysis))
    (complete : analysis.parserStatus = .COMPLETE) (classified : analysis.application ≠ .UNKNOWN) :
    Covered env content family
  | archive {family : FileFamily} {analysis : Archive.ArchiveAnalysis} (package : family = .ZIP ∨ family = .OOXML_CANDIDATE)
    (plain : Ooxml.analyzeOoxml env.office Vba.DEFAULT_OFFICE_LIMITS content = .ok none)
    (ran : Archive.analyzeArchive env.archive Archive.DEFAULT_ARCHIVE_LIMITS family (some content) = .ok analysis)
    (complete : analysis.status = .COMPLETE) : Covered env content family
  | text : Covered env content .TEXT

theorem package_not_ole {family : FileFamily} (package : family = .ZIP ∨ family = .OOXML_CANDIDATE) :
    family ≠ .OLE_COMPOUND := by
  rcases package with rfl | rfl
  · decide
  · decide

theorem runOfficeAnalysis_some {content : Bytes} {family : FileFamily} {analysis : Analysis} (package : family ≠ .OLE_COMPOUND)
    (ran : runOfficeAnalysis env content family = .ok (some analysis)) :
    ∃ a, Ooxml.analyzeOoxml env.office Vba.DEFAULT_OFFICE_LIMITS content = .ok (some a) ∧
      analysis = ⟨a.findings,a.metadata,a.parserStatus = .COMPLETE,packageType a.application⟩ := by
  rw [runOfficeAnalysis,if_neg package] at ran
  split at ran
  · cases ran
  · cases ran
  · rename_i a analyzed
    cases ran
    exact ⟨a,analyzed,rfl⟩

theorem runOfficeAnalysis_none {content : Bytes} {family : FileFamily} (package : family ≠ .OLE_COMPOUND)
    (ran : runOfficeAnalysis env content family = .ok none) :
    Ooxml.analyzeOoxml env.office Vba.DEFAULT_OFFICE_LIMITS content = .ok none := by
  rw [runOfficeAnalysis,if_neg package] at ran
  split at ran
  · cases ran
  · assumption
  · cases ran

theorem runArchiveAnalysis_ok {content : Bytes} {family : FileFamily} {analysis : Analysis}
    (ran : runArchiveAnalysis env content family = .ok analysis) :
    ∃ a, Archive.analyzeArchive env.archive Archive.DEFAULT_ARCHIVE_LIMITS family (some content) = .ok a ∧
      analysis = ⟨a.findings,a.metadata,a.status = .COMPLETE,familyValue .ZIP⟩ := by
  unfold runArchiveAnalysis at ran
  split at ran
  · cases ran
  · rename_i a analyzed
    cases ran
    exact ⟨a,analyzed,rfl⟩

/-- What a package gives: it is an Office document, or an archive. -/
theorem analyzeStructure_package {content : Bytes} {family : FileFamily} {structural : Structural}
    (package : family = .ZIP ∨ family = .OOXML_CANDIDATE) (ran : analyzeStructure env content family = .ok structural) :
    (∃ analysis, runOfficeAnalysis env content family = .ok (some analysis) ∧
      structural = analysis.structural (lit "office")) ∨
    ∃ analysis, runOfficeAnalysis env content family = .ok none ∧ runArchiveAnalysis env content family = .ok analysis ∧
      structural = analysis.structural (lit "archive") := by
  rcases package with rfl | rfl
  all_goals
    obtain ⟨office,analyzed,rest⟩ := bind_ok.mp ran
    cases office with
    | some analysis =>
      cases rest
      exact .inl ⟨analysis,analyzed,rfl⟩
    | none =>
      obtain ⟨analysis,inspected,same⟩ := bind_ok.mp rest
      cases same
      exact .inr ⟨analysis,analyzed,inspected,rfl⟩

theorem packageType_supported {application : Ooxml.OfficeApplication}
    (supported : packageType application ∈ supportedReleaseTypes) : application ≠ .UNKNOWN := by
  rintro rfl
  revert supported
  decide

theorem package_covered {content : Bytes} {family : FileFamily} {structural : Structural}
    (package : family = .ZIP ∨ family = .OOXML_CANDIDATE) (ran : analyzeStructure env content family = .ok structural)
    (complete : structural.complete = true) (supported : structural.detectedType ∈ supportedReleaseTypes) :
    Covered env content family := by
  have noOle := package_not_ole package
  obtain ⟨analysis,analyzed,rfl⟩ | ⟨analysis,analyzed,inspected,rfl⟩ := analyzeStructure_package package ran
  · obtain ⟨a,found,rfl⟩ := runOfficeAnalysis_some noOle analyzed
    exact .office package found (of_decide_eq_true complete) (packageType_supported supported)
  · obtain ⟨a,found,rfl⟩ := runArchiveAnalysis_ok inspected
    exact .archive package (runOfficeAnalysis_none noOle analyzed) found (of_decide_eq_true complete)

/-- Content of no other family has a supported type. -/
theorem unsupported_families : ∀ family ∈ [FileFamily.OLE_COMPOUND,.WINDOWS_EXECUTABLE,.UNKNOWN],
    familyValue family ∉ supportedReleaseTypes := by decide

theorem structural_covered {content : Bytes} {family : FileFamily} {structural : Structural}
    (ran : analyzeStructure env content family = .ok structural) (complete : structural.complete = true)
    (supported : structural.detectedType ∈ supportedReleaseTypes) : Covered env content family := by
  cases family with
  | PDF =>
    obtain ⟨analysis,analyzed,same⟩ := bind_ok.mp ran
    cases same
    exact .pdf analyzed complete
  | ZIP => exact package_covered (.inl rfl) ran complete supported
  | OOXML_CANDIDATE => exact package_covered (.inr rfl) ran complete supported
  | OLE_COMPOUND =>
    obtain ⟨office,analyzed,rest⟩ := bind_ok.mp ran
    cases office with
    | some analysis =>
      cases rest
      exact .ole analyzed complete
    | none =>
      cases rest
      exact absurd supported (unsupported_families .OLE_COMPOUND (by simp))
  | TEXT => exact .text
  | WINDOWS_EXECUTABLE =>
    cases ran
    exact absurd supported (unsupported_families .WINDOWS_EXECUTABLE (by simp))
  | UNKNOWN =>
    cases ran
    exact absurd supported (unsupported_families .UNKNOWN (by simp))

/-! ### A sample -/

/-- A text beside an archive that has the same text in it. -/
def notesMembers : List Archive.Stored :=
  [⟨lit "inner.zip",Archive.zipBytes [Archive.noteMember],0x976f092d⟩,Archive.noteMember]

def notesFiles : List (List Archive.Stored) := [[Archive.noteMember],notesMembers]
def notesLibrary : Archive.Library := Archive.storedLibrary notesFiles

/-- The surroundings of the analysis of these notes; the rules match nowhere. -/
def notesEnvironment : Environment where
  tables := Ooxml.asciiTables
  mimeRun := .ended 0 (lit "application/zip")
  descriptionRun := .ended 0 (lit "Zip archive data, at least v2.0 to extract, compression method=store")
  content := some (Archive.zipBytes notesMembers)
  analyzePdf _ := .error .other
  analyzeOleOffice _ := .ok none
  office := { Ooxml.storedLibrary [] [] with zipFile := notesLibrary.zipFile }
  archive := notesLibrary
  pack := some ⟨YARA_RULE_PACK_SHA256,rfl⟩
  engine := .ok ([],[])
  yara := ⟨lit "4.5.4",lit "4.5.4",2⟩
  startedAt := 0
  completedAt := 0
  startedNs := 0
  completedNs := 5000000

def notesRequest : WorkerRequest Sanitizer.wholeFloats where
  jobId := List.replicate 32 'a'
  samplePath := lit "/input/sample"
  originalFilename := lit "notes.zip"
  claimedContentType := some (lit "application/zip")

def notesExecution : Orchestrator.Execution AnalysisResult :=
  execution (.ran false false) (main notesEnvironment Sanitizer.wholeFloats notesRequest.toJson)

theorem notes_analyzed : validateRequest notesRequest = .ok () ∧
    (Orchestrator.analyze notesExecution).result.map (fun r => (r.status,r.detectedType,r.findings.length)) =
      some (.SUCCESS,some (lit "ZIP"),0) ∧
    (identifyFile notesEnvironment.tables notesEnvironment.mimeRun notesEnvironment.descriptionRun).map (·.family) =
      some .ZIP := by
  decide +kernel

theorem notes_allowed : ∃ e, evaluatePolicy sha256 shipped (Orchestrator.analyze notesExecution).result none .ANALYZING
    none 0 = .ok e ∧ e.decision = .ALLOW := by
  obtain ⟨r,found,same⟩ := Option.map_eq_some_iff.mp notes_analyzed.2.1
  obtain ⟨success,rest⟩ := Prod.mk.inj same
  obtain ⟨detected,silent⟩ := Prod.mk.inj rest
  obtain ⟨e,evaluated⟩ := evaluatePolicy_returns (Orchestrator.analyze notesExecution).result none .ANALYZING none 0
    (fun _ given => by cases given)
  refine ⟨e,evaluated,?_⟩
  rw [found] at evaluated
  exact silent_allowed evaluated success (by simp [supportedReleaseTypes]) detected (List.length_eq_zero_iff.mp silent)

theorem notes_opened {members : List Archive.Stored} (member : members ∈ notesFiles) :
    notesLibrary.zipFile (Archive.zipBytes members) = .ok ⟨.ok (members.map Archive.Stored.info)⟩ :=
  Archive.storedLibrary_zipFile (by decide +kernel) member

theorem notes_plain : Ooxml.analyzeOoxml notesEnvironment.office Vba.DEFAULT_OFFICE_LIMITS (Archive.zipBytes notesMembers) =
    .ok none := by
  have member : notesMembers ∈ notesFiles := by simp [notesFiles]
  have same : notesEnvironment.office.zipFile = notesLibrary.zipFile := rfl
  rw [Ooxml.analyzeOoxml,same,notes_opened member]
  exact if_pos (by decide)

theorem notes_inside : Archive.inside notesLibrary (Archive.zipBytes notesMembers) = [Archive.zipBytes [Archive.noteMember]] ∧
    Archive.inside notesLibrary (Archive.zipBytes [Archive.noteMember]) = [] := by
  have listed {members : List Archive.Stored} (member : members ∈ notesFiles) :
      opened notesLibrary (Archive.zipBytes members) = .entries (members.map Archive.Stored.info) :=
    Archive.storedLibrary_opened (by decide +kernel) member
  rw [Archive.inside,Archive.inside,listed (by simp [notesFiles]),listed (by simp [notesFiles])]
  decide +kernel

/-! ### What is released -/

/-- Whatever the worker is sent and however it ends: the policy allows a result, or passes it on for a review, only if the
    content was identified, analyzed to its end on the way that its family takes, and scanned with all of the rules. -/
theorem released_analyzed (env : Environment) (floats : Floats) (isolation : Isolation) (raw : Text)
    (digest : List UInt8 → Text) (failureCode : Option Text) (scanState : ScanState) (evaluatedAt : Option DateTime)
    (now : Int) (e : PolicyEvaluation)
    (evaluated : evaluatePolicy digest shipped (Orchestrator.analyze (execution isolation (main env floats raw))).result
      failureCode scanState evaluatedAt now = .ok e)
    (released : e.decision = .ALLOW ∨ e.decision = .REVIEW) :
    ∃ content identification, env.content = some content ∧
      identifyFile env.tables env.mimeRun env.descriptionRun = some identification ∧
      Covered env content identification.family ∧
      ∃ rules, runYaraAnalysis env = .ok rules ∧ rules.parserStatus = .COMPLETE := by
  obtain ⟨r,passed,success,t,supported,detected⟩ := released_result evaluated released
  obtain ⟨request,_,ended⟩ := main_analyzed (execution_analyzed (analyze_result passed))
  obtain ⟨content,identification,structural,rules,succeeds⟩ := analyzeSample_succeeds ended success
  obtain ⟨name,claim,_,_,reported⟩ := succeeds.reported
  have type : structural.detectedType = t := by
    have same : r.detectedType = some structural.detectedType := congrArg ResultFields.detectedType reported
    rw [detected] at same
    exact (Option.some.inj same).symm
  exact ⟨content,identification,succeeds.read,succeeds.identified,
    structural_covered succeeds.structured succeeds.complete (type ▸ supported),rules,succeeds.scanned,succeeds.scannedAll⟩

theorem released_analyzed_notes : ∃ content identification, notesEnvironment.content = some content ∧
    identifyFile notesEnvironment.tables notesEnvironment.mimeRun notesEnvironment.descriptionRun = some identification ∧
    Covered notesEnvironment content identification.family ∧
    ∃ rules, runYaraAnalysis notesEnvironment = .ok rules ∧ rules.parserStatus = .COMPLETE := by
  obtain ⟨e,evaluated,allowed⟩ := notes_allowed
  exact released_analyzed notesEnvironment Sanitizer.wholeFloats (.ran false false) notesRequest.toJson sha256 none .ANALYZING
    none 0 e evaluated (.inl allowed)

/-! ### What an allowed document shows -/

/-- Matches of which nothing is left out are reported. -/
theorem reportMatches_reported {limits : Yara.YaraScanLimits} {pack : Yara.CompiledRulePack} {matched : List Yara.RuleMatch}
    {metadataBytes : Nat} {found : List FindingFields}
    (reported : Yara.reportMatches limits pack matched metadataBytes = .ok (found,[])) :
    ∀ m ∈ matched, ∃ f ∈ found, f.code ∈ yaraMatchCodes := by
  induction matched generalizing metadataBytes found with
  | nil => exact fun _ member => absurd member List.not_mem_nil
  | cons m rest ih =>
    rw [Yara.reportMatches] at reported
    split_ifs at reported
    split at reported
    · cases reported
    rename_i definition known
    dsimp only at reported
    split_ifs at reported with more
    · injection reported with same
      exact absurd (Prod.mk.inj same).2 (by simp)
    obtain ⟨⟨later,reasons⟩,ran,same⟩ := bind_ok.mp reported
    injection same with same
    obtain ⟨rfl,none⟩ := Prod.mk.inj same
    obtain ⟨_,rfl⟩ := List.append_eq_nil_iff.mp none
    intro m' member
    rcases List.mem_cons.mp member with rfl | member
    · refine ⟨_,List.mem_cons_self,?_⟩
      rw [yaraFindingPayload,findingPayload_code]
      exact (Yara.rule_codes definition (List.mem_of_find?_eq_some known)).1
    · obtain ⟨f,listed,code⟩ := ih ran m' member
      exact ⟨f,List.mem_cons_of_mem _ listed,code⟩

/-- A complete scan that reports no rule had nothing to report. -/
theorem scan_silent {limits : Yara.YaraScanLimits} {surroundings : Yara.Environment} {pack : Yara.CompiledRulePack}
    {engine : Yara.Engine} {rules : Yara.YaraAnalysis}
    (scanned : Yara.scanTopLevelFile limits surroundings pack engine = .ok rules) (complete : rules.parserStatus = .COMPLETE)
    (silent : ∀ f ∈ rules.findings, f.code ∉ yaraMatchCodes) : engine = .ok ([],[]) := by
  match engine with
  | .error .TimeoutError =>
    cases scanned
    cases complete
  | .error .Error =>
    cases scanned
    cases complete
  | .ok (matched,warnings) =>
    obtain ⟨⟨found,reasons⟩,reported,same⟩ := bind_ok.mp scanned
    injection same with same
    subst same
    have none : Yara.warningReasons warnings ++
        Yara.mark .matchedRuleLimit (limits.maxMatchedRules < matched.length) ++ reasons = [] := by
      simpa [Yara.result] using complete
    obtain ⟨before,rfl⟩ := List.append_eq_nil_iff.mp none
    obtain ⟨quiet,_⟩ := List.append_eq_nil_iff.mp before
    have ordered : Yara.orderedMatches limits matched = [] := by
      refine List.eq_nil_iff_forall_not_mem.mpr fun m member => ?_
      obtain ⟨f,listed,code⟩ := reportMatches_reported reported m member
      refine silent f ?_ code
      simpa [Yara.result,none] using listed
    have room : 0 < limits.maxMatchedRules := limits.positive _ (by simp)
    have unmatched : matched = [] := by
      rcases List.take_eq_nil_iff.mp ordered with zero | sorted
      · omega
      · rw [← List.length_eq_zero_iff,← Ordered.sortedBy_length Yara.RuleMatch.rule matched,sorted]
        rfl
    cases warnings with
    | nil => rw [unmatched]
    | cons warning more => cases warning <;> cases quiet

theorem runYaraAnalysis_silent {rules : Yara.YaraAnalysis} (ran : runYaraAnalysis env = .ok rules)
    (complete : rules.parserStatus = .COMPLETE) (silent : ∀ f ∈ rules.findings, f.code ∉ yaraMatchCodes) :
    env.engine = .ok ([],[]) := by
  unfold runYaraAnalysis at ran
  split at ran
  · cases ran
  · exact scan_silent (mapError_ok.mp ran) complete silent

/-- What is asked of the name of the file, in view of the family of its content. -/
structure Inconspicuous (tables : UnicodeTables) (filename : Text) (family : FileFamily) : Prop where
  extension : hasDangerousDoubleExtension tables filename = false
  bidi : bidiCodepoints filename 16 = []
  family : ∀ families, _EXPECTED_FAMILIES.lookup ((finalExtension tables filename).getD []) = some families →
    family ∈ families

def nameCodes : List Text := [lit "FILE_DOUBLE_EXTENSION",lit "FILE_BIDI_OVERRIDE",lit "FILE_TYPE_MISMATCH"]

theorem securityFindings_silent {tables : UnicodeTables} {filename : Text} (identification : FileIdentification)
    (claimed : Option Text)
    (silent : ∀ f ∈ securityFindings tables filename identification claimed, f.code ∉ nameCodes) :
    Inconspicuous tables filename identification.family := by
  constructor
  · by_contra shown
    refine silent (findingPayload (lit "FILE_DOUBLE_EXTENSION")
      [(lit "final_extension",optionalText (finalExtension tables filename))] (name_codes _ (by simp))) ?_ ?_
    · simp [securityFindings,Bool.eq_true_of_not_eq_false shown]
    · rw [findingPayload_code]
      simp [nameCodes]
  · by_contra shown
    refine silent (findingPayload (lit "FILE_BIDI_OVERRIDE")
      [(lit "codepoints",.arr ((bidiCodepoints filename 16).map .str))] (name_codes _ (by simp))) ?_ ?_
    · simp [securityFindings,shown]
    · rw [findingPayload_code]
      simp [nameCodes]
  · intro families expected
    by_contra shown
    refine silent (findingPayload (lit "FILE_TYPE_MISMATCH")
      [(lit "claimed_extension",optionalText (finalExtension tables filename)),
       (lit "observed_family",.str (familyValue identification.family))] (name_codes _ (by simp))) ?_ ?_
    · simp [securityFindings,shown,expected]
    · rw [findingPayload_code]
      simp [nameCodes]

/-- The codes of the findings that say what the content shows. -/
theorem weighty_codes : (∀ code ∈ nameCodes ++ yaraMatchCodes, Weighty code) ∧
    ∀ c ∈ observations, c ≠ .encrypted → Weighty c.code := by
  decide +kernel

/-- An archive that is seen as a whole shows no encrypted entry. -/
theorem legible_plain {lib : Archive.Library} {a : Bytes} {infos : List Archive.ZipInfo}
    (listed : opened lib a = .entries infos) (legible : ∀ info ∈ infos, Legible lib info) : ¬Exhibits lib a .encrypted := by
  rintro ⟨before,info,after,split,directory,symlink,encrypted⟩
  have member : info ∈ infos := by
    have all : infos = before ++ info :: after := by
      rw [← split,listed]
      rfl
    rw [all]
    simp
  rcases legible info member with isDirectory | isSymlink | ⟨plain,_⟩
  · rw [directory] at isDirectory
    cases isDirectory
  · rw [symlink] at isSymlink
    cases isSymlink
  · rw [encrypted] at plain
    cases plain

/-- A package that is no Office document, analyzed completely and without weighty findings. -/
theorem package_clear {content : Bytes} {family : FileFamily} {structural : Structural}
    (package : family = .ZIP ∨ family = .OOXML_CANDIDATE)
    (plain : Ooxml.analyzeOoxml env.office Vba.DEFAULT_OFFICE_LIMITS content = .ok none)
    (structured : analyzeStructure env content family = .ok structural) (complete : structural.complete = true)
    (light : ∀ f ∈ structural.findings, ¬Weighty f.code) (full : env.archive.Full)
    (free : Set.InjOn env.archive.sha256 (nestedFiles env.archive content)) :
    ∀ a, a = content ∨ a ∈ nestedFiles env.archive content →
      (∃ infos, opened env.archive a = .entries infos ∧ ∀ info ∈ infos, Legible env.archive info) ∧
        ∀ c ∈ observations, ¬Exhibits env.archive a c := by
  obtain ⟨analysis,analyzed,_⟩ | ⟨analysis,_,inspected,rfl⟩ := analyzeStructure_package package structured
  · obtain ⟨office,found,_⟩ := runOfficeAnalysis_some (package_not_ole package) analyzed
    rw [plain] at found
    cases found
  obtain ⟨archive,ran,rfl⟩ := runArchiveAnalysis_ok inspected
  have whole : archive.status = .COMPLETE := of_decide_eq_true complete
  intro a reachable
  obtain ⟨infos,listed,legible⟩ := Archive.complete_seen full free ran whole a reachable
  refine ⟨⟨infos,listed,legible⟩,fun c observed exhibits => ?_⟩
  by_cases encrypted : c = .encrypted
  -- The finding of an encrypted entry need not be weighty, but its archive is not complete.
  · exact legible_plain listed legible (encrypted ▸ exhibits)
  · have shown := (Archive.complete_shown full free ran whole c observed).mpr ⟨a,reachable,exhibits⟩
    obtain ⟨f,member,code⟩ := List.mem_map.mp shown
    exact light f member (code ▸ weighty_codes.2 c observed encrypted)

theorem parseRequest_sent {r : WorkerRequest floats} (valid : validateRequest r = .ok ()) :
    parseRequest floats r.toJson = .ok (Ordered.sortedBy Prod.fst (Json.canonicalFields (requestFields r))) := by
  simp only [validateRequest,require_bind_ok,require_ok] at valid
  obtain ⟨_,_,_,_,schema,absolute,_⟩ := valid
  have loaded : Json.loads floats.reprToken r.toJson =
      some (.obj (Ordered.sortedBy Prod.fst (Json.canonicalFields (requestFields r)))) :=
    Json.loads_plain (Sanitizer.request_plain r)
  have at_ (key : Text) := Sanitizer.get_canonical (Sanitizer.requestFields_distinct r) key
  have schemaVersion : get (requestFields r) (lit "schema_version") = some (.str r.schemaVersion) := rfl
  have samplePath : get (requestFields r) (lit "sample_path") = some (.str r.samplePath) := rfl
  rw [parseRequest,loaded]
  refine require_bind_ok.mpr ⟨?_,require_bind_ok.mpr ⟨?_,rfl⟩⟩
  · rw [at_,schemaVersion,schema]
    rfl
  · rw [at_,samplePath]
    exact absolute

theorem requestFilename_sent (r : WorkerRequest floats) :
    requestFilename (Ordered.sortedBy Prod.fst (Json.canonicalFields (requestFields r))) = some r.originalFilename := by
  have filename : get (requestFields r) (lit "original_filename") = some (.str r.originalFilename) := rfl
  rw [requestFilename,Sanitizer.get_canonical (Sanitizer.requestFields_distinct r),filename]
  rfl

/-- What the worker finds nothing wrong with: its rules match nowhere, its name says what it is, and an archive, with
    everything that is nested in it, has been seen as a whole and shows nothing. -/
structure Clear (env : Environment) (filename : Text) (content : Bytes) (family : FileFamily) : Prop where
  rules : env.engine = .ok ([],[])
  name : Inconspicuous env.tables filename family
  archive : family = .ZIP ∨ family = .OOXML_CANDIDATE →
    Ooxml.analyzeOoxml env.office Vba.DEFAULT_OFFICE_LIMITS content = .ok none →
    env.archive.Full → Set.InjOn env.archive.sha256 (nestedFiles env.archive content) →
    ∀ a, a = content ∨ a ∈ nestedFiles env.archive content →
      (∃ infos, opened env.archive a = .entries infos ∧ ∀ info ∈ infos, Legible env.archive info) ∧
        ∀ c ∈ observations, ¬Exhibits env.archive a c

/-- A document that the policy allows is clear, whatever its content and however the worker ends. -/
theorem allowed_clear (env : Environment) (floats : Floats) (isolation : Isolation) (r : WorkerRequest floats)
    (valid : validateRequest r = .ok ()) (digest : List UInt8 → Text) (failureCode : Option Text) (scanState : ScanState)
    (evaluatedAt : Option DateTime) (now : Int) (e : PolicyEvaluation)
    (evaluated : evaluatePolicy digest shipped
      (Orchestrator.analyze (execution isolation (main env floats r.toJson))).result failureCode scanState evaluatedAt now =
        .ok e)
    (allowed : e.decision = .ALLOW) :
    ∃ content identification, env.content = some content ∧
      identifyFile env.tables env.mimeRun env.descriptionRun = some identification ∧
      Clear env r.originalFilename content identification.family := by
  obtain ⟨result,passed,success,_⟩ := released_result evaluated (.inl allowed)
  obtain ⟨request,parsed,ended⟩ := main_analyzed (execution_analyzed (analyze_result passed))
  rw [parseRequest_sent valid] at parsed
  injection parsed with sent
  rw [← sent,requestFilename_sent] at ended
  obtain ⟨content,identification,structural,rules,succeeds⟩ := analyzeSample_succeeds ended success
  obtain ⟨name,claim,named,_,reported⟩ := succeeds.reported
  obtain rfl := Option.some.inj named
  have light {f : FindingFields} (member : f ∈ (resultFields env content identification r.originalFilename claim structural
      rules).findings) : ¬Weighty f.code := by
    refine allowed_light evaluated allowed ⟨result,passed,f,?_,rfl⟩
    have same : result.findings = _ := congrArg ResultFields.findings reported
    rw [same]
    exact member
  refine ⟨content,identification,succeeds.read,succeeds.identified,?_,?_,?_⟩
  · refine runYaraAnalysis_silent succeeds.scanned succeeds.scannedAll fun f member code => ?_
    exact light (by simp [resultFields,member]) (weighty_codes.1 _ (List.mem_append_right _ code))
  · refine securityFindings_silent identification claim fun f member code => ?_
    exact light (by simp [resultFields,member]) (weighty_codes.1 _ (List.mem_append_left _ code))
  · intro package plain full free
    refine package_clear package plain succeeds.structured succeeds.complete (fun f member => ?_) full free
    exact light (by simp [resultFields,member])

theorem allowed_clear_notes : notesEnvironment.engine = .ok ([],[]) ∧
    ∀ a, a = Archive.zipBytes notesMembers ∨ a ∈ nestedFiles notesLibrary (Archive.zipBytes notesMembers) →
      (∃ infos, opened notesLibrary a = .entries infos ∧ ∀ info ∈ infos, Legible notesLibrary info) ∧
        ∀ c ∈ observations, ¬Exhibits notesLibrary a c := by
  obtain ⟨e,evaluated,allowed⟩ := notes_allowed
  obtain ⟨content,identification,read,identified,clear⟩ := allowed_clear notesEnvironment Sanitizer.wholeFloats
    (.ran false false) notesRequest notes_analyzed.1 sha256 none .ANALYZING none 0 e evaluated allowed
  obtain rfl : Archive.zipBytes notesMembers = content := Option.some.inj read
  have package : identification.family = .ZIP := by
    have family := notes_analyzed.2.2
    rw [identified] at family
    exact Option.some.inj family
  exact ⟨clear.rules,clear.archive (.inl package) notes_plain (Archive.storedLibrary_full _)
    (Archive.free_once notes_inside.1 notes_inside.2)⟩

end DocGuard.Worker
