import DocGuard.Registry

/-!
The policy evaluation of the trusted side: contributions and their score, the
reasons that forbid a release, the decision with its precedence, and the checks
that the resulting evaluation has to pass. With the shipped registry the
evaluation always returns, and `evaluatePolicy_spec` says what it decides.
-/
namespace DocGuard.Engine
open DocGuard.Ordered DocGuard.Checks DocGuard.Contract DocGuard.Domain DocGuard.Registry
open DocGuard.Sha256 (sha256)

/-! ### Evaluations -/

inductive RiskBand where
  | LOW
  | MODERATE
  | HIGH
  | CRITICAL
deriving DecidableEq, Repr

structure PolicyContribution where
  code : Text
  contribution : Int
  explanation : Text
deriving DecidableEq

structure PolicyReason where
  code : Text
  explanation : Text
deriving DecidableEq

structure EvaluationFields where
  policyVersion : Text
  policyFingerprint : Text
  riskScore : Int
  riskBand : RiskBand
  decision : Decision
  releaseEligible : Bool
  analysisComplete : Bool
  hardBlockReasons : List Text := []
  mandatoryQuarantineReasons : List Text := []
  compoundRulesTriggered : List Text := []
  decisionReasons : List PolicyReason := []
  contributions : List PolicyContribution := []
  evaluatedAt : DateTime
deriving DecidableEq

def validateContribution (c : PolicyContribution) : Except ValidationError Unit := do
  require (lengthWithin 1 128 c.code) (.constraint (lit "code"))
  require (0 ≤ c.contribution ∧ c.contribution ≤ 100) (.constraint (lit "contribution"))
  require (lengthWithin 1 500 c.explanation) (.constraint (lit "explanation"))

def validateReason (r : PolicyReason) : Except ValidationError Unit := do
  require (lengthWithin 1 128 r.code) (.constraint (lit "code"))
  require (lengthWithin 1 500 r.explanation) (.constraint (lit "explanation"))

/-- `require_sorted_unique_codes` -/
def requireSortedUniqueCodes (values : List Text) : Except ValidationError Unit :=
  require (sortedSet values = values) (.invalid (lit "policy reason codes must be sorted and unique"))

/-- `validate_release_semantics` -/
def validateReleaseSemantics (e : EvaluationFields) : Except ValidationError Unit := do
  require (e.releaseEligible = decide (e.decision = .ALLOW))
    (.invalid (lit "release eligibility must be true only for ALLOW"))
  require (e.hardBlockReasons = [] ∨ e.decision = .BLOCK) (.invalid (lit "hard-block reasons require BLOCK"))
  require (e.decision = .ALLOW → e.analysisComplete = true) (.invalid (lit "incomplete analysis cannot be ALLOW"))

/-- The checks of `PolicyEvaluation`, those of its contributions and reasons included. -/
def validateEvaluation (e : EvaluationFields) : Except ValidationError Unit := do
  require (lengthWithin 1 32 e.policyVersion) (.constraint (lit "policy_version"))
  require (e.policyFingerprint.length = 64 ∧ e.policyFingerprint.all lowerHex) (.constraint (lit "policy_fingerprint"))
  require (0 ≤ e.riskScore ∧ e.riskScore ≤ 100) (.constraint (lit "risk_score"))
  require (e.hardBlockReasons.length ≤ 16) (.constraint (lit "hard_block_reasons"))
  require (e.mandatoryQuarantineReasons.length ≤ 32) (.constraint (lit "mandatory_quarantine_reasons"))
  require (e.compoundRulesTriggered.length ≤ 16) (.constraint (lit "compound_rules_triggered"))
  require (e.decisionReasons.length ≤ 64) (.constraint (lit "decision_reasons"))
  forAll validateReason e.decisionReasons
  require (e.contributions.length ≤ 64) (.constraint (lit "contributions"))
  forAll validateContribution e.contributions
  require (e.evaluatedAt.aware = true) (.invalid (lit "policy evaluation timestamp must be timezone-aware"))
  forAll requireSortedUniqueCodes [e.hardBlockReasons,e.mandatoryQuarantineReasons,e.compoundRulesTriggered]
  validateReleaseSemantics e

/-- An evaluation that passed its checks. -/
structure PolicyEvaluation extends EvaluationFields where
  valid : validateEvaluation toEvaluationFields = .ok ()

def PolicyEvaluation.build (e : EvaluationFields) : Except ValidationError PolicyEvaluation :=
  match checked : validateEvaluation e with
  | .ok () => .ok ⟨e,checked⟩
  | .error error => .error error

/-! ### The evaluation -/

/-- Why an evaluation fails: what the registry, the engine and the models raise. -/
inductive PolicyError where
  | registry (message : Text)
  | evaluation (message : Text)
  | score (message : Text)
  | invalid (error : ValidationError)
deriving DecidableEq

/-- `_SUPPORTED_RELEASE_TYPES` -/
def supportedReleaseTypes : List Text :=
  [lit "PDF",lit "ZIP",lit "TEXT",lit "OFFICE_WORD_OOXML",lit "OFFICE_EXCEL_OOXML",lit "OFFICE_POWERPOINT_OOXML",
   lit "OFFICE_WORD_OLE",lit "OFFICE_EXCEL_OLE",lit "OFFICE_POWERPOINT_OLE"]

/-- The keys of `_ANALYSIS_REASON_EXPLANATIONS`. -/
inductive AnalysisReason where
  | RESULT_MISSING
  | STATUS_FAILED
  | STATUS_TIMEOUT
  | STATUS_UNSUPPORTED
  | FAILURE
  | LIFECYCLE_INCONSISTENCY
  | UNSUPPORTED_DETECTED_TYPE
  | CONTRADICTION
  | EVALUATION_FAILURE
deriving DecidableEq, Repr

def AnalysisReason.code : AnalysisReason → Text
  | RESULT_MISSING => lit "POLICY_ANALYSIS_RESULT_MISSING"
  | STATUS_FAILED => lit "POLICY_ANALYSIS_STATUS_FAILED"
  | STATUS_TIMEOUT => lit "POLICY_ANALYSIS_STATUS_TIMEOUT"
  | STATUS_UNSUPPORTED => lit "POLICY_ANALYSIS_STATUS_UNSUPPORTED"
  | FAILURE => lit "POLICY_ANALYSIS_FAILURE"
  | LIFECYCLE_INCONSISTENCY => lit "POLICY_LIFECYCLE_INCONSISTENCY"
  | UNSUPPORTED_DETECTED_TYPE => lit "POLICY_UNSUPPORTED_DETECTED_TYPE"
  | CONTRADICTION => lit "POLICY_ANALYSIS_CONTRADICTION"
  | EVALUATION_FAILURE => lit "POLICY_EVALUATION_FAILURE"

def AnalysisReason.explanation : AnalysisReason → Text
  | RESULT_MISSING => lit "No validated worker result was available."
  | STATUS_FAILED => lit "The worker reported failed analysis."
  | STATUS_TIMEOUT => lit "The trusted parent terminated analysis on timeout."
  | STATUS_UNSUPPORTED => lit "The submitted content was unsupported."
  | FAILURE => lit "Trusted orchestration reported an analysis failure."
  | LIFECYCLE_INCONSISTENCY => lit "The scan lifecycle was not valid for policy evaluation."
  | UNSUPPORTED_DETECTED_TYPE => lit "The observed content family is not release-supported."
  | CONTRADICTION => lit "The worker status conflicts with a finding that reports incomplete analysis."
  | EVALUATION_FAILURE => lit "The trusted policy engine failed; release remains prohibited."

def riskBandForScore (score : Int) : Except PolicyError RiskBand := do
  require (0 ≤ score ∧ score ≤ 100) (.score (lit "risk score must be within 0-100"))
  pure (if 70 ≤ score then .CRITICAL else if 40 ≤ score then .HIGH else if 20 ≤ score then .MODERATE else .LOW)

/-- `sorted({finding.code for finding in result.findings}) if result else []` -/
def findingCodes : Option AnalysisResult → List Text
  | some r => sortedSet (r.findings.map (·.code))
  | none => []

/-- A code that reports incomplete analysis. -/
def partialCode (code : Text) : Bool :=
  code.endsWith (lit "_PARTIAL_ANALYSIS") || code.endsWith (lit "_MALFORMED")

/-- `status_reasons` -/
def statusReason : AnalysisStatus → List AnalysisReason
  | .SUCCESS => []
  | .FAILED => [.STATUS_FAILED]
  | .TIMEOUT => [.STATUS_TIMEOUT]
  | .UNSUPPORTED => [.STATUS_UNSUPPORTED]

def supportedType (detectedType : Option Text) : Bool :=
  match detectedType with
  | some t => decide (t ∈ supportedReleaseTypes)
  | none => false

def resultReasons (codes : List Text) : Option AnalysisResult → List AnalysisReason
  | none => [.RESULT_MISSING]
  | some r => statusReason r.status ++
      (if supportedType r.detectedType then [] else [.UNSUPPORTED_DETECTED_TYPE]) ++
      (if r.status = .SUCCESS ∧ codes.any partialCode then [.CONTRADICTION] else [])

/-- `_completeness_reasons` -/
def completenessReasons (result : Option AnalysisResult) (failureCode : Option Text) (scanState : ScanState)
    (codes : List Text) : List AnalysisReason :=
  resultReasons codes result ++
    (if failureCode.isSome then [.FAILURE] else []) ++
    (if scanState = .ANALYZING ∨ scanState = .COMPLETED then [] else [.LIFECYCLE_INCONSISTENCY])

def findingContribution (p : FindingPolicy) : PolicyContribution :=
  ⟨p.findingCode,p.contribution,p.explanation⟩

def compoundContribution (c : CompoundPolicy) : PolicyContribution := ⟨c.name,c.contribution,c.explanation⟩

section Evaluation
variable (reg : PolicyRegistry) (codes : List Text)

/-- `FINDING_POLICIES[code]` for each of the codes. -/
def policiesOf : List FindingPolicy := codes.filterMap reg.findingPolicy

def triggeredCompounds : List CompoundPolicy := reg.compounds.filter (fun c => decide (c.requiredFindings ⊆ codes))

def contributionsOf : List PolicyContribution :=
  sortedBy (·.code) ((policiesOf reg codes).map findingContribution ++
    (triggeredCompounds reg codes).map compoundContribution)

def riskScoreOf : Int := min 100 ((contributionsOf reg codes).map (·.contribution)).sum

def hardBlockReasonsOf : List Text :=
  sortedBy id (((policiesOf reg codes).filter (·.hardBlock)).map (·.findingCode))

def mandatoryReasonsOf (completeness : List AnalysisReason) : List Text :=
  sortedSet (((policiesOf reg codes).filter (fun p => decide (p.minimumDecision = some .QUARANTINE))).map
      (·.findingCode) ++
    ((triggeredCompounds reg codes).filter (fun c => decide (c.minimumDecision = some .QUARANTINE))).map (·.name) ++
    completeness.map (·.code))

def decisionOf (hardBlock mandatory : List Text) (riskScore : Int) : Decision :=
  if hardBlock ≠ [] then .BLOCK
  else if mandatory ≠ [] ∨ 40 ≤ riskScore then .QUARANTINE
  else if 20 ≤ riskScore then .REVIEW
  else .ALLOW

/-- `_decision_reasons` -/
def decisionReasonsOf (completeness : List AnalysisReason) : List PolicyReason :=
  sortedBy (·.code) ((policiesOf reg codes).map (fun p => ⟨p.findingCode,p.explanation⟩) ++
    (triggeredCompounds reg codes).map (fun c => ⟨c.name,c.explanation⟩) ++
    completeness.map (fun r => ⟨r.code,r.explanation⟩))

/-- The fields that `evaluate_policy` passes to `PolicyEvaluation`. -/
def evaluationFields (completeness : List AnalysisReason) (riskBand : RiskBand) (evaluatedAt : DateTime) :
    EvaluationFields :=
  let decision := decisionOf (hardBlockReasonsOf reg codes) (mandatoryReasonsOf reg codes completeness)
    (riskScoreOf reg codes)
  { policyVersion := reg.version
    policyFingerprint := reg.fingerprint
    riskScore := riskScoreOf reg codes
    riskBand := riskBand
    decision := decision
    releaseEligible := decide (decision = .ALLOW)
    analysisComplete := completeness.isEmpty
    hardBlockReasons := hardBlockReasonsOf reg codes
    mandatoryQuarantineReasons := mandatoryReasonsOf reg codes completeness
    compoundRulesTriggered := sortedBy id ((triggeredCompounds reg codes).map (·.name))
    decisionReasons := decisionReasonsOf reg codes completeness
    contributions := contributionsOf reg codes
    evaluatedAt := evaluatedAt }

end Evaluation

/-- `evaluate_policy`; `now` is what the clock shows, as `datetime.now(UTC)`. -/
def evaluatePolicy (digest : List UInt8 → Text) (reg : PolicyRegistry) (result : Option AnalysisResult)
    (failureCode : Option Text) (scanState : ScanState) (evaluatedAt : Option DateTime) (now : Int) :
    Except PolicyError PolicyEvaluation := do
  (validatePolicyRegistry digest reg).mapError .registry
  let codes := findingCodes result
  require (∀ code ∈ codes, (reg.findingPolicy code).isSome)
    (.evaluation (lit "validated findings lack trusted policy definitions"))
  (forAll validateContribution (contributionsOf reg codes)).mapError .invalid
  let riskBand ← riskBandForScore (riskScoreOf reg codes)
  let completeness := completenessReasons result failureCode scanState codes
  (forAll validateReason (decisionReasonsOf reg codes completeness)).mapError .invalid
  (PolicyEvaluation.build
    (evaluationFields reg codes completeness riskBand (evaluatedAt.getD ⟨now,true⟩))).mapError .invalid

/-- `fail_closed_policy_evaluation` -/
def failClosedPolicyEvaluation (reg : PolicyRegistry) (evaluatedAt : Option DateTime) (now : Int) :
    Except PolicyError PolicyEvaluation := do
  let reason : PolicyReason := ⟨AnalysisReason.EVALUATION_FAILURE.code,AnalysisReason.EVALUATION_FAILURE.explanation⟩
  (validateReason reason).mapError .invalid
  (PolicyEvaluation.build
    { policyVersion := reg.version
      policyFingerprint := reg.fingerprint
      riskScore := 0
      riskBand := .LOW
      decision := .QUARANTINE
      releaseEligible := false
      analysisComplete := false
      mandatoryQuarantineReasons := [AnalysisReason.EVALUATION_FAILURE.code]
      decisionReasons := [reason]
      evaluatedAt := evaluatedAt.getD ⟨now,true⟩ }).mapError .invalid

end DocGuard.Engine
