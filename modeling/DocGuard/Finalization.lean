import DocGuard.Decisions
import DocGuard.Recovery

/-!
What the final transaction of a scan writes: the row that it leaves is settled,
carries one policy evaluation throughout, and is release eligible only when that
evaluation allows the release of a complete analysis.
-/
namespace DocGuard.Finalization
open DocGuard.Checks DocGuard.Domain DocGuard.Registry DocGuard.Engine DocGuard.Decisions DocGuard.Orchestrator
open DocGuard.Database DocGuard.ScanService DocGuard.Recovery

/-- A finding that forbids a release: a hard block, a QUARANTINE floor, or a report of incomplete analysis. -/
def Forbidden (code : Text) : Prop :=
  (∃ p ∈ shippedPolicies, p.findingCode = code ∧ (p.hardBlock = true ∨ p.minimumDecision = some .QUARANTINE)) ∨
  partialCode code = true

/-- What a row that may be released has to be. -/
structure Releasable (row : ScanRow) : Prop where
  decision : row.decision = some .ALLOW
  state : row.state = .COMPLETED
  workerStatus : row.workerStatus = .finished .SUCCESS
  noError : row.analysisErrorCode = none
  evaluation : ∃ e, row.policyEvaluation = some e ∧ e.decision = .ALLOW ∧ e.analysisComplete = true
  detectedType : ∃ t ∈ supportedReleaseTypes, row.detectedType = some t
  findings : ∀ f ∈ row.findings, ¬Forbidden f.code

/-- The columns that no transaction after the registration changes. -/
structure SameScan (row row' : ScanRow) : Prop where
  id : row'.id = row.id
  storageKey : row'.storageKey = row.storageKey
  origin : row'.origin = row.origin
  parentScanId : row'.parentScanId = row.parentScanId
  sha256 : row'.sha256 = row.sha256
  sizeBytes : row'.sizeBytes = row.sizeBytes

theorem SameScan.trans {a b c : ScanRow} (first : SameScan a b) (second : SameScan b c) : SameScan a c :=
  ⟨second.id.trans first.id,second.storageKey.trans first.storageKey,second.origin.trans first.origin,
    second.parentScanId.trans first.parentScanId,second.sha256.trans first.sha256,
    second.sizeBytes.trans first.sizeBytes⟩

/-- The columns of one policy evaluation agree with its dump. -/
structure Evaluated (row : ScanRow) (e : EvaluationFields) : Prop where
  dump : row.policyEvaluation = some e
  decision : row.decision = some e.decision
  releaseEligible : row.releaseEligible = e.releaseEligible
  policyVersion : row.policyVersion = some e.policyVersion
  policyFingerprint : row.policyFingerprint = some e.policyFingerprint

theorem quarantineRow_same (row : ScanRow) (now updated : Int) : SameScan row (quarantineRow row now updated) :=
  ⟨rfl,rfl,rfl,rfl,rfl,rfl⟩

theorem markAnalyzing_same (row : ScanRow) (now : Int) : SameScan row (markAnalyzing row now) :=
  ⟨rfl,rfl,rfl,rfl,rfl,rfl⟩

/-! ### The outcome -/

section Outcome
variable {outcome : AnalysisOutcome} {now : Int} {row recorded : ScanRow}

theorem recordOutcome_same (done : recordOutcome outcome now row = .ok recorded) : SameScan row recorded := by
  unfold recordOutcome at done
  split at done
  · cases done
    exact ⟨rfl,rfl,rfl,rfl,rfl,rfl⟩
  · obtain ⟨_,_,same⟩ := bind_ok.mp done
    cases same
    exact ⟨rfl,rfl,rfl,rfl,rfl,rfl⟩

theorem recordOutcome_settled (done : recordOutcome outcome now row = .ok recorded) :
    recorded.state = .COMPLETED ∨ recorded.state = .QUARANTINED := by
  unfold recordOutcome at done
  split at done
  · cases done
    exact .inr rfl
  · obtain ⟨_,_,same⟩ := bind_ok.mp done
    cases same
    simp only
    split
    · exact .inl rfl
    · exact .inr rfl

/-- The row of a successful result, recorded. -/
structure Successful (result : AnalysisResult) (row recorded : ScanRow) : Prop where
  state : recorded.state = .COMPLETED
  workerStatus : recorded.workerStatus = .finished .SUCCESS
  noError : recorded.analysisErrorCode = none
  detectedType : recorded.detectedType = result.detectedType
  findings : row.findings = [] → ∀ f ∈ recorded.findings, ∃ g ∈ result.findings, g.code = f.code

theorem findingRecord_code {f : FindingFields} {record : FindingRecord} (done : findingRecord f = .ok record) :
    f.code = record.code := by
  unfold findingRecord at done
  split at done
  · cases done
  · cases done
    rfl

theorem recordOutcome_successful {result : AnalysisResult} (given : outcome.result = some result)
    (success : result.status = .SUCCESS) (done : recordOutcome outcome now row = .ok recorded) :
    Successful result row recorded := by
  simp only [recordOutcome,given,success,if_true] at done
  obtain ⟨records,all,same⟩ := bind_ok.mp done
  cases same
  refine ⟨rfl,rfl,rfl,rfl,fun none f member => ?_⟩
  simp only [none,List.nil_append] at member
  obtain ⟨g,listed,recorded⟩ := mapM_ok_mem all f member
  exact ⟨g,listed,findingRecord_code recorded⟩

theorem findingRecord_error {f : FindingFields} {e : Exn} (failed : findingRecord f = .error e) : e = .other := by
  unfold findingRecord at failed
  split at failed
  · exact (Except.error.inj failed).symm
  · cases failed

theorem recordOutcome_error {e : Exn} (failed : recordOutcome outcome now row = .error e) : e = .other := by
  unfold recordOutcome at failed
  split at failed
  · cases failed
  · rcases bind_error.mp failed with records | ⟨_,_,impossible⟩
    · obtain ⟨f,_,reason⟩ := mapM_error_mem records
      exact findingRecord_error reason
    · cases impossible

end Outcome

/-! ### The final transaction -/

/-- What the final transaction made of a row: it recorded an outcome, and then a policy evaluation. -/
theorem finalize_cases {env : Env} {outcome : AnalysisOutcome} {row row' : ScanRow} {i : Choice}
    (done : finalize env outcome row i = .ok ((),row')) :
    ∃ recorded, recordOutcome outcome i.now row = .ok recorded ∧
      ((∃ e, attempt env outcome row.state i = .ok e ∧ row' = { recordEvaluation e recorded with updatedAt := i.now }) ∨
      ∃ e, failClosedPolicyEvaluation shipped none i.now = .ok e ∧
        row' = { recordEvaluation e { recorded with
          analysisErrorCode := some (lit "policy_evaluation_failed") } with updatedAt := i.now }) := by
  obtain ⟨recorded,first,rest⟩ := bind_ok.mp done
  refine ⟨recorded,first,?_⟩
  split at rest
  · rename_i e evaluated
    cases rest
    exact .inl ⟨e,evaluated,rfl⟩
  · split at rest
    · cases rest
    · rename_i e closed
      cases rest
      exact .inr ⟨e,closed,rfl⟩

/-- The final transaction itself raises no database error. -/
theorem finalize_error {env : Env} {outcome : AnalysisOutcome} {row : ScanRow} {i : Choice} {e : Exn}
    (failed : finalize env outcome row i = .error e) : e = .other := by
  rcases bind_error.mp failed with recording | ⟨recorded,_,rest⟩
  · exact recordOutcome_error recording
  · split at rest
    · cases rest
    · split at rest
      · exact (Except.error.inj rest).symm
      · cases rest

theorem failClosed_fields {reg : PolicyRegistry} {evaluatedAt : Option DateTime} {now : Int} {e : PolicyEvaluation}
    (done : failClosedPolicyEvaluation reg evaluatedAt now = .ok e) :
    e.releaseEligible = false ∧ e.decision = .QUARANTINE := by
  simp only [failClosedPolicyEvaluation,bind_ok,mapError_ok] at done
  obtain ⟨_,_,built⟩ := done
  have fields := build_fields built
  exact ⟨congrArg EvaluationFields.releaseEligible fields,congrArg EvaluationFields.decision fields⟩

theorem recordEvaluation_evaluated (e : PolicyEvaluation) (row : ScanRow) (updated : Int) :
    Evaluated { recordEvaluation e row with updatedAt := updated } e.toEvaluationFields :=
  ⟨rfl,rfl,rfl,rfl,rfl⟩

section Final
variable {env : Env} {outcome : AnalysisOutcome} {row row' : ScanRow} {i : Choice}

theorem finalize_same (done : finalize env outcome row i = .ok ((),row')) : SameScan row row' := by
  obtain ⟨recorded,first,⟨e,_,rfl⟩ | ⟨e,_,rfl⟩⟩ := finalize_cases done
  · exact (recordOutcome_same first).trans ⟨rfl,rfl,rfl,rfl,rfl,rfl⟩
  · exact (recordOutcome_same first).trans ⟨rfl,rfl,rfl,rfl,rfl,rfl⟩

theorem finalize_settled (done : finalize env outcome row i = .ok ((),row')) :
    row'.state = .COMPLETED ∨ row'.state = .QUARANTINED := by
  obtain ⟨recorded,first,⟨e,_,rfl⟩ | ⟨e,_,rfl⟩⟩ := finalize_cases done
  all_goals
    simp only [recordEvaluation]
    split
    · exact .inr rfl
    · exact recordOutcome_settled first

theorem finalize_evaluated (done : finalize env outcome row i = .ok ((),row')) : ∃ e, Evaluated row' e := by
  obtain ⟨recorded,_,⟨e,_,rfl⟩ | ⟨e,_,rfl⟩⟩ := finalize_cases done
  · exact ⟨_,recordEvaluation_evaluated e _ _⟩
  · exact ⟨_,recordEvaluation_evaluated e _ _⟩

/-- A release needs an evaluation that returned, of a row that was read in a regular state. -/
theorem finalize_released (done : finalize env outcome row i = .ok ((),row')) (released : row'.releaseEligible = true) :
    ∃ recorded e, recordOutcome outcome i.now row = .ok recorded ∧
      row' = { recordEvaluation e recorded with updatedAt := i.now } ∧ e.decision = .ALLOW ∧
      Decided outcome.result (outcome.failureCode.map (·.value)) row.state e.toEvaluationFields := by
  obtain ⟨recorded,first,⟨e,evaluated,rfl⟩ | ⟨e,closed,rfl⟩⟩ := finalize_cases done
  · unfold attempt at evaluated
    split at evaluated
    · cases evaluated
    · have decided := evaluatePolicy_decided evaluated
      exact ⟨recorded,e,first,rfl,decided.release.mp released,decided⟩
  · have prohibited : e.releaseEligible = true := released
    rw [(failClosed_fields closed).1] at prohibited
    cases prohibited

/-- A row that was not in a regular state when it was read is not released. -/
theorem finalize_irregular (done : finalize env outcome row i = .ok ((),row')) (analyzing : row.state ≠ .ANALYZING)
    (completed : row.state ≠ .COMPLETED) : row'.releaseEligible = false := by
  by_contra released
  obtain ⟨_,e,_,_,allowed,decided⟩ := finalize_released done (by simpa using released)
  exact (decided.allow.mp allowed).2.1 (.inl (.inr (.inr ⟨analyzing,completed⟩)))

/-- A row that is released by the final transaction is releasable. -/
theorem finalize_releasable (done : finalize env outcome row i = .ok ((),row')) (fresh : row.findings = [])
    (released : row'.releaseEligible = true) : Releasable row' := by
  obtain ⟨recorded,e,first,rfl,allowed,decided⟩ := finalize_released done released
  obtain ⟨unblocked,unheld,_⟩ := decided.allow.mp allowed
  have complete : ¬Incomplete outcome.result (outcome.failureCode.map (·.value)) row.state :=
    fun incomplete => unheld (.inl incomplete)
  cases given : outcome.result with
  | none => exact absurd (.inl (by simp [given,IncompleteResult])) complete
  | some result =>
    have regular : ¬IncompleteResult (some result) := fun incomplete => complete (.inl (given ▸ incomplete))
    have success : result.status = .SUCCESS := by
      by_contra failed
      exact regular (.inl failed)
    have recordedSuccess := recordOutcome_successful given success first
    refine ⟨congrArg some allowed,?_,recordedSuccess.workerStatus,recordedSuccess.noError,
      ⟨e.toEvaluationFields,rfl,allowed,decided.complete.mpr complete⟩,?_,?_⟩
    · simp [recordEvaluation,allowed,recordedSuccess.state]
    · by_contra unsupported
      refine regular (.inr (.inl fun t listed same => unsupported ⟨t,listed,?_⟩))
      exact recordedSuccess.detectedType.trans same
    · intro f member forbidden
      obtain ⟨g,listed,same⟩ := recordedSuccess.findings fresh f member
      have present : Present outcome.result f.code := ⟨result,given,g,listed,same⟩
      rcases forbidden with ⟨p,table,code,hard | floor⟩ | partially
      · exact unblocked ⟨p,table,hard,code ▸ present⟩
      · exact unheld (.inr (.inl (.inl ⟨p,table,floor,code ▸ present⟩)))
      · exact regular (.inr (.inr ⟨success,f.code,given ▸ present,partially⟩))

end Final
end DocGuard.Finalization
