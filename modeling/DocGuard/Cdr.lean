import DocGuard.ScanService

/-!
The PDF sanitization: the eligibility of a scan, the rendering of its document
into a candidate, the registration and analysis of the candidate as a scan of its
own, and its promotion to an artifact. The program follows `sanitize_pdf` from
exit to exit; which errors an exit handles is written where the source does.
-/
namespace DocGuard.Cdr
open DocGuard.Ordered DocGuard.Domain DocGuard.Engine DocGuard.Orchestrator DocGuard.Programs DocGuard.Database
open DocGuard.ScanService
open DocGuard.Json (Value)

/-- `^[0-9a-f]{32}$` -/
def hex32 (text : Text) : Bool := text.length == 32 && text.all lowerHex

/-! ### Eligibility -/

structure CdrEligibility where
  eligible : Bool
  scanId : Text
  reasonCodes : List Text

/-- `_policy_evaluation` -/
def policyEvaluation (row : ScanRow) : Option PolicyEvaluation :=
  row.policyEvaluation.bind fun fields => (PolicyEvaluation.build fields).toOption

/-- `_pdf_page_count` -/
def pdfPageCount (metadata : Option (List (Text × Value))) : Option Int :=
  match metadata.bind (fun fields => get fields (lit "pdf")) with
  | some (.obj pdf) =>
    match get pdf (lit "page_count") with
    | some (.int n) => some n
    | _ => none
  | _ => none

/-- `verify_private_document`, for the content found at the path. -/
def verifyPrivateDocument (env : Env) (sha256 : Text) (size maximum : Nat) : Option Bytes → Bool
  | none => false
  | some content => content.length ≤ maximum && env.digest content == sha256 && content.length == size

/-- The reason codes of a scan, `integrity` being the verification of its stored file. -/
def eligibilityReasons (env : Env) (scan : ScanRow) (integrity : Bool) : List Text :=
  let codes := scan.findings.map (·.code)
  let evaluation := policyEvaluation scan
  let pageCount := pdfPageCount scan.analysisMetadata
  sortedSet
    ((if scan.detectedType = some (lit "PDF") then [] else [lit "NOT_PDF"]) ++
    (if scan.workerStatus = .finished .SUCCESS ∧ (scan.state = .COMPLETED ∨ scan.state = .QUARANTINED) then []
      else [lit "ANALYSIS_NOT_SUCCESSFUL"]) ++
    (if evaluation.any (·.analysisComplete) then [] else [lit "ANALYSIS_INCOMPLETE"]) ++
    (if codes.any (· ∈ [lit "PDF_PARTIAL_ANALYSIS",lit "PDF_MALFORMED",lit "PDF_ENCRYPTED"]) then
      [lit "PDF_NOT_RENDERABLE"] else []) ++
    (if scan.decision = some .REVIEW ∨ scan.decision = some .QUARANTINE then [] else [lit "DECISION_NOT_REMEDIABLE"]) ++
    (if scan.decision = some .BLOCK ∨ evaluation.any (fun e => e.hardBlockReasons ≠ []) then [lit "SOURCE_BLOCKED"]
      else []) ++
    (if pageCount.any (fun n => 1 ≤ n ∧ n ≤ env.maxPages) then [] else [lit "PAGE_COUNT_OUT_OF_RANGE"]) ++
    (if hex32 scan.storageKey then (if integrity then [] else [lit "SOURCE_INTEGRITY_FAILED"])
      else [lit "SOURCE_STORAGE_INVALID"]))

/-- `_identity_details` -/
def identityDetails (env : Env) : List (Text × Value) :=
  [(lit "sanitizer_version",.str env.sanitizerVersion),(lit "sanitizer_fingerprint",.str env.sanitizerFingerprint)]

def optionalText : Option Text → Value
  | some t => .str t
  | none => .null

/-- `_append_eligibility` -/
def appendEligibility (env : Env) (e : CdrEligibility) (sourceDecision : Option Decision) (persistedScan : Bool) :
    Program Unit :=
  auditAppend
    { eventType := .CDR_ELIGIBILITY_CHECKED
      scanId := if persistedScan then some e.scanId else none
      outcome := if e.eligible then .SUCCESS else .DENIED
      reasonCode := e.reasonCodes.head?
      details := identityDetails env ++
        [(lit "source_decision",optionalText (sourceDecision.map (·.value))),
         (lit "requested_scan_id",.str e.scanId),(lit "reason_codes",.arr (e.reasonCodes.map .str))] }

/-- The read of a private file and its verification; a failed read is a failed verification. -/
def verifyStored (env : Env) (area : Area) (key sha256 : Text) (size maximum : Nat) : Program Bool :=
  .atomically .step fun w i =>
    (.ok (decide (i.fault = .none) && verifyPrivateDocument env sha256 size maximum (files w area key)),w)

/-- `CdrEligibility(...)`, which checks the identifier. -/
def buildEligibility (scanId : Text) (reasons : List Text) : Program CdrEligibility :=
  if hex32 scanId ∧ reasons.length ≤ 16 then return ⟨reasons.isEmpty,scanId,reasons⟩ else throw .ValueError

/-- `evaluate_cdr_eligibility` -/
def evaluateCdrEligibility (env : Env) (scanId : Text) : Program CdrEligibility :=
  (getScan .step scanId).resume fun
    | .error .ScanNotFound => do
      let eligibility ← buildEligibility scanId [lit "SCAN_NOT_FOUND"]
      appendEligibility env eligibility none false
      return eligibility
    | .error e => throw e
    | .ok scan => do
      let integrity ← verifyStored env .quarantine scan.storageKey scan.sha256 scan.sizeBytes env.maximumUploadBytes
      let eligibility ← buildEligibility scan.id (eligibilityReasons env scan integrity)
      appendEligibility env eligibility scan.decision true
      return eligibility

/-! ### Steps on files and rows -/

/-- `create_cdr_output`: an empty file at a new path. -/
def createCdrOutput : Program Text :=
  .atomically .step fun w i =>
    if i.fault ≠ .none ∨ w.work i.name ≠ none then (.error .StorageFailure,w)
    else (.ok i.name,{ w with work := Function.update w.work i.name (some []) })

/-- `remove_cdr_output`, whose failure is only logged. -/
def removeCdrOutput (output : Text) : Program Unit :=
  .atomically .step fun w i =>
    (.ok (),if i.fault = .none then { w with work := Function.update w.work output none } else w)

/-- The renderer leaves some bytes in the output file, and the orchestrator reports how it ended. -/
def render (env : Env) (output : Text) : Program CdrOutcome :=
  .atomically .step fun w i =>
    let w' := { w with work := Function.update w.work output (some i.output) }
    match i.rendering with
    | none => (.error .other,w')
    | some execution => (.ok (sanitize env.sanitizerVersion env.sanitizerFingerprint execution),w')

/-- `finalize_cdr_output`: the digest and the size of the output. -/
def finalizeCdrOutput (env : Env) (output : Text) : Program (Text × Nat) :=
  .atomically .step fun w i =>
    match w.work output with
    | none => (.error .StorageFailure,w)
    | some content =>
      if i.fault ≠ .none ∨ env.cdrMaxOutputBytes < content.length ∨ content = [] then (.error .StorageFailure,w)
      else (.ok (env.digest content,content.length),w)

/-- `store_private_copy` of the file that `source` finds. -/
def storePrivateCopy (env : Env) (me : Nat) (source : World → Option Bytes) (area : Area) (expectedSha256 : Text) :
    Program StoredDocument :=
  .atomically .storing fun w i =>
    match source w with
    | none => (.error .StorageFailure,w)
    | some content =>
      if env.cdrMaxOutputBytes < content.length ∨ content = [] ∨ env.digest content ≠ expectedSha256 then
        (.error .StorageFailure,w)
      else match i.fault with
        | .none => (.ok ⟨area,i.name,env.digest content,content.length⟩,addFile me w area i.name content)
        | .fails => (.error .StorageFailure,w)
        | .cleanupFails => (.error .OSError,addFile me w area i.name content)

/-- `get_existing_cdr_artifact` -/
def getExistingCdrArtifact (env : Env) (scanId : Text) : Program (Option ArtifactRow) := do
  let found ← .atomically .step (transaction fun w _ => .ok
    (w.artifacts.find? (fun a => a.scanId == scanId && a.sanitizerFingerprint == env.sanitizerFingerprint),w))
  match found with
  | none => return none
  | some a =>
    if hex32 a.storageKey then do
      let verified ← verifyStored env .sanitized a.storageKey a.sha256 a.sizeBytes env.cdrMaxOutputBytes
      return (if verified then some a else none)
    else return none

/-- `_valid_lineage` -/
def validLineage (artifact : ArtifactRow) (source derived : ScanRow) : Bool :=
  decide (artifact.artifactType = .PDF_CDR) && decide (artifact.scanId = source.id) &&
  decide (artifact.derivedScanId = derived.id) && decide (derived.origin = .CDR_DERIVED) &&
  decide (derived.parentScanId = some source.id) && decide (derived.detectedType = some (lit "PDF")) &&
  decide (derived.workerStatus = .finished .SUCCESS) && decide (derived.state = .COMPLETED) &&
  decide (derived.decision = some .ALLOW) && derived.releaseEligible &&
  decide (artifact.sha256 = derived.sha256) && decide (artifact.sizeBytes = derived.sizeBytes) &&
  decide (some artifact.policyVersion = derived.policyVersion) &&
  decide (some artifact.policyFingerprint = derived.policyFingerprint) &&
  derived.policyEvaluation.any fun e => decide (e.decision = .ALLOW) && e.releaseEligible &&
    decide (e.policyVersion = artifact.policyVersion) && decide (e.policyFingerprint = artifact.policyFingerprint)

/-- The constraints of the table of artifacts. -/
def violatesArtifact (w : World) (row : ArtifactRow) : Bool :=
  w.artifacts.any (fun a => a.id == row.id || a.storageKey == row.storageKey ||
    (a.scanId == row.scanId && a.sanitizerFingerprint == row.sanitizerFingerprint)) ||
  (w.scan row.scanId).isNone || (w.scan row.derivedScanId).isNone

def newArtifact (env : Env) (source derived : ScanRow) (promoted : StoredDocument) (id : Text) : ArtifactRow :=
  { id := id
    scanId := source.id
    derivedScanId := derived.id
    artifactType := .PDF_CDR
    storageKey := promoted.storageKey
    sha256 := promoted.sha256
    sizeBytes := promoted.sizeBytes
    sanitizerVersion := env.sanitizerVersion
    sanitizerFingerprint := env.sanitizerFingerprint
    policyVersion := derived.policyVersion.getD []
    policyFingerprint := derived.policyFingerprint.getD [] }

/-- The transaction of `_promote`: the artifact and its approval. -/
def insertArtifact (env : Env) (me : Nat) (source derived : ScanRow) (promoted : StoredDocument) : Step Text :=
  transaction fun w i =>
    let row := newArtifact env source derived promoted i.name
    if violatesArtifact w row then .error .IntegrityError
    else
      (addToTransaction (w.addArtifact me row)
        { eventType := .CDR_APPROVED
          scanId := some source.id
          artifactId := some row.id
          outcome := .SUCCESS
          details := identityDetails env ++
            [(lit "derived_scan_id",.str derived.id),
             (lit "derived_decision",optionalText (derived.decision.map (·.value))),
             (lit "policy_version",optionalText derived.policyVersion)] }).map fun w' => (row.id,w')

/-! ### The workflow -/

/-- `CdrServiceResult(...)`, which checks the identifiers. -/
def serviceResult (sourceScanId : Text) (derivedScanId artifactId : Option Text) (approved reused : Bool)
    (failureCode : Option CdrFailureCode) : Program Response :=
  if hex32 sourceScanId ∧ derivedScanId.all hex32 ∧ artifactId.all hex32 then
    return .cdr sourceScanId derivedScanId artifactId approved reused failureCode
  else throw .ValueError

/-- `_failed` -/
def failed (sourceScanId : Text) (code : CdrFailureCode) (derivedScanId : Option Text := none) : Program Response :=
  serviceResult sourceScanId derivedScanId none false false (some code)

/-- `_safe_audit_failure` -/
def safeAuditFailure (scanId : Text) (failure : CdrFailureCode) : Program Unit :=
  tryCatch
    (auditAppend { eventType := .CDR_PROMOTION_FAILED, scanId := some scanId, outcome := .FAILURE,
                   reasonCode := some failure.value })
    fun
      | .AuditPersistenceError => return ()
      | e => throw e

/-- `_derived_is_approvable` -/
def derivedIsApprovable (scan : ScanRow) (sourceId expectedSha256 : Text) : Bool :=
  let evaluation := policyEvaluation scan
  decide (scan.origin = .CDR_DERIVED) && decide (scan.parentScanId = some sourceId) &&
  decide (scan.sha256 = expectedSha256) && decide (scan.detectedType = some (lit "PDF")) &&
  decide (scan.workerStatus = .finished .SUCCESS) && decide (scan.state = .COMPLETED) &&
  decide (scan.decision = some .ALLOW) && scan.releaseEligible &&
  evaluation.any (fun e => e.analysisComplete && e.hardBlockReasons.isEmpty && e.mandatoryQuarantineReasons.isEmpty) &&
  !(scan.findings.any (fun f => partialCode f.code))

/-- `_promote` -/
def promote (env : Env) (me : Nat) (source derived : ScanRow) (candidateSha256 : Text) (candidateSize : Nat) :
    Program Response :=
  if ¬hex32 derived.storageKey then throw .ValueError
  else (storePrivateCopy env me (fun w => w.quarantine derived.storageKey) .sanitized candidateSha256).resume fun
    | .error .StorageFailure => do
      safeAuditFailure source.id .PROMOTION_FAILURE
      failed source.id .PROMOTION_FAILURE (some derived.id)
    | .error e => throw e
    | .ok promoted =>
      if promoted.sha256 ≠ derived.sha256 ∨ promoted.sizeBytes ≠ candidateSize then do
        removeStoredDocument promoted
        safeAuditFailure source.id .HASH_MISMATCH
        failed source.id .HASH_MISMATCH (some derived.id)
      else (Prog.atomically .step (insertArtifact env me source derived promoted)).resume fun
        | .ok artifactId => serviceResult source.id (some derived.id) (some artifactId) true false none
        | .error .IntegrityError => do
          removeStoredDocument promoted
          match ← getExistingCdrArtifact env source.id with
          | some existing => serviceResult source.id (some existing.derivedScanId) (some existing.id) true true none
          | none => failed source.id .DATABASE_FAILURE (some derived.id)
        | .error .ValueError => do
          removeStoredDocument promoted
          safeAuditFailure source.id .AUDIT_FAILURE
          failed source.id .AUDIT_FAILURE (some derived.id)
        | .error .SQLAlchemyError => do
          removeStoredDocument promoted
          safeAuditFailure source.id .DATABASE_FAILURE
          failed source.id .DATABASE_FAILURE (some derived.id)
        | .error e => throw e

/-- The part of `sanitize_pdf` from the analysis of the derived scan on. -/
def approveDerived (env : Env) (me : Nat) (source derived : ScanRow) (candidateSha256 : Text) (candidateSize : Nat) :
    Program Response := do
  auditAppend { eventType := .CDR_DERIVED_SCAN_CREATED, scanId := some derived.id, outcome := .SUCCESS,
                details := [(lit "source_scan_id",.str source.id)] }
  auditAppend { eventType := .CDR_RESCAN_COMPLETED, scanId := some derived.id, outcome := .SUCCESS,
                details := [(lit "decision",.str ((derived.decision.getD .QUARANTINE).value))] }
  if derivedIsApprovable derived source.id candidateSha256 then
    promote env me source derived candidateSha256 candidateSize
  else do
    auditAppend { eventType := .CDR_REJECTED, scanId := some derived.id, outcome := .DENIED,
                  reasonCode := some CdrFailureCode.DERIVED_ANALYSIS_REJECTED.value,
                  details := [(lit "source_scan_id",.str source.id),
                    (lit "derived_decision",optionalText (derived.decision.map (·.value)))] }
    serviceResult source.id (some derived.id) none false false (some .DERIVED_ANALYSIS_REJECTED)

/-- The part of `sanitize_pdf` that registers and analyzes the candidate. -/
def analyzeCandidate (env : Env) (me : Nat) (scanId : Text) (source : ScanRow) (document : StoredDocument)
    (candidateSha256 : Text) (candidateSize : Nat) : Program Response :=
  (registerAndAnalyze env me ⟨document,lit "docguard-cdr.pdf",lit "docguard-cdr.pdf",some (lit "application/pdf"),
    .CDR_DERIVED,some source.id⟩).resume fun
    | .error .DatabasePersistenceError => do
      removeStoredDocument document
      safeAuditFailure source.id .DATABASE_FAILURE
      failed scanId .DATABASE_FAILURE
    | .error e => throw e
    | .ok derived => approveDerived env me source derived candidateSha256 candidateSize

/-- The body of the inner `try` of `sanitize_pdf`. -/
def renderAndPromote (env : Env) (me : Nat) (scanId : Text) (source : ScanRow) (output : Text) : Program Response := do
  let outcome ← render env output
  match outcome.succeeded with
  | none => do
    let failure := outcome.failureCode.getD .RENDER_FAILED
    auditAppend { eventType := .CDR_RENDER_FAILED, scanId := some source.id, outcome := .FAILURE,
                  reasonCode := some failure.value, details := identityDetails env }
    auditAppend { eventType := .CDR_REJECTED, scanId := some source.id, outcome := .DENIED,
                  reasonCode := some failure.value }
    failed scanId failure
  | some result => do
    let (candidateSha256,candidateSize) ← finalizeCdrOutput env output
    if result.outputBytes ≠ candidateSize then do
      safeAuditFailure source.id .HASH_MISMATCH
      failed scanId .HASH_MISMATCH
    else do
      auditAppend { eventType := .CDR_RENDER_COMPLETED, scanId := some source.id, outcome := .SUCCESS,
                    details := identityDetails env ++ [(lit "duration_ms",.int result.durationMs),
                      (lit "page_count",.int result.pageCount),(lit "output_bytes",.int candidateSize)] }
      let document ← storePrivateCopy env me (fun w => w.work output) .quarantine candidateSha256
      analyzeCandidate env me scanId source document candidateSha256 candidateSize

/-- The handlers around that body. -/
def handled (scanId : Text) (source : ScanRow) : Except Exn Response → Program Response
  | .error .AuditPersistenceError => failed scanId .AUDIT_FAILURE
  | .error .StorageFailure => do
    safeAuditFailure source.id .STORAGE_FAILURE
    failed scanId .STORAGE_FAILURE
  | result => .done result

/-- `CdrService.sanitize_pdf` -/
def sanitizePdf (env : Env) (me : Nat) (scanId : Text) : Program Response :=
  (evaluateCdrEligibility env scanId).resume fun
    | .error .AuditPersistenceError => failed scanId .AUDIT_FAILURE
    | .error e => throw e
    | .ok eligibility =>
      if ¬eligibility.eligible then failed scanId .INELIGIBLE
      else do
        match ← getExistingCdrArtifact env scanId with
        | some existing => serviceResult scanId (some existing.derivedScanId) (some existing.id) true true none
        | none => do
          let source ← getScan .step scanId
          if ¬hex32 source.storageKey then throw .ValueError
          (auditAppend { eventType := .CDR_STARTED, scanId := some source.id, outcome := .SUCCESS,
                         details := identityDetails env }).resume fun
            | .error .AuditPersistenceError => failed scanId .AUDIT_FAILURE
            | .error e => throw e
            | .ok () => createCdrOutput.resume fun
              | .error .StorageFailure => do
                safeAuditFailure source.id .STORAGE_FAILURE
                failed scanId .STORAGE_FAILURE
              | .error e => throw e
              | .ok output =>
                ((renderAndPromote env me scanId source output).resume (handled scanId source)).andFinally
                  (removeCdrOutput output)

end DocGuard.Cdr
