import DocGuard.Database

/-!
The scan service: the three transactions of `register_and_analyze`, the program
that runs them around the analysis of the stored document, and the upload that
calls it.
-/
namespace DocGuard.ScanService
open DocGuard.Contract DocGuard.Domain DocGuard.Registry DocGuard.Engine DocGuard.Orchestrator DocGuard.Programs
open DocGuard.Database
open DocGuard.Json (Value)

/-- What the services are configured with, and the functions of the standard library that they use. -/
structure Env where
  /-- `hashlib.sha256(data).hexdigest()` -/
  digest : Bytes → Text
  /-- `str.casefold` -/
  casefold : Text → Text
  maximumUploadBytes : Nat
  sanitizerVersion : Text
  sanitizerFingerprint : Text
  maxPages : Int
  cdrMaxOutputBytes : Nat

inductive Area where
  | quarantine
  | sanitized
deriving DecidableEq, Repr

structure StoredDocument where
  area : Area
  storageKey : Text
  sha256 : Text
  sizeBytes : Nat

/-- The arguments of `register_and_analyze`. -/
structure ScanRequest where
  document : StoredDocument
  originalFilename : Text
  displayFilename : Text
  claimedContentType : Option Text
  origin : ScanOrigin := .UPLOAD
  parentScanId : Option Text := none

/-! ### Files -/

def files (w : World) : Area → Text → Option Bytes
  | .quarantine => w.quarantine
  | .sanitized => w.sanitized

def setFile (w : World) (area : Area) (key : Text) (content : Option Bytes) : World :=
  match area with
  | .quarantine => { w with quarantine := Function.update w.quarantine key content }
  | .sanitized => { w with sanitized := Function.update w.sanitized key content }

/-- The final path of a new object gets its content, and the history its owner. -/
def addFile (me : Nat) (w : World) (area : Area) (key : Text) (content : Bytes) : World :=
  let w' := setFile w area key (some content)
  { w' with history := { w.history with fileOwner := Function.update w.history.fileOwner key (some me) } }

/-- `remove_stored_document` -/
def removeStoredDocument (document : StoredDocument) : Program Unit :=
  .atomically .removing fun w i =>
    if i.fault = .none then (.ok (),setFile w document.area document.storageKey none)
    else (.error .StorageFailure,w)

/-- `stream_document_to_quarantine`: all the bytes of a body, unless the client goes away. -/
def streamDocumentToQuarantine (env : Env) (me : Nat) (body : Bytes) (disconnects : Bool) : Program StoredDocument :=
  .atomically .storing fun w i =>
    if env.maximumUploadBytes < body.length then (.error .UploadTooLarge,w)
    else if disconnects then (.error .ClientDisconnect,w)
    else if body = [] then (.error .EmptyUpload,w)
    else match i.fault with
      | .none => (.ok ⟨.quarantine,i.name,env.digest body,body.length⟩,addFile me w .quarantine i.name body)
      | .fails => (.error .StorageFailure,w)
      | .cleanupFails => (.error .OSError,addFile me w .quarantine i.name body)

/-! ### Transactions -/

/-- `PurePath(text).name` -/
def purePathName (text : Text) : Text :=
  ((text.splitOn '/').filter (fun part => part ≠ [] ∧ part ≠ ['.'])).getLastD []

/-- `PurePath(name).suffix` -/
def suffix (name : Text) : Text :=
  match (name.reverse.idxOf? '.') with
  | none => []
  | some fromEnd => if fromEnd = 0 ∨ fromEnd + 1 = name.length then [] else name.drop (name.length - 1 - fromEnd)

def claimedExtension (env : Env) (filename : Text) : Option Text :=
  let basename := purePathName (filename.map (fun c => if c = '\\' then '/' else c))
  let found := env.casefold (suffix basename)
  if found = [] ∨ 32 < found.length then none else some (found.dropWhile (· = '.'))

/-- The row of a new scan, before any analysis. -/
def newScan (env : Env) (request : ScanRequest) (id : Text) (now : Int) : ScanRow :=
  { id := id
    originalFilename := request.originalFilename
    displayFilename := request.displayFilename
    storageKey := request.document.storageKey
    origin := request.origin
    parentScanId := request.parentScanId
    sha256 := request.document.sha256
    sizeBytes := request.document.sizeBytes
    claimedExtension := claimedExtension env request.originalFilename
    claimedContentType := request.claimedContentType
    state := .STORED
    decision := some .QUARANTINE
    workerStatus := .PENDING
    releaseEligible := false
    updatedAt := now }

/-- The constraints of the table: the keys, and the reference to the parent. -/
def violatesScan (w : World) (row : ScanRow) : Bool :=
  w.scans.any (fun r => r.id == row.id || r.storageKey == row.storageKey) ||
    row.parentScanId.any (fun parent => (w.scan parent).isNone)

/-- The registration commits a new row. -/
def insertScan (env : Env) (me : Nat) (request : ScanRequest) : Step Text :=
  transaction fun w i =>
    let row := newScan env request i.name i.now
    if violatesScan w row then .error .IntegrityError
    else .ok (row.id,w.addScan me row)

/-- `select(Scan).where(Scan.id == id).with_for_update()`, which has to find one row, and the assignments to it. -/
def updateScan {α : Type} (id : Text) (assign : ScanRow → Choice → Except Exn (α × ScanRow)) : Step α :=
  transaction fun w i =>
    match w.scan id with
    | none => .error .SQLAlchemyError
    | some row => (assign row i).map fun (a,row') => (a,w.putScan row')

/-- `_mark_analyzing` -/
def markAnalyzing (row : ScanRow) (now : Int) : ScanRow :=
  { row with
    state := .ANALYZING
    workerStatus := .RUNNING
    analysisStartedAt := some now
    updatedAt := now }

/-- `result.status.value.casefold()` -/
def casefolded : AnalysisStatus → Text
  | .SUCCESS => lit "success"
  | .UNSUPPORTED => lit "unsupported"
  | .FAILED => lit "failed"
  | .TIMEOUT => lit "timeout"

def findingRecord (f : FindingFields) : Except Exn FindingRecord :=
  match shipped.findingPolicy f.code with
  | none => .error .other
  | some p => .ok ⟨f.code,f.category,f.severity,p.contribution,f.title,f.description,f.mitreTechniques,f.metadata⟩

def detectedMime (metadata : List (Text × Value)) : Option Text :=
  match get metadata (lit "detected_mime") with
  | some (.str s) => some s
  | _ => none

/-- The assignments that record an outcome, before the policy is evaluated. -/
def recordOutcome (outcome : AnalysisOutcome) (now : Int) (persisted : ScanRow) : Except Exn ScanRow :=
  let persisted := { persisted with analysisCompletedAt := some now, decision := some .QUARANTINE }
  match outcome.result with
  | none => .ok { persisted with
      state := .QUARANTINED
      workerStatus := .finished .FAILED
      analysisErrorCode := some ((outcome.failureCode.map (·.value)).getD (lit "unknown")) }
  | some result => do
    let findings ← result.findings.mapM findingRecord
    let succeeded := result.status = .SUCCESS
    return { persisted with
      workerStatus := .finished result.status
      analysisDurationMs := some result.durationMs
      detectedType := result.detectedType
      analysisMetadata := some result.analyzerMetadata
      detectedMime := detectedMime result.analyzerMetadata
      state := if succeeded then .COMPLETED else .QUARANTINED
      analysisErrorCode := if succeeded then none
        else some ((outcome.failureCode.map (·.value)).getD (casefolded result.status))
      findings := persisted.findings ++ findings }

/-- `evaluate_policy` in the final transaction, where it may also fail for a reason of its own. -/
def attempt (env : Env) (outcome : AnalysisOutcome) (scanState : ScanState) (i : Choice) :
    Except PolicyError PolicyEvaluation :=
  if i.policyRaises then .error (.evaluation [])
  else evaluatePolicy env.digest shipped outcome.result (outcome.failureCode.map (·.value)) scanState none i.now

/-- The assignments of a policy evaluation. -/
def recordEvaluation (evaluation : PolicyEvaluation) (row : ScanRow) : ScanRow :=
  { row with
    riskScore := some evaluation.riskScore
    severity := some evaluation.riskBand
    decision := some evaluation.decision
    policyVersion := some evaluation.policyVersion
    policyFingerprint := some evaluation.policyFingerprint
    releaseEligible := evaluation.releaseEligible
    policyEvaluation := some evaluation.toEvaluationFields
    state := if evaluation.decision = .QUARANTINE ∨ evaluation.decision = .BLOCK then .QUARANTINED else row.state }

/-- The assignments of the final transaction to the row that it read. -/
def finalize (env : Env) (outcome : AnalysisOutcome) (persisted : ScanRow) (i : Choice) :
    Except Exn (Unit × ScanRow) := do
  let recorded ← recordOutcome outcome i.now persisted
  match attempt env outcome persisted.state i with
  | .ok evaluation => return ((),{ recordEvaluation evaluation recorded with updatedAt := i.now })
  | .error _ =>
    match failClosedPolicyEvaluation shipped none i.now with
    | .error _ => throw .other
    | .ok evaluation =>
      let failed := { recorded with analysisErrorCode := some (lit "policy_evaluation_failed") }
      return ((),{ recordEvaluation evaluation failed with updatedAt := i.now })

/-! ### Programs -/

/-- `ScanService.get` -/
def getScan (label : Label) (id : Text) : Program ScanRow :=
  .atomically label (raising .DatabasePersistenceError (transaction fun w _ =>
    match w.scan id with
    | none => .error .ScanNotFound
    | some row => .ok (row,w)))

/-- The worker reads the stored document and the orchestrator reports how that ended. -/
def analyzeDocument (document : StoredDocument) (id : Text) : Program AnalysisOutcome :=
  .atomically .step fun w i =>
    let w' := w.noteAnalysis id (files w document.area document.storageKey)
    match i.execution with
    | none => (.error .other,w')
    | some execution => (.ok (analyze execution),w')

/-- `ScanService.register_and_analyze` -/
def registerAndAnalyze (env : Env) (me : Nat) (request : ScanRequest) : Program ScanRow := do
  let id ← tryCatch (.atomically .step (insertScan env me request)) fun e =>
    if e.isSQLAlchemyError then do
      removeStoredDocument request.document
      throw .DatabasePersistenceError
    else throw e
  .atomically (.persistence request.origin) (raising .DatabasePersistenceError (updateScan id fun row i => .ok ((),markAnalyzing row i.now)))
  let outcome ← analyzeDocument request.document id
  .atomically (.persistence request.origin) (raising .DatabasePersistenceError (updateScan id (finalize env outcome)))
  getScan (.persistence request.origin) id

/-- The responses of the requests. -/
inductive Response where
  | scan (row : ScanRow)
  | rejected (status : Nat)
  | cdr (sourceScanId : Text) (derivedScanId artifactId : Option Text) (approved reused : Bool)
      (failureCode : Option CdrFailureCode)
  | reconciled (quarantined : Nat)

/-- A body that was sent to `create_scan`. -/
structure Upload where
  body : Bytes
  disconnects : Bool := false
  filename : Text
  displayFilename : Text
  claimedContentType : Option Text
  operator : Option Text

/-- `create_scan`, from the stored body on. -/
def createScan (env : Env) (me : Nat) (upload : Upload) : Program Response :=
  (streamDocumentToQuarantine env me upload.body upload.disconnects).resume fun
    | .error .UploadTooLarge => return .rejected 413
    | .error .EmptyUpload => return .rejected 400
    | .error .ClientDisconnect => return .rejected 400
    | .error e => throw e
    | .ok document => do
      let row ← registerAndAnalyze env me ⟨document,upload.filename,upload.displayFilename,upload.claimedContentType,
        .UPLOAD,none⟩
      auditAppend { eventType := .SCAN_UPLOAD_REQUESTED, scanId := some row.id, outcome := .SUCCESS,
                    actorType := .OPERATOR, actorId := upload.operator,
                    details := [(lit "size_bytes",.int row.sizeBytes)] }
      return .scan row

end DocGuard.ScanService
