import DocGuard.Orchestrator
import DocGuard.Programs

/-!
The persisted state: the rows of scans, artifacts and audit events, the private
files, and the transactions that change them. A transaction is one step: it
commits with all its changes, or fails and changes nothing. The fields of
`History` are not part of the product; they record which program added a row or
a file and which bytes an analysis has read, and no step of a program reads them.
-/
namespace DocGuard.Database
open DocGuard.Domain DocGuard.Engine DocGuard.Orchestrator DocGuard.Programs
open DocGuard.Json (Value)

abbrev Bytes := List UInt8

/-- The exceptions that the services raise or handle; `IntegrityError` is a `SQLAlchemyError`. -/
inductive Exn where
  | SQLAlchemyError
  | IntegrityError
  | DatabasePersistenceError
  | ScanNotFound
  | AuditPersistenceError
  | StorageFailure
  | UploadTooLarge
  | EmptyUpload
  | ClientDisconnect
  | ValueError
  | OSError
  | ReconciliationLocked
  | ArtifactNotFound
  | ArtifactUnavailable
  | ArtifactAuditUnavailable
  | other
deriving DecidableEq, Repr

def Exn.isSQLAlchemyError : Exn → Bool
  | SQLAlchemyError | IntegrityError => true
  | _ => false

/-! ### Rows -/

inductive WorkerStatus where
  | PENDING
  | RUNNING
  | finished (status : AnalysisStatus)
deriving DecidableEq, Repr

structure FindingRecord where
  code : Text
  category : Text
  severity : Contract.Severity
  scoreDelta : Int
  title : Text
  description : Text
  mitreTechniques : List Text
  metadata : List (Text × Value)

structure ScanRow where
  id : Text
  originalFilename : Text
  displayFilename : Text
  storageKey : Text
  origin : ScanOrigin
  parentScanId : Option Text
  sha256 : Text
  sizeBytes : Nat
  claimedExtension : Option Text
  claimedContentType : Option Text
  state : ScanState
  detectedType : Option Text := none
  detectedMime : Option Text := none
  analysisErrorCode : Option Text := none
  riskScore : Option Int := none
  severity : Option RiskBand := none
  decision : Option Decision
  workerStatus : WorkerStatus
  analysisDurationMs : Option Int := none
  analysisStartedAt : Option Int := none
  analysisCompletedAt : Option Int := none
  policyVersion : Option Text := none
  policyFingerprint : Option Text := none
  releaseEligible : Bool
  /-- The dump of the policy evaluation. -/
  policyEvaluation : Option EvaluationFields := none
  analysisMetadata : Option (List (Text × Value)) := none
  updatedAt : Int
  findings : List FindingRecord := []

inductive ArtifactType where
  | PDF_CDR
deriving DecidableEq, Repr

structure ArtifactRow where
  id : Text
  scanId : Text
  derivedScanId : Text
  artifactType : ArtifactType
  storageKey : Text
  sha256 : Text
  sizeBytes : Nat
  sanitizerVersion : Text
  sanitizerFingerprint : Text
  policyVersion : Text
  policyFingerprint : Text

inductive AuditEventType where
  | SCAN_UPLOAD_REQUESTED
  | CDR_ELIGIBILITY_CHECKED
  | CDR_STARTED
  | CDR_RENDER_COMPLETED
  | CDR_RENDER_FAILED
  | CDR_DERIVED_SCAN_CREATED
  | CDR_RESCAN_COMPLETED
  | CDR_APPROVED
  | CDR_REJECTED
  | CDR_PROMOTION_FAILED
  | RECOVERY_STALE_SCAN_QUARANTINED
  | TEMP_OBJECT_CLEANED
  | ARTIFACT_DOWNLOADED
  | ARTIFACT_DOWNLOAD_DENIED
deriving DecidableEq, Repr

inductive AuditOutcome where
  | SUCCESS
  | FAILURE
  | DENIED
deriving DecidableEq, Repr

inductive AuditActorType where
  | SYSTEM
  | OPERATOR
  | ANONYMOUS
deriving DecidableEq, Repr

structure AuditEvent where
  eventType : AuditEventType
  scanId : Option Text
  outcome : AuditOutcome
  reasonCode : Option Text := none
  artifactId : Option Text := none
  actorType : AuditActorType := .SYSTEM
  actorId : Option Text := none
  details : List (Text × Value) := []

/-! ### The state -/

/-- What happened, for statements about runs: the program that added a scan, a file or an artifact, and the
    bytes that the analysis of a scan has read. -/
structure History where
  scanOwner : Text → Option Nat := fun _ => none
  fileOwner : Text → Option Nat := fun _ => none
  artifactOwner : Text → Option Nat := fun _ => none
  analysed : Text → Option Bytes := fun _ => none

structure World where
  scans : List ScanRow := []
  artifacts : List ArtifactRow := []
  events : List AuditEvent := []
  quarantine : Text → Option Bytes := fun _ => none
  sanitized : Text → Option Bytes := fun _ => none
  work : Text → Option Bytes := fun _ => none
  history : History := {}

inductive Fault where
  | none
  | fails
  /-- The step fails, and so does the removal of what it has left. -/
  | cleanupFails
deriving DecidableEq, Repr

/-- What the environment decides for one step. -/
structure Choice where
  fault : Fault := .none
  /-- A random identifier, key or token. -/
  name : Text := []
  now : Int := 0
  /-- The end of an isolated analysis, or an exception of the orchestrator. -/
  execution : Option (Execution AnalysisResult) := some .isolationError
  /-- The policy evaluation raises. -/
  policyRaises : Bool := false
  /-- The end of an isolated rendering, or an exception, and the bytes left in the output file. -/
  rendering : Option (Execution PdfCdrResult) := some .isolationError
  output : Bytes := []

/-- A step; one that stores a file under a random key; the removal of a stored file; or a transaction of
    `register_and_analyze` after the registration of a scan of this origin. -/
inductive Label where
  | step
  | storing
  | removing
  | persistence (origin : ScanOrigin)
deriving DecidableEq, Repr

abbrev Program (α : Type) := Prog World Choice Label Exn α

abbrev Step (α : Type) := World → Choice → Except Exn α × World

namespace World

def scan (w : World) (id : Text) : Option ScanRow := w.scans.find? (fun r => r.id == id)

def artifact (w : World) (id : Text) : Option ArtifactRow := w.artifacts.find? (fun a => a.id == id)

/-- The row with the same identifier is replaced. -/
def putScan (w : World) (row : ScanRow) : World :=
  { w with scans := w.scans.map (fun r => if r.id = row.id then row else r) }

def addEvent (w : World) (e : AuditEvent) : World := { w with events := w.events ++ [e] }

/-- A new row, added by the program `me`. -/
def addScan (w : World) (me : Nat) (row : ScanRow) : World :=
  { w with
    scans := w.scans ++ [row]
    history := { w.history with scanOwner := Function.update w.history.scanOwner row.id (some me) } }

def addArtifact (w : World) (me : Nat) (row : ArtifactRow) : World :=
  { w with
    artifacts := w.artifacts ++ [row]
    history := { w.history with artifactOwner := Function.update w.history.artifactOwner row.id (some me) } }

/-- The analysis of a scan has read this content, or found no file. -/
def noteAnalysis (w : World) (id : Text) (content : Option Bytes) : World :=
  { w with history := { w.history with analysed := Function.update w.history.analysed id content } }

end World

/-- A transaction: its body works on a copy that is committed when nothing fails. -/
def transaction {α : Type} (body : World → Choice → Except Exn (α × World)) : Step α := fun w i =>
  if i.fault = .none then
    match body w i with
    | .ok (a,w') => (.ok a,w')
    | .error e => (.error e,w)
  else (.error .SQLAlchemyError,w)

/-- A step whose database errors are raised as another one. -/
def raising {α : Type} (error : Exn) (step : Step α) : Step α := fun w i =>
  ((step w i).1.mapError (fun e => if e.isSQLAlchemyError then error else e),(step w i).2)

/-! ### Audit events -/

mutual
/-- The bounded copy of a detail. -/
def boundedDetail (depth : Nat) : Value → Except Exn Value
  | .null => if 4 < depth then .error .ValueError else .ok .null
  | .bool b => if 4 < depth then .error .ValueError else .ok (.bool b)
  | .int n => if 4 < depth then .error .ValueError else .ok (.int n)
  | .float t => if 4 < depth then .error .ValueError else .ok (.float t)
  | .str s => if 4 < depth ∨ 256 < s.length then .error .ValueError else .ok (.str s)
  | .arr items => do
    if 4 < depth ∨ 32 < items.length then throw .ValueError
    return .arr (← boundedItems (depth + 1) items)
  | .obj fields => do
    if 4 < depth ∨ 32 < fields.length then throw .ValueError
    return .obj (← boundedFields (depth + 1) fields)
def boundedItems (depth : Nat) : List Value → Except Exn (List Value)
  | [] => .ok []
  | item :: rest => do return (← boundedDetail depth item) :: (← boundedItems depth rest)
def boundedFields (depth : Nat) : List (Text × Value) → Except Exn (List (Text × Value))
  | [] => .ok []
  | (key,value) :: rest =>
    if 64 < key.length then boundedFields depth rest
    else do return (key,← boundedDetail depth value) :: (← boundedFields depth rest)
end

def MAX_AUDIT_DETAILS_BYTES : Nat := 4096

/-- `_bounded_details` -/
def boundedDetails (details : List (Text × Value)) : Except Exn (List (Text × Value)) := do
  if 32 < details.length then throw .ValueError
  let validated ← boundedFields 1 details
  if MAX_AUDIT_DETAILS_BYTES < (Json.utf8 (Json.dumps true (.obj validated))).length then throw .ValueError
  return validated

/-- `AuditService.add_to_transaction`; a scan or an artifact that an event names has to exist. -/
def addToTransaction (w : World) (e : AuditEvent) : Except Exn World := do
  let details ← boundedDetails e.details
  if (∃ id ∈ e.scanId, w.scan id = none) ∨ (∃ id ∈ e.artifactId, w.artifact id = none) then throw .IntegrityError
  return w.addEvent { e with details := details }

/-- `AuditService.append` -/
def auditAppend (e : AuditEvent) : Program Unit :=
  .atomically .step (raising .AuditPersistenceError (transaction fun w _ =>
    (addToTransaction w e).map fun w' => ((),w')))

end DocGuard.Database
