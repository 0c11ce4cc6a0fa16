import DocGuard.Engine

/-!
The trusted orchestration of a worker, for an analysis and for a rendering: how
the end of an isolated execution becomes an outcome. Only a validated result is
passed on.
-/
namespace DocGuard.Orchestrator
open DocGuard.Checks DocGuard.Contract DocGuard.Domain

/-- How an isolated execution ends; `stdout` is what the validation of its output gives. -/
inductive Execution (β : Type) where
  | isolationError
  | ended (timedOut outputLimitExceeded : Bool) (exitCode : Int) (stdout : Except ValidationError β)

/-! ### Analysis -/

inductive FailureCode where
  | ISOLATION_UNAVAILABLE
  | TIMEOUT
  | NON_ZERO_EXIT
  | OUTPUT_LIMIT_EXCEEDED
  | MALFORMED_OUTPUT
  | WORKER_FAILED
  | UNSUPPORTED
deriving DecidableEq, Repr

def FailureCode.value : FailureCode → Text
  | ISOLATION_UNAVAILABLE => lit "isolation_unavailable"
  | TIMEOUT => lit "timeout"
  | NON_ZERO_EXIT => lit "non_zero_exit"
  | OUTPUT_LIMIT_EXCEEDED => lit "output_limit_exceeded"
  | MALFORMED_OUTPUT => lit "malformed_output"
  | WORKER_FAILED => lit "worker_failed"
  | UNSUPPORTED => lit "unsupported"

structure AnalysisOutcome where
  result : Option AnalysisResult
  decision : Option Decision
  failureCode : Option FailureCode

def quarantined (code : FailureCode) : AnalysisOutcome := ⟨none,some .QUARANTINE,some code⟩

/-- `AnalysisOrchestrator.analyze` -/
def analyze : Execution AnalysisResult → AnalysisOutcome
  | .isolationError => quarantined .ISOLATION_UNAVAILABLE
  | .ended timedOut outputLimitExceeded exitCode stdout =>
    if timedOut then quarantined .TIMEOUT
    else if outputLimitExceeded then quarantined .OUTPUT_LIMIT_EXCEEDED
    else if exitCode ≠ 0 then quarantined .NON_ZERO_EXIT
    else match stdout with
      | .error _ => quarantined .MALFORMED_OUTPUT
      | .ok result =>
        if result.status = .UNSUPPORTED then ⟨some result,some .QUARANTINE,some .UNSUPPORTED⟩
        else if result.status ≠ .SUCCESS then ⟨some result,some .QUARANTINE,some .WORKER_FAILED⟩
        else ⟨some result,none,none⟩

/-! ### Rendering -/

inductive CdrStatus where
  | SUCCESS
  | FAILED
deriving DecidableEq, Repr

inductive CdrFailureCode where
  | INELIGIBLE
  | RENDERER_UNAVAILABLE
  | RENDER_FAILED
  | RENDER_TIMEOUT
  | OUTPUT_LIMIT
  | OUTPUT_INVALID
  | PAGE_LIMIT
  | PIXEL_LIMIT
  | ENCRYPTED
  | MALFORMED
  | DERIVED_ANALYSIS_REJECTED
  | HASH_MISMATCH
  | STORAGE_FAILURE
  | DATABASE_FAILURE
  | AUDIT_FAILURE
  | PROMOTION_FAILURE
deriving DecidableEq, Repr

def CdrFailureCode.value : CdrFailureCode → Text
  | INELIGIBLE => lit "ineligible"
  | RENDERER_UNAVAILABLE => lit "renderer_unavailable"
  | RENDER_FAILED => lit "render_failed"
  | RENDER_TIMEOUT => lit "render_timeout"
  | OUTPUT_LIMIT => lit "output_limit"
  | OUTPUT_INVALID => lit "output_invalid"
  | PAGE_LIMIT => lit "page_limit"
  | PIXEL_LIMIT => lit "pixel_limit"
  | ENCRYPTED => lit "encrypted"
  | MALFORMED => lit "malformed"
  | DERIVED_ANALYSIS_REJECTED => lit "derived_analysis_rejected"
  | HASH_MISMATCH => lit "hash_mismatch"
  | STORAGE_FAILURE => lit "storage_failure"
  | DATABASE_FAILURE => lit "database_failure"
  | AUDIT_FAILURE => lit "audit_failure"
  | PROMOTION_FAILURE => lit "promotion_failure"

structure PdfCdrFields where
  schemaVersion : Text
  operation : Text
  status : CdrStatus
  sanitizerVersion : Text
  sanitizerFingerprint : Text
  rendererVersion : Text
  engineVersion : Text
  pageCount : Int
  totalPixels : Int
  outputBytes : Int
  durationMs : Int
  failureCode : Option CdrFailureCode := none

/-- The checks of `PdfCdrResult`. -/
def validatePdfCdr (r : PdfCdrFields) : Except ValidationError Unit := do
  require (lengthWithin 1 32 r.sanitizerVersion) (.constraint (lit "sanitizer_version"))
  require (r.sanitizerFingerprint.length = 64 ∧ r.sanitizerFingerprint.all lowerHex)
    (.constraint (lit "sanitizer_fingerprint"))
  require (lengthWithin 1 64 r.rendererVersion) (.constraint (lit "renderer_version"))
  require (lengthWithin 1 64 r.engineVersion) (.constraint (lit "engine_version"))
  require (0 ≤ r.pageCount ∧ r.pageCount ≤ 1000) (.constraint (lit "page_count"))
  require (0 ≤ r.totalPixels ∧ r.totalPixels ≤ 1000000000) (.constraint (lit "total_pixels"))
  require (0 ≤ r.outputBytes ∧ r.outputBytes ≤ 1000000000) (.constraint (lit "output_bytes"))
  require (0 ≤ r.durationMs) (.constraint (lit "duration_ms"))
  require (r.schemaVersion = ANALYSIS_SCHEMA_VERSION ∧ r.operation = lit "SANITIZE_PDF")
    (.invalid (lit "unsupported CDR result contract"))
  match r.status with
  | .SUCCESS =>
    require (r.failureCode = none ∧ 1 ≤ r.pageCount ∧ 1 ≤ r.outputBytes)
      (.invalid (lit "successful CDR result is incomplete"))
  | .FAILED => require (r.failureCode ≠ none) (.invalid (lit "failed CDR result requires a bounded failure code"))

structure PdfCdrResult extends PdfCdrFields where
  valid : validatePdfCdr toPdfCdrFields = .ok ()

structure CdrOutcome where
  result : Option PdfCdrResult
  failureCode : Option CdrFailureCode

/-- The result of a rendering that succeeded. -/
def CdrOutcome.succeeded (o : CdrOutcome) : Option PdfCdrResult := o.result.filter (fun r => r.status = .SUCCESS)

/-- `PdfCdrOrchestrator.sanitize`, for the sanitizer that the settings define. -/
def sanitize (sanitizerVersion sanitizerFingerprint : Text) : Execution PdfCdrResult → CdrOutcome
  | .isolationError => ⟨none,some .RENDERER_UNAVAILABLE⟩
  | .ended timedOut outputLimitExceeded exitCode stdout =>
    if timedOut then ⟨none,some .RENDER_TIMEOUT⟩
    else if outputLimitExceeded ∨ exitCode ≠ 0 then ⟨none,some .RENDER_FAILED⟩
    else match stdout with
      | .error _ => ⟨none,some .OUTPUT_INVALID⟩
      | .ok result =>
        if result.sanitizerVersion ≠ sanitizerVersion ∨ result.sanitizerFingerprint ≠ sanitizerFingerprint then
          ⟨none,some .OUTPUT_INVALID⟩
        else if result.status = .FAILED then ⟨some result,some (result.failureCode.getD .RENDER_FAILED)⟩
        else ⟨some result,none⟩

end DocGuard.Orchestrator
