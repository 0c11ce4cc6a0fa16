import DocGuard.ScanService

/-!
The recovery of stale scans: a scan that has been analyzing for too long is
quarantined, in one transaction with its audit event.
-/
namespace DocGuard.Recovery
open DocGuard.Ordered DocGuard.Domain DocGuard.Programs DocGuard.Database DocGuard.ScanService

def stale (row : ScanRow) (cutoff : Int) : Bool := decide (row.state = .ANALYZING ∧ row.updatedAt ≤ cutoff)

/-- The assignments of `_quarantine_stale_scan`. -/
def quarantineRow (row : ScanRow) (now updated : Int) : ScanRow :=
  { row with
    state := .QUARANTINED
    workerStatus := .finished .FAILED
    analysisErrorCode := some (lit "recovery_stale_analysis")
    analysisCompletedAt := some now
    releaseEligible := false
    decision := some .QUARANTINE
    updatedAt := updated }

def recoveryEvent (id : Text) : AuditEvent :=
  { eventType := .RECOVERY_STALE_SCAN_QUARANTINED
    scanId := some id
    outcome := .SUCCESS
    reasonCode := some (lit "RECOVERY_STALE_ANALYSIS") }

/-- `_quarantine_stale_scan` -/
def quarantineStaleScan (id : Text) (cutoff now : Int) : Step Bool :=
  transaction fun w i =>
    match w.scan id with
    | none => .ok (false,w)
    | some row =>
      if stale row cutoff then
        (addToTransaction (w.putScan (quarantineRow row now i.now)) (recoveryEvent row.id)).map fun w' => (true,w')
      else .ok (false,w)

/-- The scans among these that were quarantined, counted. -/
def quarantineStaleScans (cutoff now : Int) : List ScanRow → Program Nat
  | [] => return 0
  | row :: rest => do
    if stale row cutoff then
      let quarantined ← .atomically .step (quarantineStaleScan row.id cutoff now)
      let others ← quarantineStaleScans cutoff now rest
      return (if quarantined then 1 else 0) + others
    else quarantineStaleScans cutoff now rest

/-- `ReconciliationService._inspect_locked` with `apply`, for the stale scans of a batch. -/
def reconcile (staleSeconds now : Int) (batchSize : Nat) : Program Response := do
  let rows ← .atomically .step (transaction fun w _ => .ok ((sortedBy (·.id) w.scans).take batchSize,w))
  let count ← quarantineStaleScans (now - staleSeconds) now rows
  return .reconciled count

end DocGuard.Recovery
