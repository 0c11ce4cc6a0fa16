import DocGuard.Finalization

/-!
The final transaction of a scan and the recovery of stale scans on one row without
a lock: SQLite ignores `FOR UPDATE`, so that each reads the row in one step and
commits in another. An `UPDATE` writes the columns whose assigned value differs
from the one that the session has read. The merged row is sound in every order
but for the overlap of a stale scan with a release.
-/
namespace DocGuard.Races
open DocGuard.Checks DocGuard.Domain DocGuard.Registry DocGuard.Engine DocGuard.Decisions DocGuard.Orchestrator
open DocGuard.Database DocGuard.ScanService DocGuard.Recovery DocGuard.Finalization

/-! ### Sessions -/

/-- A column after an `UPDATE`. -/
def column {α : Type} [DecidableEq α] (read assigned current : α) : α :=
  if assigned = read then current else assigned

section Column
variable {α : Type} [DecidableEq α] {read assigned current : α}

@[simp] theorem column_unassigned : column read read current = current := if_pos rfl

@[simp] theorem column_alone : column read assigned read = assigned := by
  unfold column
  split
  · exact Eq.symm ‹_›
  · rfl

end Column

/-- The row after the `UPDATE` of a session; its new findings are rows of their own. -/
def flush (read assigned current : ScanRow) : ScanRow :=
  { current with
    state := column read.state assigned.state current.state
    detectedType := column read.detectedType assigned.detectedType current.detectedType
    detectedMime := column read.detectedMime assigned.detectedMime current.detectedMime
    analysisErrorCode := column read.analysisErrorCode assigned.analysisErrorCode current.analysisErrorCode
    riskScore := column read.riskScore assigned.riskScore current.riskScore
    severity := column read.severity assigned.severity current.severity
    decision := column read.decision assigned.decision current.decision
    workerStatus := column read.workerStatus assigned.workerStatus current.workerStatus
    analysisDurationMs := column read.analysisDurationMs assigned.analysisDurationMs current.analysisDurationMs
    analysisStartedAt := column read.analysisStartedAt assigned.analysisStartedAt current.analysisStartedAt
    analysisCompletedAt := column read.analysisCompletedAt assigned.analysisCompletedAt current.analysisCompletedAt
    policyVersion := column read.policyVersion assigned.policyVersion current.policyVersion
    policyFingerprint := column read.policyFingerprint assigned.policyFingerprint current.policyFingerprint
    releaseEligible := column read.releaseEligible assigned.releaseEligible current.releaseEligible
    policyEvaluation := column read.policyEvaluation assigned.policyEvaluation current.policyEvaluation
    analysisMetadata := column read.analysisMetadata assigned.analysisMetadata current.analysisMetadata
    updatedAt := column read.updatedAt assigned.updatedAt current.updatedAt
    findings := current.findings ++ assigned.findings.drop read.findings.length }

/-- A session that assigns nothing changes nothing. -/
theorem flush_unassigned (read current : ScanRow) : flush read read current = current := by
  simp [flush]

inductive Session where
  | waiting
  | read (row : ScanRow)
  | committed (row : ScanRow)

/-- The row, the events of its scan, and the two sessions. -/
structure Table where
  row : ScanRow
  events : List AuditEvent := []
  finalizer : Session := .waiting
  recoverer : Session := .waiting

inductive Move where
  | finalizeRead
  | finalizeCommit
  | recoverRead
  | recoverCommit
deriving DecidableEq, Repr

section Sessions
variable (env : Env) (outcome : AnalysisOutcome) (i : Choice) (cutoff now updated : Int)

/-- The row with the assignments of the final transaction, which an error rolls back. -/
def finalized (row : ScanRow) : ScanRow :=
  match finalize env outcome row i with
  | .ok (_,row') => row'
  | .error _ => row

/-- The row with the assignments of the recovery. -/
def recovered (row : ScanRow) : ScanRow := if stale row cutoff then quarantineRow row now updated else row

def step (t : Table) : Move → Option Table
  | .finalizeRead =>
    match t.finalizer with
    | .waiting => some { t with finalizer := .read t.row }
    | _ => none
  | .finalizeCommit =>
    match t.finalizer with
    | .read row => some { t with row := flush row (finalized env outcome i row) t.row, finalizer := .committed row }
    | _ => none
  | .recoverRead =>
    match t.recoverer with
    | .waiting => some { t with recoverer := .read t.row }
    | _ => none
  | .recoverCommit =>
    match t.recoverer with
    | .read row => some { t with
        row := flush row (recovered cutoff now updated row) t.row
        events := if stale row cutoff then t.events ++ [recoveryEvent row.id] else t.events
        recoverer := .committed row }
    | _ => none

/-- The table after these moves, if each could be made. -/
def run (t : Table) (moves : List Move) : Option Table := moves.foldlM (step env outcome i cutoff now updated) t

end Sessions

/-- The scan of a request, as its marking has left it. -/
def analyzing (env : Env) (request : ScanRequest) (id : Text) (created marked : Int) : Table :=
  { row := markAnalyzing (newScan env request id created) marked }

/-- A release is of a completed analysis, and none follows a recovery. -/
def Sound (t : Table) : Prop :=
  (t.row.releaseEligible = true →
    t.row.decision = some .ALLOW ∧ t.row.state = .COMPLETED ∧ t.row.workerStatus = .finished .SUCCESS) ∧
  ((∃ e ∈ t.events, e.eventType = .RECOVERY_STALE_SCAN_QUARANTINED) → t.row.releaseEligible = false)

/-! ### Outcomes that are released -/

/-- The outcome of an analysis whose findings and completeness allow the release. -/
structure Clean (outcome : AnalysisOutcome) (i : Choice) : Prop where
  evaluates : i.policyRaises = false
  unblocked : ¬HardBlocked outcome.result
  complete : ¬Incomplete outcome.result (outcome.failureCode.map (·.value)) .ANALYZING
  unheld : ¬Floored outcome.result
  score : riskScoreOf shipped (findingCodes outcome.result) < 20

theorem findingRecord_returns {r : AnalysisResult} {f : FindingFields} (member : f ∈ r.findings) (e : Exn) :
    findingRecord f ≠ .error e := by
  intro failed
  obtain ⟨p,found⟩ := Option.isSome_iff_exists.mp
    (findingPolicy_isSome (shipped_codes ▸ r.code_known member) : (shipped.findingPolicy f.code).isSome)
  simp [findingRecord,found] at failed

/-- Every outcome of the orchestrator can be recorded. -/
theorem recordOutcome_returns (outcome : AnalysisOutcome) (now : Int) (row : ScanRow) :
    ∃ recorded, recordOutcome outcome now row = .ok recorded := by
  cases done : recordOutcome outcome now row with
  | ok recorded => exact ⟨recorded,rfl⟩
  | error e =>
    unfold recordOutcome at done
    split at done
    · cases done
    · rename_i result _
      rcases bind_error.mp done with records | ⟨_,_,impossible⟩
      · obtain ⟨f,member,failed⟩ := mapM_error_mem records
        exact absurd failed (findingRecord_returns member e)
      · cases impossible

section Release
variable {env : Env} {outcome : AnalysisOutcome} {i : Choice} {row : ScanRow}

theorem clean_of_released (analyzing : row.state = .ANALYZING) (unreleased : row.releaseEligible = false)
    (released : (finalized env outcome i row).releaseEligible = true) : Clean outcome i := by
  unfold finalized at released
  split at released
  · rename_i row' done
    obtain ⟨recorded,_,⟨e,evaluated,rfl⟩ | ⟨e,closed,rfl⟩⟩ := finalize_cases done
    · unfold attempt at evaluated
      split at evaluated
      · cases evaluated
      · rename_i evaluates
        obtain ⟨band,fields⟩ := evaluatePolicy_fields evaluated
        have decided := evaluatePolicy_decided evaluated
        obtain ⟨unblocked,unheld,low⟩ := decided.allow.mp (decided.release.mp released)
        rw [analyzing] at unheld
        rw [fields] at low
        refine ⟨by simpa using evaluates,unblocked,fun incomplete => unheld (.inl incomplete),
          fun floored => unheld (.inr (.inl floored)),?_⟩
        simpa [evaluationFields] using low
    · have prohibited : e.releaseEligible = true := released
      rw [(failClosed_fields closed).1] at prohibited
      cases prohibited
  · rw [unreleased] at released
    cases released

/-- The final transaction of a clean outcome succeeds and releases the scan. -/
theorem finalize_clean (digest : env.digest = Sha256.sha256) (analyzing : row.state = .ANALYZING)
    (clean : Clean outcome i) :
    ∃ row', finalize env outcome row i = .ok ((),row') ∧ row'.releaseEligible = true := by
  obtain ⟨recorded,first⟩ := recordOutcome_returns outcome i.now row
  obtain ⟨e,evaluated⟩ := evaluatePolicy_returns outcome.result (outcome.failureCode.map (·.value)) row.state none
    i.now (fun _ given => by cases given)
  have decided := evaluatePolicy_decided evaluated
  obtain ⟨band,fields⟩ := evaluatePolicy_fields evaluated
  have score : e.riskScore = riskScoreOf shipped (findingCodes outcome.result) := by
    rw [fields]
    rfl
  have attempted : attempt env outcome row.state i = .ok e := by
    rw [attempt,clean.evaluates,digest]
    exact evaluated
  have allowed : e.decision = .ALLOW := by
    rw [decided.allow,analyzing,score]
    have low := clean.score
    refine ⟨clean.unblocked,?_,by omega⟩
    rintro (incomplete | floored | high)
    · exact clean.complete incomplete
    · exact clean.unheld floored
    · omega
  refine ⟨{ recordEvaluation e recorded with updatedAt := i.now },?_,decided.release.mpr allowed⟩
  rw [finalize,first]
  simp only [bind,Except.bind,attempted]
  rfl

end Release

/-! ### Every order of the moves -/

section Orders
variable {env : Env} {outcome : AnalysisOutcome} {i : Choice} {cutoff now updated : Int} {row : ScanRow} {t t' : Table}

/-- A row that is being analyzed. -/
structure Open (row : ScanRow) : Prop where
  state : row.state = .ANALYZING
  unreleased : row.releaseEligible = false
  findings : row.findings = []

theorem sound_of_unreleased (unreleased : t.row.releaseEligible = false) : Sound t := by
  refine ⟨fun released => ?_,fun _ => unreleased⟩
  rw [unreleased] at released
  cases released

/-- After a recovery a table is sound when its scan is not released. -/
theorem sound_recovered {e : AuditEvent} (logged : t.events = [e])
    (recovery : e.eventType = .RECOVERY_STALE_SCAN_QUARANTINED) : Sound t ↔ ¬t.row.releaseEligible = true := by
  constructor
  · intro sound
    rw [sound.2 ⟨e,logged ▸ List.mem_singleton_self e,recovery⟩]
    exact Bool.false_ne_true
  · intro unreleased
    exact sound_of_unreleased (by simpa using unreleased)

/-- The columns of a row that a release is about. -/
structure SameRelease (a b : ScanRow) : Prop where
  releaseEligible : a.releaseEligible = b.releaseEligible
  decision : a.decision = b.decision
  state : a.state = b.state
  workerStatus : a.workerStatus = b.workerStatus

theorem flush_alone (read assigned : ScanRow) : SameRelease (flush read assigned read) assigned :=
  ⟨column_alone,column_alone,column_alone,column_alone⟩

theorem finalized_sound (opened : Open row) (released : (finalized env outcome i row).releaseEligible = true) :
    (finalized env outcome i row).decision = some .ALLOW ∧ (finalized env outcome i row).state = .COMPLETED ∧
      (finalized env outcome i row).workerStatus = .finished .SUCCESS := by
  unfold finalized at released ⊢
  split at released
  · rename_i row' done
    have releasable := finalize_releasable done opened.findings released
    exact ⟨releasable.decision,releasable.state,releasable.workerStatus⟩
  · rw [opened.unreleased] at released
    cases released

theorem finalized_released_iff (digest : env.digest = Sha256.sha256) (opened : Open row) :
    (finalized env outcome i row).releaseEligible = true ↔ Clean outcome i := by
  refine ⟨clean_of_released opened.state opened.unreleased,fun clean => ?_⟩
  obtain ⟨row',done,released⟩ := finalize_clean digest opened.state clean
  simpa only [finalized,done] using released

/-- A row that recovery has quarantined is not released. -/
theorem finalized_quarantined (quarantined : row.state = .QUARANTINED) (unreleased : row.releaseEligible = false) :
    (finalized env outcome i row).releaseEligible = false := by
  unfold finalized
  split
  · rename_i row' done
    exact finalize_irregular done (by rw [quarantined]; decide) (by rw [quarantined]; decide)
  · exact unreleased

theorem recovered_stale (old : stale row cutoff = true) : recovered cutoff now updated row = quarantineRow row now updated :=
  if_pos old

theorem recovered_fresh (fresh : stale row cutoff = false) : recovered cutoff now updated row = row := by
  simp [recovered,fresh]

theorem recovered_unreleased (unreleased : row.releaseEligible = false) :
    (recovered cutoff now updated row).releaseEligible = false := by
  unfold recovered
  split
  · rfl
  · exact unreleased

theorem stale_analyzing (old : stale row cutoff = true) : row.state = .ANALYZING := by
  simp only [stale,decide_eq_true_eq] at old
  exact old.1

/-- The final transaction commits after the recovery. -/
theorem late_finalization (digest : env.digest = Sha256.sha256) (opened : Open row) {read : ScanRow}
    {events : List AuditEvent} (logged : events = if stale row cutoff then [recoveryEvent row.id] else [])
    (snapshot : read = row ∨ read = flush row (recovered cutoff now updated row) row) :
    Sound ⟨flush read (finalized env outcome i read) (flush row (recovered cutoff now updated row) row),events,
        .committed read,.committed row⟩ ↔
      ¬(read.state = .ANALYZING ∧ stale row cutoff = true ∧ Clean outcome i) := by
  by_cases old : stale row cutoff = true
  · have first : (flush row (recovered cutoff now updated row) row).releaseEligible = false := by
      rw [(flush_alone _ _).releaseEligible,recovered_unreleased opened.unreleased]
    rw [if_pos old] at logged
    rcases snapshot with rfl | rfl
    · -- both sessions have read the row that was being analyzed
      have merged : (flush read (finalized env outcome i read)
          (flush read (recovered cutoff now updated read) read)).releaseEligible =
          (finalized env outcome i read).releaseEligible := by
        change column read.releaseEligible _ (flush read _ read).releaseEligible = _
        rw [first,opened.unreleased,column_alone]
      rw [sound_recovered logged rfl,← finalized_released_iff digest opened,opened.state,old]
      simp [merged]
    · have quarantined : (flush row (recovered cutoff now updated row) row).state = .QUARANTINED := by
        rw [(flush_alone _ _).state,recovered_stale old]
        rfl
      refine iff_of_true (sound_of_unreleased ?_) (fun overlap => by rw [quarantined] at overlap; cases overlap.1)
      rw [show (Table.row _) = _ from rfl,(flush_alone _ _).releaseEligible]
      exact finalized_quarantined quarantined first
  · have unchanged : flush row (recovered cutoff now updated row) row = row := by
      rw [recovered_fresh (by simpa using old),flush_unassigned]
    obtain rfl : read = row := by
      rcases snapshot with same | same
      · exact same
      · rw [same,unchanged]
    refine iff_of_true ?_ (fun overlap => old overlap.2.1)
    rw [unchanged]
    have same := flush_alone read (finalized env outcome i read)
    rw [if_neg old] at logged
    refine ⟨fun released => ?_,fun event => by simp [logged] at event⟩
    rw [same.decision,same.state,same.workerStatus]
    exact finalized_sound opened (same.releaseEligible ▸ released)

/-- The recovery commits after the final transaction. -/
theorem late_recovery (digest : env.digest = Sha256.sha256) (opened : Open row) {read : ScanRow}
    {events : List AuditEvent} (logged : events = if stale read cutoff then [recoveryEvent read.id] else [])
    (snapshot : read = row ∨ read = flush row (finalized env outcome i row) row) :
    Sound ⟨flush read (recovered cutoff now updated read) (flush row (finalized env outcome i row) row),events,
        .committed row,.committed read⟩ ↔
      ¬(row.state = .ANALYZING ∧ stale read cutoff = true ∧ Clean outcome i) := by
  have same := flush_alone row (finalized env outcome i row)
  by_cases old : stale read cutoff = true
  · rw [if_pos old] at logged
    have merged : (flush read (recovered cutoff now updated read)
        (flush row (finalized env outcome i row) row)).releaseEligible =
        (finalized env outcome i row).releaseEligible := by
      -- a session that has read a released row would not have found it stale
      have unread : read.releaseEligible = false := by
        rcases snapshot with rfl | rfl
        · exact opened.unreleased
        · rw [same.releaseEligible]
          by_contra released
          have completed := (finalized_sound opened (by simpa using released)).2.1
          rw [← same.state,stale_analyzing old] at completed
          cases completed
      change column read.releaseEligible _ (flush row _ row).releaseEligible = _
      rw [recovered_unreleased unread,unread,column_unassigned,same.releaseEligible]
    rw [sound_recovered logged rfl,← finalized_released_iff digest opened,opened.state,old]
    simp [merged]
  · refine iff_of_true ?_ (fun overlap => old overlap.2.1)
    rw [recovered_fresh (by simpa using old),flush_unassigned]
    rw [if_neg old] at logged
    refine ⟨fun released => ?_,fun event => by simp [logged] at event⟩
    rw [same.decision,same.state,same.workerStatus]
    exact finalized_sound opened (same.releaseEligible ▸ released)

/-- The overlap that is not sound: the final transaction has read the scan while it was being analyzed, recovery has
    read it as a stale one, and the outcome is released. -/
def Overlap (outcome : AnalysisOutcome) (i : Choice) (cutoff : Int) (t : Table) : Prop :=
  ∃ read read', t.finalizer = .committed read ∧ t.recoverer = .committed read' ∧ read.state = .ANALYZING ∧
    stale read' cutoff = true ∧ Clean outcome i

/-- The tables that some moves lead to from a row that is being analyzed. -/
inductive Reached (env : Env) (outcome : AnalysisOutcome) (i : Choice) (cutoff now updated : Int) (row : ScanRow) :
    Table → Prop where
  | started {f g : Session} (finalizer : f = .waiting ∨ f = .read row) (recoverer : g = .waiting ∨ g = .read row) :
      Reached env outcome i cutoff now updated row ⟨row,[],f,g⟩
  | recovered {f : Session} (finalizer : f = .waiting ∨ ∃ read, f = .read read ∧
      (read = row ∨ read = flush row (recovered cutoff now updated row) row)) :
      Reached env outcome i cutoff now updated row ⟨flush row (recovered cutoff now updated row) row,
        if stale row cutoff then [recoveryEvent row.id] else [],f,.committed row⟩
  | finalized {g : Session} (recoverer : g = .waiting ∨ ∃ read, g = .read read ∧
      (read = row ∨ read = flush row (finalized env outcome i row) row)) :
      Reached env outcome i cutoff now updated row ⟨flush row (finalized env outcome i row) row,[],.committed row,g⟩
  | both {t : Table} {read read' : ScanRow} (finalizer : t.finalizer = .committed read)
      (recoverer : t.recoverer = .committed read') (sound : Sound t ↔ ¬Overlap outcome i cutoff t) :
      Reached env outcome i cutoff now updated row t

theorem overlap_committed {read read' : ScanRow} (finalizer : t.finalizer = .committed read)
    (recoverer : t.recoverer = .committed read') : Overlap outcome i cutoff t ↔
      (read.state = .ANALYZING ∧ stale read' cutoff = true ∧ Clean outcome i) := by
  constructor
  · rintro ⟨r,r',same,same',rest⟩
    rw [finalizer] at same
    rw [recoverer] at same'
    cases same
    cases same'
    exact rest
  · exact fun rest => ⟨read,read',finalizer,recoverer,rest⟩

/-- A move leads from such a table to another one. -/
theorem reached_step (digest : env.digest = Sha256.sha256) (opened : Open row) {m : Move}
    (reached : Reached env outcome i cutoff now updated row t)
    (moved : step env outcome i cutoff now updated t m = some t') : Reached env outcome i cutoff now updated row t' := by
  cases reached with
  | @started f g finalizer recoverer =>
    cases m with
    | finalizeRead =>
      rcases finalizer with rfl | rfl <;> cases moved
      exact .started (.inr rfl) recoverer
    | finalizeCommit =>
      rcases finalizer with rfl | rfl <;> cases moved
      exact .finalized (recoverer.imp_right fun same => ⟨row,same,.inl rfl⟩)
    | recoverRead =>
      rcases recoverer with rfl | rfl <;> cases moved
      exact .started finalizer (.inr rfl)
    | recoverCommit =>
      rcases recoverer with rfl | rfl <;> cases moved
      exact .recovered (finalizer.imp_right fun same => ⟨row,same,.inl rfl⟩)
  | @recovered f finalizer =>
    cases m with
    | finalizeRead =>
      rcases finalizer with rfl | ⟨read,rfl,_⟩ <;> cases moved
      exact .recovered (.inr ⟨_,rfl,.inr rfl⟩)
    | finalizeCommit =>
      rcases finalizer with rfl | ⟨read,rfl,snapshot⟩ <;> cases moved
      refine .both rfl rfl ?_
      rw [overlap_committed rfl rfl]
      exact late_finalization digest opened rfl snapshot
    | recoverRead => cases moved
    | recoverCommit => cases moved
  | @finalized g recoverer =>
    cases m with
    | finalizeRead => cases moved
    | finalizeCommit => cases moved
    | recoverRead =>
      rcases recoverer with rfl | ⟨read,rfl,_⟩ <;> cases moved
      exact .finalized (.inr ⟨_,rfl,.inr rfl⟩)
    | recoverCommit =>
      rcases recoverer with rfl | ⟨read,rfl,snapshot⟩ <;> cases moved
      refine .both rfl rfl ?_
      rw [overlap_committed rfl rfl]
      exact late_recovery digest opened rfl snapshot
  | both finalizer recoverer sound => cases m <;> simp [step,finalizer,recoverer] at moved

theorem reached_run (digest : env.digest = Sha256.sha256) (opened : Open row) {moves : List Move}
    (reached : Reached env outcome i cutoff now updated row t)
    (ran : run env outcome i cutoff now updated t moves = some t') : Reached env outcome i cutoff now updated row t' := by
  induction moves generalizing t with
  | nil =>
    cases ran
    exact reached
  | cons m rest ih =>
    obtain ⟨next,moved,later⟩ := Option.bind_eq_some_iff.mp ran
    exact ih (reached_step digest opened reached moved) later

theorem reached_sound (opened : Open row) (reached : Reached env outcome i cutoff now updated row t) :
    Sound t ↔ ¬Overlap outcome i cutoff t := by
  cases reached with
  | started finalizer recoverer =>
    refine iff_of_true (sound_of_unreleased opened.unreleased) ?_
    rintro ⟨read,_,same,_⟩
    rcases finalizer with rfl | rfl <;> cases same
  | recovered finalizer =>
    refine iff_of_true (sound_of_unreleased ?_) ?_
    · exact ((flush_alone _ _).releaseEligible).trans (recovered_unreleased opened.unreleased)
    · rintro ⟨read,_,same,_⟩
      rcases finalizer with rfl | ⟨_,rfl,_⟩ <;> cases same
  | finalized recoverer =>
    have same := flush_alone row (Races.finalized env outcome i row)
    refine iff_of_true ⟨fun released => ?_,fun event => by simp at event⟩ ?_
    · rw [same.decision,same.state,same.workerStatus]
      exact finalized_sound opened (same.releaseEligible ▸ released)
    · rintro ⟨_,read',_,same',_⟩
      rcases recoverer with rfl | ⟨_,rfl,_⟩ <;> cases same'
  | both _ _ sound => exact sound

end Orders

theorem analyzing_open (env : Env) (request : ScanRequest) (id : Text) (created marked : Int) :
    Open (analyzing env request id created marked).row := ⟨rfl,rfl,rfl⟩

/-- After any moves of the two sessions the table is sound, but for the overlap. -/
theorem unlocked_sound_iff {env : Env} (digest : env.digest = Sha256.sha256) (outcome : AnalysisOutcome) (i : Choice)
    (cutoff now updated : Int) (request : ScanRequest) (id : Text) (created marked : Int) {moves : List Move} {t : Table}
    (ran : run env outcome i cutoff now updated (analyzing env request id created marked) moves = some t) :
    Sound t ↔ ¬Overlap outcome i cutoff t :=
  reached_sound (analyzing_open env request id created marked)
    (reached_run digest (analyzing_open env request id created marked) (.started (.inl rfl) (.inl rfl)) ran)

/-! ### A stale scan that is released -/

def productEnv : Env where
  digest := Sha256.sha256
  casefold text := text.map Char.toLower
  maximumUploadBytes := 1000
  sanitizerVersion := lit "1.0.0"
  sanitizerFingerprint := POLICY_FINGERPRINT
  maxPages := 100
  cdrMaxOutputBytes := 1000

def sampleRequest : ScanRequest :=
  ⟨⟨.quarantine,List.replicate 32 'a',List.replicate 64 '0',4⟩,lit "a.txt",lit "a.txt",none,.UPLOAD,none⟩

/-- A text without findings. -/
def plainText : AnalysisResult where
  schemaVersion := Contract.ANALYSIS_SCHEMA_VERSION
  workerVersion := lit "1.0.0"
  status := .SUCCESS
  detectedType := some (lit "TEXT")
  sizeBytes := 4
  findings := []
  analyzerMetadata := []
  startedAt := ⟨0,true⟩
  completedAt := ⟨0,true⟩
  durationMs := 0
  valid := by decide +kernel

def released : AnalysisOutcome := ⟨some plainText,none,none⟩

theorem plainText_clean : Clean released {} := by
  have absent (code : Text) : ¬Present released.result code := by
    rintro ⟨r,given,f,member,_⟩
    obtain rfl : plainText = r := Option.some.inj given
    cases member
  have required : ∀ c ∈ shippedCompounds, c.requiredFindings ≠ [] := by decide
  refine ⟨rfl,?_,?_,?_,by decide +kernel⟩
  · rintro ⟨p,_,_,present⟩
    exact absent _ present
  · rintro ((failed | unsupported | ⟨_,code,present,_⟩) | failure | ⟨irregular,_⟩)
    · exact failed rfl
    · exact unsupported (lit "TEXT") (by decide) rfl
    · exact absent code present
    · exact failure rfl
    · exact irregular rfl
  · rintro (⟨p,_,_,present⟩ | ⟨c,⟨listed,present⟩,_⟩)
    · exact absent _ present
    · obtain ⟨code,member⟩ := List.exists_mem_of_ne_nil _ (required c listed)
      exact absent code (present code member)

/-- The scan of the sample, marked an hour before recovery looks for stale scans. -/
def sample : Table := analyzing productEnv sampleRequest (List.replicate 32 '1') 0 0

/-- Both sessions read the scan, and then both commit. -/
theorem unlocked_unsound : ∃ t, run productEnv released {} 1800 3600 3600 sample
    [.finalizeRead,.recoverRead,.finalizeCommit,.recoverCommit] = some t ∧ ¬Sound t := by
  refine ⟨_,rfl,fun sound => ?_⟩
  have opened : Open sample.row := analyzing_open productEnv sampleRequest _ 0 0
  have started : Reached productEnv released {} 1800 3600 3600 sample.row sample := .started (.inl rfl) (.inl rfl)
  have ran : run productEnv released {} 1800 3600 3600 sample
    [.finalizeRead,.recoverRead,.finalizeCommit,.recoverCommit] = some _ := rfl
  refine (reached_sound opened (reached_run rfl opened started ran)).mp sound ?_
  exact ⟨sample.row,sample.row,rfl,rfl,rfl,by decide +kernel,plainText_clean⟩

/-- Both sessions commit, recovery first; once on one reading of the scan, and once with a reading of the recovered row. -/
theorem unlocked_sound_iff_committed :
    (∃ t, run productEnv released {} 1800 3600 3600 sample
      [.finalizeRead,.recoverRead,.recoverCommit,.finalizeCommit] = some t ∧ Overlap released {} 1800 t ∧
      (Sound t ↔ ¬Overlap released {} 1800 t)) ∧
    ∃ t, run productEnv released {} 1800 3600 3600 sample
      [.recoverRead,.recoverCommit,.finalizeRead,.finalizeCommit] = some t ∧ ¬Overlap released {} 1800 t ∧
      (Sound t ↔ ¬Overlap released {} 1800 t) := by
  refine ⟨⟨_,rfl,?_,?_⟩,⟨_,rfl,?_,?_⟩⟩
  · exact ⟨sample.row,sample.row,rfl,rfl,rfl,by decide +kernel,plainText_clean⟩
  · exact unlocked_sound_iff rfl released {} 1800 3600 3600 sampleRequest (List.replicate 32 '1') 0 0
      (rfl : run productEnv released {} 1800 3600 3600 sample
        [.finalizeRead,.recoverRead,.recoverCommit,.finalizeCommit] = some _)
  · -- the final transaction has read the row that recovery has quarantined
    have quarantined : (flush sample.row (recovered 1800 3600 3600 sample.row) sample.row).state ≠ .ANALYZING := by
      rw [(flush_alone _ _).state,recovered_stale (by decide +kernel)]
      decide
    rw [overlap_committed rfl rfl]
    exact fun overlap => quarantined overlap.1
  · exact unlocked_sound_iff rfl released {} 1800 3600 3600 sampleRequest (List.replicate 32 '1') 0 0
      (rfl : run productEnv released {} 1800 3600 3600 sample
        [.recoverRead,.recoverCommit,.finalizeRead,.finalizeCommit] = some _)

end DocGuard.Races
