import DocGuard.Registration

/-!
The sanitization of a document under the rule for interleavings. Whatever the
renderer leaves and whichever step fails, an exit that reports an approval has an
artifact with its lineage and its one approval event, and every other exit has
added none.
-/
namespace DocGuard.Approval
open DocGuard.Domain DocGuard.Orchestrator DocGuard.Programs DocGuard.Programs.Prog DocGuard.Database
open DocGuard.ScanService DocGuard.Recovery DocGuard.Cdr DocGuard.Finalization DocGuard.Lifecycle DocGuard.Registration

variable {env : Env} {given : Assumptions} {j : Nat} {s : World} {α : Type}

/-! ### Steps that change nothing of interest -/

theorem quiet_safe {label : Label} {step : Step α} {P : World → Prop} (quiet : Quiet env given step)
    (stable : Stable given j P) (holds : P s) : SafeAs env given j (fun _ s' => P s') (.atomically label step) s :=
  safe_mono (safe_quiet quiet stable holds) fun _ _ reached => reached.1

/-- A step that changes work files only. -/
theorem quiet_work {step : Step α} (same : ∀ w i, ∃ work, (step w i).2 = { w with work := work }) :
    Quiet env given step := by
  intro w i inv
  obtain ⟨work,equal⟩ := same w i
  rw [equal]
  exact ⟨inv.of_same rfl rfl rfl rfl rfl,fun k => { Keeps.refl k w with }⟩

theorem getScan_quiet (id : Text) : Quiet env given (raising .DatabasePersistenceError (transaction fun w _ =>
    match w.scan id with
    | none => .error .ScanNotFound
    | some row => .ok (row,w))) := by
  refine quiet_of_same fun w i => ?_
  simp only [raising,transaction]
  split
  · split
    · rename_i computed
      split at computed
      · cases computed
      · cases computed
        rfl
    · rfl
  · rfl

theorem getScan_found {label : Label} {id : Text} {P : World → Prop} (stable : Stable given j P) (holds : P s) :
    SafeAs env given j (fun result s' => P s' ∧ ∀ row, result = .ok row → row.id = id) (getScan label id) s := by
  refine safe_mono (safe_quiet (getScan_quiet id) stable holds) ?_
  rintro result s' ⟨now,w,i,_,_,ran⟩
  refine ⟨now,?_⟩
  rintro row rfl
  simp only [raising,transaction] at ran
  split at ran
  · cases found : w.scan id with
    | none => simp [found,Except.mapError,Exn.isSQLAlchemyError] at ran
    | some row' =>
      simp only [found,Except.mapError,Prod.mk.injEq,Except.ok.injEq] at ran
      obtain ⟨rfl,_⟩ := ran
      exact scan_id found
  · simp [Except.mapError] at ran

theorem verifyStored_safe {area : Area} {key sha256 : Text} {size maximum : Nat} {P : World → Prop}
    (stable : Stable given j P) (holds : P s) :
    SafeAs env given j (fun _ s' => P s') (verifyStored env area key sha256 size maximum) s :=
  quiet_safe (quiet_of_same fun _ _ => rfl) stable holds

/-- The artifact is one of the scan. -/
def Listed (scanId : Text) (a : ArtifactRow) (s : World) : Prop := a ∈ s.artifacts ∧ a.scanId = scanId

theorem listed_stable (scanId : Text) (a : ArtifactRow) : Stable given j (Listed scanId a) :=
  fun _ _ listed keeps => ⟨keeps.artifacts a listed.1,listed.2⟩

theorem getExistingCdrArtifact_safe {scanId : Text} {P : World → Prop} (stable : Stable given j P) (holds : P s) :
    SafeAs env given j (fun result s' => P s' ∧ ∀ a, result = .ok (some a) → Listed scanId a s')
      (getExistingCdrArtifact env scanId) s := by
  refine safe_bind (M := fun result s' => P s' ∧ ∀ a, result = .ok (some a) → Listed scanId a s') ?_
    (fun found s₁ reached => ?_) (fun e _ reached => ⟨reached.1,fun a impossible => by cases impossible⟩)
  · refine safe_mono (safe_quiet (quiet_of_same fun w i => ?_) stable holds) ?_
    · simp only [transaction]
      split <;> rfl
    · rintro result s' ⟨now,w,i,_,_,ran⟩
      refine ⟨now,?_⟩
      rintro a rfl
      simp only [transaction] at ran
      split at ran
      · simp only [Prod.mk.injEq,Except.ok.injEq] at ran
        obtain ⟨found,rfl⟩ := ran
        have chosen := List.find?_some found
        simp only [Bool.and_eq_true,beq_iff_eq] at chosen
        exact ⟨List.mem_of_find?_eq_some found,chosen.1⟩
      · cases ran
  · cases found with
    | none => exact ⟨reached.1,fun a impossible => by cases impossible⟩
    | some a =>
      dsimp only
      split
      · have both : Stable given j (fun t => P t ∧ Listed scanId a t) := stable.and (listed_stable scanId a)
        refine safe_bind (verifyStored_safe both ⟨reached.1,reached.2 a rfl⟩) (fun verified s₂ now => ⟨now.1,?_⟩)
          (fun _ _ now => ⟨now.1,fun b impossible => by cases impossible⟩)
        rintro b equal
        cases verified
        · cases equal
        · cases equal
          exact now.2
      · exact ⟨reached.1,fun b impossible => by cases impossible⟩

/-! ### Exits -/

/-- Within the workflow an error that a handler turns into a failure has added no artifact; only the check of the
    result, which nothing handles, may reject what has already been approved. -/
def Concluded (j : Nat) : Except Exn Response → World → Prop
  | .error e,s => e = .ValueError ∨ NoArtifact j s
  | .ok response,s => Promised j (.ok response) s

theorem Concluded.promised {result : Except Exn Response} (concluded : Concluded j result s) : Promised j result s := by
  cases result with
  | error e => exact trivial
  | ok response => exact concluded

/-- An approval of this scan names an artifact of the scan. -/
def Approves (sourceScanId : Text) (derivedScanId artifactId : Option Text) (s : World) : Prop :=
  ∃ a ∈ s.artifacts, artifactId = some a.id ∧ a.scanId = sourceScanId ∧ derivedScanId = some a.derivedScanId

theorem serviceResult_safe {sourceScanId : Text} {derivedScanId artifactId : Option Text} {approved reused : Bool}
    {failureCode : Option CdrFailureCode} (listed : approved = true → Approves sourceScanId derivedScanId artifactId s)
    (unapproved : approved = false → NoArtifact j s) :
    SafeAs env given j (Concluded j)
      (serviceResult sourceScanId derivedScanId artifactId approved reused failureCode) s := by
  unfold serviceResult
  split
  · cases approved with
    | true => exact listed rfl
    | false => exact unapproved rfl
  · exact .inl rfl

theorem failed_safe {sourceScanId : Text} {code : CdrFailureCode} {derivedScanId : Option Text}
    (none : NoArtifact j s) : SafeAs env given j (Concluded j) (failed sourceScanId code derivedScanId) s :=
  serviceResult_safe (fun impossible => by cases impossible) (fun _ => none)

/-- The exit with an artifact that was there before. -/
theorem reused_safe {sourceScanId : Text} {existing : ArtifactRow} (listed : Listed sourceScanId existing s) :
    SafeAs env given j (Concluded j)
      (serviceResult sourceScanId (some existing.derivedScanId) (some existing.id) true true none) s :=
  serviceResult_safe (fun _ => ⟨existing,listed.1,rfl,listed.2,rfl⟩) (fun impossible => by cases impossible)

theorem safeAuditFailure_safe {scanId : Text} {failure : CdrFailureCode} {P : World → Prop} (stable : Stable given j P)
    (holds : P s) : SafeAs env given j (fun _ s' => P s') (safeAuditFailure scanId failure) s := by
  refine safe_tryCatch (auditAppend_safe ⟨by simp,by simp,rfl⟩ stable holds) (fun _ _ now => now) fun e s' now => ?_
  cases e <;> exact now

/-- An exit that reports a failure after the attempt to record it. -/
theorem auditedFailure_safe {auditedId scanId : Text} {failure code : CdrFailureCode} {derivedScanId : Option Text}
    (none : NoArtifact j s) : SafeAs env given j (Concluded j) (do
      safeAuditFailure auditedId failure
      failed scanId code derivedScanId) s :=
  safe_bind (safeAuditFailure_safe (noArtifact_stable j) none) (fun _ _ now => failed_safe now)
    (fun _ _ now => .inr now)

/-! ### The promotion -/

/-- The program holds the finished scan of its candidate. -/
abbrev Candidate (env : Env) (given : Assumptions) (j : Nat) (request : ScanRequest) (content : Bytes) (derived : ScanRow) : World → Prop :=
  Phase given j request.document.storageKey content derived.id (fun read => given.keys → read = some content)
    (fun r => r = derived ∧ Finished env request content r)

theorem candidate_stable (request : ScanRequest) (content : Bytes) (derived : ScanRow) :
    Stable given j (Candidate env given j request content derived) := by
  refine phase_stable ?_
  rintro row now updated ⟨rfl,finished⟩ analyzing
  rcases finished.settled with completed | quarantined
  · rw [completed] at analyzing
    cases analyzing
  · rw [quarantined] at analyzing
    cases analyzing

/-- The copy that is to be promoted. -/
structure Promotable (env : Env) (promoted : StoredDocument) (expectedSha256 : Text) : Prop where
  area : promoted.area = .sanitized
  copy : ∃ content : Bytes, promoted.sha256 = env.digest content ∧ promoted.sizeBytes = content.length
  sha256 : promoted.sha256 = expectedSha256

theorem promotedCopy_safe {source : World → Option Bytes} {expectedSha256 : Text} {request : ScanRequest}
    {content : Bytes} {derived : ScanRow} (candidate : Candidate env given j request content derived s) :
    SafeAs env given j
      (fun
        | .ok promoted,s' => Promotable env promoted expectedSha256 ∧ Candidate env given j request content derived s' ∧
            (given.keys → s'.history.fileOwner promoted.storageKey = some j)
        | .error _,s' => NoArtifact j s')
      (storePrivateCopy env j source .sanitized expectedSha256) s := by
  refine safe_atomically fun s' others inv i may => ?_
  have now : Candidate env given j request content derived s' := candidate_stable request content derived s s' candidate others
  have unchanged : Inv env given s' ∧ Guarantee (Keeps given) j s' s' ∧ NoArtifact j s' :=
    ⟨inv,fun k _ => Keeps.refl k s',now.held.noArtifact⟩
  have stored (copy : Bytes) := storing .sanitized copy (P := fun _ => True)
    (fun _ _ _ _ _ => trivial) trivial now.held.noArtifact inv (fun distinct => may.1 distinct rfl)
  cases found : source s' with
  | none => exact unchanged
  | some copy =>
    dsimp only
    split_ifs with rejected
    · exact unchanged
    · simp only [not_or,not_not] at rejected
      obtain ⟨kept,keeps,_,noArtifact,owner⟩ := stored copy
      cases i.fault with
      | none =>
        refine ⟨kept,keeps,⟨rfl,⟨copy,rfl,rfl⟩,rejected.2.2⟩,?_,fun _ => owner⟩
        refine ⟨⟨fun distinct => ?_,now.held.file,noArtifact⟩,now.scanned,now.read,now.row⟩
        by_cases same : request.document.storageKey = i.name
        · rw [same]
          exact owner
        · simpa [addFile,setFile,Function.update_of_ne same] using now.held.owner distinct
      | fails => exact unchanged
      | cleanupFails => exact ⟨kept,keeps,noArtifact⟩

/-- A candidate that the workflow approves passes the test that its download makes, with the artifact of a copy of
    the same size. -/
theorem approvable_lineage {source source' derived : ScanRow} {expectedSha256 id : Text} {promoted : StoredDocument}
    {e : Engine.EvaluationFields} (approvable : derivedIsApprovable derived source.id expectedSha256 = true)
    (evaluated : Evaluated derived e) (same : source'.id = source.id) (digest : promoted.sha256 = derived.sha256)
    (size : promoted.sizeBytes = derived.sizeBytes) :
    validLineage (newArtifact env source derived promoted id) source' derived = true := by
  simp only [derivedIsApprovable,Bool.and_eq_true,decide_eq_true_eq] at approvable
  obtain ⟨⟨⟨⟨⟨⟨⟨⟨⟨origin,parent⟩,_⟩,type⟩,worker⟩,state⟩,decision⟩,released⟩,_⟩,_⟩ := approvable
  have allowed : e.decision = .ALLOW := Option.some.inj (evaluated.decision.symm.trans decision)
  have eligible : e.releaseEligible = true := evaluated.releaseEligible.symm.trans released
  simp [validLineage,newArtifact,same,origin,parent,type,worker,state,decision,released,digest,size,evaluated.dump,
    evaluated.policyVersion,evaluated.policyFingerprint,allowed,eligible]

theorem insertArtifact_safe {source derived : ScanRow} {promoted : StoredDocument} {expectedSha256 : Text}
    {request : ScanRequest} {content : Bytes} (candidate : Candidate env given j request content derived s)
    (approvable : derivedIsApprovable derived source.id expectedSha256 = true)
    (promotable : Promotable env promoted expectedSha256) (agrees : promoted.sha256 = derived.sha256)
    (owned : given.keys → s.history.fileOwner promoted.storageKey = some j) :
    SafeAs env given j
      (fun
        | .ok artifactId,s' => Approves source.id (some derived.id) (some artifactId) s'
        | .error _,s' => NoArtifact j s' ∧ (given.keys → s'.history.fileOwner promoted.storageKey = some j))
      (.atomically .step (insertArtifact env j source derived promoted)) s := by
  refine safe_atomically fun s' others inv i _ => ?_
  have now : Candidate env given j request content derived s' := candidate_stable request content derived s s' candidate others
  cases ended : insertArtifact env j source derived promoted s' i with
  | mk result w =>
  rcases transaction_cases ended with ⟨artifactId,rfl,committed⟩ | ⟨rfl,e,rfl,_⟩
  · dsimp only at committed
    split at committed
    · cases committed
    · rename_i valid
      simp only [violatesArtifact,Bool.or_eq_true,List.any_eq_true,not_or,not_exists,not_and,beq_iff_eq,
        Option.isNone_iff_eq_none,← Option.isSome_iff_ne_none,← ne_eq] at valid
      obtain ⟨⟨unused,sourced⟩,_⟩ := valid
      cases added : addToTransaction (s'.addArtifact j (newArtifact env source derived promoted i.name))
          { eventType := .CDR_APPROVED
            scanId := some source.id
            artifactId := some (newArtifact env source derived promoted i.name).id
            outcome := .SUCCESS
            details := identityDetails env ++
              [(lit "derived_scan_id",.str derived.id),
               (lit "derived_decision",optionalText (derived.decision.map (·.value))),
               (lit "policy_version",optionalText derived.policyVersion)] } with
      | error e => simp [added,Except.map] at committed
      | ok w' =>
        simp only [added,Except.map,Except.ok.injEq,Prod.mk.injEq] at committed
        obtain ⟨rfl,rfl⟩ := committed
        obtain ⟨details,rfl⟩ := addToTransaction_added added
        have fresh : ∀ b ∈ s'.artifacts, b.id ≠ i.name := fun b member same => (unused b member).1.1 same
        obtain ⟨row,found,rfl,finished⟩ := now.row
        obtain ⟨source',found'⟩ := Option.isSome_iff_exists.mp sourced
        obtain ⟨e,evaluated⟩ := finished.evaluated
        have completed : row.state = .COMPLETED := by
          simp only [derivedIsApprovable,Bool.and_eq_true,decide_eq_true_eq] at approvable
          exact approvable.1.1.1.1.2
        have lineage (distinct : given.keys) : Lineage env s' (newArtifact env source row promoted i.name) :=
          ⟨source',row,content,found',found,completed,now.read distinct,finished.describes.sha256,finished.describes.sizeBytes,
            promotable.copy,agrees,fun size => approvable_lineage approvable evaluated (scan_id found') agrees size⟩
        refine ⟨inv_addArtifact inv fresh lineage (by simp [approves]),?_,?_⟩
        · exact fun k differs => (keeps_addArtifact inv fresh k differs).trans (keeps_addEvent _ _ k)
        · exact ⟨_,List.mem_append_right _ (List.mem_singleton_self _),rfl,rfl,rfl⟩
  · exact ⟨inv,fun k _ => Keeps.refl k _,now.held.noArtifact,fun distinct => (others.fileOwner distinct _).mpr (owned distinct)⟩

/-- The copy is removed on an exit without an approval. -/
theorem withdraw_safe {promoted : StoredDocument} {expectedSha256 : Text} (promotable : Promotable env promoted expectedSha256)
    (owned : given.keys → s.history.fileOwner promoted.storageKey = some j) (none : NoArtifact j s) :
    SafeAs env given j (fun _ s' => NoArtifact j s') (removeStoredDocument promoted) s := by
  refine removal_safe (noArtifact_stable j) ?_ none owned ?_
  · intro a b holds same id
    rw [same]
    exact holds id
  · intro _ area
    rw [promotable.area] at area
    cases area

theorem promote_safe {source derived : ScanRow} {candidateSha256 : Text} {candidateSize : Nat} {request : ScanRequest}
    {content : Bytes} (candidate : Candidate env given j request content derived s)
    (approvable : derivedIsApprovable derived source.id candidateSha256 = true) :
    SafeAs env given j (Concluded j) (promote env j source derived candidateSha256 candidateSize) s := by
  unfold promote
  split
  · exact .inl rfl
  refine safe_resume (promotedCopy_safe candidate) fun result s₁ copied => ?_
  cases result with
  | error e =>
    cases e with
    | StorageFailure => exact auditedFailure_safe copied
    | _ => exact .inr copied
  | ok promoted =>
    obtain ⟨promotable,held,owned⟩ := copied
    dsimp only
    split
    · exact safe_bind (withdraw_safe promotable owned held.held.noArtifact)
        (fun _ _ now => auditedFailure_safe now) (fun _ _ now => .inr now)
    rename_i agrees
    have digest : promoted.sha256 = derived.sha256 := by
      by_contra differs
      exact agrees (.inl differs)
    refine safe_resume (insertArtifact_safe held approvable promotable digest owned) fun result s₂ ended => ?_
    cases result with
    | ok artifactId =>
      exact serviceResult_safe (fun _ => ended) (fun impossible => by cases impossible)
    | error e =>
      have withdrawn : SafeAs env given j (fun _ s' => NoArtifact j s') (removeStoredDocument promoted) s₂ :=
        withdraw_safe promotable ended.2 ended.1
      cases e with
      | IntegrityError =>
        refine safe_bind withdrawn (fun _ s₃ now => ?_) (fun _ _ now => .inr now)
        refine safe_bind (getExistingCdrArtifact_safe (noArtifact_stable j) now) (fun found s₄ reached => ?_)
          (fun _ _ reached => .inr reached.1)
        cases found with
        | none => exact failed_safe reached.1
        | some existing => exact reused_safe (reached.2 existing rfl)
      | ValueError => exact safe_bind withdrawn (fun _ _ now => auditedFailure_safe now) (fun _ _ now => .inr now)
      | SQLAlchemyError => exact safe_bind withdrawn (fun _ _ now => auditedFailure_safe now) (fun _ _ now => .inr now)
      | _ => exact .inr ended.1

/-! ### The workflow -/

theorem approveDerived_safe {source derived : ScanRow} {candidateSha256 : Text} {candidateSize : Nat}
    {request : ScanRequest} {content : Bytes} (candidate : Candidate env given j request content derived s) :
    SafeAs env given j (Concluded j) (approveDerived env j source derived candidateSha256 candidateSize) s := by
  have stable : Stable given j (Candidate env given j request content derived) := candidate_stable request content derived
  refine safe_bind (auditAppend_safe ⟨by simp,by simp,rfl⟩ stable candidate) (fun _ s₁ created => ?_)
    (fun _ _ now => .inr now.held.noArtifact)
  refine safe_bind (auditAppend_safe ⟨by simp,by simp,rfl⟩ stable created) (fun _ s₂ completed => ?_)
    (fun _ _ now => .inr now.held.noArtifact)
  split
  · rename_i approvable
    exact promote_safe completed approvable
  · refine safe_bind (auditAppend_safe ⟨by simp,by simp,rfl⟩ stable completed) (fun _ s₃ rejected => ?_)
      (fun _ _ now => .inr now.held.noArtifact)
    exact serviceResult_safe (fun impossible => by cases impossible) (fun _ => rejected.held.noArtifact)

theorem analyzeCandidate_safe {scanId : Text} {source : ScanRow} {document : StoredDocument} {candidateSha256 : Text}
    {candidateSize : Nat} {content : Bytes} (area : document.area = .quarantine)
    (digest : document.sha256 = env.digest content) (size : document.sizeBytes = content.length)
    (held : Held given j document.storageKey content s) (noScan : NoScan j s) :
    SafeAs env given j (Concluded j)
      (analyzeCandidate env j scanId source document candidateSha256 candidateSize) s := by
  refine safe_resume (registerAndAnalyze_safe (⟨area,digest,size⟩ : Stores env _ content) held noScan)
    fun result s₁ registered => ?_
  cases result with
  | ok derived => exact approveDerived_safe registered
  | error e =>
    obtain ⟨owned,none,unregistered⟩ := registered
    cases e with
    | DatabasePersistenceError =>
      refine safe_bind (M := fun _ s' => NoArtifact j s') ?_ (fun _ _ now => auditedFailure_safe now)
        (fun _ _ now => .inr now)
      refine removal_safe (noArtifact_stable j) ?_ none owned (fun assumed _ => unregistered assumed rfl rfl)
      intro a b holds same id
      rw [same]
      exact holds id
    | _ => exact .inr none

theorem candidateCopy_safe {source : World → Option Bytes} {expectedSha256 : Text} (unused : Unused j s) :
    SafeAs env given j
      (fun
        | .ok document,s' => ∃ content, document.area = .quarantine ∧ document.sha256 = env.digest content ∧
            document.sizeBytes = content.length ∧ Held given j document.storageKey content s' ∧ NoScan j s'
        | .error _,s' => NoArtifact j s')
      (storePrivateCopy env j source .quarantine expectedSha256) s := by
  refine safe_atomically fun s' others inv i may => ?_
  have now : Unused j s' := unused_stable j s s' unused others
  have unchanged : Inv env given s' ∧ Guarantee (Keeps given) j s' s' ∧ NoArtifact j s' :=
    ⟨inv,fun k _ => Keeps.refl k s',now.1⟩
  have stored (content : Bytes) := storing .quarantine content (P := NoScan j)
    (fun a b none same _ => noScan_history none same) now.2 now.1 inv (fun distinct => may.1 distinct rfl)
  cases found : source s' with
  | none => exact unchanged
  | some content =>
    dsimp only
    split_ifs
    · exact unchanged
    · obtain ⟨kept,keeps,noScan,noArtifact,owner⟩ := stored content
      cases i.fault with
      | none =>
        refine ⟨kept,keeps,content,rfl,rfl,rfl,⟨fun _ => owner,fun _ => ?_,noArtifact⟩,noScan⟩
        simp [addFile,setFile]
      | fails => exact unchanged
      | cleanupFails => exact ⟨kept,keeps,noArtifact⟩

theorem renderAndPromote_safe {scanId output : Text} {source : ScanRow} (unused : Unused j s) :
    SafeAs env given j (Concluded j) (renderAndPromote env j scanId source output) s := by
  have stable : Stable given j (Unused j) := unused_stable j
  refine safe_bind (quiet_safe (quiet_work fun w i => ?_) stable unused) (fun outcome s₁ rendered => ?_)
    (fun _ _ now => .inr now.1)
  · dsimp only
    split <;> exact ⟨_,rfl⟩
  split
  · refine safe_bind (auditAppend_safe ⟨by simp,by simp,rfl⟩ stable rendered) (fun _ s₂ now => ?_)
      (fun _ _ now => .inr now.1)
    exact safe_bind (auditAppend_safe ⟨by simp,by simp,rfl⟩ stable now) (fun _ _ now => failed_safe now.1)
      (fun _ _ now => .inr now.1)
  · refine safe_bind (quiet_safe (quiet_of_same fun w i => ?_) stable rendered) (fun sizes s₂ finalized => ?_)
      (fun _ _ now => .inr now.1)
    · split
      · rfl
      · split <;> rfl
    obtain ⟨candidateSha256,candidateSize⟩ := sizes
    dsimp only
    split
    · exact auditedFailure_safe finalized.1
    · refine safe_bind (auditAppend_safe ⟨by simp,by simp,rfl⟩ stable finalized) (fun _ s₃ completed => ?_)
        (fun _ _ now => .inr now.1)
      refine safe_bind (candidateCopy_safe completed) (fun document s₄ copied => ?_) (fun _ _ none => .inr none)
      obtain ⟨content,area,digest,size,held,noScan⟩ := copied
      exact analyzeCandidate_safe area digest size held noScan

theorem handled_safe {scanId : Text} {source : ScanRow} {result : Except Exn Response}
    (concluded : Concluded j result s) : SafeAs env given j (Concluded j) (handled scanId source result) s := by
  cases result with
  | ok response => exact concluded
  | error e =>
    cases e with
    | AuditPersistenceError =>
      rcases concluded with impossible | none
      · cases impossible
      · exact failed_safe none
    | StorageFailure =>
      rcases concluded with impossible | none
      · cases impossible
      · exact auditedFailure_safe none
    | _ => exact concluded

theorem concluded_stable (result : Except Exn Response) : Stable given j (Concluded j result) := by
  intro a b holds keeps
  cases result with
  | error e => exact holds.imp_right fun none => noArtifact_stable j a b none keeps
  | ok response =>
    cases response with
    | cdr sourceScanId derivedScanId artifactId approved reused failureCode =>
      cases approved with
      | true =>
        obtain ⟨artifact,listed,rest⟩ := holds
        exact ⟨artifact,keeps.artifacts artifact listed,rest⟩
      | false => exact noArtifact_stable j a b holds keeps
    | _ => exact trivial

theorem evaluateCdrEligibility_safe {scanId : Text} (unused : Unused j s) :
    SafeAs env given j (fun _ s' => Unused j s') (evaluateCdrEligibility env scanId) s := by
  have stable : Stable given j (Unused j) := unused_stable j
  have built (id : Text) (reasons : List Text) {t : World} (now : Unused j t) :
      SafeAs env given j (fun _ s' => Unused j s') (buildEligibility id reasons) t := by
    unfold buildEligibility
    split <;> exact now
  refine safe_resume (getScan_found stable unused) fun result s₁ found => ?_
  cases result with
  | error e =>
    cases e with
    | ScanNotFound =>
      refine safe_bind (built scanId _ found.1) (fun eligibility s₂ now => ?_) (fun _ _ now => now)
      exact safe_bind (auditAppend_safe ⟨by simp,by simp,rfl⟩ stable now) (fun _ _ now => now) (fun _ _ now => now)
    | _ => exact found.1
  | ok scan =>
    refine safe_bind (verifyStored_safe stable found.1) (fun integrity s₂ now => ?_) (fun _ _ now => now)
    refine safe_bind (built scan.id _ now) (fun eligibility s₃ now => ?_) (fun _ _ now => now)
    exact safe_bind (auditAppend_safe ⟨by simp,by simp,rfl⟩ stable now) (fun _ _ now => now) (fun _ _ now => now)

theorem createCdrOutput_safe (unused : Unused j s) :
    SafeAs env given j (fun _ s' => Unused j s') createCdrOutput s := by
  refine quiet_safe (quiet_work fun w i => ?_) (unused_stable j) unused
  split <;> exact ⟨_,rfl⟩

/-- The removal of the output leaves what was concluded. -/
theorem removeCdrOutput_safe {output : Text} {result : Except Exn Response} (concluded : Concluded j result s) :
    SafeAs env given j (fun removed s' => removed = .ok () ∧ Concluded j result s') (removeCdrOutput output) s := by
  refine safe_mono (safe_quiet (quiet_work fun w i => ?_) (concluded_stable result) concluded) ?_
  · dsimp only
    split <;> exact ⟨_,rfl⟩
  · rintro removed s' ⟨now,w,i,_,_,ran⟩
    exact ⟨(congrArg Prod.fst ran).symm,now⟩

/-- A sanitization keeps to the rule and leaves what `Promised` says. -/
theorem sanitizePdf_safe {scanId : Text} (unused : Unused j s) :
    SafeAs env given j (Promised j) (sanitizePdf env j scanId) s := by
  have stable : Stable given j (Unused j) := unused_stable j
  refine safe_mono (M := Concluded j) ?_ fun _ _ concluded => concluded.promised
  refine safe_resume (evaluateCdrEligibility_safe unused) fun result s₁ now => ?_
  cases result with
  | error e =>
    cases e with
    | AuditPersistenceError => exact failed_safe now.1
    | _ => exact .inr now.1
  | ok eligibility =>
    dsimp only
    split
    · exact failed_safe now.1
    refine safe_bind (getExistingCdrArtifact_safe stable now) (fun found s₂ now => ?_) (fun _ _ now => .inr now.1.1)
    cases found with
    | some existing => exact reused_safe (now.2 existing rfl)
    | none =>
      refine safe_bind (getScan_found stable now.1) (fun source s₃ now => ?_) (fun _ _ now => .inr now.1.1)
      split
      · exact .inl rfl
      refine safe_resume (auditAppend_safe ⟨by simp,by simp,rfl⟩ stable now.1) fun result s₄ now => ?_
      cases result with
      | error e =>
        cases e with
        | AuditPersistenceError => exact failed_safe now.1
        | _ => exact .inr now.1
      | ok started =>
        refine safe_resume (createCdrOutput_safe now) fun result s₅ now => ?_
        cases result with
        | error e =>
          cases e with
          | StorageFailure => exact auditedFailure_safe now.1
          | _ => exact .inr now.1
        | ok output =>
          refine safe_resume (M := Concluded j) ?_ fun result s₆ concluded => ?_
          · exact safe_resume (renderAndPromote_safe now) fun _ _ concluded => handled_safe concluded
          · refine safe_resume (removeCdrOutput_safe concluded) fun removed s₇ reached => ?_
            rw [reached.1]
            exact reached.2

end DocGuard.Approval
