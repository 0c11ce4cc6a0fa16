import DocGuard.JsonSize
import DocGuard.Promotions

/-!
The download of an artifact, and the service with downloads among its programs:
what a download delivers in any run, that the file of every artifact is there
whenever it is asked for, and where a sanitized file without an artifact comes from.
-/
namespace DocGuard.Downloads
open DocGuard.Domain DocGuard.Orchestrator DocGuard.Programs DocGuard.Programs.Prog DocGuard.Database
open DocGuard.ScanService DocGuard.Recovery DocGuard.Cdr DocGuard.Finalization DocGuard.Lifecycle DocGuard.Registration
open DocGuard.Approval DocGuard.Service DocGuard.Sources DocGuard.Promotions

/-! ### The download -/

/-- `PreparedArtifactDownload`, with what its descriptor reads to the end. -/
structure PreparedArtifactDownload where
  artifactId : Text
  descriptor : Bytes
  sizeBytes : Nat
  downloadFilename : Text

/-- The artifact, joined with its two scans, and the test of its lineage. -/
def joined (w : World) (artifactId : Text) : Except Exn (ArtifactRow × Bool) :=
  match w.artifact artifactId with
  | none => .error .ArtifactNotFound
  | some artifact =>
    match w.scan artifact.scanId,w.scan artifact.derivedScanId with
    | some source,some derived => .ok (artifact,validLineage artifact source derived)
    | _,_ => .error .ArtifactNotFound

def lookupArtifact (artifactId : Text) : Program (ArtifactRow × Bool) :=
  .atomically .step (raising .ArtifactUnavailable (transaction fun w _ =>
    (joined w artifactId).map fun found => (found,w)))

/-- `_deny` -/
def deny (artifactId userId reasonCode : Text) : Program Unit :=
  tryCatch
    (auditAppend { eventType := .ARTIFACT_DOWNLOAD_DENIED, scanId := none, outcome := .DENIED,
                   reasonCode := some reasonCode, actorType := .OPERATOR, actorId := some userId,
                   details := [(lit "requested_artifact_id",.str artifactId)] })
    fun
      | .AuditPersistenceError => return ()
      | e => throw e

/-- `_open_verified_artifact` at the path of the artifact. -/
def openVerifiedArtifact (env : Env) (artifact : ArtifactRow) : Program Bytes :=
  if ¬hex32 artifact.storageKey then throw .ValueError
  else .atomically .step fun w i =>
    match w.sanitized artifact.storageKey with
    | none => (.error .OSError,w)
    | some content =>
      if i.fault ≠ .none then (.error .OSError,w)
      else if content.length = artifact.sizeBytes ∧ content.length ≤ env.cdrMaxOutputBytes ∧
          env.digest content = artifact.sha256 then (.ok content,w)
      else (.error .ArtifactUnavailable,w)

/-- The event of a download. -/
def downloadedEvent (artifact : ArtifactRow) (userId : Text) : AuditEvent :=
  { eventType := .ARTIFACT_DOWNLOADED, scanId := some artifact.scanId, artifactId := some artifact.id,
    outcome := .SUCCESS, actorType := .OPERATOR, actorId := some userId,
    details := [(lit "derived_scan_id",.str artifact.derivedScanId)] }

/-- The part of `prepare` from the verified descriptor on. -/
def recordDownload (artifact : ArtifactRow) (userId : Text) (content : Bytes) : Program PreparedArtifactDownload :=
  (auditAppend (downloadedEvent artifact userId)).resume fun
    | .error .AuditPersistenceError => throw .ArtifactAuditUnavailable
    | .error e => throw e
    | .ok () => return ⟨artifact.id,content,artifact.sizeBytes,
        lit "docguard-sanitized-" ++ artifact.id.take 12 ++ lit ".pdf"⟩

/-- `ArtifactDownloadService.prepare` -/
def prepare (env : Env) (artifactId userId : Text) : Program PreparedArtifactDownload := do
  let (artifact,valid) ← lookupArtifact artifactId
  if ¬valid then do
    deny artifactId userId (lit "LINEAGE_INVALID")
    throw .ArtifactUnavailable
  else (openVerifiedArtifact env artifact).resume fun
    | .error e =>
      if e = .OSError ∨ e = .ValueError ∨ e = .ArtifactUnavailable then do
        deny artifactId userId (lit "INTEGRITY_FAILED")
        throw .ArtifactUnavailable
      else throw e
    | .ok content => recordDownload artifact userId content

/-- The response to a request of a download. -/
inductive Delivery where
  | streamed (download : PreparedArtifactDownload)
  | rejected (status : Nat)

/-- `download_artifact`, whose path takes identifiers only. -/
def downloadArtifact (env : Env) (artifactId userId : Text) : Program Delivery :=
  if ¬hex32 artifactId then return .rejected 422
  else (prepare env artifactId userId).resume fun
    | .ok download => return .streamed download
    | .error .ArtifactNotFound => return .rejected 404
    | .error .ArtifactUnavailable => return .rejected 409
    | .error .ArtifactAuditUnavailable => return .rejected 409
    | .error e => throw e

variable {env : Env} {given : Assumptions} {j : Nat} {s s' : World} {α : Type}

/-! ### Under the first invariant -/

/-- An event that names an artifact of the state. -/
theorem inv_addNamed {e : AuditEvent} (inv : Inv env given s) (approval : e.eventType ≠ .CDR_APPROVED)
    (recovery : e.eventType ≠ .RECOVERY_STALE_SCAN_QUARANTINED)
    (named : ∀ id, e.artifactId = some id → ∃ a ∈ s.artifacts, a.id = id) : Inv env given (s.addEvent e) := by
  refine { inv with recovered := ?_, approvals := ?_, eventArtifacts := ?_ }
  · rintro id ⟨e',member,recovered,scan⟩
    rcases List.mem_append.mp member with old | new
    · exact inv.recovered id ⟨e',old,recovered,scan⟩
    · obtain rfl := List.mem_singleton.mp new
      exact absurd recovered recovery
  · intro a member
    have other : approves a.id e = false := by simp [approves,approval]
    simp only [World.addEvent,List.filter_append,List.length_append]
    rw [inv.approvals a member]
    simp [other]
  · intro e' member
    rcases List.mem_append.mp member with old | new
    · exact inv.eventArtifacts e' old
    · obtain rfl := List.mem_singleton.mp new
      exact ⟨fun approved => absurd approved approval,named⟩

theorem addToTransaction_named {w w' : World} {e : AuditEvent} (done : addToTransaction w e = .ok w') :
    ∀ id, e.artifactId = some id → ∃ a ∈ w.artifacts, a.id = id := by
  obtain ⟨details,_,rest⟩ := Checks.bind_ok.mp done
  split at rest
  · cases rest
  · rename_i present
    intro id named
    have found : w.artifact id ≠ none := fun missing => present (.inr ⟨id,named,missing⟩)
    obtain ⟨a,listed⟩ := Option.ne_none_iff_exists'.mp found
    exact ⟨a,List.mem_of_find?_eq_some listed,by simpa using List.find?_some listed⟩

theorem quiet_named {e : AuditEvent} (approval : e.eventType ≠ .CDR_APPROVED)
    (recovery : e.eventType ≠ .RECOVERY_STALE_SCAN_QUARANTINED) :
    Quiet env given (transaction fun w _ => (addToTransaction w e).map fun w' => ((),w')) := by
  intro w i inv
  cases ended : transaction (fun w _ => (addToTransaction w e).map fun w' => ((),w')) w i with
  | mk result w' =>
  rcases transaction_cases ended with ⟨_,_,computed⟩ | ⟨rfl,_⟩
  · cases added : addToTransaction w e with
    | error e => simp [added,Except.map] at computed
    | ok w'' =>
      simp only [added,Except.map,Except.ok.injEq,Prod.mk.injEq,true_and] at computed
      subst computed
      have named := addToTransaction_named added
      obtain ⟨details,rfl⟩ := addToTransaction_added added
      exact ⟨inv_addNamed inv approval recovery named,fun k => keeps_addEvent w _ k⟩
  · exact ⟨inv,fun k => Keeps.refl k w'⟩

theorem auditNamed_safe {e : AuditEvent} (approval : e.eventType ≠ .CDR_APPROVED)
    (recovery : e.eventType ≠ .RECOVERY_STALE_SCAN_QUARANTINED) :
    SafeAs env given j (fun _ _ => True) (auditAppend e) s :=
  safe_mono (safe_quiet (P := fun _ => True) (quiet_raising (quiet_named approval recovery)) (fun _ _ _ _ => trivial) trivial)
    fun _ _ _ => trivial

theorem deny_safe {artifactId userId reasonCode : Text} :
    SafeAs env given j (fun _ _ => True) (deny artifactId userId reasonCode) s := by
  refine safe_tryCatch (auditNamed_safe (by simp) (by simp)) (fun _ _ _ => trivial) fun e s' _ => ?_
  cases e <;> exact trivial

/-- A download keeps to the rule. -/
theorem downloadArtifact_safe {artifactId userId : Text} :
    SafeAs env given j (fun _ _ => True) (downloadArtifact env artifactId userId) s := by
  have denied {t : World} {reasonCode : Text} : SafeAs env given j (fun _ _ => True) (do
      deny artifactId userId reasonCode
      throw .ArtifactUnavailable : Program PreparedArtifactDownload) t :=
    safe_bind deny_safe (fun _ _ _ => trivial) (fun _ _ _ => trivial)
  unfold downloadArtifact
  split
  · exact trivial
  refine safe_resume (M := fun _ _ => True) ?_ fun result s₁ _ => by
    cases result with
    | ok download => exact trivial
    | error e => cases e <;> exact trivial
  refine safe_bind (M := fun _ _ => True) ?_ (fun found s₁ _ => ?_) (fun _ _ _ => trivial)
  · refine quiet_safe (quiet_of_same fun w i => ?_) (fun _ _ _ _ => trivial) trivial
    simp only [raising,transaction]
    split
    · cases joined w artifactId <;> rfl
    · rfl
  · obtain ⟨artifact,valid⟩ := found
    dsimp only
    split
    · exact denied
    · refine safe_resume (M := fun _ _ => True) ?_ fun result s₂ _ => ?_
      · unfold openVerifiedArtifact
        split
        · exact trivial
        · refine quiet_safe (quiet_of_same fun w i => ?_) (fun _ _ _ _ => trivial) trivial
          split
          · rfl
          · split_ifs <;> rfl
      · cases result with
        | error e =>
          dsimp only
          split
          · exact denied
          · exact trivial
        | ok content =>
          refine safe_resume (auditNamed_safe (by simp [downloadedEvent]) (by simp [downloadedEvent])) fun result s₃ _ => ?_
          cases result with
          | ok _ => exact trivial
          | error e => cases e <;> exact trivial

/-! ### Under the second invariant -/

/-- The artifact has a valid lineage, from a source that passed the gate. -/
def Traced (env : Env) (a : ArtifactRow) (s : World) : Prop :=
  a ∈ s.artifacts ∧ ∃ source derived, s.scan a.scanId = some source ∧ s.scan a.derivedScanId = some derived ∧
    validLineage a source derived = true ∧ Remediable env source

theorem validLineage_final {a : ArtifactRow} {source derived : ScanRow} (valid : validLineage a source derived = true) :
    Final derived := by
  simp only [validLineage,Bool.and_eq_true,decide_eq_true_eq] at valid
  have success : derived.workerStatus = .finished .SUCCESS := valid.1.1.1.1.1.1.1.1.2
  refine ⟨.inl valid.1.1.1.1.1.1.1.2,?_⟩
  rintro ⟨failed,_⟩
  rw [success] at failed
  cases failed

theorem Traced.kept {a : ArtifactRow} (traced : Traced env a s) (artifacts : ∀ b ∈ s.artifacts, b ∈ s'.artifacts)
    (final : ∀ id row, s.scan id = some row → Final row → s'.scan id = some row) : Traced env a s' := by
  obtain ⟨listed,source,derived,sourced,found,valid,remediable⟩ := traced
  exact ⟨artifacts a listed,source,derived,final _ _ sourced remediable.final,final _ _ found (validLineage_final valid),
    valid,remediable⟩

theorem traced_durable (a : ArtifactRow) : Durable env given j (Traced env a) where
  others _ _ traced keeps leaves := traced.kept keeps.artifacts leaves.final
  own _ _ _ traced advances := traced.kept (fun _ member => advances.artifacts ▸ member) advances.final

/-- The event of a download of this artifact is recorded. -/
def DownloadRecorded (id : Text) (s : World) : Prop :=
  ∃ e ∈ s.events, e.eventType = .ARTIFACT_DOWNLOADED ∧ e.outcome = .SUCCESS ∧ e.artifactId = some id

/-- A delivery is of the bytes that the row of an artifact describes, and is recorded. -/
def Delivered (env : Env) : Delivery → World → Prop
  | .streamed download,s => ∃ a, Traced env a s ∧ download.artifactId = a.id ∧ download.sizeBytes = a.sizeBytes ∧
      env.digest download.descriptor = a.sha256 ∧ download.descriptor.length = a.sizeBytes ∧ DownloadRecorded a.id s
  | .rejected _,_ => True

theorem delivered_stays (delivery : Delivery) : Stays given j (Delivered env delivery) := by
  cases delivery with
  | rejected status => exact stays_true
  | streamed download =>
    rintro a b ⟨artifact,traced,id,size,digest,length,e,member,event⟩ keeps leaves
    exact ⟨artifact,traced.kept keeps.artifacts leaves.final,id,size,digest,length,e,keeps.events e member,event⟩

theorem auditAppend_recorded {e : AuditEvent} {P : World → Prop} (durable : Durable env given j P) (holds : P s) :
    Grounds env given j (fun result s' => P s' ∧ (result = .ok () → ∃ details, { e with details := details } ∈ s'.events))
      (auditAppend e) s := by
  refine advancing_grounds durable stays_true holds trivial fun w i _ _ _ _ _ => ?_
  cases ended : transaction (fun w _ => (addToTransaction w e).map fun w' => ((),w')) w i with
  | mk result w' =>
  simp only [raising,ended]
  rcases transaction_cases ended with ⟨_,rfl,committed⟩ | ⟨rfl,failure,rfl,_⟩
  · cases added : addToTransaction w e with
    | error e => simp [added,Except.map] at committed
    | ok w'' =>
      simp only [added,Except.map,Except.ok.injEq,Prod.mk.injEq,true_and] at committed
      subst committed
      obtain ⟨details,rfl⟩ := addToTransaction_added added
      exact ⟨advances_addEvent w _,fun _ => ⟨details,List.mem_append_right _ (List.mem_singleton_self _)⟩⟩
  · exact ⟨.refl _,fun impossible => by cases failure <;> simp [Except.mapError] at impossible⟩

theorem joined_traced {a : ArtifactRow} (grounded : Grounded env given s) {artifactId : Text}
    (done : joined s artifactId = .ok (a,true)) : Traced env a s := by
  unfold joined at done
  cases found : s.artifact artifactId with
  | none => simp [found] at done
  | some artifact =>
    simp only [found] at done
    split at done
    · rename_i source derived sourced looked
      obtain ⟨rfl,valid⟩ := Prod.mk.inj (Except.ok.inj done)
      have listed := List.mem_of_find?_eq_some found
      obtain ⟨row,there,remediable⟩ := grounded.sources _ listed
      rw [sourced] at there
      cases there
      exact ⟨listed,source,derived,sourced,looked,valid,remediable⟩
    · cases done

/-- How a download leaves the files of its program, and what it has delivered when it returns. -/
def Served (env : Env) (given : Assumptions) (j : Nat) {α : Type} (report : α → Delivery) (result : Except Exn α)
    (s : World) : Prop :=
  Tidy given j s ∧ ∀ a, result = .ok a → Delivered env (report a) s

theorem served_error {report : α → Delivery} {e : Exn} (tidy : Tidy given j s) :
    Served env given j report (.error e) s :=
  ⟨tidy,fun _ impossible => by cases impossible⟩

theorem denied_grounds {artifactId userId reasonCode : Text} (tidy : Tidy given j s) :
    Grounds env given j (Served env given j .streamed) (do
      deny artifactId userId reasonCode
      throw .ArtifactUnavailable) s := by
  refine safe_bind (M := fun _ s' => Tidy given j s') ?_ (fun _ _ now => served_error now)
    (fun _ _ now => served_error now)
  refine safe_tryCatch (auditAppend_grounds tidy_durable tidy) (fun _ _ now => now) fun e s' now => ?_
  cases e <;> exact now

theorem openVerifiedArtifact_grounds {artifact : ArtifactRow} {P : World → Prop} (durable : Durable env given j P)
    (holds : P s) :
    Grounds env given j
      (fun result s' => P s' ∧ ∀ content, result = .ok content →
        env.digest content = artifact.sha256 ∧ content.length = artifact.sizeBytes)
      (openVerifiedArtifact env artifact) s := by
  unfold openVerifiedArtifact
  split
  · exact ⟨holds,fun _ impossible => by cases impossible⟩
  refine advancing_grounds durable stays_true holds trivial fun w i _ _ _ _ _ => ?_
  split
  · exact ⟨.refl w,fun _ impossible => by cases impossible⟩
  · split
    · exact ⟨.refl w,fun _ impossible => by cases impossible⟩
    · split
      · rename_i verified
        refine ⟨.refl w,fun content same => ?_⟩
        cases same
        exact ⟨verified.2.2,verified.1⟩
      · exact ⟨.refl w,fun _ impossible => by cases impossible⟩

theorem recordDownload_grounds {artifact : ArtifactRow} {userId : Text} {content : Bytes} (tidy : Tidy given j s)
    (traced : Traced env artifact s) (digest : env.digest content = artifact.sha256)
    (length : content.length = artifact.sizeBytes) :
    Grounds env given j (Served env given j .streamed) (recordDownload artifact userId content) s := by
  have durable : Durable env given j fun t => Tidy given j t ∧ Traced env artifact t :=
    tidy_durable.and (traced_durable artifact)
  refine safe_resume (auditAppend_recorded durable ⟨tidy,traced⟩) fun result s₁ recorded => ?_
  cases result with
  | error e => cases e <;> exact served_error recorded.1.1
  | ok _ =>
    obtain ⟨details,member⟩ := recorded.2 rfl
    refine ⟨recorded.1.1,?_⟩
    rintro _ same
    cases same
    exact ⟨artifact,recorded.1.2,rfl,rfl,digest,length,_,member,rfl,rfl,rfl⟩

theorem prepare_grounds {artifactId userId : Text} (tidy : Tidy given j s) :
    Grounds env given j (Served env given j .streamed) (prepare env artifactId userId) s := by
  refine safe_bind (M := fun result s' => Tidy given j s' ∧ ∀ a, result = .ok (a,true) → Traced env a s') ?_
    (fun found s₁ looked => ?_) (fun _ _ looked => served_error looked.1)
  · refine advancing_grounds tidy_durable stays_true tidy trivial fun w i _ grounded _ _ _ => ?_
    simp only [raising,transaction]
    split
    · cases done : joined w artifactId with
      | error e => exact ⟨.refl w,fun a impossible => by cases e <;> simp [Except.map,Except.mapError] at impossible⟩
      | ok found =>
        refine ⟨.refl w,fun a same => joined_traced grounded (done.trans ?_)⟩
        simpa [Except.map,Except.mapError] using same
    · exact ⟨.refl w,fun a impossible => by simp [Except.mapError] at impossible⟩
  obtain ⟨artifact,valid⟩ := found
  dsimp only
  split
  · exact denied_grounds looked.1
  rename_i lineage
  have traced : Traced env artifact s₁ := looked.2 artifact (by simp [not_not.mp lineage])
  refine safe_resume (openVerifiedArtifact_grounds (tidy_durable.and (traced_durable artifact)) ⟨looked.1,traced⟩)
    fun result s₂ opened => ?_
  cases result with
  | error e =>
    dsimp only
    split
    · exact denied_grounds opened.1.1
    · exact served_error opened.1.1
  | ok content =>
    obtain ⟨digest,length⟩ := opened.2 content rfl
    exact recordDownload_grounds opened.1.1 opened.1.2 digest length

theorem downloadArtifact_grounds {artifactId userId : Text} (tidy : Tidy given j s) :
    Grounds env given j (Served env given j id) (downloadArtifact env artifactId userId) s := by
  have rejected {t : World} {status : Nat} (now : Tidy given j t) :
      Served env given j id (.ok (.rejected status) : Except Exn Delivery) t :=
    ⟨now,fun _ same => by cases same; exact trivial⟩
  unfold downloadArtifact
  split
  · exact rejected tidy
  refine safe_resume (prepare_grounds tidy) fun result s₁ served => ?_
  cases result with
  | ok download =>
    refine ⟨served.1,fun _ same => ?_⟩
    cases same
    exact served.2 download rfl
  | error e =>
    cases e with
    | ArtifactNotFound => exact rejected served.1
    | ArtifactUnavailable => exact rejected served.1
    | ArtifactAuditUnavailable => exact rejected served.1
    | _ => exact served_error served.1

/-! ### The service with downloads -/

/-- The programs of the service and its downloads. -/
inductive Serves (env : Env) : Nat → Program (Response ⊕ Delivery) → Prop where
  | service {j : Nat} {p : Program Response} (starts : Spawned env j p) : Serves env j (p.map .inl)
  | download (j : Nat) (artifactId userId : Text) : Serves env j ((downloadArtifact env artifactId userId).map .inr)

/-- The request to sanitize a scan, as program `j` of the service with downloads. -/
abbrev sanitization (env : Env) (j : Nat) (scanId : Text) : Program (Response ⊕ Delivery) :=
  (sanitizePdf env j scanId).map .inl

abbrev SitePool := Pool World Choice Label Exn (Response ⊕ Delivery)

/-- One step of the service with downloads. -/
abbrev Turns (env : Env) (given : Assumptions) : SitePool → SitePool → Prop :=
  Pool.Step (Assigned given) (Serves env)

/-- The pool is in a run of the service with downloads from the empty state. -/
abbrev Arrives (env : Env) (given : Assumptions) (pool : SitePool) : Prop :=
  Pool.Run (Assigned given) (Serves env) {} pool

/-- The program has added nothing. -/
def Idle (given : Assumptions) (j : Nat) (s : World) : Prop :=
  Unused j s ∧ (given.keys → ∀ key, s.history.fileOwner key ≠ some j)

/-- What a program of a run promises when it returns. -/
def Outcome (env : Env) (given : Assumptions) (j : Nat) : Except Exn (Response ⊕ Delivery) → World → Prop
  | .ok (.inl response),s => Promised j (.ok response) s ∧ Ended given j (.ok response) s
  | .ok (.inr delivery),s => Tidy given j s ∧ Delivered env delivery s
  | .error _,s => given.unlinks → Tidy given j s

/-- What the others leave under both invariants. -/
def Both (given : Assumptions) (j : Nat) (a b : World) : Prop := Keeps given j a b ∧ Leaves given j a b

theorem Idle.tidy (idle : Idle given j s) : Tidy given j s :=
  fun keys key _ owner => absurd owner (idle.2 keys key)

/-- The two guarantees of a program of the service together. -/
theorem both_safe {p : Program α} {post post' : Except Exn α → World → Prop} (first : SafeAs env given j post p s)
    (second : Grounds env given j post' p s) :
    Safe (Assigned given) (fun s => Inv env given s ∧ Grounded env given s) (Both given j) (Guarantee (Both given) j)
      (fun result s => post result s ∧ post' result s) p s := by
  have assigned := safe_weaken first (fun _ _ _ may => (may : Assigned given _ _ _).1) (fun _ _ within => within)
  exact safe_weaken (safe_and assigned second) (fun _ _ _ may => may)
    fun a b within k differs => ⟨within.1 k differs,within.2 k differs⟩

theorem serves_compatible (env : Env) (given : Assumptions) :
    Compatible (Assigned given) (Serves env) (fun s => Inv env given s ∧ Grounded env given s) (Both given) (Idle given)
      (Outcome env given) where
  refl j s := ⟨Keeps.refl j s,Leaves.refl given j s⟩
  trans j a b c first second := by
    refine ⟨first.1.trans second.1,fun id row found final => ?_,fun keys key owner => ?_⟩
    · exact second.2.final id row (first.2.final id row found final) final
    · exact (second.2.sanitized keys key ((first.1.fileOwner keys key).mpr owner)).trans
        (first.2.sanitized keys key owner)
  stable j result a b holds leaves _ := by
    have tidy : Durable env given j (Tidy given j) := tidy_durable
    cases result with
    | error e => exact fun unlinks => tidy.others a b (holds unlinks) leaves.1 leaves.2
    | ok value =>
      cases value with
      | inl response =>
        have durable : Durable env given j (Ended given j (.ok response)) := ended_durable (.ok response)
        exact ⟨promised_stable j (.ok response) a b holds.1 leaves.1,durable.others a b holds.2 leaves.1 leaves.2⟩
      | inr delivery =>
        exact ⟨tidy.others a b holds.1 leaves.1 leaves.2,delivered_stays delivery a b holds.2 leaves.1 leaves.2⟩
  stays j a b idle leaves :=
    ⟨unused_stable j a b idle.1 leaves.1,fun keys key owner => idle.2 keys key ((leaves.1.fileOwner keys key).mp owner)⟩
  start j p s starts inv idle := by
    cases starts with
    | @service p starts =>
      have ran : SafeAs env given j (Promised j) p s :=
        (spawned_compatible env given).start j p s starts inv.1 idle.1
      have ended : Grounds env given j (Ended given j) p s := by
        cases starts with
        | createScan upload => exact createScan_grounds idle.tidy
        | sanitizePdf scanId => exact sanitizePdf_grounds idle.1.1 idle.tidy
        | reconcile staleSeconds now batchSize => exact reconcile_grounds idle.tidy
      refine safe_map (both_safe ran ended) fun result t reached => ?_
      cases result with
      | error e => exact fun unlinks => reached.2 (.inr unlinks)
      | ok response => exact reached
    | download artifactId userId =>
      refine safe_map (both_safe downloadArtifact_safe (downloadArtifact_grounds idle.tidy)) fun result t reached => ?_
      cases result with
      | error e => exact fun _ => reached.2.1
      | ok delivery => exact ⟨reached.2.1,reached.2.2 delivery rfl⟩

theorem arrives_good {pool : SitePool} (run : Arrives env given pool) :
    pool.Good (Assigned given) (fun s => Inv env given s ∧ Grounded env given s) (Both given) (Idle given)
      (Outcome env given) := by
  refine Pool.good_run (serves_compatible env given) ⟨inv_empty env given,grounded_empty env given⟩ (fun j => ⟨⟨?_,?_⟩,?_⟩) run
  · exact fun id owned => by cases owned
  · exact fun id owned => by cases owned
  · exact fun _ key owned => by cases owned

/-! ### A sample run -/

def siteUpload : Program (Response ⊕ Delivery) :=
  (createScan siteEnv 0 samplePdf).map .inl

def siteSanitization : Program (Response ⊕ Delivery) := (sanitizePdf siteEnv 1 (key '1')).map .inl

def siteDownload : Program (Response ⊕ Delivery) := (downloadArtifact siteEnv (key 'd') (lit "operator")).map .inr

/-- The upload of a PDF with a script, its sanitization, and the download of the artifact. -/
def siteUploaded : Program (Response ⊕ Delivery) × World := Prog.exec uploadChoices siteUpload {}

def siteSanitized : Program (Response ⊕ Delivery) × World := Prog.exec approvalChoices siteSanitization siteUploaded.2

def siteServed : Program (Response ⊕ Delivery) × World := Prog.exec [{},{},{}] siteDownload siteSanitized.2

def uploadedSite : SitePool := ⟨siteUploaded.2,[some siteUploaded.1]⟩

def servedSite : SitePool := ⟨siteServed.2,[some siteUploaded.1,some siteSanitized.1,some siteServed.1]⟩

/-- A choice that every run allows. -/
def siteChoice (label : Label) (s : World) (i : Choice) : Bool :=
  carefulChoice label s i && decide (label = .storing → hex32 i.name = true ∧ i.fault ≠ .cleanupFails) &&
    decide (label = .removing → i.fault = .none)

theorem siteChoice_assigned (label : Label) (s : World) (i : Choice) (checked : siteChoice label s i = true) :
    Assigned given label s i := by
  simp only [siteChoice,Bool.and_eq_true,decide_eq_true_eq] at checked
  obtain ⟨⟨careful,stored⟩,removed⟩ := checked
  exact ⟨carefulChoice_allowed label s i careful,fun _ label => (stored label).1,fun _ => ⟨fun label => (stored label).2,removed⟩⟩

/-- The file of a download that has returned one. -/
def streamed : Program (Response ⊕ Delivery) → Option PreparedArtifactDownload
  | .done (.ok (.inr (.streamed download))) => some download
  | _ => none

/-- The identifiers of an approval that has returned. -/
def approval : Program (Response ⊕ Delivery) → Option (Text × Option Text × Option Text × Bool × Option CdrFailureCode)
  | .done (.ok (.inl (.cdr sourceScanId derivedScanId artifactId true reused failureCode))) =>
    some (sourceScanId,derivedScanId,artifactId,reused,failureCode)
  | _ => none

theorem site_evaluated :
    Prog.follows siteChoice uploadChoices siteUpload {} = true ∧
      Prog.follows siteChoice approvalChoices siteSanitization siteUploaded.2 = true ∧
      Prog.follows siteChoice [{},{},{}] siteDownload siteSanitized.2 = true ∧
      (approval siteSanitized.1).isSome = true ∧ (streamed siteServed.1).isSome = true ∧
      servedSite.state.artifacts.length = 1 ∧
      ∃ row ∈ uploadedSite.state.scans, (row.state = .COMPLETED ∨ row.state = .QUARANTINED) ∧ row.analysisErrorCode = none := by
  decide +kernel

theorem uploadedSite_arrives (given : Assumptions) : Arrives siteEnv given uploadedSite := by
  have starts : Serves siteEnv ([] : List (Option (Program (Response ⊕ Delivery)))).length siteUpload :=
    .service (.createScan 0 _)
  exact Pool.steps_start siteChoice_assigned starts site_evaluated.1

theorem servedSite_after (given : Assumptions) : Relation.ReflTransGen (Turns siteEnv given) uploadedSite servedSite := by
  have sanitization : Serves siteEnv [some siteUploaded.1].length siteSanitization := .service (.sanitizePdf 1 _)
  have download : Serves siteEnv [some siteUploaded.1,some siteSanitized.1].length siteDownload := .download 2 _ _
  exact (Pool.steps_start siteChoice_assigned sanitization site_evaluated.2.1).trans
    (Pool.steps_start siteChoice_assigned download site_evaluated.2.2.1)

theorem servedSite_arrives (given : Assumptions) : Arrives siteEnv given servedSite :=
  (uploadedSite_arrives given).trans (servedSite_after given)

/-! ### What holds of all runs -/

/-- In every run a scan that its own final transaction has settled stays as it is, findings and columns, whatever
    the others do. -/
theorem final_kept {pool later : SitePool} (run : Arrives env given pool)
    (steps : Relation.ReflTransGen (Turns env given) pool later) :
    ∀ row ∈ pool.state.scans, Final row → row ∈ later.state.scans := by
  intro row member final
  have good := arrives_good run
  have kept := (Pool.good_steps (serves_compatible env given)
    (R := fun a b => ∀ id r, a.scan id = some r → Final r → b.scan id = some r)
    (fun _ _ _ found _ => found) (fun _ _ _ first second id r found final => second id r (first id r found final) final)
    (fun j a b within => (within (j + 1) (by omega)).2.final) good steps).2
  exact scan_mem (kept row.id row (scan_of_mem good.holds.1.distinct member) final)

theorem final_kept_served : (∃ row ∈ uploadedSite.state.scans, Final row) ∧
    ∀ row ∈ uploadedSite.state.scans, Final row → row ∈ servedSite.state.scans := by
  obtain ⟨row,member,settled,clean⟩ := site_evaluated.2.2.2.2.2.2
  refine ⟨⟨row,member,settled,?_⟩,final_kept (uploadedSite_arrives unrestricted) (servedSite_after unrestricted)⟩
  rintro ⟨_,recovered⟩
  rw [clean] at recovered
  cases recovered

/-- In every state of every run the source of an artifact is a scan that passed the gate. -/
theorem sources_remediable {pool : SitePool} (run : Arrives env given pool) :
    ∀ a ∈ pool.state.artifacts, ∃ source ∈ pool.state.scans, source.id = a.scanId ∧ Remediable env source := by
  intro a member
  obtain ⟨source,found,remediable⟩ := (arrives_good run).holds.2.sources a member
  exact ⟨source,scan_mem found,scan_id found,remediable⟩

theorem sources_remediable_served : servedSite.state.artifacts.length = 1 ∧
    ∀ a ∈ servedSite.state.artifacts, ∃ source ∈ servedSite.state.scans, source.id = a.scanId ∧ Remediable siteEnv source :=
  ⟨site_evaluated.2.2.2.2.2.1,sources_remediable (servedSite_arrives unrestricted)⟩

/-- A download that has returned a file. -/
def Downloaded (pool : SitePool) (j : Nat) (download : PreparedArtifactDownload) : Prop :=
  pool.jobs[j]? = some (some (.done (.ok (.inr (.streamed download)))))

/-- Without collisions of the digest, a download delivers exactly the bytes that the analysis of a released scan has
    read, whose source passed the gate; the release, the source and the record of the download stay. -/
theorem downloads_released (injective : Function.Injective env.digest) {pool : SitePool}
    (run : Arrives env distinctKeys pool) {j : Nat} {download : PreparedArtifactDownload}
    (returned : Downloaded pool j download) :
    ∃ a ∈ pool.state.artifacts, a.id = download.artifactId ∧ download.descriptor.length = download.sizeBytes ∧
      DownloadRecorded a.id pool.state ∧
      (∃ source ∈ pool.state.scans, source.id = a.scanId ∧ Remediable env source) ∧
      ∃ derived ∈ pool.state.scans, derived.id = a.derivedScanId ∧ derived.parentScanId = some a.scanId ∧
        Releasable derived ∧ derived.releaseEligible = true ∧
        pool.state.history.analysed derived.id = some download.descriptor := by
  have good := arrives_good run
  obtain ⟨_,a,⟨listed,source,derived,sourced,found,valid,remediable⟩,same,size,digest,length,recorded⟩ :=
    Pool.good_returned good returned
  obtain ⟨_,derived',content,_,found',_,analysed,shared,_,_,agrees,_⟩ := good.holds.1.lineage trivial a listed
  obtain rfl : derived = derived' := Option.some.inj (found.symm.trans found')
  have bytes : download.descriptor = content := injective (digest.trans (agrees.trans shared))
  have lineage := valid
  simp only [validLineage,Bool.and_eq_true,decide_eq_true_eq] at valid
  have released : derived.releaseEligible = true := valid.1.1.1.1.1.2
  have parent : derived.parentScanId = some source.id := valid.1.1.1.1.1.1.1.1.1.1.2
  refine ⟨a,listed,same.symm,length.trans size.symm,recorded,⟨source,scan_mem sourced,scan_id sourced,remediable⟩,
    derived,scan_mem found,scan_id found,?_,good.holds.1.released _ derived found released,released,?_⟩
  · rw [parent,scan_id sourced]
  · rw [scan_id found,analysed,bytes]

theorem streamed_some {p : Program (Response ⊕ Delivery)} {download : PreparedArtifactDownload}
    (some : streamed p = some download) : p = .done (.ok (.inr (.streamed download))) := by
  unfold streamed at some
  split at some
  · cases some
    rfl
  · cases some

theorem downloads_released_served : ∃ download, Downloaded servedSite 2 download ∧
    ∃ derived ∈ servedSite.state.scans, Releasable derived ∧
      servedSite.state.history.analysed derived.id = some download.descriptor := by
  obtain ⟨download,some⟩ := Option.isSome_iff_exists.mp site_evaluated.2.2.2.2.1
  have returned : Downloaded servedSite 2 download := congrArg (fun p => Option.some (Option.some p)) (streamed_some some)
  obtain ⟨_,_,_,_,_,_,derived,member,_,_,releasable,_,analysed⟩ :=
    downloads_released registryDigest_injective (servedSite_arrives distinctKeys) returned
  exact ⟨download,returned,derived,member,releasable,analysed⟩

/-- The program has returned, and has not reported a failure of the storage. -/
def Clean (pool : SitePool) (j : Nat) : Prop :=
  ∃ response, pool.jobs[j]? = some (some (.done (.ok response))) ∧
    ∀ sourceScanId derivedScanId artifactId approved reused,
      response ≠ .inl (.cdr sourceScanId derivedScanId artifactId approved reused (some .STORAGE_FAILURE))

/-- While any number of sanitizations run, a source has at most one artifact, the file of every artifact is there, and
    a sanitized file that no artifact names was left by a program that runs, crashed, raised or reported a failure
    of the storage. -/
theorem sanitized_exact {pool : SitePool} (run : Arrives env distinctKeys pool) :
    (∀ a ∈ pool.state.artifacts, ∀ b ∈ pool.state.artifacts, a.scanId = b.scanId → a = b) ∧
    (∀ a ∈ pool.state.artifacts, HasFile env pool.state a) ∧
    ∀ key, pool.state.sanitized key ≠ none → (∃ a ∈ pool.state.artifacts, a.storageKey = key) ∨
      ∃ j < pool.jobs.length, pool.state.history.fileOwner key = some j ∧ ¬Clean pool j := by
  have good := arrives_good run
  obtain ⟨_,grounded⟩ := good.holds
  refine ⟨fun a first b second same => ?_,grounded.files trivial,fun key stored => ?_⟩
  · refine List.inj_on_of_nodup_map grounded.single first second ?_
    rw [grounded.fingerprint a first,grounded.fingerprint b second,same]
  · obtain ⟨j,owner⟩ := grounded.owned trivial key stored
    by_cases clean : Clean pool j
    · left
      obtain ⟨response,returned,other⟩ := clean
      have outcome := Pool.good_returned good returned
      have tidy : Tidy distinctKeys j pool.state := by
        cases response with
        | inr delivery => exact outcome.1
        | inl response =>
          cases response with
          | cdr sourceScanId derivedScanId artifactId approved reused failureCode =>
            exact outcome.2.2 (.inl fun failure => other _ _ _ _ _ (by rw [failure]))
          | _ => exact outcome.2
      exact tidy trivial key stored owner
    · refine .inr ⟨j,?_,owner,clean⟩
      by_contra beyond
      exact (good.fresh j (not_lt.mp beyond)).2 trivial key owner

theorem sanitized_exact_served :
    (∀ a ∈ servedSite.state.artifacts, ∀ b ∈ servedSite.state.artifacts, a.scanId = b.scanId → a = b) ∧
    (∀ a ∈ servedSite.state.artifacts, HasFile siteEnv servedSite.state a) ∧
    ∀ key, servedSite.state.sanitized key ≠ none → (∃ a ∈ servedSite.state.artifacts, a.storageKey = key) ∨
      ∃ j < servedSite.jobs.length, servedSite.state.history.fileOwner key = some j ∧ ¬Clean servedSite j :=
  sanitized_exact (servedSite_arrives distinctKeys)

/-! ### Approved artifacts are served -/

theorem hex32_chars {text : Text} (hex : hex32 text = true) : text.length = 32 ∧ ∀ c ∈ text, lowerHex c = true := by
  simpa [hex32,List.all_eq_true] using hex

theorem lowerHex_range {c : Char} (hex : lowerHex c = true) :
    (48 ≤ c.toNat ∧ c.toNat ≤ 57) ∨ (97 ≤ c.toNat ∧ c.toNat ≤ 102) := by
  simp only [lowerHex,Bool.or_eq_true,Bool.and_eq_true,decide_eq_true_eq] at hex
  exact hex.imp (fun digit => ⟨digit.1,digit.2⟩) (fun letter => ⟨letter.1,letter.2⟩)

theorem escapeChar_hex {c : Char} (hex : lowerHex c = true) : Json.escapeChar true c = [c] := by
  have range := lowerHex_range hex
  have other {d : Char} (out : d.toNat < 48 ∨ 57 < d.toNat ∧ d.toNat < 97) : c ≠ d := by
    rintro rfl
    omega
  have within : (true && decide (126 < c.toNat)) = false := by
    simp
    omega
  rw [Json.escapeChar,if_neg (other (by decide)),if_neg (other (by decide)),if_neg (other (by decide)),
    if_neg (other (by decide)),if_neg (other (by decide)),if_neg (by omega),if_neg (by omega),if_neg (by omega),within]
  rfl

theorem quote_hex {text : Text} (hex : ∀ c ∈ text, lowerHex c = true) : Json.quote true text = '"' :: text ++ ['"'] := by
  have same : text.flatMap (Json.escapeChar true) = text := by
    induction text with
    | nil => rfl
    | cons c rest ih =>
      rw [List.flatMap_cons,escapeChar_hex (hex c (by simp)),ih fun d member => hex d (by simp [member])]
      rfl
  rw [Json.quote,same]

/-- The detail of a download is within the bounds of an audit event. -/
theorem boundedDetails_identifier {id : Text} (hex : hex32 id = true) :
    boundedDetails [(lit "derived_scan_id",.str id)] = .ok [(lit "derived_scan_id",.str id)] := by
  obtain ⟨length,chars⟩ := hex32_chars hex
  have value : boundedDetail 1 (.str id) = .ok (.str id) := by
    rw [boundedDetail,if_neg (by omega)]
  have fields : boundedFields 1 [(lit "derived_scan_id",.str id)] = .ok [(lit "derived_scan_id",.str id)] := by
    simp only [boundedFields,value]
    rfl
  have name : Json.quote true (lit "derived_scan_id") = lit "\"derived_scan_id\"" := by rfl
  have text : Json.dumps true (.obj [(lit "derived_scan_id",.str id)]) =
      lit "\x7b\"derived_scan_id\":\"" ++ (id ++ lit "\"\x7d") := by
    have shape : Json.dumps true (.obj [(lit "derived_scan_id",.str id)]) =
        '{' :: (Json.quote true (lit "derived_scan_id") ++ ':' :: Json.quote true id) ++ ['}'] := rfl
    rw [shape,quote_hex chars,name]
    simp [lit]
  have ascii : ∀ c ∈ lit "\x7b\"derived_scan_id\":\"" ++ (id ++ lit "\"\x7d"), c.toNat < 128 := by
    intro c member
    rcases List.mem_append.mp member with first | rest
    · have starts : (lit "\x7b\"derived_scan_id\":\"").all (fun c => c.toNat < 128) = true := by rfl
      exact of_decide_eq_true (List.all_eq_true.mp starts c first)
    rcases List.mem_append.mp rest with middle | last
    · have range := lowerHex_range (chars c middle)
      omega
    · have ends : (lit "\"\x7d").all (fun c => c.toNat < 128) = true := by rfl
      exact of_decide_eq_true (List.all_eq_true.mp ends c last)
  have short : (Json.utf8 (Json.dumps true (.obj [(lit "derived_scan_id",.str id)]))).length = 54 := by
    rw [Json.length_utf8,text,Json.bytes_ascii ascii]
    simp [lit,length]
  simp only [boundedDetails,fields]
  rw [if_neg (by simp)]
  change (if MAX_AUDIT_DETAILS_BYTES < _ then _ else _) = _
  rw [if_neg (by rw [short]; decide)]
  rfl

/-- The files, rows and identifiers that a download of the artifact needs. -/
structure Servable (env : Env) (w : World) (a : ArtifactRow) (content : Bytes) : Prop where
  joined : joined w a.id = .ok (a,true)
  identifiers : hex32 a.id = true ∧ hex32 a.derivedScanId = true
  key : hex32 a.storageKey = true
  file : w.sanitized a.storageKey = some content
  verified : content.length = a.sizeBytes ∧ content.length ≤ env.cdrMaxOutputBytes ∧ env.digest content = a.sha256
  scan : w.scan a.scanId ≠ none
  artifact : w.artifact a.id ≠ none

/-- What a download of this artifact returns. -/
def served (a : ArtifactRow) (content : Bytes) : PreparedArtifactDownload :=
  ⟨a.id,content,a.sizeBytes,lit "docguard-sanitized-" ++ a.id.take 12 ++ lit ".pdf"⟩

theorem downloadedEvent_added {w : World} {a : ArtifactRow} {content : Bytes} {userId : Text}
    (servable : Servable env w a content) :
    addToTransaction w (downloadedEvent a userId) = .ok (w.addEvent (downloadedEvent a userId)) := by
  have details : boundedDetails (downloadedEvent a userId).details = .ok (downloadedEvent a userId).details :=
    boundedDetails_identifier servable.identifiers.2
  have present : ¬((∃ id ∈ (downloadedEvent a userId).scanId, w.scan id = none) ∨
      ∃ id ∈ (downloadedEvent a userId).artifactId, w.artifact id = none) := by
    rintro (⟨id,named,missing⟩ | ⟨id,named,missing⟩)
    · exact servable.scan (Option.some.inj named ▸ missing)
    · exact servable.artifact (Option.some.inj named ▸ missing)
  unfold addToTransaction
  rw [details]
  exact if_neg present

/-- Without a fault, a download of a servable artifact streams its file. -/
theorem download_served {w : World} {a : ArtifactRow} {content : Bytes} {i₁ i₂ i₃ : Choice} {userId : Text}
    (servable : Servable env w a content) (faultless : i₁.fault = .none ∧ i₂.fault = .none ∧ i₃.fault = .none) :
    Prog.exec [i₁,i₂,i₃] (downloadArtifact env a.id userId) w =
      (.done (.ok (.streamed (served a content))),w.addEvent (downloadedEvent a userId)) := by
  have looked : raising .ArtifactUnavailable (transaction fun w _ => (joined w a.id).map fun found => (found,w)) w i₁ =
      (.ok (a,true),w) := by
    simp [raising,transaction,faultless.1,servable.joined,Except.map,Except.mapError]
  rw [downloadArtifact,if_neg (not_not.mpr servable.identifiers.1)]
  have recorded : raising .AuditPersistenceError (transaction fun w _ =>
      (addToTransaction w (downloadedEvent a userId)).map fun w' => ((),w')) w i₃ =
        (.ok (),w.addEvent (downloadedEvent a userId)) := by
    simp [raising,transaction,faultless.2.2,downloadedEvent_added servable,Except.map,Except.mapError]
  have verified : (content.length = a.sizeBytes ∧ content.length ≤ env.cdrMaxOutputBytes ∧ env.digest content = a.sha256) =
      True := eq_true servable.verified
  simp only [prepare,lookupArtifact,openVerifiedArtifact,recordDownload,auditAppend,Prog.atomically,bind,Prog.resume,
    Prog.exec,looked,Prog.onReturn,servable.key,not_true_eq_false,if_false,servable.file,faultless.2.1,ne_eq,
    verified,if_true,recorded]
  rfl

/-- Without collisions of the digest, an approval that a sanitization has returned is of an artifact that a download
    without faults serves, at any later time: exactly the bytes that were analysed. -/
theorem approved_downloadable (injective : Function.Injective env.digest) {pool : SitePool}
    (run : Arrives env distinctKeys pool) {j : Nat} {sourceScanId : Text} {derivedScanId artifactId : Option Text}
    {reused : Bool} {failureCode : Option CdrFailureCode}
    (approved : pool.jobs[j]? =
      some (some (.done (.ok (.inl (.cdr sourceScanId derivedScanId artifactId true reused failureCode)))))) :
    ∃ a ∈ pool.state.artifacts, artifactId = some a.id ∧ a.scanId = sourceScanId ∧
      ∃ content, pool.state.history.analysed a.derivedScanId = some content ∧
        ∀ (userId : Text) (i₁ i₂ i₃ : Choice), i₁.fault = .none ∧ i₂.fault = .none ∧ i₃.fault = .none →
          Prog.exec [i₁,i₂,i₃] (downloadArtifact env a.id userId) pool.state =
            (.done (.ok (.streamed (served a content))),pool.state.addEvent (downloadedEvent a userId)) := by
  have good := arrives_good run
  obtain ⟨⟨a,listed,named,source,derivation⟩,⟨_,derivedHex,artifactHex⟩,_⟩ := Pool.good_returned good approved
  obtain ⟨inv,grounded⟩ := good.holds
  obtain ⟨source',derived,content,sourced,found,valid,_,analysed,_,_,digest,length⟩ :=
    (artifact_exact inv injective listed).lineage
  have held := grounded.files trivial a listed
  obtain ⟨copy,file,copied,size,small⟩ := held.file
  obtain rfl : copy = content := injective (copied.trans digest)
  have present := artifact_of_mem inv.artifactsDistinct listed
  refine ⟨a,listed,named,source,copy,scan_id found ▸ analysed,fun userId i₁ i₂ i₃ faultless => ?_⟩
  refine download_served ⟨?_,⟨?_,?_⟩,held.key,file,⟨size,small,copied⟩,?_,?_⟩ faultless
  · simp only [joined,present,sourced,found,valid]
  · simpa [named] using artifactHex
  · simpa [derivation] using derivedHex
  · simp [sourced]
  · simp [present]

theorem approval_some {p : Program (Response ⊕ Delivery)} {sourceScanId : Text} {derivedScanId artifactId : Option Text}
    {reused : Bool} {failureCode : Option CdrFailureCode}
    (some : approval p = some (sourceScanId,derivedScanId,artifactId,reused,failureCode)) :
    p = .done (.ok (.inl (.cdr sourceScanId derivedScanId artifactId true reused failureCode))) := by
  unfold approval at some
  split at some
  · cases some
    rfl
  · cases some

theorem approved_downloadable_served : ∃ a ∈ servedSite.state.artifacts,
    ∃ content, servedSite.state.history.analysed a.derivedScanId = some content ∧
      Prog.exec [{},{},{}] (downloadArtifact siteEnv a.id (lit "operator")) servedSite.state =
        (.done (.ok (.streamed (served a content))),servedSite.state.addEvent (downloadedEvent a (lit "operator"))) := by
  obtain ⟨⟨sourceScanId,derivedScanId,artifactId,reused,failureCode⟩,some⟩ :=
    Option.isSome_iff_exists.mp site_evaluated.2.2.2.1
  have returned : servedSite.jobs[1]? =
      Option.some (Option.some (.done (.ok (.inl (.cdr sourceScanId derivedScanId artifactId true reused failureCode))))) :=
    congrArg (fun p => Option.some (Option.some p)) (approval_some some)
  obtain ⟨a,listed,_,_,content,analysed,serves⟩ :=
    approved_downloadable registryDigest_injective (servedSite_arrives distinctKeys) returned
  exact ⟨a,listed,content,analysed,serves _ _ _ _ ⟨rfl,rfl,rfl⟩⟩

end DocGuard.Downloads
