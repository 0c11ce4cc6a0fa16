import DocGuard.Lifecycle

/-!
The programs that add scans and recover them, under the rule for interleavings:
each of their steps keeps the invariant and what the others rely on, and a
registration that returns has a settled row of its own, analyzed on the bytes of
the document that it was given.
-/
namespace DocGuard.Registration
open DocGuard.Domain DocGuard.Programs DocGuard.Programs.Prog DocGuard.Database DocGuard.ScanService DocGuard.Recovery
open DocGuard.Finalization DocGuard.Lifecycle

/-- The choices of the environment under the assumptions on a run. -/
def Allowed (given : Assumptions) (label : Label) (s : World) (i : Choice) : Prop :=
  (given.keys → label = .storing → s.history.fileOwner i.name = none) ∧
  (given.careful → label = .persistence .CDR_DERIVED → i.fault = .none)

/-- The program is safe as program `j` of a run. -/
abbrev SafeAs (env : Env) (given : Assumptions) (j : Nat) {α : Type} (post : Except Exn α → World → Prop)
    (p : Program α) (s : World) : Prop :=
  Safe (Allowed given) (Inv env given) (Keeps given j) (Guarantee (Keeps given) j) post p s

/-- What holds of the own scans, files and artifacts holds after the others have acted. -/
def Stable (given : Assumptions) (j : Nat) (P : World → Prop) : Prop := ∀ a b, P a → Keeps given j a b → P b

def NoArtifact (j : Nat) (s : World) : Prop := ∀ id, s.history.artifactOwner id ≠ some j

def NoScan (j : Nat) (s : World) : Prop := ∀ id, s.history.scanOwner id ≠ some j

theorem noArtifact_stable (j : Nat) : Stable given j (NoArtifact j) :=
  fun _ _ holds keeps id owned => holds id ((keeps.artifactOwner id).mp owned)

theorem noScan_stable (j : Nat) : Stable given j (NoScan j) :=
  fun _ _ holds keeps id owned => holds id ((keeps.scanOwner id).mp owned)

theorem Stable.and {j : Nat} {P Q : World → Prop} (left : Stable given j P) (right : Stable given j Q) :
    Stable given j (fun s => P s ∧ Q s) :=
  fun a b holds keeps => ⟨left a b holds.1 keeps,right a b holds.2 keeps⟩

variable {env : Env} {given : Assumptions} {j : Nat} {s : World} {α : Type}

/-! ### Single steps -/

theorem transaction_cases {body : World → Choice → Except Exn (α × World)} {w w' : World} {i : Choice}
    {result : Except Exn α} (done : transaction body w i = (result,w')) :
    (∃ a, result = .ok a ∧ body w i = .ok (a,w')) ∨ (w' = w ∧ ∃ e, result = .error e ∧
      (e = .SQLAlchemyError ∨ body w i = .error e)) := by
  unfold transaction at done
  split at done
  · split at done
    · rename_i a w'' computed
      cases done
      exact .inl ⟨a,rfl,computed⟩
    · rename_i e failed
      cases done
      exact .inr ⟨rfl,e,rfl,.inr failed⟩
  · cases done
    exact .inr ⟨rfl,.SQLAlchemyError,rfl,.inl rfl⟩

/-- A step that leaves alone what the invariant and the others are about. -/
def Quiet (env : Env) (given : Assumptions) (step : Step α) : Prop :=
  ∀ w i, Inv env given w → Inv env given (step w i).2 ∧ ∀ k, Keeps given k w (step w i).2

theorem safe_quiet {label : Label} {step : Step α} {P : World → Prop} (quiet : Quiet env given step)
    (stable : Stable given j P) (holds : P s) :
    SafeAs env given j (fun result s' => P s' ∧ ∃ w i, P w ∧ Inv env given w ∧ step w i = (result,s'))
      (.atomically label step) s := by
  refine safe_atomically fun s' others inv i _ => ?_
  have now := stable s s' holds others
  obtain ⟨kept,keeps⟩ := quiet s' i inv
  exact ⟨kept,fun k _ => keeps k,stable s' _ now (keeps j),s',i,now,inv,rfl⟩

theorem quiet_of_same {step : Step α} (same : ∀ w i, (step w i).2 = w) : Quiet env given step := by
  intro w i inv
  rw [same]
  exact ⟨inv,fun k => Keeps.refl k w⟩

theorem addToTransaction_added {w w' : World} {e : AuditEvent} (done : addToTransaction w e = .ok w') :
    ∃ details, w' = w.addEvent { e with details := details } := by
  obtain ⟨details,_,rest⟩ := Checks.bind_ok.mp done
  split at rest
  · cases rest
  · cases rest
    exact ⟨details,rfl⟩

theorem quiet_append {e : AuditEvent} (plain : Plain e) :
    Quiet env given (transaction fun w _ => (addToTransaction w e).map fun w' => ((),w')) := by
  intro w i inv
  cases ended : transaction (fun w _ => (addToTransaction w e).map fun w' => ((),w')) w i with
  | mk result w' =>
  rcases transaction_cases ended with ⟨_,_,computed⟩ | ⟨rfl,_⟩
  · cases added : addToTransaction w e with
    | error e => simp [added,Except.map] at computed
    | ok w'' =>
      simp only [added,Except.map,Except.ok.injEq,Prod.mk.injEq,true_and] at computed
      subst computed
      obtain ⟨details,rfl⟩ := addToTransaction_added added
      exact ⟨inv_addEvent inv ⟨plain.approval,plain.recovery,plain.artifact⟩,fun k => keeps_addEvent w _ k⟩
  · exact ⟨inv,fun k => Keeps.refl k w'⟩

theorem quiet_raising {error : Exn} {step : Step α} (quiet : Quiet env given step) :
    Quiet env given (raising error step) :=
  quiet

theorem auditAppend_safe {e : AuditEvent} {P : World → Prop} (plain : Plain e) (stable : Stable given j P) (holds : P s) :
    SafeAs env given j (fun _ s' => P s') (auditAppend e) s :=
  safe_mono (safe_quiet (quiet_raising (quiet_append plain)) stable holds) fun _ _ reached => reached.1

/-- The removal of a file of the program, which no row names any more. -/
theorem removal_safe {document : StoredDocument} {P : World → Prop} (stable : Stable given j P)
    (history : ∀ a b, P a → b.history = a.history → P b) (holds : P s)
    (owned : given.keys → s.history.fileOwner document.storageKey = some j)
    (unregistered : given.careful → document.area = .quarantine → NoScan j s) :
    SafeAs env given j (fun _ s' => P s') (removeStoredDocument document) s := by
  refine safe_atomically fun s' others inv i _ => ?_
  have own : given.keys → s'.history.fileOwner document.storageKey = some j :=
    fun distinct => (others.fileOwner distinct _).mpr (owned distinct)
  have now : P s' := stable s s' holds others
  split
  · refine ⟨inv_removeFile inv fun distinct assumed area id row found named => ?_,
      keeps_setFile (fun distinct => .inr (own distinct)),?_⟩
    · obtain ⟨k,scanned,stored⟩ := inv.rowOwner id row found
      have owner := stored distinct
      rw [named,own distinct] at owner
      obtain rfl := Option.some.inj owner
      exact noScan_stable j s s' (unregistered assumed area) others id scanned
    · refine history s' _ now ?_
      cases document.area <;> rfl
  · exact ⟨inv,fun k _ => Keeps.refl k s',now⟩

/-! ### Registration and analysis -/

/-- The program has stored this content and has not approved an artifact. -/
structure Held (given : Assumptions) (j : Nat) (key : Text) (content : Bytes) (s : World) : Prop where
  owner : given.keys → s.history.fileOwner key = some j
  file : given.keys → s.quarantine key = some content
  noArtifact : NoArtifact j s

theorem held_stable (j : Nat) (key : Text) (content : Bytes) : Stable given j (Held given j key content) :=
  fun a b holds keeps => ⟨fun distinct => (keeps.fileOwner distinct key).mpr (holds.owner distinct),
    fun distinct => (keeps.quarantine distinct key (holds.owner distinct)).trans (holds.file distinct),
    noArtifact_stable j a b holds.noArtifact keeps⟩

/-- The program has also registered this scan: the row satisfies `P`, and what its analysis read satisfies `A`. -/
structure Phase (given : Assumptions) (j : Nat) (key : Text) (content : Bytes) (id : Text) (A : Option Bytes → Prop) (P : ScanRow → Prop)
    (s : World) : Prop where
  held : Held given j key content s
  scanned : s.history.scanOwner id = some j
  read : A (s.history.analysed id)
  row : ∃ row, s.scan id = some row ∧ P row

/-- Recovery, which acts on a scan that is being analyzed, keeps the property. -/
def Closed (P : ScanRow → Prop) : Prop :=
  ∀ row now updated, P row → row.state = .ANALYZING → P (quarantineRow row now updated)

theorem phase_stable {j : Nat} {key : Text} {content : Bytes} {id : Text} {A : Option Bytes → Prop}
    {P : ScanRow → Prop} (closed : Closed P) : Stable given j (Phase given j key content id A P) := by
  intro a b holds keeps
  refine ⟨held_stable j key content a b holds.held keeps,(keeps.scanOwner id).mpr holds.scanned,?_,?_⟩
  · rw [keeps.analysed id holds.scanned]
    exact holds.read
  · obtain ⟨row,found,property⟩ := holds.row
    rcases keeps.scans id holds.scanned with same | ⟨row',now,updated,found',analyzing,recovered⟩
    · exact ⟨row,same.trans found,property⟩
    · obtain rfl : row = row' := Option.some.inj (found.symm.trans found')
      exact ⟨quarantineRow row now updated,recovered,closed row now updated property analyzing⟩

/-- The row is about the stored content and the request. -/
structure Describes (env : Env) (request : ScanRequest) (content : Bytes) (row : ScanRow) : Prop where
  storageKey : row.storageKey = request.document.storageKey
  origin : row.origin = request.origin
  parentScanId : row.parentScanId = request.parentScanId
  sha256 : row.sha256 = env.digest content
  sizeBytes : row.sizeBytes = content.length

theorem Describes.same {request : ScanRequest} {content : Bytes} {row row' : ScanRow}
    (describes : Describes env request content row) (same : SameScan row row') : Describes env request content row' :=
  ⟨same.storageKey.trans describes.storageKey,same.origin.trans describes.origin,
    same.parentScanId.trans describes.parentScanId,same.sha256.trans describes.sha256,
    same.sizeBytes.trans describes.sizeBytes⟩

/-- A row before its final transaction, in one of these states. -/
structure Unfinished (env : Env) (request : ScanRequest) (content : Bytes) (states : List ScanState)
    (row : ScanRow) : Prop where
  describes : Describes env request content row
  state : row.state ∈ states
  findings : row.findings = []
  unreleased : row.releaseEligible = false

theorem unfinished_closed {request : ScanRequest} {content : Bytes} {states : List ScanState}
    (quarantined : .ANALYZING ∈ states → .QUARANTINED ∈ states) : Closed (Unfinished env request content states) :=
  fun row now updated holds analyzing => ⟨holds.describes.same (quarantineRow_same row now updated),
    quarantined (analyzing ▸ holds.state),holds.findings,rfl⟩

/-- A row after its final transaction. -/
structure Finished (env : Env) (request : ScanRequest) (content : Bytes) (row : ScanRow) : Prop where
  describes : Describes env request content row
  settled : Settled row
  evaluated : ∃ e, Evaluated row e

theorem finished_closed {request : ScanRequest} {content : Bytes} : Closed (Finished env request content) := by
  intro row now updated holds analyzing
  rcases holds.settled with completed | quarantined
  · rw [completed] at analyzing
    cases analyzing
  · rw [quarantined] at analyzing
    cases analyzing

/-- The document of a request is the content that the program has stored. -/
structure Stores (env : Env) (request : ScanRequest) (content : Bytes) : Prop where
  area : request.document.area = .quarantine
  sha256 : request.document.sha256 = env.digest content
  sizeBytes : request.document.sizeBytes = content.length

theorem insertScan_safe {request : ScanRequest} {content : Bytes} (stores : Stores env request content)
    (held : Held given j request.document.storageKey content s) (noScan : NoScan j s) :
    SafeAs env given j
      (fun
        | .ok id,s' => Phase given j request.document.storageKey content id (fun _ => True)
            (Unfinished env request content [.STORED]) s'
        | .error _,s' => Held given j request.document.storageKey content s' ∧ NoScan j s')
      (.atomically .step (insertScan env j request)) s := by
  refine safe_atomically fun s' others inv i _ => ?_
  have now : Held given j request.document.storageKey content s' := held_stable j _ _ s s' held others
  cases ended : insertScan env j request s' i with
  | mk result w =>
  rcases transaction_cases ended with ⟨id,rfl,committed⟩ | ⟨rfl,e,rfl,_⟩
  · dsimp only at committed
    split at committed
    · cases committed
    · rename_i valid
      cases committed
      simp only [violatesScan,Bool.or_eq_true,List.any_eq_true,not_or,not_exists,not_and,beq_iff_eq] at valid
      have unused : s'.scan (newScan env request i.name i.now).id = none := by
        rw [World.scan,List.find?_eq_none]
        intro r member same
        exact (valid.1 r member).1 (by simpa using same)
      have object (distinct : given.keys) : HasObject env s' (newScan env request i.name i.now) :=
        ⟨content,now.file distinct,stores.sha256.symm,stores.sizeBytes.symm⟩
      refine ⟨inv_addScan inv unused now.owner rfl object,keeps_addScan inv unused,?_⟩
      refine ⟨⟨now.owner,now.file,now.noArtifact⟩,by simp [World.addScan],trivial,?_⟩
      refine ⟨newScan env request i.name i.now,by rw [scan_addScan j unused,if_pos rfl],?_⟩
      exact ⟨⟨rfl,rfl,rfl,stores.sha256,stores.sizeBytes⟩,List.mem_singleton_self _,rfl,rfl⟩
  · exact ⟨inv,fun k _ => Keeps.refl k _,now,noScan_stable j s _ noScan others⟩

theorem updateScan_safe {origin : ScanOrigin} {key id : Text} {content : Bytes} {A : Option Bytes → Prop}
    {P : ScanRow → Prop} {Q : ScanRow → Prop} {assign : ScanRow → Choice → Except Exn (Unit × ScanRow)}
    (phase : Phase given j key content id A P s) (closed : Closed P)
    (step : ∀ row row' i, P row → assign row i = .ok ((),row') → Replaces row row' ∧ Q row')
    (fails : ∀ row i e, assign row i = .error e → e = .other) :
    SafeAs env given j
      (fun
        | .ok _,s' => Phase given j key content id A Q s'
        | .error e,s' => Phase given j key content id A P s' ∧
            (given.careful → origin = .CDR_DERIVED → e ≠ .DatabasePersistenceError))
      (.atomically (.persistence origin) (raising .DatabasePersistenceError (updateScan id assign))) s := by
  refine safe_atomically fun s' others inv i may => ?_
  have now : Phase given j key content id A P s' := phase_stable closed s s' phase others
  obtain ⟨row,found,property⟩ := now.row
  cases ended : updateScan id assign s' i with
  | mk result w =>
  simp only [raising,ended]
  rcases transaction_cases ended with ⟨_,rfl,committed⟩ | ⟨rfl,e,rfl,reason⟩
  · simp only [found] at committed
    cases assigned : assign row i with
    | error e => simp [assigned,Except.map] at committed
    | ok pair =>
      obtain ⟨_,row'⟩ := pair
      simp only [assigned,Except.map,Except.ok.injEq,Prod.mk.injEq,true_and] at committed
      subst committed
      obtain ⟨replaces,reached⟩ := step row row' i property assigned
      have found' : s'.scan row.id = some row := scan_id found ▸ found
      have same : row'.id = id := replaces.same.id.trans (scan_id found)
      refine ⟨inv_putScan inv found' replaces,keeps_putScan (same ▸ now.scanned),?_⟩
      refine ⟨⟨now.held.owner,now.held.file,now.held.noArtifact⟩,now.scanned,now.read,row',?_,reached⟩
      rw [scan_putScan,if_pos same.symm,found]
      rfl
  · refine ⟨inv,fun k _ => Keeps.refl k _,now,fun assumed derived => ?_⟩
    have careful' := may.2 assumed (congrArg Label.persistence derived)
    -- without a fault only the assignments themselves can fail
    have other : e = .other := by
      simp only [updateScan,transaction,careful',if_true,found] at ended
      cases assigned : assign row i with
      | error e' =>
        simp only [assigned,Except.map,Prod.mk.injEq,Except.error.injEq] at ended
        rw [← ended.1]
        exact fails row i e' assigned
      | ok pair => simp [assigned,Except.map] at ended
    subst other
    simp [Exn.isSQLAlchemyError]

theorem analyzeDocument_safe {document : StoredDocument} {id : Text} {content : Bytes} {P : ScanRow → Prop}
    (area : document.area = .quarantine)
    (phase : Phase given j document.storageKey content id (fun _ => True) P s) (closed : Closed P)
    (incomplete : ∀ row, P row → row.state ≠ .COMPLETED) :
    SafeAs env given j
      (fun result s' => Phase given j document.storageKey content id (fun read => given.keys → read = some content) P s' ∧
        ∀ e, result = .error e → e = .other)
      (analyzeDocument document id) s := by
  refine safe_atomically fun s' others inv i _ => ?_
  have now : Phase given j document.storageKey content id (fun _ => True) P s' := phase_stable closed s s' phase others
  obtain ⟨row,found,property⟩ := now.row
  have noted : Inv env given (s'.noteAnalysis id (files s' document.area document.storageKey)) := by
    refine inv_noteAnalysis inv fun r looked => ?_
    obtain rfl : row = r := Option.some.inj (found.symm.trans looked)
    exact incomplete row property
  have read : Phase given j document.storageKey content id (fun read => given.keys → read = some content) P
      (s'.noteAnalysis id (files s' document.area document.storageKey)) := by
    refine ⟨⟨now.held.owner,now.held.file,now.held.noArtifact⟩,now.scanned,?_,row,found,property⟩
    intro distinct
    simp [World.noteAnalysis,area,files,now.held.file distinct]
  dsimp only
  split
  · exact ⟨noted,keeps_noteAnalysis now.scanned,read,fun e failed => (Except.error.inj failed).symm⟩
  · exact ⟨noted,keeps_noteAnalysis now.scanned,read,fun e failed => by cases failed⟩

theorem getScan_safe {origin : ScanOrigin} {key id : Text} {content : Bytes} {A : Option Bytes → Prop}
    {P : ScanRow → Prop} (phase : Phase given j key content id A P s) (closed : Closed P) :
    SafeAs env given j
      (fun
        | .ok row,s' => Phase given j key content row.id A (fun r => r = row ∧ P r) s'
        | .error e,s' => Phase given j key content id A P s' ∧
            (given.careful → origin = .CDR_DERIVED → e ≠ .DatabasePersistenceError))
      (getScan (.persistence origin) id) s := by
  refine safe_atomically fun s' others inv i may => ?_
  have now : Phase given j key content id A P s' := phase_stable closed s s' phase others
  obtain ⟨row,found,property⟩ := now.row
  by_cases faultless : i.fault = .none
  · simp only [raising,transaction,faultless,if_true,found]
    obtain rfl := scan_id found
    exact ⟨inv,fun k _ => Keeps.refl k s',now.held,now.scanned,now.read,row,found,rfl,property⟩
  · simp only [raising,transaction,faultless,if_false]
    exact ⟨inv,fun k _ => Keeps.refl k s',now,
      fun assumed derived => absurd (may.2 assumed (congrArg Label.persistence derived)) faultless⟩

theorem markAnalyzing_replaces {request : ScanRequest} {content : Bytes} {row : ScanRow} {now : Int}
    (stored : Unfinished env request content [.STORED] row) : Replaces row (markAnalyzing row now) where
  same := markAnalyzing_same row now
  incomplete completed := by
    have state := List.mem_singleton.mp stored.state
    rw [state] at completed
    cases completed
  released released := by
    rw [show (markAnalyzing row now).releaseEligible = row.releaseEligible from rfl,stored.unreleased] at released
    cases released
  settled settled := by
    have state := List.mem_singleton.mp stored.state
    rcases settled with completed | quarantined
    · rw [state] at completed
      cases completed
    · rw [state] at quarantined
      cases quarantined

theorem finalize_replaces {request : ScanRequest} {content : Bytes} {outcome : Orchestrator.AnalysisOutcome}
    {row row' : ScanRow} {i : Choice} (unfinished : Unfinished env request content [.ANALYZING,.QUARANTINED] row)
    (finalized : finalize env outcome row i = .ok ((),row')) : Replaces row row' where
  same := finalize_same finalized
  incomplete completed := by simpa [completed] using unfinished.state
  released := finalize_releasable finalized unfinished.findings
  settled settled := by
    refine ⟨finalize_settled finalized,finalize_irregular finalized ?_ ?_⟩
    · rcases settled with completed | quarantined
      · simp [completed]
      · simp [quarantined]
    · intro completed
      simpa [completed] using unfinished.state

/-- What a registration leaves: a settled scan of its own, analyzed on the stored content; or, when it fails, its
    file, and in a careful run no scan whenever the error is the one that its callers clean up after. -/
def Registered (env : Env) (given : Assumptions) (j : Nat) (request : ScanRequest) (content : Bytes) :
    Except Exn ScanRow → World → Prop
  | .ok row,s => Phase given j request.document.storageKey content row.id (fun read => given.keys → read = some content)
      (fun r => r = row ∧ Finished env request content r) s
  | .error e,s => (given.keys → s.history.fileOwner request.document.storageKey = some j) ∧ NoArtifact j s ∧
      (given.careful → request.origin = .CDR_DERIVED → e = .DatabasePersistenceError → NoScan j s)

theorem registration_failed {request : ScanRequest} {content : Bytes} {key : Text} {id : Text}
    {A : Option Bytes → Prop} {P : ScanRow → Prop} {e : Exn} (same : key = request.document.storageKey)
    (phase : Phase given j key content id A P s)
    (reported : given.careful → request.origin = .CDR_DERIVED → e ≠ .DatabasePersistenceError) :
    Registered env given j request content (.error e) s := by
  subst same
  exact ⟨phase.held.owner,phase.held.noArtifact,fun assumed derived equal => absurd equal (reported assumed derived)⟩

/-- The registration of the scan, with the removal of the document when it fails. -/
theorem registering_safe {request : ScanRequest} {content : Bytes} (stores : Stores env request content)
    (held : Held given j request.document.storageKey content s) (noScan : NoScan j s) :
    SafeAs env given j
      (fun
        | .ok id,s' => Phase given j request.document.storageKey content id (fun _ => True)
            (Unfinished env request content [.STORED]) s'
        | .error e,s' => Registered env given j request content (.error e) s')
      (tryCatch (.atomically .step (insertScan env j request)) fun e =>
        if e.isSQLAlchemyError then do
          removeStoredDocument request.document
          throw .DatabasePersistenceError
        else throw e) s := by
  refine safe_tryCatch (insertScan_safe stores held noScan) (fun _ _ reached => reached) ?_
  rintro e s' ⟨still,none⟩
  split
  · refine safe_bind (M := fun _ t => NoArtifact j t ∧ NoScan j t ∧
      (given.keys → t.history.fileOwner request.document.storageKey = some j)) ?_
      (fun _ t left => ⟨left.2.2,left.1,fun _ _ _ => left.2.1⟩)
      (fun _ t left => ⟨left.2.2,left.1,fun _ _ _ => left.2.1⟩)
    refine removal_safe ?_ ?_ ⟨still.noArtifact,none,still.owner⟩ still.owner (fun _ _ => none)
    · exact (noArtifact_stable j).and ((noScan_stable j).and
        fun a b own keeps distinct => (keeps.fileOwner distinct request.document.storageKey).mpr (own distinct))
    · intro a b holds same
      simpa only [NoArtifact,NoScan,same] using holds
  · exact ⟨still.owner,still.noArtifact,fun _ _ _ => none⟩

/-- A registration keeps to the rule and leaves what `Registered` says. -/
theorem registerAndAnalyze_safe {request : ScanRequest} {content : Bytes} (stores : Stores env request content)
    (held : Held given j request.document.storageKey content s) (noScan : NoScan j s) :
    SafeAs env given j (Registered env given j request content) (registerAndAnalyze env j request) s := by
  refine safe_bind (registering_safe stores held noScan) (fun id s₁ stored => ?_) (fun _ _ failed => failed)
  have storedClosed : Closed (Unfinished env request content [.STORED]) :=
    unfinished_closed (fun analyzing => by simp at analyzing)
  have openClosed : Closed (Unfinished env request content [.ANALYZING,.QUARANTINED]) :=
    unfinished_closed (fun _ => by simp)
  have openIncomplete : ∀ row, Unfinished env request content [.ANALYZING,.QUARANTINED] row → row.state ≠ .COMPLETED :=
    fun row unfinished completed => by simpa [completed] using unfinished.state
  refine safe_bind (updateScan_safe (Q := Unfinished env request content [.ANALYZING,.QUARANTINED]) stored storedClosed
    ?_ (fun _ _ _ impossible => by cases impossible)) (fun _ s₂ marked => ?_)
    (fun _ _ failed => registration_failed rfl failed.1 failed.2)
  · intro row row' i unfinished marked
    cases marked
    refine ⟨markAnalyzing_replaces unfinished,?_⟩
    exact ⟨unfinished.describes.same (markAnalyzing_same row i.now),by simp [markAnalyzing],unfinished.findings,
      unfinished.unreleased⟩
  refine safe_bind (analyzeDocument_safe stores.area marked openClosed openIncomplete) (fun outcome s₃ analysed => ?_)
    (fun e _ failed => registration_failed rfl failed.1 (fun _ _ => by rw [failed.2 e rfl]; exact fun h => by cases h))
  refine safe_bind (updateScan_safe (Q := Finished env request content) analysed.1 openClosed ?_
    (fun _ _ _ => finalize_error)) (fun _ s₄ finished => ?_)
    (fun _ _ failed => registration_failed rfl failed.1 failed.2)
  · intro row row' i unfinished finalized
    exact ⟨finalize_replaces unfinished finalized,unfinished.describes.same (finalize_same finalized),
      finalize_settled finalized,finalize_evaluated finalized⟩
  refine safe_mono (getScan_safe finished finished_closed) fun result s₅ reached => ?_
  cases result with
  | ok row => exact reached
  | error e => exact registration_failed rfl reached.1 reached.2

/-! ### The programs -/

/-- Nothing has been added by the program. -/
def Unused (j : Nat) (s : World) : Prop := NoArtifact j s ∧ NoScan j s

theorem unused_stable (j : Nat) : Stable given j (Unused j) := (noArtifact_stable j).and (noScan_stable j)

/-- A new file of the program. -/
theorem storing (area : Area) {key : Text} (content : Bytes) {P : World → Prop}
    (history : ∀ a b, P a → b.history.scanOwner = a.history.scanOwner →
      b.history.artifactOwner = a.history.artifactOwner → P b)
    (holds : P s) (noArtifact : NoArtifact j s) (inv : Inv env given s)
    (fresh : given.keys → s.history.fileOwner key = none) :
    Inv env given (addFile j s area key content) ∧ Guarantee (Keeps given) j s (addFile j s area key content) ∧
      P (addFile j s area key content) ∧ NoArtifact j (addFile j s area key content) ∧
      (addFile j s area key content).history.fileOwner key = some j := by
  refine ⟨inv_addFile inv fresh,keeps_addFile fresh,?_,?_,?_⟩
  · cases area <;> exact history s _ holds rfl rfl
  · cases area <;> exact noArtifact
  · cases area <;> simp [addFile,setFile]

theorem noScan_history {a b : World} (none : NoScan j a) (same : b.history.scanOwner = a.history.scanOwner) :
    NoScan j b := by
  intro id
  rw [same]
  exact none id

/-- What a program of a run promises when it returns: an approval names an artifact that is there, and without one
    the program has added no artifact. -/
def Promised (j : Nat) : Except Exn Response → World → Prop
  | .ok (.cdr sourceScanId derivedScanId artifactId approved _ _),s =>
    if approved then ∃ a ∈ s.artifacts, artifactId = some a.id ∧ a.scanId = sourceScanId ∧
      derivedScanId = some a.derivedScanId
    else NoArtifact j s
  | _,_ => True

theorem streamDocument_safe {body : Bytes} {disconnects : Bool} (unused : Unused j s) :
    SafeAs env given j
      (fun
        | .ok document,s' => document.area = .quarantine ∧ document.sha256 = env.digest body ∧
            document.sizeBytes = body.length ∧ Held given j document.storageKey body s' ∧ NoScan j s'
        | .error _,_ => True)
      (streamDocumentToQuarantine env j body disconnects) s := by
  refine safe_atomically fun s' others inv i may => ?_
  have now : Unused j s' := unused_stable j s s' unused others
  have stored := storing .quarantine body (P := NoScan j)
    (fun a b none same _ => noScan_history none same) now.2 now.1 inv (fun distinct => may.1 distinct rfl)
  split_ifs
  · exact ⟨inv,fun k _ => Keeps.refl k s',trivial⟩
  · exact ⟨inv,fun k _ => Keeps.refl k s',trivial⟩
  · exact ⟨inv,fun k _ => Keeps.refl k s',trivial⟩
  · cases i.fault with
    | none =>
      refine ⟨stored.1,stored.2.1,rfl,rfl,rfl,⟨fun _ => stored.2.2.2.2,fun _ => ?_,stored.2.2.2.1⟩,stored.2.2.1⟩
      simp [addFile,setFile]
    | fails => exact ⟨inv,fun k _ => Keeps.refl k s',trivial⟩
    | cleanupFails => exact ⟨stored.1,stored.2.1,trivial⟩

theorem createScan_safe {upload : Upload} (unused : Unused j s) :
    SafeAs env given j (Promised j) (createScan env j upload) s := by
  refine safe_resume (streamDocument_safe unused) fun result s₁ streamed => ?_
  cases result with
  | error e => cases e <;> exact trivial
  | ok document =>
    obtain ⟨area,sha256,size,held,noScan⟩ := streamed
    refine safe_bind (registerAndAnalyze_safe (⟨area,sha256,size⟩ : Stores env _ upload.body) held noScan)
      (fun row s₂ _ => ?_) (fun _ _ _ => trivial)
    refine safe_bind (auditAppend_safe (P := fun _ => True) ⟨by simp,by simp,rfl⟩ (fun _ _ _ _ => trivial) trivial)
      (fun _ _ _ => trivial) (fun _ _ _ => trivial)

theorem quarantineStaleScan_safe {id : Text} {cutoff now : Int} :
    SafeAs env given j (fun _ _ => True) (.atomically .step (quarantineStaleScan id cutoff now)) s := by
  refine safe_atomically fun s' _ inv i _ => ?_
  cases ended : quarantineStaleScan id cutoff now s' i with
  | mk result w =>
  rcases transaction_cases ended with ⟨_,_,committed⟩ | ⟨rfl,_⟩
  · cases found : s'.scan id with
    | none =>
      simp only [found,Except.ok.injEq,Prod.mk.injEq] at committed
      obtain ⟨_,rfl⟩ := committed
      exact ⟨inv,fun k _ => Keeps.refl k _,trivial⟩
    | some row =>
      simp only [found] at committed
      split at committed
      · rename_i old
        cases added : addToTransaction (s'.putScan (quarantineRow row now i.now)) (recoveryEvent row.id) with
        | error e => simp [added,Except.map] at committed
        | ok w' =>
          simp only [added,Except.map,Except.ok.injEq,Prod.mk.injEq] at committed
          obtain ⟨_,rfl⟩ := committed
          obtain ⟨details,rfl⟩ := addToTransaction_added added
          have analyzing : row.state = .ANALYZING := by
            simp only [stale,decide_eq_true_eq] at old
            exact old.1
          have found' : s'.scan row.id = some row := scan_id found ▸ found
          exact ⟨inv_recover inv found' analyzing rfl rfl rfl,
            fun k _ => (keeps_recover found' analyzing k).trans (keeps_addEvent _ _ k),trivial⟩
      · simp only [Except.ok.injEq,Prod.mk.injEq] at committed
        obtain ⟨_,rfl⟩ := committed
        exact ⟨inv,fun k _ => Keeps.refl k _,trivial⟩
  · exact ⟨inv,fun k _ => Keeps.refl k _,trivial⟩

theorem quarantineStaleScans_safe {cutoff now : Int} (rows : List ScanRow) :
    SafeAs env given j (fun _ _ => True) (quarantineStaleScans cutoff now rows) s := by
  induction rows generalizing s with
  | nil => exact trivial
  | cons row rest ih =>
    simp only [quarantineStaleScans]
    split
    · exact safe_bind quarantineStaleScan_safe
        (fun _ _ _ => safe_bind ih (fun _ _ _ => trivial) (fun _ _ _ => trivial)) (fun _ _ _ => trivial)
    · exact ih

theorem reconcile_safe {staleSeconds now : Int} {batchSize : Nat} :
    SafeAs env given j (Promised j) (reconcile staleSeconds now batchSize) s := by
  refine safe_bind (M := fun _ _ => True) ?_ (fun rows _ _ => ?_) (fun _ _ _ => trivial)
  · refine safe_atomically fun s' _ inv i _ => ?_
    simp only [transaction]
    split <;> exact ⟨inv,fun k _ => Keeps.refl k s',trivial⟩
  · exact safe_bind (quarantineStaleScans_safe rows) (fun _ _ _ => trivial) (fun _ _ _ => trivial)

end DocGuard.Registration
