import DocGuard.Approval

/-!
The service: any number of uploads, sanitizations and recoveries on one persisted
state, in every interleaving, with failing steps and crashes. What holds of all
its runs: the safety of releases, the exactness of approvals, and the objects of
the rows.
-/
namespace DocGuard.Service
open DocGuard.Domain DocGuard.Programs DocGuard.Database DocGuard.ScanService DocGuard.Recovery DocGuard.Cdr
open DocGuard.Finalization DocGuard.Lifecycle DocGuard.Registration DocGuard.Approval

/-- The programs of the service, with any arguments. -/
inductive Spawned (env : Env) : Nat → Program Response → Prop where
  | createScan (j : Nat) (upload : Upload) : Spawned env j (createScan env j upload)
  | sanitizePdf (j : Nat) (scanId : Text) : Spawned env j (sanitizePdf env j scanId)
  | reconcile (j : Nat) (staleSeconds now : Int) (batchSize : Nat) : Spawned env j (reconcile staleSeconds now batchSize)

abbrev ServicePool := Pool World Choice Label Exn Response

/-- One step of the service. -/
abbrev Moves (env : Env) (given : Assumptions) : ServicePool → ServicePool → Prop :=
  Pool.Step (Allowed given) (Spawned env)

/-- The pool is in a run of the service from the empty state. -/
abbrev Reaches (env : Env) (given : Assumptions) (pool : ServicePool) : Prop :=
  Pool.Run (Allowed given) (Spawned env) {} pool

/-- Nothing is assumed of the environment. -/
def unrestricted : Assumptions := ⟨False,False,False⟩

/-- Random storage keys do not repeat. -/
def distinctKeys : Assumptions := ⟨True,False,False⟩

/-- Besides, no transaction fails after the registration of a CDR candidate. -/
def carefulRun : Assumptions := ⟨True,True,False⟩

/-- The source of a sanitization that has returned, and whether it reports an approval. -/
def reportedApproval : Response → Option (Text × Bool)
  | .cdr sourceScanId _ _ approved _ _ => some (sourceScanId,approved)
  | _ => none

theorem reportedApproval_some {p : Program Response} {sourceScanId : Text} {approved : Bool}
    (reported : p.returned.bind reportedApproval = some (sourceScanId,approved)) :
    ∃ derivedScanId artifactId reused failureCode,
      p = .done (.ok (.cdr sourceScanId derivedScanId artifactId approved reused failureCode)) := by
  obtain ⟨response,value,read⟩ := Option.bind_eq_some_iff.mp reported
  cases response with
  | cdr source derivedScanId artifactId verdict reused failureCode =>
    obtain ⟨rfl,rfl⟩ := Prod.mk.inj (Option.some.inj read)
    exact ⟨derivedScanId,artifactId,reused,failureCode,Prog.returned_some value⟩
  | _ => cases read

variable {env : Env} {given : Assumptions}

theorem promised_stable (j : Nat) (result : Except Exn Response) : Stable given j (Promised j result) := by
  cases result with
  | error e => exact fun _ _ _ _ => trivial
  | ok response => exact concluded_stable (.ok response)

/-- The programs of the service fit together. -/
theorem spawned_compatible (env : Env) (given : Assumptions) :
    Compatible (Allowed given) (Spawned env) (Inv env given) (Keeps given) Unused Promised where
  refl := Keeps.refl
  trans _ _ _ _ := Keeps.trans
  stable j result a b holds keeps _ := promised_stable j result a b holds keeps
  stays j := unused_stable j
  start j p s spawned inv unused := by
    cases spawned with
    | createScan upload => exact createScan_safe unused
    | sanitizePdf scanId => exact sanitizePdf_safe unused
    | reconcile staleSeconds now batchSize => exact reconcile_safe

theorem reaches_good {pool : ServicePool} (run : Reaches env given pool) :
    pool.Good (Allowed given) (Inv env given) (Keeps given) Unused Promised := by
  refine Pool.good_run (spawned_compatible env given) (inv_empty env given) (fun j => ⟨?_,?_⟩) run
  · exact fun id owned => by cases owned
  · exact fun id owned => by cases owned

/-- The invariant holds in every state of every run. -/
theorem reaches_inv {pool : ServicePool} (run : Reaches env given pool) : Inv env given pool.state :=
  (reaches_good run).holds

/-- Events are never withdrawn. -/
theorem events_kept {pool later : ServicePool} (run : Reaches env given pool)
    (steps : Relation.ReflTransGen (Moves env given) pool later) : ∀ e ∈ pool.state.events, e ∈ later.state.events := by
  refine (Pool.good_steps (spawned_compatible env given) (R := fun a b => ∀ e ∈ a.events, e ∈ b.events)
    (fun _ _ member => member) (fun _ _ _ first second e member => second e (first e member)) ?_
    (reaches_good run) steps).2
  exact fun j a b keeps => (keeps (j + 1) (by omega)).events

/-- A program that starts in a reached state and goes on without others in between. -/
theorem reaches_exec {check : Label → World → Choice → Bool}
    (sound : ∀ label s i, check label s i = true → Allowed given label s i) {s : World}
    {jobs : List (Option (Program Response))} (run : Reaches env given ⟨s,jobs⟩) {p : Program Response}
    (starts : Spawned env jobs.length p) {choices : List Choice} (may : Prog.follows check choices p s = true)
    {ended : Program Response × World} (ends : Prog.exec choices p s = ended) :
    Reaches env given ⟨ended.2,jobs ++ [some ended.1]⟩ := by
  subst ends
  have running : (jobs ++ [some p])[jobs.length]? = some (some p) := by simp
  have steps : Relation.ReflTransGen (Moves env given) _ _ := Pool.steps_exec sound running may
  rw [List.set_append_right _ _ le_rfl,Nat.sub_self,List.set_cons_zero] at steps
  exact (run.tail (.spawn starts)).trans steps

/-- A choice that a careful run allows. -/
def carefulChoice (label : Label) (s : World) (i : Choice) : Bool :=
  decide (label = .storing → s.history.fileOwner i.name = none) &&
  decide (label = .persistence .CDR_DERIVED → i.fault = .none)

theorem carefulChoice_allowed (label : Label) (s : World) (i : Choice) (checked : carefulChoice label s i = true) :
    Allowed given label s i := by
  simp only [carefulChoice,Bool.and_eq_true,decide_eq_true_eq] at checked
  exact ⟨fun _ => checked.1,fun _ => checked.2⟩

/-- A choice that a run with distinct keys allows. -/
def distinctChoice (label : Label) (s : World) (i : Choice) : Bool :=
  decide (label = .storing → s.history.fileOwner i.name = none)

theorem distinctChoice_allowed (label : Label) (s : World) (i : Choice) (checked : distinctChoice label s i = true) :
    Allowed distinctKeys label s i :=
  ⟨fun _ => decide_eq_true_eq.mp checked,fun impossible => impossible.elim⟩

/-! ### A sample run -/

/-- A service whose digest is that of the product on everything that the sample run hashes. -/
def sampleEnv : Env where
  digest data := if data.head? = some 123 then Registry.POLICY_FINGERPRINT else Sha256.sha256 data
  casefold text := text.map Char.toLower
  maximumUploadBytes := 1000
  sanitizerVersion := lit "1.0.0"
  sanitizerFingerprint := Registry.POLICY_FINGERPRINT
  maxPages := 100
  cdrMaxOutputBytes := 1000

def key (c : Char) : Text := List.replicate 32 c

/-- The result for a PDF of one page with a script. -/
def scriptedPdf : AnalysisResult where
  schemaVersion := Contract.ANALYSIS_SCHEMA_VERSION
  workerVersion := lit "1.0.0"
  status := .SUCCESS
  detectedType := some (lit "PDF")
  sizeBytes := 4
  findings :=
    [{ code := lit "PDF_JAVASCRIPT", category := lit "pdf-active-content", severity := .MEDIUM, scoreDelta := 0,
       title := lit "PDF JavaScript capability detected",
       description := lit "The PDF structure contains a JavaScript action or document JavaScript name-tree entry.",
       mitreTechniques := [lit "T1204.002"], metadata := [] }]
  analyzerMetadata := [(lit "pdf",.obj [(lit "page_count",.int 1)])]
  startedAt := ⟨0,true⟩
  completedAt := ⟨0,true⟩
  durationMs := 0
  valid := by decide +kernel

def uploadChoices : List Choice :=
  [{ name := key 'a' },{ name := key '1' },{},{ execution := some (.ended false false 0 (.ok scriptedPdf)) },{},{},{}]

def samplePdf : Upload := ⟨[37,80,68,70],false,lit "a.pdf",lit "a.pdf",none,none⟩

/-- The upload of that PDF, which is to be reviewed. -/
def upload : Program Response := createScan sampleEnv 0 samplePdf

def uploaded : Program Response × World := Prog.exec uploadChoices upload {}

theorem uploaded_careful : Prog.follows carefulChoice uploadChoices upload {} = true := by decide +kernel

def uploadedPool : ServicePool := ⟨uploaded.2,[some uploaded.1]⟩

theorem uploaded_reached (given : Assumptions) : Reaches sampleEnv given uploadedPool :=
  reaches_exec carefulChoice_allowed (.refl : Reaches sampleEnv given ⟨{},[]⟩) (.createScan 0 _) uploaded_careful rfl

/-- A service whose digest has no collisions. -/
def collisionFree : Env :=
  { sampleEnv with digest := fun data => data.map fun b => Char.ofNat b.toNat }

theorem collisionFree_injective : Function.Injective collisionFree.digest := chars_injective

/-- Whether two contents are equal, tested block by block. -/
def sameBlocks : Nat → Bytes → Bytes → Bool
  | 0,a,b => a == b
  | n + 1,a,b => a.take 64 == b.take 64 && sameBlocks n (a.drop 64) (b.drop 64)

theorem sameBlocks_iff (n : Nat) (a b : Bytes) : sameBlocks n a b = true ↔ a = b := by
  induction n generalizing a b with
  | zero => exact beq_iff_eq
  | succ n ih =>
    simp only [sameBlocks,Bool.and_eq_true,beq_iff_eq,ih]
    constructor
    · rintro ⟨first,rest⟩
      rw [← List.take_append_drop 64 a,← List.take_append_drop 64 b,first,rest]
    · rintro rfl
      exact ⟨rfl,rfl⟩

def registryPayload : Bytes := Json.utf8 (Json.dumps true (Registry.normalized Registry.shipped))

/-- A digest without collisions that is the one of the product on the registry. -/
def registryDigest (data : Bytes) : Text :=
  if sameBlocks 1000 data registryPayload then Registry.POLICY_FINGERPRINT
  else if collisionFree.digest data = Registry.POLICY_FINGERPRINT then collisionFree.digest registryPayload
  else collisionFree.digest data

theorem registryDigest_eq (data : Bytes) : registryDigest data =
    Equiv.swap (collisionFree.digest registryPayload) Registry.POLICY_FINGERPRINT (collisionFree.digest data) := by
  by_cases payload : data = registryPayload
  · rw [registryDigest,if_pos ((sameBlocks_iff _ _ _).mpr payload),payload,Equiv.swap_apply_left]
  · rw [registryDigest,if_neg fun same => payload ((sameBlocks_iff _ _ _).mp same),Equiv.swap_apply_def,
      if_neg fun same => payload (collisionFree_injective same)]

theorem registryDigest_injective : Function.Injective registryDigest := by
  intro a b same
  rw [registryDigest_eq,registryDigest_eq] at same
  exact collisionFree_injective ((Equiv.swap _ _).injective same)

def siteEnv : Env := { sampleEnv with digest := registryDigest }

/-- The result for a PDF of one page without findings. -/
def plainPdf : AnalysisResult := { scriptedPdf with findings := [], valid := by decide +kernel }

/-- A rendering of five bytes that succeeds. -/
def rendered : Orchestrator.PdfCdrResult where
  schemaVersion := Contract.ANALYSIS_SCHEMA_VERSION
  operation := lit "SANITIZE_PDF"
  status := .SUCCESS
  sanitizerVersion := lit "1.0.0"
  sanitizerFingerprint := Registry.POLICY_FINGERPRINT
  rendererVersion := lit "1.0"
  engineVersion := lit "1.0"
  pageCount := 1
  totalPixels := 1
  outputBytes := 5
  durationMs := 0
  valid := by decide +kernel

/-- A rendering of five bytes, whose scan is allowed. -/
def approvalChoices : List Choice :=
  [{},{},{},{},{},{},{ name := key 'e' },
   { rendering := some (.ended false false 0 (.ok rendered)), output := [1,2,3,4,5] },{},{},
   { name := key 'b' },{ name := key '2' },{},{ execution := some (.ended false false 0 (.ok plainPdf)) },{},{},{},{},
   { name := key 'c' },{ name := key 'd' },{}]

/-- An upload and its sanitization, which is approved; an upload whose analysis is interrupted, and the recovery of its
    scan; and the request to sanitize a scan that does not exist. -/
def siteScanned : Program Response × World := Prog.exec uploadChoices (createScan siteEnv 0 samplePdf) {}

def siteApproved : Program Response × World :=
  Prog.exec approvalChoices (sanitizePdf siteEnv 1 (key '1')) siteScanned.2

def siteInterrupted : Program Response × World :=
  Prog.exec [{ name := key 'f' },{ name := key '3' },{}] (createScan siteEnv 2 samplePdf) siteApproved.2

def siteRecovered : Program Response × World := Prog.exec [{},{}] (reconcile 1800 2000 10) siteInterrupted.2

def siteRefused : Program Response × World := Prog.exec [{},{}] (sanitizePdf siteEnv 4 (key '0')) siteRecovered.2

def recoveredPool : ServicePool :=
  ⟨siteRecovered.2,[some siteScanned.1,some siteApproved.1,none,some siteRecovered.1]⟩

def refusedPool : ServicePool := ⟨siteRefused.2,recoveredPool.jobs ++ [some siteRefused.1]⟩

/-- Every step of that run is one of a careful run; it leaves a released derived scan and a recovered one. -/
theorem site_evaluated :
    Prog.follows carefulChoice uploadChoices (createScan siteEnv 0 samplePdf) {} = true ∧
      Prog.follows carefulChoice approvalChoices (sanitizePdf siteEnv 1 (key '1')) siteScanned.2 = true ∧
      Prog.follows carefulChoice [{ name := key 'f' },{ name := key '3' },{}] (createScan siteEnv 2 samplePdf)
        siteApproved.2 = true ∧
      Prog.follows carefulChoice [{},{}] (reconcile 1800 2000 10) siteInterrupted.2 = true ∧
      Prog.follows carefulChoice [{},{}] (sanitizePdf siteEnv 4 (key '0')) siteRecovered.2 = true ∧
      siteApproved.1.returned.bind reportedApproval = some (key '1',true) ∧
      siteRefused.1.returned.bind reportedApproval = some (key '0',false) ∧
      recoveredPool.state.scans.length = 3 ∧ (∃ row ∈ recoveredPool.state.scans, row.releaseEligible = true) ∧
      ∃ e ∈ recoveredPool.state.events, e.eventType = .RECOVERY_STALE_SCAN_QUARANTINED ∧ e.scanId = some (key '3') := by
  decide +kernel

theorem recoveredPool_reached (given : Assumptions) : Reaches siteEnv given recoveredPool := by
  obtain ⟨scanned,approved,interrupted,recovered,_⟩ := site_evaluated
  have first : Reaches siteEnv given ⟨siteScanned.2,[some siteScanned.1]⟩ :=
    reaches_exec carefulChoice_allowed (.refl : Reaches siteEnv given ⟨{},[]⟩) (.createScan 0 _) scanned rfl
  have second : Reaches siteEnv given ⟨siteApproved.2,[some siteScanned.1,some siteApproved.1]⟩ :=
    reaches_exec carefulChoice_allowed first (.sanitizePdf 1 _) approved rfl
  have third : Reaches siteEnv given
      ⟨siteInterrupted.2,[some siteScanned.1,some siteApproved.1,some siteInterrupted.1]⟩ :=
    reaches_exec carefulChoice_allowed second (.createScan 2 _) interrupted rfl
  have crashed : Reaches siteEnv given ⟨siteInterrupted.2,[some siteScanned.1,some siteApproved.1,none]⟩ :=
    third.tail (.crash 2)
  exact reaches_exec carefulChoice_allowed crashed (.reconcile 3 1800 2000 10) recovered rfl

theorem refusedPool_after (given : Assumptions) :
    Relation.ReflTransGen (Moves siteEnv given) recoveredPool refusedPool :=
  Pool.steps_start carefulChoice_allowed (.sanitizePdf 4 _) site_evaluated.2.2.2.2.1

/-! ### Releases -/

/-- In every state of every run a row that is release eligible is releasable, and a row that recovery has
    quarantined is not release eligible then or later. -/
theorem release_safe {pool later : ServicePool} (run : Reaches env unrestricted pool)
    (steps : Relation.ReflTransGen (Moves env unrestricted) pool later) :
    (∀ row ∈ pool.state.scans, row.releaseEligible = true → Releasable row) ∧
    ∀ id, RecoveredEvent pool.state id → ∀ row ∈ later.state.scans, row.id = id → row.releaseEligible = false := by
  constructor
  · intro row member released
    have inv := reaches_inv run
    exact inv.released row.id row (scan_of_mem inv.distinct member) released
  · rintro id ⟨e,listed,recovery⟩ row member rfl
    have inv : Inv env unrestricted later.state := reaches_inv (run.trans steps)
    obtain ⟨row',found,_,unreleased⟩ := inv.recovered row.id ⟨e,events_kept run steps e listed,recovery⟩
    obtain rfl : row = row' := Option.some.inj ((scan_of_mem inv.distinct member).symm.trans found)
    exact unreleased

/-- In the sample run a derived scan is released and an interrupted one recovered. -/
theorem release_safe_recovered : (∃ row ∈ recoveredPool.state.scans, row.releaseEligible = true ∧ Releasable row) ∧
    RecoveredEvent recoveredPool.state (key '3') ∧
    ∀ row ∈ refusedPool.state.scans, row.id = key '3' → row.releaseEligible = false := by
  have safe := release_safe (recoveredPool_reached unrestricted) (refusedPool_after unrestricted)
  obtain ⟨_,_,_,_,_,_,_,_,⟨row,member,eligible⟩,recovered⟩ := site_evaluated
  exact ⟨⟨row,member,eligible,safe.1 row member eligible⟩,recovered,safe.2 (key '3') recovered⟩

/-! ### Approvals -/

/-- An artifact whose approval is exact: it passes the test of its download against its source and its derived scan,
    which was allowed on exactly the bytes that the artifact describes, and one event approves it. -/
structure ExactlyApproved (env : Env) (s : World) (a : ArtifactRow) : Prop where
  lineage : ∃ source derived content, s.scan a.scanId = some source ∧ s.scan a.derivedScanId = some derived ∧
    validLineage a source derived = true ∧ derived.decision = some .ALLOW ∧
    s.history.analysed derived.id = some content ∧ derived.sha256 = env.digest content ∧
    derived.sizeBytes = content.length ∧ a.sha256 = env.digest content ∧ a.sizeBytes = content.length
  event : (s.events.filter (approves a.id)).length = 1

theorem validLineage_decision {a : ArtifactRow} {source derived : ScanRow} (valid : validLineage a source derived = true) :
    derived.decision = some .ALLOW := by
  simp only [validLineage,Bool.and_eq_true,decide_eq_true_eq] at valid
  exact valid.1.1.1.1.1.1.2

/-- Without collisions of the digest every artifact of a run is exactly approved. -/
theorem artifact_exact {s : World} (inv : Inv env distinctKeys s) (injective : Function.Injective env.digest)
    {a : ArtifactRow} (member : a ∈ s.artifacts) : ExactlyApproved env s a := by
  obtain ⟨source,derived,content,sourced,found,_,analysed,digest,size,⟨copy,copied,length⟩,shared,valid⟩ :=
    inv.lineage trivial a member
  have same : copy = content := injective (copied.symm.trans (shared.trans digest))
  subst same
  have lineage := valid (length.trans size.symm)
  refine ⟨⟨source,derived,copy,sourced,found,lineage,validLineage_decision lineage,?_,digest,size,copied,length⟩,
    inv.approvals a member⟩
  rw [scan_id found]
  exact analysed

/-- A sanitization that returns an approval has left an artifact that is exactly approved; one that returns without
    approval has added no artifact, and every approval is of an artifact that another program has added. -/
theorem approval_exact (injective : Function.Injective env.digest) {pool : ServicePool}
    (run : Reaches env distinctKeys pool) {j : Nat} {sourceScanId : Text} {derivedScanId artifactId : Option Text}
    {approved reused : Bool} {failureCode : Option Orchestrator.CdrFailureCode}
    (returned : pool.jobs[j]? =
      some (some (.done (.ok (.cdr sourceScanId derivedScanId artifactId approved reused failureCode))))) :
    (approved = true → ∃ a ∈ pool.state.artifacts, artifactId = some a.id ∧ derivedScanId = some a.derivedScanId ∧
      a.scanId = sourceScanId ∧ ExactlyApproved env pool.state a) ∧
    (approved = false → (∀ a ∈ pool.state.artifacts, pool.state.history.artifactOwner a.id ≠ some j) ∧
      ∀ e ∈ pool.state.events, e.eventType = .CDR_APPROVED →
        ∃ a ∈ pool.state.artifacts, e.artifactId = some a.id ∧ ∃ k ≠ j,
          pool.state.history.artifactOwner a.id = some k) := by
  have good := reaches_good run
  have promised := Pool.good_returned good returned
  constructor
  · rintro rfl
    obtain ⟨a,member,named,source,derived⟩ := promised
    exact ⟨a,member,named,derived,source,artifact_exact good.holds injective member⟩
  · rintro rfl
    have none : NoArtifact j pool.state := promised
    refine ⟨fun a _ => none a.id,fun e member approval => ?_⟩
    obtain ⟨naming,exists'⟩ := good.holds.eventArtifacts e member
    obtain ⟨id,named⟩ := Option.ne_none_iff_exists'.mp (naming approval)
    obtain ⟨a,listed,rfl⟩ := exists' id named
    obtain ⟨k,owned⟩ := good.holds.artifactOwner a listed
    exact ⟨a,listed,named,k,fun same => none a.id (same ▸ owned),owned⟩

/-- In the sample run a sanitization is approved and another one refused. -/
theorem approval_exact_sanitized :
    (∃ a ∈ refusedPool.state.artifacts, a.scanId = key '1' ∧ ExactlyApproved siteEnv refusedPool.state a) ∧
    (∀ a ∈ refusedPool.state.artifacts, refusedPool.state.history.artifactOwner a.id ≠ some 4) ∧
    ∀ e ∈ refusedPool.state.events, e.eventType = .CDR_APPROVED →
      ∃ a ∈ refusedPool.state.artifacts, e.artifactId = some a.id ∧ ∃ k ≠ 4,
        refusedPool.state.history.artifactOwner a.id = some k := by
  have run : Reaches siteEnv distinctKeys refusedPool :=
    (recoveredPool_reached distinctKeys).trans (refusedPool_after distinctKeys)
  obtain ⟨_,_,_,_,_,approval,refusal,_⟩ := site_evaluated
  obtain ⟨derivedScanId,artifactId,reused,failureCode,approved⟩ := reportedApproval_some approval
  obtain ⟨_,_,_,_,refused⟩ := reportedApproval_some refusal
  obtain ⟨a,member,_,_,source,exact'⟩ := (approval_exact (j := 1) registryDigest_injective run
    (congrArg (fun p => some (some p)) approved)).1 rfl
  exact ⟨⟨a,member,source,exact'⟩,(approval_exact (j := 4) registryDigest_injective run
    (congrArg (fun p => some (some p)) refused)).2 rfl⟩

/-! ### Objects -/

/-- Unless a transaction fails after the registration of a CDR candidate, every row has its stored file. -/
theorem objects_kept {pool : ServicePool} (run : Reaches env carefulRun pool) :
    ∀ row ∈ pool.state.scans, HasObject env pool.state row := by
  intro row member
  have inv := reaches_inv run
  exact inv.objects trivial trivial row.id row (scan_of_mem inv.distinct member)

/-- The sample run leaves an uploaded, a derived and a recovered scan. -/
theorem objects_kept_sanitized : recoveredPool.state.scans.length = 3 ∧
    ∀ row ∈ recoveredPool.state.scans, HasObject siteEnv recoveredPool.state row :=
  ⟨site_evaluated.2.2.2.2.2.2.2.1,objects_kept (recoveredPool_reached carefulRun)⟩

/-- The scan of the candidate is registered and cannot be marked. -/
def lostChoices : List Choice :=
  [{},{},{},{},{},{},{ name := key 'w' },
   { rendering := some (.ended false false 0 (.ok rendered)), output := [1,2,3,4,5] },{},{},
   { name := key 'b' },{ name := key '2' },{ fault := .fails },{},{},{}]

/-- The sanitization of the uploaded PDF under these choices. -/
def lost : Program Response × World := Prog.exec lostChoices (sanitizePdf sampleEnv 1 (key '1')) uploaded.2

def lostPool : ServicePool := ⟨lost.2,[some uploaded.1,some lost.1]⟩

theorem lost_evaluated :
    Prog.follows distinctChoice lostChoices (sanitizePdf sampleEnv 1 (key '1')) uploaded.2 = true ∧
      lostPool.jobs.all (fun job => (job.bind Prog.returned).isSome) = true ∧
      (lostPool.state.scan (key '2')).map (·.storageKey) = some (key 'b') ∧
      lostPool.state.quarantine (key 'b') = none := by
  decide +kernel

/-- After that run of two requests, which have both returned, a row has lost its stored file. -/
theorem objects_lost : Reaches sampleEnv distinctKeys lostPool ∧
    lostPool.jobs.all (fun job => (job.bind Prog.returned).isSome) = true ∧
    ∃ row ∈ lostPool.state.scans, ¬HasObject sampleEnv lostPool.state row := by
  obtain ⟨may,returned,found,removed⟩ := lost_evaluated
  have run : Reaches sampleEnv distinctKeys lostPool :=
    reaches_exec distinctChoice_allowed (uploaded_reached distinctKeys) (.sanitizePdf 1 _) may rfl
  refine ⟨run,returned,?_⟩
  obtain ⟨row,looked,stored⟩ := Option.map_eq_some_iff.mp found
  refine ⟨row,scan_mem looked,?_⟩
  rintro ⟨content,file,_⟩
  rw [stored,removed] at file
  cases file

end DocGuard.Service
