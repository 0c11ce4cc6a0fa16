import DocGuard.Downloads

/-!
Sanitizations of the same source by any number of processes: whatever the order of
their steps, one of them adds the artifact and the others withdraw their copies and
report its row, so that no file is left over when all have returned.
-/
namespace DocGuard.Winners
open DocGuard.Domain DocGuard.Orchestrator DocGuard.Programs DocGuard.Programs.Prog DocGuard.Database DocGuard.ScanService
open DocGuard.Cdr DocGuard.Lifecycle DocGuard.Registration DocGuard.Service DocGuard.Sources DocGuard.Promotions
open DocGuard.Downloads

variable {env : Env} {pool : SitePool}

/-- Random storage keys do not repeat, and no removal of a file fails. -/
def unlinking : Assumptions := ⟨True,False,True⟩

/-- Every program has returned or raised; none has crashed. -/
def AllEnded (pool : SitePool) : Prop := ∀ j < pool.jobs.length, ∃ result, pool.jobs[j]? = some (some (.done result))

/-- The program has returned the approval of this artifact for this source. -/
def Approves (pool : SitePool) (j : Nat) (sourceScanId : Text) (derivedScanId artifactId : Option Text) : Prop :=
  ∃ reused failureCode, pool.jobs[j]? =
    some (some (.done (.ok (.inl (.cdr sourceScanId derivedScanId artifactId true reused failureCode)))))

/-- What has ended has left no file that no artifact names. -/
theorem ended_tidy (run : Arrives env unlinking pool) {j : Nat} {result : Except Exn (Response ⊕ Delivery)}
    (ended : pool.jobs[j]? = some (some (.done result))) : Tidy unlinking j pool.state := by
  have outcome := Pool.good_returned (arrives_good run) ended
  cases result with
  | error e => exact outcome trivial
  | ok value =>
    cases value with
    | inr delivery => exact outcome.1
    | inl response =>
      cases response with
      | cdr sourceScanId derivedScanId artifactId approved reused failureCode => exact outcome.2.2 (.inr trivial)
      | _ => exact outcome.2

/-- In every run in which no removal of a file fails, a source has at most one artifact of a sanitizer, every approval
    names it, its file is there, and once all programs have ended there is no other sanitized file. -/
theorem single_winner (run : Arrives env unlinking pool) :
    (∀ a ∈ pool.state.artifacts, ∀ b ∈ pool.state.artifacts,
      a.scanId = b.scanId → a.sanitizerFingerprint = b.sanitizerFingerprint → a = b) ∧
    (∀ j sourceScanId derivedScanId artifactId, Approves pool j sourceScanId derivedScanId artifactId →
      ∃ a ∈ pool.state.artifacts, a.scanId = sourceScanId ∧ a.sanitizerFingerprint = env.sanitizerFingerprint ∧
        artifactId = some a.id ∧ derivedScanId = some a.derivedScanId) ∧
    (∀ a ∈ pool.state.artifacts, HasFile env pool.state a) ∧
    (AllEnded pool → ∀ key, pool.state.sanitized key ≠ none → ∃ a ∈ pool.state.artifacts, a.storageKey = key) := by
  have good := arrives_good run
  obtain ⟨_,grounded⟩ := good.holds
  refine ⟨fun a first b second same fingerprint => ?_,?_,grounded.files trivial,fun ended key stored => ?_⟩
  · exact List.inj_on_of_nodup_map grounded.single first second (Prod.ext same fingerprint)
  · rintro j sourceScanId derivedScanId artifactId ⟨reused,failureCode,approved⟩
    obtain ⟨⟨a,listed,named,source,derivation⟩,_⟩ := Pool.good_returned good approved
    exact ⟨a,listed,source,grounded.fingerprint a listed,named,derivation⟩
  · obtain ⟨j,owner⟩ := grounded.owned trivial key stored
    have inside : j < pool.jobs.length := by
      by_contra beyond
      exact (good.fresh j (not_lt.mp beyond)).2 trivial key owner
    obtain ⟨result,returned⟩ := ended j inside
    exact ended_tidy run returned trivial key stored owner

/-! ### A race -/

/-- The choices of a sanitization whose scan, files and artifact are named otherwise than those of the sample. -/
def rivalChoices : List Choice :=
  [{},{},{},{},{},{},{ name := key 'f' },
   { rendering := some (.ended false false 0 (.ok rendered)), output := [1,2,3,4,5] },{},{},
   { name := key '7' },{ name := key '4' },{},{ execution := some (.ended false false 0 (.ok plainPdf)) },{},{},{},{},
   { name := key '5' },{ name := key '6' },{}]

/-- The insertion of its artifact, the removal of its copy, the look-up and the verification of the other artifact, and
    the removal of its output. -/
def loserChoices : List Choice := [{ name := key 'd' },{},{},{},{}]

instance : DecidableEq (Text × Option Text × Option Text × Bool × Option CdrFailureCode) := inferInstance

/-- A sanitization that starts at a pool and goes on without others in between. -/
def sanitizing (pool : SitePool) (scanId : Text) (choices : List Choice) : Program (Response ⊕ Delivery) × World :=
  Prog.exec choices (sanitization siteEnv pool.jobs.length scanId) pool.state

def started (pool : SitePool) (reached : Program (Response ⊕ Delivery) × World) : SitePool :=
  ⟨reached.2,pool.jobs ++ [some reached.1]⟩

/-- A program of a pool that goes on without others in between. -/
def resumed (pool : SitePool) (j : Nat) (reached : Program (Response ⊕ Delivery) × World) : SitePool :=
  ⟨reached.2,pool.jobs.set j (some reached.1)⟩

theorem started_arrives {given : Assumptions} {scanId : Text} {choices : List Choice} (run : Arrives siteEnv given pool)
    (may : Prog.follows siteChoice choices (sanitization siteEnv pool.jobs.length scanId) pool.state = true) :
    Arrives siteEnv given (started pool (sanitizing pool scanId choices)) :=
  run.trans (Pool.steps_start siteChoice_assigned (.service (.sanitizePdf pool.jobs.length scanId)) may)

theorem resumed_arrives {given : Assumptions} {j : Nat} {p : Program (Response ⊕ Delivery)} {choices : List Choice}
    (run : Arrives siteEnv given pool) (running : pool.jobs[j]? = some (some p))
    (may : Prog.follows siteChoice choices p pool.state = true) :
    Arrives siteEnv given (resumed pool j (Prog.exec choices p pool.state)) :=
  run.trans (Pool.steps_exec siteChoice_assigned running may)

/-- A sanitization up to its copy, all of another one of the same source, and the rest of the first. -/
def copied : Program (Response ⊕ Delivery) × World := sanitizing uploadedSite (key '1') (approvalChoices.take 19)

def copiedSite : SitePool := started uploadedSite copied

def won : Program (Response ⊕ Delivery) × World := sanitizing copiedSite (key '1') rivalChoices

def wonSite : SitePool := started copiedSite won

def lost : Program (Response ⊕ Delivery) × World := Prog.exec loserChoices copied.1 wonSite.state

def racedSite : SitePool := resumed wonSite 1 lost

/-- Every step is one of the site's. The copy of the loser is withdrawn, and both report the artifact of the winner. -/
theorem race_evaluated :
    (Prog.follows siteChoice (approvalChoices.take 19) (sanitization siteEnv uploadedSite.jobs.length (key '1'))
        uploadedSite.state = true ∧
      Prog.follows siteChoice rivalChoices (sanitization siteEnv copiedSite.jobs.length (key '1')) copiedSite.state = true ∧
      Prog.follows siteChoice loserChoices copied.1 wonSite.state = true) ∧
    (Prog.returned siteUploaded.1).isSome = true ∧
    approval lost.1 = some (key '1',some (key '4'),some (key '6'),true,none) ∧
    approval won.1 = some (key '1',some (key '4'),some (key '6'),false,none) ∧
    (copied.2.sanitized (key 'c')).isSome = true ∧ (lost.2.sanitized (key 'c')).isSome = false := by
  decide +kernel

theorem racedSite_arrives (given : Assumptions) : Arrives siteEnv given racedSite := by
  obtain ⟨⟨copies,wins,loses⟩,_⟩ := race_evaluated
  have first : Arrives siteEnv given copiedSite := started_arrives (uploadedSite_arrives given) copies
  have second : Arrives siteEnv given wonSite := started_arrives first wins
  have running : wonSite.jobs[1]? = some (some copied.1) := by simp [wonSite,copiedSite,started,uploadedSite]
  exact resumed_arrives second running loses

theorem uploadedSite_ended : ∃ result, uploadedSite.jobs[0]? = some (some (.done result)) := by
  cases first : siteUploaded.1 with
  | done result => exact ⟨result,congrArg (fun p => some (some p)) first⟩
  | act label update next =>
    have returned := race_evaluated.2.1
    rw [first] at returned
    cases returned

theorem single_winner_raced :
    (∃ a ∈ racedSite.state.artifacts, Approves racedSite 1 (key '1') (some a.derivedScanId) (some a.id) ∧
      Approves racedSite 2 (key '1') (some a.derivedScanId) (some a.id)) ∧
    ∀ key, racedSite.state.sanitized key ≠ none → ∃ a ∈ racedSite.state.artifacts, a.storageKey = key := by
  obtain ⟨_,_,loses,wins,_⟩ := race_evaluated
  obtain ⟨_,approvals,_,left⟩ := single_winner (racedSite_arrives unlinking)
  have loser : Approves racedSite 1 (key '1') (some (key '4')) (some (key '6')) :=
    ⟨true,none,congrArg (fun p => some (some p)) (approval_some loses)⟩
  have winner : Approves racedSite 2 (key '1') (some (key '4')) (some (key '6')) :=
    ⟨false,none,congrArg (fun p => some (some p)) (approval_some wins)⟩
  have ended : AllEnded racedSite := by
    intro j inside
    match j,inside with
    | 0,_ => exact uploadedSite_ended
    | 1,_ =>
      obtain ⟨_,_,there⟩ := loser
      exact ⟨_,there⟩
    | 2,_ =>
      obtain ⟨_,_,there⟩ := winner
      exact ⟨_,there⟩
  obtain ⟨a,listed,_,_,named,derived⟩ := approvals 1 _ _ _ loser
  rw [named,derived] at loser winner
  exact ⟨⟨a,listed,loser,winner⟩,left ended⟩

end DocGuard.Winners
