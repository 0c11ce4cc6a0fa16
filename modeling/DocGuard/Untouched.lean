import DocGuard.Downloads

/-!
A sanitization and its source: whatever its own steps change, the row of the scan
that it was asked for is not among it, and the source of an artifact is a scan that
may be remediated.
-/
namespace DocGuard.Untouched
open DocGuard.Domain DocGuard.Orchestrator DocGuard.Programs DocGuard.Programs.Prog DocGuard.Database DocGuard.ScanService DocGuard.Cdr
open DocGuard.Lifecycle DocGuard.Registration DocGuard.Sources DocGuard.Promotions DocGuard.Service DocGuard.Downloads

variable {env : Env} {given : Assumptions} {j : Nat} {s : World} {α β : Type}

/-! ### Steps that keep a row -/

/-- A step keeps the row of a scan, or its absence. -/
def RowKept (id : Text) (a b : World) : Prop := b.scan id = a.scan id

/-- As program `j` of a run of the service, the program keeps the row in each of its own steps. -/
abbrev KeepsScan (env : Env) (given : Assumptions) (j : Nat) (id : Text) (p : Program α) (s : World) : Prop :=
  Safe (fun label s i => Assigned given label s i ∧ Inv env given s) (Grounded env given)
    (fun a b => Keeps given j a b ∧ Leaves given j a b) (RowKept id) (fun _ _ => True) p s

/-- The gate has been passed, and then no program changes the row. -/
theorem gated_keepsScan {id : Text} {post : Except Exn α → World → Prop} {p : Program α}
    (grounds : Grounds env given j post p s) (gated : Gated env s id) : KeepsScan env given j id p s := by
  induction p generalizing s with
  | done result => exact trivial
  | act label update next ih =>
    intro s' others grounded i may
    obtain ⟨kept,within,rest⟩ := grounds s' others grounded i may
    have now : Gated env s' id := gated.kept others.2.final
    have final := (within (j + 1) (by omega)).final
    obtain ⟨row,found,remediable⟩ := now
    have stays := final id row found remediable.final
    exact ⟨kept,stays.trans found.symm,ih s' i rest ⟨row,stays,remediable⟩⟩

/-- Whatever happens, no step of the program changes the rows of scans. -/
abbrev ReadsScans (p : Program α) (s : World) : Prop :=
  Safe (fun _ _ _ => True) (fun _ => True) (fun _ _ => True) (fun a b : World => b.scans = a.scans) (fun _ _ => True) p s

theorem readsScans_atomically {label : Label} {step : Step α} (same : ∀ w i, (step w i).2.scans = w.scans) :
    ReadsScans (Prog.atomically label step : Program α) s :=
  fun w _ _ i _ => ⟨trivial,same w i,trivial⟩

theorem readsScans_bind {p : Program α} {k : α → Program β} (first : ReadsScans p s) (rest : ∀ a t, ReadsScans (k a) t) :
    ReadsScans (p >>= k) s :=
  safe_bind first (fun a t _ => rest a t) fun _ _ _ => trivial

theorem readsScans_auditAppend (e : AuditEvent) : ReadsScans (auditAppend e) s := by
  refine readsScans_atomically fun w i => ?_
  cases ended : transaction (fun w _ => (addToTransaction w e).map fun w' => ((),w')) w i with
  | mk result w' =>
  simp only [raising,ended]
  rcases transaction_cases ended with ⟨_,_,committed⟩ | ⟨rfl,_⟩
  · cases added : addToTransaction w e with
    | error e => simp [added,Except.map] at committed
    | ok w'' =>
      simp only [added,Except.map,Except.ok.injEq,Prod.mk.injEq,true_and] at committed
      subst committed
      obtain ⟨details,rfl⟩ := addToTransaction_added added
      rfl
  · rfl

/-- The gate only reads. -/
theorem readsScans_evaluateCdrEligibility (scanId : Text) : ReadsScans (evaluateCdrEligibility env scanId) s := by
  have built (id : Text) (reasons : List Text) (t : World) : ReadsScans (buildEligibility id reasons) t := by
    unfold buildEligibility
    split <;> exact trivial
  refine safe_resume (readsScans_atomically fun w i => ?_) fun result t _ => ?_
  · simp only [raising,transaction]
    split
    · cases w.scan scanId <;> rfl
    · rfl
  · cases result with
    | error e =>
      cases e with
      | ScanNotFound =>
        exact readsScans_bind (built _ _ t) fun _ _ => readsScans_bind (readsScans_auditAppend _) fun _ _ => trivial
      | _ => exact trivial
    | ok scan =>
      refine readsScans_bind (readsScans_atomically fun _ _ => rfl) fun _ _ => ?_
      exact readsScans_bind (built _ _ _) fun _ _ => readsScans_bind (readsScans_auditAppend _) fun _ _ => trivial

/-- A program that only reads the scans, and what follows it. -/
theorem resume_keepsScan {id : Text} {p : Program α} {k : Except Exn α → Program β}
    {M : Except Exn α → World → Prop} {post : Except Exn β → World → Prop} (reads : ReadsScans p s)
    (first : Grounds env given j M p s) (whole : Grounds env given j post (p.resume k) s)
    (later : ∀ result s', M result s' → Grounds env given j post (k result) s' → KeepsScan env given j id (k result) s') :
    KeepsScan env given j id (p.resume k) s := by
  induction p generalizing s with
  | done result => exact later result s first whole
  | act label update next ih =>
    intro s' others grounded i may
    obtain ⟨kept,_,rest⟩ := first s' others grounded i may
    obtain ⟨_,same,still⟩ := reads s' trivial trivial i trivial
    refine ⟨kept,?_,ih s' i still rest (whole s' others grounded i may).2.2⟩
    show (update s' i).scan id = s'.scan id
    rw [World.scan,World.scan,same]

/-- In none of its steps does a sanitization change the row of its source. -/
theorem sanitizePdf_keepsScan {scanId : Text} (unapproved : NoArtifact j s) (tidy : Tidy given j s) :
    KeepsScan env given j scanId (sanitizePdf env j scanId) s := by
  have ended (sourceScanId : Text) (code : CdrFailureCode) (t : World) :
      KeepsScan env given j scanId (failed sourceScanId code) t := by
    unfold failed serviceResult
    split <;> exact trivial
  refine resume_keepsScan (readsScans_evaluateCdrEligibility scanId)
    (evaluateCdrEligibility_grounds durable_true trivial) (sanitizePdf_grounds unapproved tidy) ?_
  rintro result t ⟨_,gated⟩ grounds
  cases result with
  | error e =>
    cases e with
    | AuditPersistenceError => exact ended scanId _ t
    | _ => exact trivial
  | ok eligibility =>
    by_cases eligible : eligibility.eligible
    · exact gated_keepsScan grounds (gated eligibility rfl eligible)
    · simp only [eligible]
      exact ended scanId _ t

section Rule
variable {σ ι κ ε α : Type} {allowed : κ → σ → ι → Prop} {spawned : Nat → Prog σ ι κ ε α → Prop} {inv : σ → Prop}
  {rely : Nat → σ → σ → Prop} {unused : Nat → σ → Prop} {post : Nat → Except ε α → σ → Prop} {guar : σ → σ → Prop}

/-- What a program guarantees of its own steps when it starts, what is left of it guarantees later. -/
theorem safe_later (family : Compatible allowed spawned inv rely unused post) {a b : Pool σ ι κ ε α} {j : Nat}
    (good : a.Good allowed inv rely unused post) (inside : j < a.jobs.length)
    (own : ∀ p, a.jobs[j]? = some (some p) → Safe allowed inv (rely j) guar (fun _ _ => True) p a.state)
    (steps : Relation.ReflTransGen (Pool.Step allowed spawned) a b) :
    b.Good allowed inv rely unused post ∧ j < b.jobs.length ∧
      ∀ p, b.jobs[j]? = some (some p) → Safe allowed inv (rely j) guar (fun _ _ => True) p b.state := by
  induction steps with
  | refl => exact ⟨good,inside,own⟩
  | tail _ step ih =>
    obtain ⟨reached,within,still⟩ := ih
    refine ⟨Pool.good_step family reached step,?_⟩
    cases step with
    | spawn starts =>
      refine ⟨by simpa using Nat.lt_succ_of_lt within,fun p running => still p ?_⟩
      rwa [List.getElem?_append_left within] at running
    | crash k =>
      refine ⟨by simpa using within,fun p running => still p ?_⟩
      rw [List.getElem?_set] at running
      split at running
      · split at running <;> cases running
      · exact running
    | act k i running may =>
      refine ⟨by simpa using within,fun p other => ?_⟩
      by_cases same : k = j
      · subst same
        rw [List.getElem?_set_self within] at other
        cases other
        exact (still _ running _ (family.refl k _) reached.holds i may).2.2
      · rw [List.getElem?_set_ne same] at other
        have acted := reached.safe k _ running _ (family.refl k _) reached.holds i may
        exact safe_rely (family.trans j) (fun _ _ _ _ _ _ => trivial) (still p other) (acted.2.1 j (Ne.symm same)) acted.1

end Rule

/-! ### What holds of all runs -/

/-- A step of the sanitization of this scan that starts in the pool, whatever happens before it. -/
inductive Sanitizes (env : Env) (given : Assumptions) (pool : SitePool) (scanId : Text) : World → World → Prop where
  | step {later : SitePool} {label : Label} {update : World → Choice → World}
      {next : World → Choice → Program (Response ⊕ Delivery)} {i : Choice}
      (steps : Relation.ReflTransGen (Turns env given)
        ⟨pool.state,pool.jobs ++ [some (sanitization env pool.jobs.length scanId)]⟩ later)
      (running : later.jobs[pool.jobs.length]? = some (some (.act label update next)))
      (may : Assigned given label later.state i) : Sanitizes env given pool scanId later.state (update later.state i)

theorem sanitization_safe {pool : SitePool} (run : Arrives env given pool) (scanId : Text) :
    Safe (Assigned given) (fun s => Inv env given s ∧ Grounded env given s) (Both given pool.jobs.length)
      (RowKept scanId) (fun _ _ => True) (sanitization env pool.jobs.length scanId) pool.state := by
  have good := arrives_good run
  have idle := good.fresh pool.jobs.length le_rfl
  have first : SafeAs env given pool.jobs.length (Promised pool.jobs.length) (sanitizePdf env pool.jobs.length scanId)
      pool.state := (spawned_compatible env given).start _ _ _ (.sanitizePdf _ scanId) good.holds.1 idle.1
  have assigned := safe_weaken first (fun _ _ _ may => (may : Assigned given _ _ _).1) fun _ _ within => within
  have keeps : KeepsScan env given pool.jobs.length scanId (sanitizePdf env pool.jobs.length scanId) pool.state :=
    sanitizePdf_keepsScan idle.1.1 idle.tidy
  exact safe_map (safe_weaken (safe_and assigned keeps) (fun _ _ _ may => may) fun _ _ within => within.2)
    fun _ _ _ => trivial

/-- In every run, no step of a sanitization changes the row of its source. -/
theorem sanitizes_rowKept {pool : SitePool} (run : Arrives env given pool) {scanId : Text} {s s' : World}
    (step : Sanitizes env given pool scanId s s') : RowKept scanId s s' := by
  cases step with
  | @step later label update next i steps running may =>
    have family := serves_compatible env given
    have started := Pool.good_spawn family (arrives_good run) (.service (.sanitizePdf pool.jobs.length scanId))
    have starting (p : Program (Response ⊕ Delivery))
        (there : (pool.jobs ++ [some (sanitization env pool.jobs.length scanId)])[pool.jobs.length]? = some (some p)) :
        Safe (Assigned given) (fun s => Inv env given s ∧ Grounded env given s) (Both given pool.jobs.length)
          (RowKept scanId) (fun _ _ => True) p pool.state := by
      rw [List.getElem?_append_right le_rfl,Nat.sub_self] at there
      cases there
      exact sanitization_safe run scanId
    have inside : pool.jobs.length < (pool.jobs ++ [some (sanitization env pool.jobs.length scanId)]).length := by
      simp
    obtain ⟨reached,_,still⟩ := safe_later family started inside starting steps
    exact (still _ running _ (family.refl _ _) reached.holds i may).2.1

/-- Sanitization launders no source: in no run does a step of a request change the row or the findings of the scan that
    it was asked for, and the source of every artifact is a PDF under review or in quarantine whose analysis is
    complete, without a hard block, and whose findings do not say that it cannot be rendered. -/
theorem sources_unlaundered {pool : SitePool} (run : Arrives env given pool) :
    (∀ scanId s s', Sanitizes env given pool scanId s s' → s'.scan scanId = s.scan scanId) ∧
    ∀ a ∈ pool.state.artifacts, ∃ source ∈ pool.state.scans, source.id = a.scanId ∧
      source.detectedType = some (lit "PDF") ∧ (source.decision = some .REVIEW ∨ source.decision = some .QUARANTINE) ∧
      (∃ e, policyEvaluation source = some e ∧ e.analysisComplete = true ∧ e.hardBlockReasons = []) ∧
      ∀ f ∈ source.findings, f.code ∉ [lit "PDF_ENCRYPTED",lit "PDF_PARTIAL_ANALYSIS",lit "PDF_MALFORMED"] := by
  refine ⟨fun scanId s s' step => sanitizes_rowKept run step,fun a member => ?_⟩
  obtain ⟨source,found,remediable⟩ := (arrives_good run).holds.2.sources a member
  refine ⟨source,scan_mem found,scan_id found,remediable.detectedType,remediable.decision,remediable.evaluation,?_⟩
  intro f listed code
  refine remediable.renderable f listed ?_
  simp only [List.mem_cons,List.not_mem_nil,or_false] at code ⊢
  tauto

/-- A sanitization that goes on without others in between takes such a step. -/
theorem sanitizes_alone {pool : SitePool} {scanId : Text} {choices : List Choice} {i : Choice} {s : World} {label : Label}
    {update : World → Choice → World} {next : World → Choice → Program (Response ⊕ Delivery)}
    (ended : Prog.exec choices (sanitization env pool.jobs.length scanId) pool.state = (.act label update next,s))
    (follows : Prog.follows siteChoice choices (sanitization env pool.jobs.length scanId) pool.state = true)
    (may : siteChoice label s i = true) : Sanitizes env given pool scanId s (update s i) := by
  have running : (pool.jobs ++ [some (sanitization env pool.jobs.length scanId)])[pool.jobs.length]? =
      some (some (sanitization env pool.jobs.length scanId)) := by simp
  have steps : Relation.ReflTransGen (Turns env given) _ _ := Pool.steps_exec siteChoice_assigned running follows
  rw [ended] at steps
  have left : ((pool.jobs ++ [some (sanitization env pool.jobs.length scanId)]).set pool.jobs.length
      (some (.act label update next)))[pool.jobs.length]? = some (some (.act label update next)) :=
    List.getElem?_set_self (by simp)
  exact .step steps left (siteChoice_assigned label s i may)

/-- The sample sanitization before its derived scan is registered, and that step. -/
def siteRendered : Program (Response ⊕ Delivery) × World :=
  Prog.exec (approvalChoices.take 11) (sanitization siteEnv uploadedSite.jobs.length (key '1')) uploadedSite.state

def registering : Choice := { name := key '2' }

theorem rendered_evaluated :
    Prog.follows siteChoice (approvalChoices.take 11) (sanitization siteEnv uploadedSite.jobs.length (key '1'))
        uploadedSite.state = true ∧
      Prog.follows siteChoice [registering] siteRendered.1 siteRendered.2 = true ∧
      (Prog.exec [registering] siteRendered.1 siteRendered.2).2.scans.length = siteRendered.2.scans.length + 1 := by
  decide +kernel

theorem sources_unlaundered_served :
    (∃ s s', Sanitizes siteEnv unrestricted uploadedSite (key '1') s s' ∧ s'.scans.length = s.scans.length + 1 ∧
      s'.scan (key '1') = s.scan (key '1')) ∧
    servedSite.state.artifacts.length = 1 ∧ ∀ a ∈ servedSite.state.artifacts, ∃ source ∈ servedSite.state.scans,
      source.id = a.scanId ∧ (source.decision = some .REVIEW ∨ source.decision = some .QUARANTINE) := by
  obtain ⟨follows,may,longer⟩ := rendered_evaluated
  obtain ⟨_,_,_,_,_,one,_⟩ := Downloads.site_evaluated
  have kept := sources_unlaundered (uploadedSite_arrives unrestricted)
  refine ⟨?_,one,fun a member => ?_⟩
  · cases ended : siteRendered with
    | mk p s =>
    rw [ended] at may longer
    cases p with
    | done result => exact absurd longer (Nat.ne_of_lt (Nat.lt_succ_self _))
    | act label update next =>
      have allowed : siteChoice label s registering = true := by
        simp only [Prog.follows,Bool.and_eq_true] at may
        exact may.1
      have step : Sanitizes siteEnv unrestricted uploadedSite (key '1') s (update s registering) :=
        sanitizes_alone ended follows allowed
      have same := kept.1 _ _ _ step
      have more : (update s registering).scans.length = s.scans.length + 1 := longer
      exact ⟨s,update s registering,step,more,same⟩
  · obtain ⟨source,listed,same,_,decision,_⟩ := (sources_unlaundered (servedSite_arrives unrestricted)).2 a member
    exact ⟨source,listed,same,decision⟩

end DocGuard.Untouched
