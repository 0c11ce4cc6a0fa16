import DocGuard.Service

/-!
What the runs of the service do to scans that are settled and to the sanitized
files: a second invariant, proved over the first one. A row that its own final
transaction has settled never changes again, every artifact has a source that
passed the gate, and the file of every artifact stays where it is.
-/
namespace DocGuard.Sources
open DocGuard.Domain DocGuard.Engine DocGuard.Programs DocGuard.Programs.Prog DocGuard.Database DocGuard.ScanService
open DocGuard.Recovery DocGuard.Cdr DocGuard.Finalization DocGuard.Lifecycle DocGuard.Registration

/-! ### Settled rows -/

/-- Recovery has quarantined the row, and its final transaction has not run since. -/
def Recovered (row : ScanRow) : Prop :=
  row.workerStatus = .finished .FAILED ∧ row.analysisErrorCode = some (lit "recovery_stale_analysis")

/-- The own final transaction of the row has settled it. -/
structure Final (row : ScanRow) : Prop where
  settled : Settled row
  own : ¬Recovered row

/-- What the gate of a sanitization requires of the columns of its source. -/
structure Remediable (env : Env) (row : ScanRow) : Prop where
  detectedType : row.detectedType = some (lit "PDF")
  workerStatus : row.workerStatus = .finished .SUCCESS
  settled : Settled row
  evaluation : ∃ e, policyEvaluation row = some e ∧ e.analysisComplete = true ∧ e.hardBlockReasons = []
  renderable : ∀ f ∈ row.findings, f.code ∉ [lit "PDF_PARTIAL_ANALYSIS",lit "PDF_MALFORMED",lit "PDF_ENCRYPTED"]
  decision : row.decision = some .REVIEW ∨ row.decision = some .QUARANTINE
  pages : ∃ n, pdfPageCount row.analysisMetadata = some n ∧ 1 ≤ n ∧ n ≤ env.maxPages

theorem Remediable.final {env : Env} {row : ScanRow} (remediable : Remediable env row) : Final row := by
  refine ⟨remediable.settled,?_⟩
  rintro ⟨failed,_⟩
  rw [remediable.workerStatus] at failed
  cases failed

theorem quarantineRow_open (row : ScanRow) (now updated : Int) : ¬Final (quarantineRow row now updated) :=
  fun final => final.own ⟨rfl,rfl⟩

theorem unsettled_open {row : ScanRow} (state : row.state = .STORED ∨ row.state = .ANALYZING) : ¬Final row := by
  intro final
  rcases final.settled with settled | settled <;> simp [settled] at state

private theorem ite_nil {c : Prop} [Decidable c] {text : Text} (none : (if c then [] else [text]) = []) : c := by
  by_contra fails
  simp [fails] at none

private theorem ite_nil_not {c : Prop} [Decidable c] {text : Text} (none : (if c then [text] else []) = []) : ¬c := by
  intro holds
  simp [holds] at none

/-- Without a reason code the scan has what the gate requires. -/
theorem eligible_remediable {env : Env} {scan : ScanRow} {integrity : Bool}
    (eligible : eligibilityReasons env scan integrity = []) : Remediable env scan := by
  have none : ∀ reasons : List Text, Ordered.sortedSet reasons = [] → reasons = [] := by
    refine fun reasons nothing => List.eq_nil_iff_forall_not_mem.mpr fun code member => ?_
    simpa [nothing] using Ordered.mem_sortedSet.mpr member
  have all := none _ eligible
  simp only [List.append_eq_nil_iff] at all
  obtain ⟨⟨⟨⟨⟨⟨⟨type,success⟩,complete⟩,renderable⟩,decision⟩,unblocked⟩,pages⟩,_⟩ := all
  obtain ⟨e,stored,analysed⟩ := (Option.any_eq_true _ _).mp (ite_nil complete)
  obtain ⟨n,counted,range⟩ := (Option.any_eq_true _ _).mp (ite_nil pages)
  refine ⟨ite_nil type,(ite_nil success).1,(ite_nil success).2,⟨e,stored,analysed,?_⟩,?_,ite_nil decision,
    n,counted,by simpa using range⟩
  · have free := ite_nil_not unblocked
    simp only [stored,Option.any_some,decide_eq_true_eq,not_or,not_not] at free
    exact free.2
  · intro f member listed
    refine ite_nil_not renderable (List.any_eq_true.mpr ⟨f.code,List.mem_map_of_mem member,?_⟩)
    simpa using listed

/-! ### The invariant -/

/-- The scan is there and passed the gate. -/
def Gated (env : Env) (s : World) (id : Text) : Prop := ∃ row, s.scan id = some row ∧ Remediable env row

/-- The sanitized file of an artifact: its bytes are the ones that the row describes, and the program that added
    the row has stored it. -/
structure HasFile (env : Env) (s : World) (a : ArtifactRow) : Prop where
  file : ∃ content, s.sanitized a.storageKey = some content ∧ env.digest content = a.sha256 ∧
    content.length = a.sizeBytes ∧ content.length ≤ env.cdrMaxOutputBytes
  key : hex32 a.storageKey = true
  owner : s.history.fileOwner a.storageKey = s.history.artifactOwner a.id

/-- The invariant of the sources and of the sanitized files. -/
structure Grounded (env : Env) (given : Assumptions) (s : World) : Prop where
  sources : ∀ a ∈ s.artifacts, Gated env s a.scanId
  fingerprint : ∀ a ∈ s.artifacts, a.sanitizerFingerprint = env.sanitizerFingerprint
  single : (s.artifacts.map fun a => (a.scanId,a.sanitizerFingerprint)).Nodup
  files : given.keys → ∀ a ∈ s.artifacts, HasFile env s a
  owned : given.keys → ∀ key, s.sanitized key ≠ none → ∃ j, s.history.fileOwner key = some j

/-- What the others leave: rows that are final, and the sanitized files of program `j`. -/
structure Leaves (given : Assumptions) (j : Nat) (s s' : World) : Prop where
  final : ∀ id row, s.scan id = some row → Final row → s'.scan id = some row
  sanitized : given.keys → ∀ key, s.history.fileOwner key = some j → s'.sanitized key = s.sanitized key

variable {env : Env} {given : Assumptions} {j : Nat} {s s' : World} {α : Type}

theorem Leaves.refl (given : Assumptions) (j : Nat) (s : World) : Leaves given j s s :=
  ⟨fun _ _ found _ => found,fun _ _ _ => rfl⟩

theorem grounded_empty (env : Env) (given : Assumptions) : Grounded env given {} where
  sources _ member := by cases member
  fingerprint _ member := by cases member
  single := List.nodup_nil
  files _ _ member := by cases member
  owned _ _ stored := absurd rfl stored

/-- A step that keeps final rows, the artifacts and the sanitized files. -/
structure Advances (given : Assumptions) (s s' : World) : Prop where
  final : ∀ id row, s.scan id = some row → Final row → s'.scan id = some row
  artifacts : s'.artifacts = s.artifacts
  sanitized : s'.sanitized = s.sanitized
  owner : given.keys → ∀ key, s.sanitized key ≠ none → s'.history.fileOwner key = s.history.fileOwner key
  artifactOwner : s'.history.artifactOwner = s.history.artifactOwner

theorem Advances.leaves (advances : Advances given s s') (k : Nat) : Leaves given k s s' :=
  ⟨advances.final,fun _ _ _ => congrFun advances.sanitized _⟩

theorem Gated.kept {id : Text} (gated : Gated env s id)
    (final : ∀ id row, s.scan id = some row → Final row → s'.scan id = some row) : Gated env s' id := by
  obtain ⟨row,found,remediable⟩ := gated
  exact ⟨row,final id row found remediable.final,remediable⟩

theorem Advances.grounded (advances : Advances given s s') (grounded : Grounded env given s) :
    Grounded env given s' where
  sources a member := (grounded.sources a (advances.artifacts ▸ member)).kept advances.final
  fingerprint a member := grounded.fingerprint a (advances.artifacts ▸ member)
  single := by
    rw [advances.artifacts]
    exact grounded.single
  files keys a member := by
    have held := grounded.files keys a (advances.artifacts ▸ member)
    obtain ⟨content,file,rest⟩ := held.file
    refine ⟨⟨content,by rw [advances.sanitized,file],rest⟩,held.key,?_⟩
    rw [advances.owner keys _ (by simp [file]),advances.artifactOwner,held.owner]
  owned keys key stored := by
    rw [advances.sanitized] at stored
    rw [advances.owner keys key stored]
    exact grounded.owned keys key stored

/-- A step that leaves the rows, the artifacts, the sanitized files and their owners. -/
theorem advances_of_same (scans : s'.scans = s.scans) (artifacts : s'.artifacts = s.artifacts)
    (sanitized : s'.sanitized = s.sanitized) (fileOwner : s'.history.fileOwner = s.history.fileOwner)
    (artifactOwner : s'.history.artifactOwner = s.history.artifactOwner) : Advances given s s' := by
  refine ⟨fun id row found _ => ?_,artifacts,sanitized,fun _ _ _ => by rw [fileOwner],artifactOwner⟩
  rw [World.scan,scans]
  exact found

theorem Advances.refl (s : World) : Advances given s s := advances_of_same rfl rfl rfl rfl rfl

theorem Advances.trans {a b c : World} (first : Advances given a b) (second : Advances given b c) :
    Advances given a c where
  final id row found final := second.final id row (first.final id row found final) final
  artifacts := second.artifacts.trans first.artifacts
  sanitized := second.sanitized.trans first.sanitized
  owner keys key stored :=
    (second.owner keys key (first.sanitized ▸ stored)).trans (first.owner keys key stored)
  artifactOwner := second.artifactOwner.trans first.artifactOwner

theorem advances_addEvent (s : World) (e : AuditEvent) : Advances given s (s.addEvent e) :=
  advances_of_same rfl rfl rfl rfl rfl

theorem advances_addScan {me : Nat} {row : ScanRow} (unused : s.scan row.id = none) :
    Advances given s (s.addScan me row) := by
  refine ⟨fun id r found _ => ?_,rfl,rfl,fun _ _ _ => rfl,rfl⟩
  have other : id ≠ row.id := by
    rintro rfl
    rw [unused] at found
    cases found
  rw [scan_addScan me unused,if_neg other,found]

/-- A row that is not final may be replaced. -/
theorem advances_putScan {row row' : ScanRow} (found : s.scan row'.id = some row) (unsettled : ¬Final row) :
    Advances given s (s.putScan row') := by
  refine ⟨fun id r looked final => ?_,rfl,rfl,fun _ _ _ => rfl,rfl⟩
  have other : id ≠ row'.id := by
    rintro rfl
    rw [found] at looked
    cases looked
    exact unsettled final
  rw [scan_putScan,if_neg other,looked]

/-- A new quarantined file, whose key no sanitized file has. -/
theorem advances_addFile {me : Nat} {key : Text} {content : Bytes} (grounded : Grounded env given s)
    (fresh : given.keys → s.history.fileOwner key = none) : Advances given s (addFile me s .quarantine key content) := by
  refine ⟨fun _ _ found _ => found,rfl,rfl,fun keys other stored => ?_,rfl⟩
  refine Function.update_of_ne ?_ _ _
  rintro rfl
  obtain ⟨k,owner⟩ := grounded.owned keys other stored
  rw [fresh keys] at owner
  cases owner

theorem advances_removeFile (s : World) (key : Text) : Advances given s (setFile s .quarantine key none) :=
  advances_of_same rfl rfl rfl rfl rfl

/-! ### Programs under the second invariant -/

/-- The choices of the environment, whose storage keys are identifiers. -/
def Assigned (given : Assumptions) (label : Label) (s : World) (i : Choice) : Prop :=
  Allowed given label s i ∧ (given.keys → label = .storing → hex32 i.name = true) ∧
  (given.unlinks → (label = .storing → i.fault ≠ .cleanupFails) ∧ (label = .removing → i.fault = .none))

/-- The program keeps the second invariant as program `j` of a run that keeps the first one. -/
abbrev Grounds (env : Env) (given : Assumptions) (j : Nat) {α : Type} (post : Except Exn α → World → Prop)
    (p : Program α) (s : World) : Prop :=
  Safe (fun label s i => Assigned given label s i ∧ Inv env given s) (Grounded env given)
    (fun a b => Keeps given j a b ∧ Leaves given j a b) (Guarantee (Leaves given) j) post p s

/-- What holds before the others have acted holds after it. -/
def Stays (given : Assumptions) (j : Nat) (P : World → Prop) : Prop :=
  ∀ a b, P a → Keeps given j a b → Leaves given j a b → P b

/-- What neither the others nor the own steps that advance the state can end. -/
structure Durable (env : Env) (given : Assumptions) (j : Nat) (P : World → Prop) : Prop where
  others : Stays given j P
  own : ∀ a b, Grounded env given a → P a → Advances given a b → P b

theorem Stays.and {P Q : World → Prop} (left : Stays given j P) (right : Stays given j Q) :
    Stays given j (fun s => P s ∧ Q s) :=
  fun a b holds keeps leaves => ⟨left a b holds.1 keeps leaves,right a b holds.2 keeps leaves⟩

theorem Durable.and {P Q : World → Prop} (left : Durable env given j P) (right : Durable env given j Q) :
    Durable env given j (fun s => P s ∧ Q s) :=
  ⟨left.others.and right.others,fun a b grounded holds advances =>
    ⟨left.own a b grounded holds.1 advances,right.own a b grounded holds.2 advances⟩⟩

theorem stays_true : Stays given j (fun _ => True) := fun _ _ _ _ _ => trivial

theorem durable_true : Durable env given j (fun _ => True) := ⟨stays_true,fun _ _ _ _ _ => trivial⟩

/-- A step that advances the state keeps what is durable; what it makes of a property of the own scan is said apart. -/
theorem advancing_grounds {label : Label} {step : Step α} {P O : World → Prop} {Q : Except Exn α → World → Prop}
    (durable : Durable env given j P) (stays : Stays given j O) (holds : P s) (owns : O s)
    (each : ∀ w i, Inv env given w → Grounded env given w → P w → O w → Assigned given label w i →
      Advances given w (step w i).2 ∧ Q (step w i).1 (step w i).2) :
    Grounds env given j (fun result s' => P s' ∧ Q result s') (.atomically label step) s := by
  refine safe_atomically fun s' others grounded i may => ?_
  have now := durable.others s s' holds others.1 others.2
  obtain ⟨advances,reached⟩ := each s' i may.2 grounded now (stays s s' owns others.1 others.2) may.1
  exact ⟨advances.grounded grounded,fun k _ => advances.leaves k,durable.own s' _ grounded now advances,reached⟩

theorem advance_grounds {label : Label} {step : Step α} {P : World → Prop} (durable : Durable env given j P) (holds : P s)
    (each : ∀ w i, Grounded env given w → Assigned given label w i → Advances given w (step w i).2) :
    Grounds env given j (fun _ s' => P s') (.atomically label step) s :=
  safe_mono (advancing_grounds (Q := fun _ _ => True) durable stays_true holds trivial
    fun w i _ grounded _ _ may => ⟨each w i grounded may,trivial⟩) fun _ _ reached => reached.1

theorem advances_transaction {body : World → Choice → Except Exn (α × World)} {w : World} {i : Choice}
    (commits : ∀ a w', body w i = .ok (a,w') → Advances given w w') : Advances given w (transaction body w i).2 := by
  cases ended : transaction body w i with
  | mk result w' =>
  rcases transaction_cases ended with ⟨a,_,committed⟩ | ⟨rfl,_⟩
  · exact commits a w' committed
  · exact .refl _

theorem auditAppend_grounds {e : AuditEvent} {P : World → Prop} (durable : Durable env given j P) (holds : P s) :
    Grounds env given j (fun _ s' => P s') (auditAppend e) s := by
  refine advance_grounds durable holds fun w i _ _ => advances_transaction fun _ w' committed => ?_
  cases added : addToTransaction w e with
  | error e => simp [added,Except.map] at committed
  | ok w'' =>
    simp only [added,Except.map,Except.ok.injEq,Prod.mk.injEq,true_and] at committed
    subst committed
    obtain ⟨details,rfl⟩ := addToTransaction_added added
    exact advances_addEvent w _

theorem getScan_grounds {label : Label} {id : Text} {P : World → Prop} (durable : Durable env given j P) (holds : P s) :
    Grounds env given j (fun result s' => P s' ∧ ∀ row, result = .ok row → s'.scan id = some row)
      (getScan label id) s := by
  refine advancing_grounds (O := fun _ => True) durable stays_true holds trivial fun w i _ _ _ _ _ => ?_
  simp only [raising,transaction]
  split
  · cases found : w.scan id with
    | none => exact ⟨.refl _,fun row impossible => by simp [Except.mapError,Exn.isSQLAlchemyError] at impossible⟩
    | some row =>
      refine ⟨.refl _,?_⟩
      rintro row' same
      simp only [Except.mapError,Except.ok.injEq] at same
      rw [← same,found]
  · exact ⟨.refl _,fun row impossible => by simp [Except.mapError] at impossible⟩

/-! ### Registration -/

/-- The program has a scan of its own whose final transaction has not run. -/
def Open (j : Nat) (id : Text) (s : World) : Prop :=
  s.history.scanOwner id = some j ∧ ∃ row, s.scan id = some row ∧ ¬Final row

theorem open_stays (j : Nat) (id : Text) : Stays given j (Open j id) := by
  rintro a b ⟨owned,row,found,unsettled⟩ keeps _
  refine ⟨(keeps.scanOwner id).mpr owned,?_⟩
  rcases keeps.scans id owned with same | ⟨row',now,updated,_,_,recovered⟩
  · exact ⟨row,same.trans found,unsettled⟩
  · exact ⟨_,recovered,quarantineRow_open row' now updated⟩

theorem insertScan_grounds {request : ScanRequest} {P : World → Prop} (durable : Durable env given j P) (holds : P s) :
    Grounds env given j (fun result s' => P s' ∧ ∀ id, result = .ok id → Open j id s')
      (.atomically .step (insertScan env j request)) s := by
  refine advancing_grounds (O := fun _ => True) durable stays_true holds trivial fun w i _ _ _ _ _ => ?_
  cases ended : insertScan env j request w i with
  | mk result w' =>
  rcases transaction_cases ended with ⟨id,rfl,committed⟩ | ⟨rfl,e,rfl,_⟩
  · dsimp only at committed
    split at committed
    · cases committed
    · rename_i valid
      cases committed
      simp only [violatesScan,Bool.or_eq_true,List.any_eq_true,not_or,not_exists,not_and,beq_iff_eq] at valid
      have unused : w.scan (newScan env request i.name i.now).id = none := by
        rw [World.scan,List.find?_eq_none]
        intro r member same
        exact (valid.1 r member).1 (by simpa using same)
      refine ⟨advances_addScan unused,?_⟩
      rintro id same
      obtain rfl := Except.ok.inj same
      refine ⟨by simp [World.addScan],newScan env request i.name i.now,?_,unsettled_open (.inl rfl)⟩
      rw [scan_addScan j unused,if_pos rfl]
  · exact ⟨.refl _,fun id impossible => by cases impossible⟩

theorem updateScan_grounds {label : Label} {id : Text} {P : World → Prop} {R : ScanRow → Prop}
    {assign : ScanRow → Choice → Except Exn (Unit × ScanRow)} (durable : Durable env given j P) (holds : P s)
    (owns : Open j id s) (assigns : ∀ row row' i, assign row i = .ok ((),row') → row'.id = row.id ∧ R row') :
    Grounds env given j
      (fun result s' => P s' ∧ (result = .ok () → s'.history.scanOwner id = some j ∧ ∃ row, s'.scan id = some row ∧ R row))
      (.atomically label (raising .DatabasePersistenceError (updateScan id assign))) s := by
  refine advancing_grounds durable (open_stays j id) holds owns fun w i _ _ _ owned _ => ?_
  obtain ⟨owner,row,found,unsettled⟩ := owned
  cases ended : updateScan id assign w i with
  | mk result w' =>
  simp only [raising,ended]
  rcases transaction_cases ended with ⟨_,rfl,committed⟩ | ⟨rfl,e,rfl,_⟩
  · simp only [found] at committed
    cases assigned : assign row i with
    | error e => simp [assigned,Except.map] at committed
    | ok pair =>
      obtain ⟨_,row'⟩ := pair
      simp only [assigned,Except.map,Except.ok.injEq,Prod.mk.injEq,true_and] at committed
      subst committed
      obtain ⟨same,reached⟩ := assigns row row' i assigned
      have same : row'.id = id := same.trans (scan_id found)
      refine ⟨advances_putScan (same ▸ found) unsettled,fun _ => ⟨owner,row',?_,reached⟩⟩
      rw [scan_putScan,if_pos same.symm,found]
      rfl
  · exact ⟨.refl _,fun impossible => by cases e <;> simp [Except.mapError] at impossible⟩

theorem analyzeDocument_grounds {document : StoredDocument} {id : Text} {P : World → Prop}
    (durable : Durable env given j P) (holds : P s) (owns : Open j id s) :
    Grounds env given j (fun _ s' => P s' ∧ Open j id s') (analyzeDocument document id) s := by
  refine advancing_grounds durable (open_stays j id) holds owns fun w i _ _ _ owned _ => ?_
  dsimp only
  split <;> exact ⟨advances_of_same rfl rfl rfl rfl rfl,owned⟩

theorem removeQuarantined_grounds {document : StoredDocument} {P : World → Prop} (area : document.area = .quarantine)
    (durable : Durable env given j P) (holds : P s) :
    Grounds env given j (fun _ s' => P s') (removeStoredDocument document) s := by
  refine advance_grounds durable holds fun w i _ _ => ?_
  rw [area]
  split
  · exact advances_removeFile w _
  · exact .refl _

/-- A registration changes no row that is final. -/
theorem registerAndAnalyze_grounds {request : ScanRequest} {P : World → Prop}
    (area : request.document.area = .quarantine) (durable : Durable env given j P) (holds : P s) :
    Grounds env given j (fun _ s' => P s') (registerAndAnalyze env j request) s := by
  refine safe_bind (M := fun result s' => P s' ∧ ∀ id, result = .ok id → Open j id s') ?_ (fun id s₁ stored => ?_)
    (fun _ _ reached => reached.1)
  · refine safe_tryCatch (insertScan_grounds durable holds) (fun _ _ reached => reached) fun e s₁ reached => ?_
    split
    · exact safe_bind (removeQuarantined_grounds area durable reached.1)
        (fun _ _ now => ⟨now,fun _ impossible => by cases impossible⟩)
        (fun _ _ now => ⟨now,fun _ impossible => by cases impossible⟩)
    · exact ⟨reached.1,fun _ impossible => by cases impossible⟩
  refine safe_bind (updateScan_grounds (R := fun row => row.state = .ANALYZING) durable stored.1 (stored.2 id rfl) ?_)
    (fun _ s₂ marked => ?_) (fun _ _ reached => reached.1)
  · rintro row row' i done
    cases done
    exact ⟨rfl,rfl⟩
  obtain ⟨owner,row,found,analyzing⟩ := marked.2 rfl
  refine safe_bind (analyzeDocument_grounds durable marked.1 ⟨owner,row,found,unsettled_open (.inr analyzing)⟩)
    (fun outcome s₃ analysed => ?_) (fun _ _ reached => reached.1)
  refine safe_bind (updateScan_grounds (R := fun _ => True) durable analysed.1 analysed.2 ?_)
    (fun _ s₄ finished => ?_) (fun _ _ reached => reached.1)
  · exact fun row row' i done => ⟨(finalize_same done).id,trivial⟩
  exact safe_mono (getScan_grounds durable finished.1) fun _ _ reached => reached.1

end DocGuard.Sources
