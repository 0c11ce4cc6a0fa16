import DocGuard.Sources

/-!
The programs of the service under the second invariant. A sanitization goes on
from its gate with a source that stays as the gate has seen it; the copy that it
promotes either becomes the file of an artifact or is removed, unless the removal
itself fails, which its exit reports.
-/
namespace DocGuard.Promotions
open DocGuard.Domain DocGuard.Orchestrator DocGuard.Programs DocGuard.Programs.Prog DocGuard.Database
open DocGuard.ScanService DocGuard.Recovery DocGuard.Cdr DocGuard.Finalization DocGuard.Lifecycle DocGuard.Registration
open DocGuard.Approval DocGuard.Sources

variable {env : Env} {given : Assumptions} {j : Nat} {s : World} {α : Type}

/-! ### The files of a program -/

/-- Every sanitized file of the program is the file of an artifact. -/
def Tidy (given : Assumptions) (j : Nat) (s : World) : Prop :=
  given.keys → ∀ key, s.sanitized key ≠ none → s.history.fileOwner key = some j → ∃ a ∈ s.artifacts, a.storageKey = key

theorem tidy_durable : Durable env given j (Tidy given j) where
  others a b tidy keeps leaves keys key stored owner := by
    have owned := (keeps.fileOwner keys key).mp owner
    rw [leaves.sanitized keys key owned] at stored
    obtain ⟨artifact,member,same⟩ := tidy keys key stored owned
    exact ⟨artifact,keeps.artifacts artifact member,same⟩
  own a b _ tidy advances keys key stored owner := by
    rw [advances.sanitized] at stored
    rw [advances.owner keys key stored] at owner
    rw [advances.artifacts]
    exact tidy keys key stored owner

theorem noArtifact_durable : Durable env given j (NoArtifact j) where
  others a b none keeps _ := noArtifact_stable j a b none keeps
  own a b _ none advances id := by
    rw [advances.artifactOwner]
    exact none id

theorem gated_durable (id : Text) : Durable env given j (fun s => Gated env s id) where
  others _ _ gated _ leaves := gated.kept leaves.final
  own _ _ _ gated advances := gated.kept advances.final

/-- How a program leaves its files: they are tidy unless a removal has failed and it ends in an error that nothing
    handles or reports a failure of the storage, and the identifiers of its report are checked. -/
def Ended (given : Assumptions) (j : Nat) : Except Exn Response → World → Prop
  | .ok (.cdr sourceScanId derivedScanId artifactId _ _ failureCode),s =>
    (hex32 sourceScanId = true ∧ derivedScanId.all hex32 = true ∧ artifactId.all hex32 = true) ∧
      (failureCode ≠ some .STORAGE_FAILURE ∨ given.unlinks → Tidy given j s)
  | .ok _,s => Tidy given j s
  | .error e,s => e = .AuditPersistenceError ∨ given.unlinks → Tidy given j s

theorem ended_durable (result : Except Exn Response) : Durable env given j (Ended given j result) := by
  have tidy : Durable env given j (Tidy given j) := tidy_durable
  cases result with
  | error e => exact ⟨fun a b ended keeps leaves audit => tidy.others a b (ended audit) keeps leaves,
      fun a b grounded ended advances audit => tidy.own a b grounded (ended audit) advances⟩
  | ok response =>
    cases response with
    | cdr sourceScanId derivedScanId artifactId approved reused failureCode =>
      exact ⟨fun a b ended keeps leaves => ⟨ended.1,fun other => tidy.others a b (ended.2 other) keeps leaves⟩,
        fun a b grounded ended advances => ⟨ended.1,fun other => tidy.own a b grounded (ended.2 other) advances⟩⟩
    | _ => exact tidy

/-! ### Uploads and recoveries -/

theorem streamDocument_grounds {body : Bytes} {disconnects : Bool} {P : World → Prop} (durable : Durable env given j P)
    (holds : P s) :
    Grounds env given j (fun result s' => P s' ∧ ∀ document, result = .ok document → document.area = .quarantine)
      (streamDocumentToQuarantine env j body disconnects) s := by
  refine advancing_grounds durable stays_true holds trivial fun w i _ grounded _ _ may => ?_
  have stored : Advances given w (addFile j w .quarantine i.name body) :=
    advances_addFile grounded (fun keys => may.1.1 keys rfl)
  split_ifs
  · exact ⟨.refl w,fun _ impossible => by cases impossible⟩
  · exact ⟨.refl w,fun _ impossible => by cases impossible⟩
  · exact ⟨.refl w,fun _ impossible => by cases impossible⟩
  · cases i.fault with
    | none => exact ⟨stored,fun document same => by cases same; rfl⟩
    | fails => exact ⟨.refl w,fun _ impossible => by cases impossible⟩
    | cleanupFails => exact ⟨stored,fun _ impossible => by cases impossible⟩

theorem createScan_grounds {upload : Upload} (tidy : Tidy given j s) :
    Grounds env given j (Ended given j) (createScan env j upload) s := by
  have durable : Durable env given j (Tidy given j) := tidy_durable
  refine safe_resume (streamDocument_grounds durable tidy) fun result s₁ streamed => ?_
  cases result with
  | error e => cases e <;> first | exact streamed.1 | exact fun _ => streamed.1
  | ok document =>
    refine safe_bind (registerAndAnalyze_grounds (streamed.2 document rfl) durable streamed.1) (fun row s₂ now => ?_)
      (fun _ _ now _ => now)
    exact safe_bind (auditAppend_grounds durable now) (fun _ _ now => now) (fun _ _ now _ => now)

theorem quarantineStaleScan_grounds {id : Text} {cutoff now : Int} {P : World → Prop} (durable : Durable env given j P)
    (holds : P s) : Grounds env given j (fun _ s' => P s') (.atomically .step (quarantineStaleScan id cutoff now)) s := by
  refine advance_grounds durable holds fun w i _ _ => advances_transaction fun _ w' committed => ?_
  cases found : w.scan id with
  | none =>
    simp only [found,Except.ok.injEq,Prod.mk.injEq] at committed
    exact committed.2 ▸ .refl w
  | some row =>
    simp only [found] at committed
    split at committed
    · rename_i old
      cases added : addToTransaction (w.putScan (quarantineRow row now i.now)) (recoveryEvent row.id) with
      | error e => simp [added,Except.map] at committed
      | ok w'' =>
        simp only [added,Except.map,Except.ok.injEq,Prod.mk.injEq] at committed
        obtain ⟨_,rfl⟩ := committed
        obtain ⟨details,rfl⟩ := addToTransaction_added added
        simp only [stale,decide_eq_true_eq] at old
        have found' : w.scan (quarantineRow row now i.now).id = some row := scan_id found ▸ found
        exact (advances_putScan found' (unsettled_open (.inr old.1))).trans (advances_addEvent _ _)
    · simp only [Except.ok.injEq,Prod.mk.injEq] at committed
      exact committed.2 ▸ .refl w

theorem quarantineStaleScans_grounds {cutoff now : Int} {P : World → Prop} (durable : Durable env given j P)
    (rows : List ScanRow) (holds : P s) :
    Grounds env given j (fun _ s' => P s') (quarantineStaleScans cutoff now rows) s := by
  induction rows generalizing s with
  | nil => exact holds
  | cons row rest ih =>
    simp only [quarantineStaleScans]
    split
    · exact safe_bind (quarantineStaleScan_grounds durable holds)
        (fun _ _ now => safe_bind (ih now) (fun _ _ now => now) (fun _ _ now => now)) (fun _ _ now => now)
    · exact ih holds

theorem reconcile_grounds {staleSeconds now : Int} {batchSize : Nat} (tidy : Tidy given j s) :
    Grounds env given j (Ended given j) (reconcile staleSeconds now batchSize) s := by
  have durable : Durable env given j (Tidy given j) := tidy_durable
  refine safe_bind (M := fun _ s' => Tidy given j s') ?_ (fun rows _ now => ?_) (fun _ _ now _ => now)
  · refine advance_grounds durable tidy fun w i _ _ => advances_transaction fun _ w' committed => ?_
    cases committed
    exact .refl w
  · exact safe_bind (quarantineStaleScans_grounds durable rows now) (fun _ _ now => now) (fun _ _ now _ => now)

/-! ### Sanitized files -/

/-- A new copy under a key that no program has used. -/
theorem grounded_addCopy {key : Text} {content : Bytes} (inv : Inv env given s) (grounded : Grounded env given s)
    (fresh : given.keys → s.history.fileOwner key = none) : Grounded env given (addFile j s .sanitized key content) where
  sources := grounded.sources
  fingerprint := grounded.fingerprint
  single := grounded.single
  files keys a member := by
    have held := grounded.files keys a member
    have differs : a.storageKey ≠ key := by
      intro same
      obtain ⟨k,owner⟩ := inv.artifactOwner a member
      rw [← held.owner,same,fresh keys] at owner
      cases owner
    refine ⟨?_,held.key,?_⟩
    · simpa [addFile,setFile,Function.update_of_ne differs] using held.file
    · simpa [addFile,setFile,Function.update_of_ne differs] using held.owner
  owned keys other stored := by
    by_cases same : other = key
    · exact ⟨j,by simp [addFile,setFile,same]⟩
    · simp only [addFile,setFile,Function.update_of_ne same] at stored ⊢
      exact grounded.owned keys other stored

theorem leaves_addCopy {key : Text} {content : Bytes} (fresh : given.keys → s.history.fileOwner key = none) (k : Nat) :
    Leaves given k s (addFile j s .sanitized key content) := by
  refine ⟨fun _ _ found _ => found,fun keys other owner => Function.update_of_ne ?_ _ _⟩
  rintro rfl
  rw [fresh keys] at owner
  cases owner

/-- The removal of a copy of a program without artifacts. -/
theorem grounded_removeCopy {key : Text} (grounded : Grounded env given s) (unapproved : NoArtifact j s)
    (owner : given.keys → s.history.fileOwner key = some j) : Grounded env given (setFile s .sanitized key none) where
  sources := grounded.sources
  fingerprint := grounded.fingerprint
  single := grounded.single
  files keys a member := by
    have held := grounded.files keys a member
    have differs : a.storageKey ≠ key := by
      intro same
      exact unapproved a.id (held.owner.symm.trans (same ▸ owner keys))
    exact ⟨by simpa [setFile,Function.update_of_ne differs] using held.file,held.key,held.owner⟩
  owned keys other stored := by
    by_cases same : other = key
    · simp [setFile,same] at stored
    · simp only [setFile,Function.update_of_ne same] at stored
      exact grounded.owned keys other stored

theorem leaves_removeCopy {key : Text} (owner : given.keys → s.history.fileOwner key = some j) :
    Guarantee (Leaves given) j s (setFile s .sanitized key none) := by
  intro k differs
  refine ⟨fun _ _ found _ => found,fun keys other owned => Function.update_of_ne ?_ _ _⟩
  rintro rfl
  rw [owner keys] at owned
  exact differs (Option.some.inj owned).symm

/-! ### The promotion -/

/-- Before a promotion: the source has passed the gate, and the program has neither an artifact nor a stray file. -/
def Before (env : Env) (given : Assumptions) (j : Nat) (id : Text) (s : World) : Prop :=
  Gated env s id ∧ NoArtifact j s ∧ Tidy given j s

theorem before_durable (id : Text) : Durable env given j (Before env given j id) :=
  (gated_durable id).and (noArtifact_durable.and tidy_durable)

/-- The program has a copy that is not yet the file of an artifact. -/
structure Pending (env : Env) (given : Assumptions) (j : Nat) (id : Text) (promoted : StoredDocument)
    (s : World) : Prop where
  gated : Gated env s id
  noArtifact : NoArtifact j s
  others : given.keys → ∀ key, key ≠ promoted.storageKey → s.sanitized key ≠ none → s.history.fileOwner key = some j →
    ∃ a ∈ s.artifacts, a.storageKey = key
  file : given.keys → ∃ content, s.sanitized promoted.storageKey = some content ∧
    env.digest content = promoted.sha256 ∧ content.length = promoted.sizeBytes ∧ content.length ≤ env.cdrMaxOutputBytes
  key : given.keys → hex32 promoted.storageKey = true
  owner : given.keys → s.history.fileOwner promoted.storageKey = some j

theorem pending_stays (id : Text) (promoted : StoredDocument) : Stays given j (Pending env given j id promoted) := by
  intro a b pending keeps leaves
  refine ⟨pending.gated.kept leaves.final,noArtifact_stable j a b pending.noArtifact keeps,?_,?_,pending.key,?_⟩
  · intro keys key differs stored owner
    have owned := (keeps.fileOwner keys key).mp owner
    rw [leaves.sanitized keys key owned] at stored
    obtain ⟨artifact,member,same⟩ := pending.others keys key differs stored owned
    exact ⟨artifact,keeps.artifacts artifact member,same⟩
  · intro keys
    rw [leaves.sanitized keys _ (pending.owner keys)]
    exact pending.file keys
  · exact fun keys => (keeps.fileOwner keys _).mpr (pending.owner keys)

theorem promotedCopy_grounds {id : Text} {source : World → Option Bytes} {expectedSha256 : Text}
    (before : Before env given j id s) :
    Grounds env given j
      (fun
        | .ok promoted,s' => promoted.area = .sanitized ∧ Pending env given j id promoted s'
        | .error e,s' => e = .OSError ∧ ¬given.unlinks ∨ Before env given j id s')
      (storePrivateCopy env j source .sanitized expectedSha256) s := by
  refine safe_atomically fun s' others grounded i may => ?_
  have now : Before env given j id s' :=
    (before_durable id : Durable env given j _).others s s' before others.1 others.2
  have unchanged : Grounded env given s' ∧ Guarantee (Leaves given) j s' s' ∧
      (Exn.StorageFailure = .OSError ∧ ¬given.unlinks ∨ Before env given j id s') :=
    ⟨grounded,fun k _ => Leaves.refl given k s',.inr now⟩
  have fresh : given.keys → s'.history.fileOwner i.name = none := fun keys => may.1.1.1 keys rfl
  cases found : source s' with
  | none => exact unchanged
  | some copy =>
    dsimp only
    split_ifs with rejected
    · exact unchanged
    · simp only [not_or,not_not,Nat.not_lt] at rejected
      have stored : Grounded env given (addFile j s' .sanitized i.name copy) := grounded_addCopy may.2 grounded fresh
      have within : Guarantee (Leaves given) j s' (addFile j s' .sanitized i.name copy) :=
        fun k _ => leaves_addCopy fresh k
      cases failing : i.fault with
      | none =>
        refine ⟨stored,within,rfl,now.1,now.2.1,?_,?_,fun keys => may.1.2.1 keys rfl,?_⟩
        · intro keys key differs held owner
          simp only [addFile,setFile,Function.update_of_ne differs] at held owner
          exact now.2.2 keys key held owner
        · exact fun _ => ⟨copy,by simp [addFile,setFile],rfl,rfl,rejected.1⟩
        · exact fun _ => by simp [addFile,setFile]
      | fails => exact unchanged
      | cleanupFails => exact ⟨stored,within,.inl ⟨rfl,fun unlinks => (may.1.2.2 unlinks).1 rfl failing⟩⟩

/-- The copy is withdrawn, or its removal fails. -/
theorem withdraw_grounds {id : Text} {promoted : StoredDocument} (area : promoted.area = .sanitized)
    (pending : Pending env given j id promoted s) :
    Grounds env given j
      (fun
        | .ok _,s' => Before env given j id s'
        | .error e,_ => e = .StorageFailure ∧ ¬given.unlinks)
      (removeStoredDocument promoted) s := by
  refine safe_atomically fun s' others grounded i may => ?_
  have now : Pending env given j id promoted s' := pending_stays id promoted s s' pending others.1 others.2
  rw [area]
  split
  · refine ⟨grounded_removeCopy grounded now.noArtifact now.owner,leaves_removeCopy now.owner,now.gated,now.noArtifact,?_⟩
    intro keys key stored owner
    by_cases same : key = promoted.storageKey
    · simp [setFile,same] at stored
    · simp only [setFile,Function.update_of_ne same] at stored
      exact now.others keys key same stored owner
  · rename_i faulty
    exact ⟨grounded,fun k _ => Leaves.refl given k s',rfl,fun unlinks => faulty ((may.1.2.2 unlinks).2 rfl)⟩

/-! ### The transaction of a promotion -/

mutual
theorem boundedDetail_error {depth : Nat} {e : Exn} :
    ∀ {value : Json.Value}, boundedDetail depth value = .error e → e = .ValueError
  | .arr items,failed => by
    rw [boundedDetail] at failed
    split at failed
    · exact (Except.error.inj failed).symm
    · rcases Checks.bind_error.mp failed with items' | ⟨_,_,impossible⟩
      · exact boundedItems_error items'
      · cases impossible
  | .obj fields,failed => by
    rw [boundedDetail] at failed
    split at failed
    · exact (Except.error.inj failed).symm
    · rcases Checks.bind_error.mp failed with fields' | ⟨_,_,impossible⟩
      · exact boundedFields_error fields'
      · cases impossible
  | .null,failed | .bool _,failed | .int _,failed | .float _,failed | .str _,failed => by
    simp only [boundedDetail] at failed
    split at failed
    · exact (Except.error.inj failed).symm
    · cases failed
theorem boundedItems_error {depth : Nat} {e : Exn} :
    ∀ {items : List Json.Value}, boundedItems depth items = .error e → e = .ValueError
  | [],failed => by
    rw [boundedItems] at failed
    cases failed
  | item :: rest,failed => by
    rw [boundedItems] at failed
    rcases Checks.bind_error.mp failed with first | ⟨_,_,later⟩
    · exact boundedDetail_error first
    · rcases Checks.bind_error.mp later with others | ⟨_,_,impossible⟩
      · exact boundedItems_error others
      · cases impossible
theorem boundedFields_error {depth : Nat} {e : Exn} :
    ∀ {fields : List (Text × Json.Value)}, boundedFields depth fields = .error e → e = .ValueError
  | [],failed => by
    rw [boundedFields] at failed
    cases failed
  | (key,value) :: rest,failed => by
    rw [boundedFields] at failed
    split at failed
    · exact boundedFields_error failed
    · rcases Checks.bind_error.mp failed with first | ⟨_,_,later⟩
      · exact boundedDetail_error first
      · rcases Checks.bind_error.mp later with others | ⟨_,_,impossible⟩
        · exact boundedFields_error others
        · cases impossible
end

theorem addToTransaction_error {w : World} {e : Exn} {event : AuditEvent} (failed : addToTransaction w event = .error e) :
    e = .ValueError ∨ e = .IntegrityError := by
  rcases Checks.bind_error.mp failed with details | ⟨_,_,rest⟩
  · left
    unfold boundedDetails at details
    split at details
    · exact (Except.error.inj details).symm
    rcases Checks.bind_error.mp details with fields | ⟨_,_,rest⟩
    · exact boundedFields_error fields
    · split at rest
      · exact (Except.error.inj rest).symm
      · cases rest
  · split at rest
    · exact .inr (Except.error.inj rest).symm
    · cases rest

theorem insertArtifact_error {source derived : ScanRow} {promoted : StoredDocument} {w w' : World} {i : Choice} {e : Exn}
    (failed : insertArtifact env j source derived promoted w i = (.error e,w')) :
    e = .SQLAlchemyError ∨ e = .ValueError ∨ e = .IntegrityError := by
  rcases transaction_cases failed with ⟨_,impossible,_⟩ | ⟨_,e',same,reason⟩
  · cases impossible
  obtain rfl := Except.error.inj same
  refine reason.imp_right fun raised => ?_
  dsimp only at raised
  split at raised
  · exact .inr (Except.error.inj raised).symm
  · generalize adding : addToTransaction _ _ = added at raised
    cases added with
    | error e => exact (Except.error.inj raised) ▸ addToTransaction_error adding
    | ok w' => cases raised

theorem insertArtifact_grounds {source derived : ScanRow} {promoted : StoredDocument}
    (pending : Pending env given j source.id promoted s) :
    Grounds env given j
      (fun
        | .ok _,s' => Tidy given j s'
        | .error e,s' => Pending env given j source.id promoted s' ∧
            (e = .SQLAlchemyError ∨ e = .ValueError ∨ e = .IntegrityError))
      (.atomically .step (insertArtifact env j source derived promoted)) s := by
  refine safe_atomically fun s' others grounded i _ => ?_
  have now : Pending env given j source.id promoted s' := pending_stays source.id promoted s s' pending others.1 others.2
  cases ended : insertArtifact env j source derived promoted s' i with
  | mk result w =>
  rcases transaction_cases ended with ⟨artifactId,rfl,committed⟩ | ⟨rfl,e,rfl,_⟩
  · dsimp only at committed
    split at committed
    · cases committed
    rename_i valid
    simp only [violatesArtifact,Bool.or_eq_true,List.any_eq_true,not_or,not_exists,not_and,beq_iff_eq,
      Bool.and_eq_true] at valid
    generalize adding : addToTransaction _ _ = added at committed
    cases added with
    | error e => cases committed
    | ok w' =>
      cases committed
      obtain ⟨details,rfl⟩ := addToTransaction_added adding
      have fresh : ∀ b ∈ s'.artifacts, b.id ≠ i.name := fun b member same => (valid.1.1 b member).1.1 same
      refine ⟨⟨?_,?_,?_,?_,?_⟩,?_,?_⟩
      · intro a member
        rcases List.mem_append.mp member with old | new
        · exact grounded.sources a old
        · obtain rfl := List.mem_singleton.mp new
          exact now.gated
      · intro a member
        rcases List.mem_append.mp member with old | new
        · exact grounded.fingerprint a old
        · obtain rfl := List.mem_singleton.mp new
          rfl
      · simp only [World.addEvent,World.addArtifact,List.map_append,List.map_cons,List.map_nil]
        refine grounded.single.append (List.nodup_singleton _) ?_
        intro pair old new
        obtain ⟨b,member,rfl⟩ := List.mem_map.mp old
        obtain ⟨scan,fingerprint⟩ := Prod.mk.inj (List.mem_singleton.mp new)
        exact (valid.1.1 b member).2 scan fingerprint
      · intro keys a member
        rcases List.mem_append.mp member with old | new
        · have held := grounded.files keys a old
          refine ⟨held.file,held.key,?_⟩
          have differs : a.id ≠ (newArtifact env source derived promoted i.name).id := fresh a old
          simpa [World.addEvent,World.addArtifact,Function.update_of_ne differs] using held.owner
        · obtain rfl := List.mem_singleton.mp new
          refine ⟨now.file keys,now.key keys,?_⟩
          simpa [World.addEvent,World.addArtifact,newArtifact] using now.owner keys
      · exact grounded.owned
      · exact fun k _ => ⟨fun _ _ found _ => found,fun _ _ _ => rfl⟩
      · intro keys key stored owner
        by_cases same : key = promoted.storageKey
        · exact ⟨_,List.mem_append_right _ (List.mem_singleton_self _),same.symm⟩
        · obtain ⟨a,member,equal⟩ := now.others keys key same stored owner
          exact ⟨a,List.mem_append_left _ member,equal⟩
  · exact ⟨grounded,fun k _ => Leaves.refl given k _,now,insertArtifact_error ended⟩

/-! ### Exits -/

theorem serviceResult_grounds {sourceScanId : Text} {derivedScanId artifactId : Option Text} {approved reused : Bool}
    {failureCode : Option CdrFailureCode}
    (tidy : failureCode ≠ some .STORAGE_FAILURE ∨ given.unlinks → Tidy given j s) :
    Grounds env given j (Ended given j)
      (serviceResult sourceScanId derivedScanId artifactId approved reused failureCode) s := by
  unfold serviceResult
  split
  · rename_i checked
    exact ⟨checked,tidy⟩
  · rintro (impossible | unlinks)
    · cases impossible
    · exact tidy (.inr unlinks)

theorem safeAuditFailure_grounds {scanId : Text} {failure : CdrFailureCode} {P : World → Prop}
    (durable : Durable env given j P) (holds : P s) :
    Grounds env given j (fun result s' => P s' ∧ result ≠ .error .AuditPersistenceError)
      (safeAuditFailure scanId failure) s := by
  refine safe_tryCatch (auditAppend_grounds durable holds) (fun _ _ now => ⟨now,fun same => by cases same⟩)
    fun e s' now => ?_
  cases e <;> exact ⟨now,fun same => by cases same⟩

theorem auditedFailure_grounds {auditedId scanId : Text} {failure code : CdrFailureCode} {derivedScanId : Option Text}
    (tidy : Tidy given j s) : Grounds env given j (Ended given j) (do
      safeAuditFailure auditedId failure
      failed scanId code derivedScanId) s :=
  safe_bind (safeAuditFailure_grounds tidy_durable tidy) (fun _ _ now => serviceResult_grounds fun _ => now.1)
    (fun _ _ now _ => now.1)

theorem verifyStored_grounds {area : Area} {key sha256 : Text} {size maximum : Nat} {P : World → Prop}
    (durable : Durable env given j P) (holds : P s) :
    Grounds env given j (fun _ s' => P s') (verifyStored env area key sha256 size maximum) s :=
  advance_grounds durable holds fun w _ _ _ => .refl w

theorem getExistingCdrArtifact_grounds {scanId : Text} {P : World → Prop} (durable : Durable env given j P) (holds : P s) :
    Grounds env given j (fun _ s' => P s') (getExistingCdrArtifact env scanId) s := by
  refine safe_bind (M := fun _ s' => P s') ?_ (fun found s₁ now => ?_) (fun _ _ now => now)
  · refine advance_grounds durable holds fun w i _ _ => advances_transaction fun _ w' committed => ?_
    cases committed
    exact .refl w
  · cases found with
    | none => exact now
    | some a =>
      dsimp only
      split
      · exact safe_bind (verifyStored_grounds durable now) (fun _ _ now => now) (fun _ _ now => now)
      · exact now

theorem promote_grounds {source derived : ScanRow} {candidateSha256 : Text} {candidateSize : Nat}
    (before : Before env given j source.id s) :
    Grounds env given j (Ended given j) (promote env j source derived candidateSha256 candidateSize) s := by
  unfold promote
  split
  · exact fun _ => before.2.2
  refine safe_resume (promotedCopy_grounds before) fun result s₁ copied => ?_
  cases result with
  | error e =>
    rcases copied with ⟨rfl,failing⟩ | now
    · rintro (impossible | unlinks)
      · cases impossible
      · exact absurd unlinks failing
    · cases e with
      | StorageFailure => exact auditedFailure_grounds now.2.2
      | _ => exact fun _ => now.2.2
  | ok promoted =>
    obtain ⟨area,pending⟩ := copied
    have unremoved {e : Exn} {t : World} (failed : e = .StorageFailure ∧ ¬given.unlinks) : Ended given j (.error e) t := by
      rintro (audit | unlinks)
      · cases failed.1.symm.trans audit
      · exact absurd unlinks failed.2
    dsimp only
    split
    · exact safe_bind (withdraw_grounds area pending) (fun _ _ now => auditedFailure_grounds now.2.2)
        (fun _ _ failed => unremoved failed)
    refine safe_resume (insertArtifact_grounds pending) fun result s₂ ended => ?_
    cases result with
    | ok artifactId => exact serviceResult_grounds fun _ => ended
    | error e =>
      have withdrawn := withdraw_grounds area ended.1
      rcases ended.2 with rfl | rfl | rfl
      · exact safe_bind withdrawn (fun _ _ now => auditedFailure_grounds now.2.2) (fun _ _ failed => unremoved failed)
      · exact safe_bind withdrawn (fun _ _ now => auditedFailure_grounds now.2.2) (fun _ _ failed => unremoved failed)
      · refine safe_bind withdrawn (fun _ s₃ now => ?_) (fun _ _ failed => unremoved failed)
        refine safe_bind (getExistingCdrArtifact_grounds tidy_durable now.2.2) (fun found s₄ tidy => ?_)
          (fun _ _ tidy _ => tidy)
        cases found with
        | none => exact serviceResult_grounds fun _ => tidy
        | some existing => exact serviceResult_grounds fun _ => tidy

/-! ### The workflow -/

theorem approveDerived_grounds {source derived : ScanRow} {candidateSha256 : Text} {candidateSize : Nat}
    (before : Before env given j source.id s) :
    Grounds env given j (Ended given j) (approveDerived env j source derived candidateSha256 candidateSize) s := by
  have durable : Durable env given j (Before env given j source.id) := before_durable source.id
  refine safe_bind (auditAppend_grounds durable before) (fun _ s₁ created => ?_) (fun _ _ now _ => now.2.2)
  refine safe_bind (auditAppend_grounds durable created) (fun _ s₂ completed => ?_) (fun _ _ now _ => now.2.2)
  split
  · exact promote_grounds completed
  · exact safe_bind (auditAppend_grounds durable completed) (fun _ _ now => serviceResult_grounds fun _ => now.2.2)
      (fun _ _ now _ => now.2.2)

theorem analyzeCandidate_grounds {scanId : Text} {source : ScanRow} {document : StoredDocument} {candidateSha256 : Text}
    {candidateSize : Nat} (area : document.area = .quarantine) (before : Before env given j source.id s) :
    Grounds env given j (Ended given j)
      (analyzeCandidate env j scanId source document candidateSha256 candidateSize) s := by
  have durable : Durable env given j (Before env given j source.id) := before_durable source.id
  refine safe_resume (registerAndAnalyze_grounds area durable before) fun result s₁ now => ?_
  cases result with
  | ok derived => exact approveDerived_grounds now
  | error e =>
    cases e with
    | DatabasePersistenceError =>
      exact safe_bind (removeQuarantined_grounds area durable now) (fun _ _ now => auditedFailure_grounds now.2.2)
        (fun _ _ now _ => now.2.2)
    | _ => exact fun _ => now.2.2

theorem candidateCopy_grounds {source : World → Option Bytes} {expectedSha256 : Text} {P : World → Prop}
    (durable : Durable env given j P) (holds : P s) :
    Grounds env given j (fun result s' => P s' ∧ ∀ document, result = .ok document → document.area = .quarantine)
      (storePrivateCopy env j source .quarantine expectedSha256) s := by
  refine advancing_grounds durable stays_true holds trivial fun w i _ grounded _ _ may => ?_
  have stored (content : Bytes) : Advances given w (addFile j w .quarantine i.name content) :=
    advances_addFile grounded (fun keys => may.1.1 keys rfl)
  split
  · exact ⟨.refl w,fun _ impossible => by cases impossible⟩
  · split
    · exact ⟨.refl w,fun _ impossible => by cases impossible⟩
    · cases i.fault with
      | none => exact ⟨stored _,fun document same => by cases same; rfl⟩
      | fails => exact ⟨.refl w,fun _ impossible => by cases impossible⟩
      | cleanupFails => exact ⟨stored _,fun _ impossible => by cases impossible⟩

theorem renderAndPromote_grounds {scanId output : Text} {source : ScanRow} (before : Before env given j source.id s) :
    Grounds env given j (Ended given j) (renderAndPromote env j scanId source output) s := by
  have durable : Durable env given j (Before env given j source.id) := before_durable source.id
  refine safe_bind (M := fun _ s' => Before env given j source.id s') ?_ (fun outcome s₁ rendered => ?_)
    (fun _ _ now _ => now.2.2)
  · refine advance_grounds durable before fun w i _ _ => ?_
    dsimp only
    split <;> exact advances_of_same rfl rfl rfl rfl rfl
  split
  · refine safe_bind (auditAppend_grounds durable rendered) (fun _ s₂ now => ?_) (fun _ _ now _ => now.2.2)
    exact safe_bind (auditAppend_grounds durable now) (fun _ _ now => serviceResult_grounds fun _ => now.2.2)
      (fun _ _ now _ => now.2.2)
  · refine safe_bind (M := fun _ s' => Before env given j source.id s') ?_ (fun sizes s₂ finalized => ?_)
      (fun _ _ now _ => now.2.2)
    · refine advance_grounds durable rendered fun w i _ _ => ?_
      split
      · exact .refl w
      · split <;> exact .refl w
    obtain ⟨candidateSha256,candidateSize⟩ := sizes
    dsimp only
    split
    · exact auditedFailure_grounds finalized.2.2
    · refine safe_bind (auditAppend_grounds durable finalized) (fun _ s₃ completed => ?_) (fun _ _ now _ => now.2.2)
      refine safe_bind (candidateCopy_grounds durable completed) (fun document s₄ copied => ?_) (fun _ _ now _ => now.1.2.2)
      exact analyzeCandidate_grounds (copied.2 document rfl) copied.1

theorem handled_grounds {scanId : Text} {source : ScanRow} {result : Except Exn Response}
    (ended : Ended given j result s) : Grounds env given j (Ended given j) (handled scanId source result) s := by
  cases result with
  | ok response => exact ended
  | error e =>
    cases e with
    | AuditPersistenceError => exact serviceResult_grounds fun _ => ended (.inl rfl)
    | StorageFailure =>
      have tidy : Durable env given j (Tidy given j) := tidy_durable
      have durable : Durable env given j fun s => given.unlinks → Tidy given j s :=
        ⟨fun a b before keeps leaves unlinks => tidy.others a b (before unlinks) keeps leaves,
          fun a b grounded before advances unlinks => tidy.own a b grounded (before unlinks) advances⟩
      refine safe_bind (safeAuditFailure_grounds durable fun unlinks => ended (.inr unlinks)) (fun _ _ now => ?_)
        (fun _ _ now => ?_)
      · exact serviceResult_grounds fun reported => reported.elim (fun other => absurd rfl other) now.1
      · exact fun reported => reported.elim (fun audit => absurd (congrArg Except.error audit) now.2) now.1
    | _ => exact ended

/-- The scan that was read is still there if it is remediable. -/
theorem seen_durable (id : Text) (row : ScanRow) :
    Durable env given j (fun s => Remediable env row → s.scan id = some row) where
  others _ _ seen _ leaves remediable := leaves.final id row (seen remediable) remediable.final
  own _ _ _ seen advances remediable := advances.final id row (seen remediable) remediable.final

/-- An eligible scan has passed the gate, and stays as it is. -/
theorem evaluateCdrEligibility_grounds {scanId : Text} {P : World → Prop} (durable : Durable env given j P)
    (holds : P s) :
    Grounds env given j
      (fun result s' => P s' ∧ ∀ eligibility, result = .ok eligibility → eligibility.eligible = true → Gated env s' scanId)
      (evaluateCdrEligibility env scanId) s := by
  refine safe_resume (getScan_grounds durable holds) fun result s₁ found => ?_
  have unread {e' : Exn} {t : World} (now : P t) : P t ∧ ∀ eligibility : CdrEligibility,
      Except.error e' = .ok eligibility → eligibility.eligible = true → Gated env t scanId :=
    ⟨now,fun _ impossible => by cases impossible⟩
  cases result with
  | error e =>
    cases e with
    | ScanNotFound =>
      refine safe_bind (M := fun result s' => P s' ∧ ∀ e, result = .ok e → e.eligible = false) ?_
        (fun eligibility s₂ now => ?_) (fun _ _ now => unread now.1)
      · unfold buildEligibility
        split
        · exact ⟨found.1,fun e same => by cases same; rfl⟩
        · exact ⟨found.1,fun e impossible => by cases impossible⟩
      · refine safe_bind (auditAppend_grounds durable now.1) (fun _ s₃ later => ⟨later,?_⟩) (fun _ _ later => unread later)
        intro reported same eligible
        rw [now.2 reported same] at eligible
        cases eligible
    | _ => exact unread found.1
  | ok scan =>
    have both : Durable env given j fun s => P s ∧ (Remediable env scan → s.scan scanId = some scan) :=
      durable.and (seen_durable scanId scan)
    refine safe_bind (verifyStored_grounds both ⟨found.1,fun _ => found.2 scan rfl⟩) (fun integrity s₂ now => ?_)
      (fun _ _ now => unread now.1)
    refine safe_bind (M := fun result s' => (P s' ∧ (Remediable env scan → s'.scan scanId = some scan)) ∧
      ∀ e, result = .ok e → e.eligible = true → Remediable env scan) ?_ (fun eligibility s₃ built => ?_)
      (fun _ _ now => unread now.1.1)
    · unfold buildEligibility
      split
      · refine ⟨now,fun e same eligible => ?_⟩
        cases same
        exact eligible_remediable (List.isEmpty_iff.mp eligible)
      · exact ⟨now,fun e impossible => by cases impossible⟩
    · refine safe_bind (auditAppend_grounds both built.1) (fun _ s₄ later => ⟨later.1,?_⟩)
        (fun _ _ later => unread later.1)
      intro reported same eligible
      have remediable := built.2 reported same eligible
      exact ⟨scan,later.2 remediable,remediable⟩

theorem removeCdrOutput_grounds {output : Text} {P : World → Prop} (durable : Durable env given j P) (holds : P s) :
    Grounds env given j (fun removed s' => P s' ∧ removed = .ok ()) (removeCdrOutput output) s := by
  refine advancing_grounds durable stays_true holds trivial fun w i _ _ _ _ _ => ⟨?_,rfl⟩
  dsimp only
  split <;> exact advances_of_same rfl rfl rfl rfl rfl

theorem sanitizePdf_grounds {scanId : Text} (unapproved : NoArtifact j s) (tidy : Tidy given j s) :
    Grounds env given j (Ended given j) (sanitizePdf env j scanId) s := by
  have clean : Durable env given j fun s => NoArtifact j s ∧ Tidy given j s := noArtifact_durable.and tidy_durable
  refine safe_resume (evaluateCdrEligibility_grounds clean ⟨unapproved,tidy⟩) fun result s₁ checked => ?_
  obtain ⟨now,gated⟩ := checked
  cases result with
  | error e =>
    cases e with
    | AuditPersistenceError => exact serviceResult_grounds fun _ => now.2
    | _ => exact fun _ => now.2
  | ok eligibility =>
    dsimp only
    split
    · exact serviceResult_grounds fun _ => now.2
    rename_i eligible
    have before : Before env given j scanId s₁ := ⟨gated _ rfl (not_not.mp eligible),now⟩
    have durable : Durable env given j (Before env given j scanId) := before_durable scanId
    refine safe_bind (getExistingCdrArtifact_grounds durable before) (fun found s₂ now => ?_) (fun _ _ now _ => now.2.2)
    cases found with
    | some existing => exact serviceResult_grounds fun _ => now.2.2
    | none =>
      refine safe_bind (getScan_grounds durable now) (fun source s₃ now => ?_) (fun _ _ now _ => now.1.2.2)
      have same : source.id = scanId := scan_id (now.2 source rfl)
      obtain ⟨now,_⟩ := now
      subst same
      split
      · exact fun _ => now.2.2
      refine safe_resume (auditAppend_grounds durable now) fun result s₄ now => ?_
      cases result with
      | error e =>
        cases e with
        | AuditPersistenceError => exact serviceResult_grounds fun _ => now.2.2
        | _ => exact fun _ => now.2.2
      | ok started =>
        refine safe_resume (M := fun _ s' => Before env given j source.id s') ?_ fun result s₅ now => ?_
        · refine advance_grounds durable now fun w i _ _ => ?_
          split
          · exact .refl w
          · exact advances_of_same rfl rfl rfl rfl rfl
        cases result with
        | error e =>
          cases e with
          | StorageFailure => exact auditedFailure_grounds now.2.2
          | _ => exact fun _ => now.2.2
        | ok output =>
          refine safe_resume (M := Ended given j) ?_ fun result s₆ ended => ?_
          · exact safe_resume (renderAndPromote_grounds now) fun _ _ ended => handled_grounds ended
          · refine safe_resume (removeCdrOutput_grounds (ended_durable result) ended) fun removed s₇ reached => ?_
            rw [reached.2]
            exact reached.1

end DocGuard.Promotions
