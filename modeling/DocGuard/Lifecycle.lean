import DocGuard.Cdr
import DocGuard.Finalization

/-!
What holds of the persisted state while any number of requests run: the invariant
of the rows, artifacts, events and files, what each program may rely on while the
others act, and the changes of the state that keep both.
-/
namespace DocGuard.Lifecycle
open DocGuard.Domain DocGuard.Engine DocGuard.Programs DocGuard.Database DocGuard.ScanService DocGuard.Recovery
open DocGuard.Cdr DocGuard.Finalization

/-! ### Lookups -/

section Lookups
variable {w : World} {id : Text} {row : ScanRow}

theorem scan_id (found : w.scan id = some row) : row.id = id := by simpa using List.find?_some found

theorem scan_mem (found : w.scan id = some row) : row ∈ w.scans := List.mem_of_find?_eq_some found

theorem scan_of_mem (distinct : (w.scans.map (·.id)).Nodup) (member : row ∈ w.scans) : w.scan row.id = some row := by
  have some : (w.scan row.id).isSome := by
    rw [World.scan,List.find?_isSome]
    exact ⟨row,member,by simp⟩
  obtain ⟨other,found⟩ := Option.isSome_iff_exists.mp some
  rw [found,List.inj_on_of_nodup_map distinct (scan_mem found) member (scan_id found)]

theorem artifact_of_mem {a : ArtifactRow} (distinct : (w.artifacts.map (·.id)).Nodup) (member : a ∈ w.artifacts) :
    w.artifact a.id = some a := by
  have some : (w.artifact a.id).isSome := by
    rw [World.artifact,List.find?_isSome]
    exact ⟨a,member,by simp⟩
  obtain ⟨other,found⟩ := Option.isSome_iff_exists.mp some
  have listed := List.mem_of_find?_eq_some found
  have same : other.id = a.id := by simpa using List.find?_some found
  rw [found,List.inj_on_of_nodup_map distinct listed member same]

private theorem find_put (rows : List ScanRow) :
    (rows.map (fun r => if r.id = row.id then row else r)).find? (fun r => r.id == id) =
      if id = row.id then (rows.find? (fun r => r.id == id)).map (fun _ => row)
      else rows.find? (fun r => r.id == id) := by
  induction rows with
  | nil => simp
  | cons r rest ih =>
    simp only [List.map_cons,List.find?_cons,ih]
    by_cases other : r.id = row.id <;> by_cases same : id = row.id
    · simp [other,same]
    · have differs : (row.id == id) = false := beq_false_of_ne fun equal => same equal.symm
      simp [other,same,differs]
    · have differs : (r.id == row.id) = false := beq_false_of_ne other
      simp [other,same,differs]
    · by_cases found : r.id = id <;> simp [other,same,found]

theorem scan_putScan : (w.putScan row).scan id = if id = row.id then (w.scan id).map (fun _ => row) else w.scan id :=
  find_put w.scans

theorem scan_addScan (me : Nat) (unused : w.scan row.id = none) :
    (w.addScan me row).scan id = if id = row.id then some row else w.scan id := by
  simp only [World.scan,World.addScan,List.find?_append] at unused ⊢
  by_cases same : id = row.id
  · subst same
    simp [unused]
  · have differs : ¬row.id = id := fun equal => same equal.symm
    simp [same,differs]

theorem putScan_ids : ((w.putScan row).scans.map (·.id)) = w.scans.map (·.id) := by
  simp only [World.putScan,List.map_map]
  refine List.map_congr_left fun r _ => ?_
  by_cases same : r.id = row.id <;> simp [same]

end Lookups

/-! ### What a program may rely on -/

/-- What a statement about runs assumes of them. -/
structure Assumptions where
  /-- Random storage keys do not repeat. -/
  keys : Prop
  /-- No transaction of a registered CDR candidate fails. -/
  careful : Prop
  /-- No removal of a stored file fails, and none of what a failed copy has left. -/
  unlinks : Prop

variable {given : Assumptions}

/-- The steps of others leave what program `j` has added: its files and artifacts as they are, and its scans
    unless recovery quarantines one that is being analyzed. Artifacts stay whoever has added them. -/
structure Keeps (given : Assumptions) (j : Nat) (s s' : World) : Prop where
  scanOwner : ∀ id, s'.history.scanOwner id = some j ↔ s.history.scanOwner id = some j
  scans : ∀ id, s.history.scanOwner id = some j → s'.scan id = s.scan id ∨
    ∃ row now updated, s.scan id = some row ∧ row.state = .ANALYZING ∧ s'.scan id = some (quarantineRow row now updated)
  fileOwner : given.keys → ∀ key, s'.history.fileOwner key = some j ↔ s.history.fileOwner key = some j
  quarantine : given.keys → ∀ key, s.history.fileOwner key = some j → s'.quarantine key = s.quarantine key
  artifactOwner : ∀ id, s'.history.artifactOwner id = some j ↔ s.history.artifactOwner id = some j
  artifacts : ∀ a ∈ s.artifacts, a ∈ s'.artifacts
  events : ∀ e ∈ s.events, e ∈ s'.events
  analysed : ∀ id, s.history.scanOwner id = some j → s'.history.analysed id = s.history.analysed id

theorem Keeps.refl (j : Nat) (s : World) : Keeps given j s s :=
  ⟨fun _ => Iff.rfl,fun _ _ => .inl rfl,fun _ _ => Iff.rfl,fun _ _ _ => rfl,fun _ => Iff.rfl,fun _ member => member,
    fun _ member => member,fun _ _ => rfl⟩

theorem Keeps.trans {j : Nat} {a b c : World} (first : Keeps given j a b) (second : Keeps given j b c) :
    Keeps given j a c where
  scanOwner id := (second.scanOwner id).trans (first.scanOwner id)
  scans id owned := by
    have later := second.scans id ((first.scanOwner id).mpr owned)
    rcases first.scans id owned with same | ⟨row,now,updated,found,analyzing,recovered⟩
    · rcases later with same' | ⟨row,now,updated,found,analyzing,recovered⟩
      · exact .inl (same'.trans same)
      · exact .inr ⟨row,now,updated,same ▸ found,analyzing,recovered⟩
    · -- a recovered scan is not analyzing, so that nobody recovers it again
      rcases later with same' | ⟨row',_,_,found',analyzing',_⟩
      · exact .inr ⟨row,now,updated,found,analyzing,same'.trans recovered⟩
      · rw [recovered] at found'
        cases found'
        cases analyzing'
  fileOwner distinct key := (second.fileOwner distinct key).trans (first.fileOwner distinct key)
  quarantine distinct key owned :=
    (second.quarantine distinct key ((first.fileOwner distinct key).mpr owned)).trans
      (first.quarantine distinct key owned)
  artifactOwner id := (second.artifactOwner id).trans (first.artifactOwner id)
  artifacts a member := second.artifacts a (first.artifacts a member)
  events e member := second.events e (first.events e member)
  analysed id owned := (second.analysed id ((first.scanOwner id).mpr owned)).trans (first.analysed id owned)

/-! ### The invariant -/

/-- The event is the approval of this artifact. -/
def approves (id : Text) (e : AuditEvent) : Bool := decide (e.eventType = .CDR_APPROVED ∧ e.artifactId = some id)

/-- Where an artifact comes from: the scan of its candidate was completed on exactly the bytes that its digest and
    size describe, and the lineage is valid unless the size of the artifact differs from that of the scan. -/
def Lineage (env : Env) (s : World) (a : ArtifactRow) : Prop :=
  ∃ source derived content, s.scan a.scanId = some source ∧ s.scan a.derivedScanId = some derived ∧
    derived.state = .COMPLETED ∧ s.history.analysed a.derivedScanId = some content ∧
    derived.sha256 = env.digest content ∧ derived.sizeBytes = content.length ∧
    (∃ copy, a.sha256 = env.digest copy ∧ a.sizeBytes = copy.length) ∧ a.sha256 = derived.sha256 ∧
    (a.sizeBytes = derived.sizeBytes → validLineage a source derived = true)

/-- The stored file of a row is there, with the digest and the size of the row. -/
def HasObject (env : Env) (s : World) (row : ScanRow) : Prop :=
  ∃ content, s.quarantine row.storageKey = some content ∧ env.digest content = row.sha256 ∧
    content.length = row.sizeBytes

/-- Recovery has quarantined this scan. -/
def RecoveredEvent (s : World) (id : Text) : Prop :=
  ∃ e ∈ s.events, e.eventType = .RECOVERY_STALE_SCAN_QUARANTINED ∧ e.scanId = some id

def Settled (row : ScanRow) : Prop := row.state = .COMPLETED ∨ row.state = .QUARANTINED

/-- The invariant of the persisted state. -/
structure Inv (env : Env) (given : Assumptions) (s : World) : Prop where
  distinct : (s.scans.map (·.id)).Nodup
  rowOwner : ∀ id row, s.scan id = some row →
    ∃ j, s.history.scanOwner id = some j ∧ (given.keys → s.history.fileOwner row.storageKey = some j)
  ownedRow : ∀ id j, s.history.scanOwner id = some j → ∃ row, s.scan id = some row
  released : ∀ id row, s.scan id = some row → row.releaseEligible = true → Releasable row
  recovered : ∀ id, RecoveredEvent s id → ∃ row, s.scan id = some row ∧ Settled row ∧ row.releaseEligible = false
  artifactsDistinct : (s.artifacts.map (·.id)).Nodup
  artifactOwner : ∀ a ∈ s.artifacts, ∃ j, s.history.artifactOwner a.id = some j
  ownedArtifact : ∀ id j, s.history.artifactOwner id = some j → ∃ a ∈ s.artifacts, a.id = id
  lineage : given.keys → ∀ a ∈ s.artifacts, Lineage env s a
  approvals : ∀ a ∈ s.artifacts, (s.events.filter (approves a.id)).length = 1
  eventArtifacts : ∀ e ∈ s.events, (e.eventType = .CDR_APPROVED → e.artifactId ≠ none) ∧
    ∀ id, e.artifactId = some id → ∃ a ∈ s.artifacts, a.id = id
  objects : given.keys → given.careful → ∀ id row, s.scan id = some row → HasObject env s row

variable {env : Env} {s s' : World} {j : Nat}

theorem inv_empty (env : Env) (given : Assumptions) : Inv env given {} where
  distinct := List.nodup_nil
  rowOwner _ _ found := by cases found
  ownedRow _ _ owned := by cases owned
  released _ _ found := by cases found
  recovered _ event := by
    obtain ⟨_,member,_⟩ := event
    cases member
  artifactsDistinct := List.nodup_nil
  artifactOwner _ member := by cases member
  ownedArtifact _ _ owned := by cases owned
  lineage _ _ member := by cases member
  approvals _ member := by cases member
  eventArtifacts _ member := by cases member
  objects _ _ _ _ found := by cases found

/-! ### Changes that keep the invariant -/

/-- Changes of files outside the quarantine keep the invariant. -/
theorem Inv.of_same (inv : Inv env given s) (scans : s'.scans = s.scans) (artifacts : s'.artifacts = s.artifacts)
    (events : s'.events = s.events) (quarantine : s'.quarantine = s.quarantine) (history : s'.history = s.history) :
    Inv env given s' := by
  obtain ⟨_,_,_,_,_,_,_⟩ := s
  obtain ⟨_,_,_,_,_,_,_⟩ := s'
  simp only at scans artifacts events quarantine history
  subst scans artifacts events quarantine history
  exact ⟨inv.distinct,inv.rowOwner,inv.ownedRow,inv.released,inv.recovered,inv.artifactsDistinct,inv.artifactOwner,
    inv.ownedArtifact,inv.lineage,inv.approvals,inv.eventArtifacts,inv.objects⟩

/-- An event that neither approves an artifact nor recovers a scan. -/
structure Plain (e : AuditEvent) : Prop where
  approval : e.eventType ≠ .CDR_APPROVED
  recovery : e.eventType ≠ .RECOVERY_STALE_SCAN_QUARANTINED
  artifact : e.artifactId = none

theorem inv_addEvent {e : AuditEvent} (inv : Inv env given s) (plain : Plain e) : Inv env given (s.addEvent e) where
  distinct := inv.distinct
  rowOwner := inv.rowOwner
  ownedRow := inv.ownedRow
  released := inv.released
  recovered id event := by
    obtain ⟨e',member,recovery,named⟩ := event
    rcases List.mem_append.mp member with old | new
    · exact inv.recovered id ⟨e',old,recovery,named⟩
    · obtain rfl := List.mem_singleton.mp new
      exact absurd recovery plain.recovery
  artifactsDistinct := inv.artifactsDistinct
  artifactOwner := inv.artifactOwner
  ownedArtifact := inv.ownedArtifact
  lineage := inv.lineage
  approvals a member := by
    have other : approves a.id e = false := by simp [approves,plain.approval]
    simp only [World.addEvent,List.filter_append,List.length_append]
    rw [inv.approvals a member]
    simp [other]
  eventArtifacts e' member := by
    rcases List.mem_append.mp member with old | new
    · exact inv.eventArtifacts e' old
    · obtain rfl := List.mem_singleton.mp new
      refine ⟨fun approval => absurd approval plain.approval,fun id named => ?_⟩
      rw [plain.artifact] at named
      cases named
  objects := inv.objects

/-- A new file under a key that no program has used. -/
theorem inv_addFile {me : Nat} {area : Area} {key : Text} {content : Bytes} (inv : Inv env given s)
    (fresh : given.keys → s.history.fileOwner key = none) : Inv env given (addFile me s area key content) := by
  have owner {other : Text} {k : Nat} (distinct : given.keys) (owned : s.history.fileOwner other = some k) :
      Function.update s.history.fileOwner key (some me) other = some k := by
    rw [Function.update_of_ne]
    · exact owned
    · rintro rfl
      rw [fresh distinct] at owned
      cases owned
  have rowOwner : ∀ id row, s.scan id = some row → ∃ k, s.history.scanOwner id = some k ∧
      (given.keys → Function.update s.history.fileOwner key (some me) row.storageKey = some k) := by
    intro id row found
    obtain ⟨k,scanned,stored⟩ := inv.rowOwner id row found
    exact ⟨k,scanned,fun distinct => owner distinct (stored distinct)⟩
  cases area with
  | sanitized => exact { inv with rowOwner := rowOwner }
  | quarantine =>
    refine { inv with rowOwner := rowOwner, objects := fun distinct assumed id row found => ?_ }
    obtain ⟨content',file,rest⟩ := inv.objects distinct assumed id row found
    obtain ⟨k,_,stored⟩ := inv.rowOwner id row found
    have differs : row.storageKey ≠ key := by
      rintro equal
      have owned := stored distinct
      rw [equal,fresh distinct] at owned
      cases owned
    refine ⟨content',?_,rest⟩
    simpa [addFile,setFile,Function.update_of_ne differs] using file

/-- The removal of a stored file that no row names. -/
theorem inv_removeFile {area : Area} {key : Text} (inv : Inv env given s)
    (unnamed : given.keys → given.careful → area = .quarantine →
      ∀ id row, s.scan id = some row → row.storageKey ≠ key) :
    Inv env given (setFile s area key none) := by
  cases area with
  | sanitized => exact inv.of_same rfl rfl rfl rfl rfl
  | quarantine =>
    refine { inv with objects := fun distinct assumed id row found => ?_ }
    obtain ⟨content,file,rest⟩ := inv.objects distinct assumed id row found
    refine ⟨content,?_,rest⟩
    simpa [setFile,Function.update_of_ne (unnamed distinct assumed rfl id row found)] using file

/-- The analysis of a scan that is not completed. -/
theorem inv_noteAnalysis {id : Text} {content : Option Bytes} (inv : Inv env given s)
    (open' : ∀ row, s.scan id = some row → row.state ≠ .COMPLETED) : Inv env given (s.noteAnalysis id content) := by
  refine { inv with lineage := fun distinct a member => ?_ }
  obtain ⟨source,derived,read,sourced,found,completed,analysed,rest⟩ := inv.lineage distinct a member
  have differs : a.derivedScanId ≠ id := by
    rintro equal
    exact open' derived (equal ▸ found) completed
  refine ⟨source,derived,read,sourced,found,completed,?_,rest⟩
  simpa [World.noteAnalysis,Function.update_of_ne differs] using analysed

/-- The registration of a scan by the program that owns its file. -/
theorem inv_addScan {me : Nat} {row : ScanRow} (inv : Inv env given s) (unused : s.scan row.id = none)
    (owned : given.keys → s.history.fileOwner row.storageKey = some me) (unreleased : row.releaseEligible = false)
    (object : given.keys → HasObject env s row) : Inv env given (s.addScan me row) := by
  have lookup (id : Text) : (s.addScan me row).scan id = if id = row.id then some row else s.scan id :=
    scan_addScan me unused
  have kept {id : Text} {old : ScanRow} (found : s.scan id = some old) : (s.addScan me row).scan id = some old := by
    have differs : id ≠ row.id := by
      rintro rfl
      rw [unused] at found
      cases found
    rw [lookup,if_neg differs,found]
  have cases {id : Text} {r : ScanRow} (found : (s.addScan me row).scan id = some r) :
      (id = row.id ∧ r = row) ∨ (id ≠ row.id ∧ s.scan id = some r) := by
    rw [lookup] at found
    by_cases same : id = row.id
    · rw [if_pos same] at found
      exact .inl ⟨same,(Option.some.inj found).symm⟩
    · rw [if_neg same] at found
      exact .inr ⟨same,found⟩
  refine ⟨?_,?_,?_,?_,?_,inv.artifactsDistinct,inv.artifactOwner,inv.ownedArtifact,?_,inv.approvals,
    inv.eventArtifacts,?_⟩
  · simp only [World.addScan,List.map_append,List.map_cons,List.map_nil]
    refine inv.distinct.append (List.nodup_singleton _) ?_
    intro id old new
    obtain ⟨r,member,rfl⟩ := List.mem_map.mp old
    have found := scan_of_mem inv.distinct member
    rw [List.mem_singleton.mp new,unused] at found
    cases found
  · intro id r found
    rcases cases found with ⟨rfl,rfl⟩ | ⟨differs,found⟩
    · exact ⟨me,by simp [World.addScan],owned⟩
    · obtain ⟨k,scanned,stored⟩ := inv.rowOwner id r found
      exact ⟨k,by simpa [World.addScan,Function.update_of_ne differs] using scanned,stored⟩
  · intro id k scanned
    by_cases same : id = row.id
    · exact ⟨row,by rw [lookup,if_pos same]⟩
    · obtain ⟨r,found⟩ := inv.ownedRow id k (by simpa [World.addScan,Function.update_of_ne same] using scanned)
      exact ⟨r,kept found⟩
  · intro id r found released
    rcases cases found with ⟨rfl,rfl⟩ | ⟨_,found⟩
    · rw [unreleased] at released
      cases released
    · exact inv.released id r found released
  · intro id event
    obtain ⟨r,found,rest⟩ := inv.recovered id event
    exact ⟨r,kept found,rest⟩
  · intro distinct a member
    obtain ⟨source,derived,content,sourced,found,rest⟩ := inv.lineage distinct a member
    exact ⟨source,derived,content,kept sourced,kept found,rest⟩
  · intro distinct assumed id r found
    rcases cases found with ⟨rfl,rfl⟩ | ⟨_,found⟩
    · exact object distinct
    · exact inv.objects distinct assumed id r found

theorem validLineage_source {a : ArtifactRow} {source source' derived : ScanRow} (same : source'.id = source.id)
    (valid : validLineage a source derived = true) : validLineage a source' derived = true := by
  unfold validLineage at valid ⊢
  rw [same]
  exact valid

/-- What a new version of a row has to be. -/
structure Replaces (row row' : ScanRow) : Prop where
  same : SameScan row row'
  incomplete : row.state ≠ .COMPLETED
  released : row'.releaseEligible = true → Releasable row'
  settled : Settled row → Settled row' ∧ row'.releaseEligible = false

/-- A new version of a row that is not completed. -/
theorem inv_putScan {row row' : ScanRow} (inv : Inv env given s) (found : s.scan row.id = some row)
    (replaces : Replaces row row') : Inv env given (s.putScan row') := by
  have id' : row'.id = row.id := replaces.same.id
  have lookup (id : Text) : (s.putScan row').scan id = if id = row.id then some row' else s.scan id := by
    rw [scan_putScan,id']
    by_cases same : id = row.id
    · rw [if_pos same,if_pos same,same,found]
      rfl
    · rw [if_neg same,if_neg same]
  have cases {id : Text} {r : ScanRow} (looked : (s.putScan row').scan id = some r) :
      (id = row.id ∧ r = row') ∨ (id ≠ row.id ∧ s.scan id = some r) := by
    rw [lookup] at looked
    by_cases same : id = row.id
    · rw [if_pos same] at looked
      exact .inl ⟨same,(Option.some.inj looked).symm⟩
    · rw [if_neg same] at looked
      exact .inr ⟨same,looked⟩
  have kept {id : Text} {r : ScanRow} (old : s.scan id = some r) : ∃ r', (s.putScan row').scan id = some r' ∧
      r'.id = r.id ∧ (id ≠ row.id → r' = r) := by
    rw [lookup]
    by_cases same : id = row.id
    · refine ⟨row',by rw [if_pos same],?_,fun differs => absurd same differs⟩
      rw [scan_id old,id',same]
    · exact ⟨r,by rw [if_neg same,old],rfl,fun _ => rfl⟩
  refine ⟨putScan_ids.symm ▸ inv.distinct,?_,?_,?_,?_,inv.artifactsDistinct,inv.artifactOwner,inv.ownedArtifact,?_,
    inv.approvals,inv.eventArtifacts,?_⟩
  · intro id r looked
    rcases cases looked with ⟨rfl,rfl⟩ | ⟨_,looked⟩
    · rw [replaces.same.storageKey]
      exact inv.rowOwner row.id row found
    · exact inv.rowOwner id r looked
  · intro id k owned
    obtain ⟨r,old⟩ := inv.ownedRow id k owned
    obtain ⟨r',new,_⟩ := kept old
    exact ⟨r',new⟩
  · intro id r looked released
    rcases cases looked with ⟨_,rfl⟩ | ⟨_,looked⟩
    · exact replaces.released released
    · exact inv.released id r looked released
  · intro id event
    obtain ⟨r,old,settled,unreleased⟩ := inv.recovered id event
    by_cases same : id = row.id
    · obtain rfl : row = r := Option.some.inj (found.symm.trans (same ▸ old))
      exact ⟨row',by rw [lookup,if_pos same],replaces.settled settled⟩
    · exact ⟨r,by rw [lookup,if_neg same,old],settled,unreleased⟩
  · intro keys a member
    obtain ⟨source,derived,content,sourced,looked,completed,analysed,digest,size,copy,shared,valid⟩ :=
      inv.lineage keys a member
    have differs : a.derivedScanId ≠ row.id := by
      intro same
      rw [same,found] at looked
      cases looked
      exact replaces.incomplete completed
    obtain ⟨source',sourced',same,_⟩ := kept sourced
    obtain ⟨derived',looked',_,equal⟩ := kept looked
    obtain rfl := equal differs
    exact ⟨source',derived',content,sourced',looked',completed,analysed,digest,size,copy,shared,
      fun sizes => validLineage_source same (valid sizes)⟩
  · intro distinct assumed id r looked
    rcases cases looked with ⟨rfl,rfl⟩ | ⟨_,looked⟩
    · obtain ⟨content,file,digest,size⟩ := inv.objects distinct assumed row.id row found
      exact ⟨content,by rw [replaces.same.storageKey]; exact file,by rw [replaces.same.sha256]; exact digest,
        by rw [replaces.same.sizeBytes]; exact size⟩
    · exact inv.objects distinct assumed id r looked

theorem quarantineRow_replaces {row : ScanRow} {now updated : Int} (analyzing : row.state = .ANALYZING) :
    Replaces row (quarantineRow row now updated) where
  same := quarantineRow_same row now updated
  incomplete completed := by
    rw [analyzing] at completed
    cases completed
  released := fun released => by cases released
  settled _ := ⟨.inr rfl,rfl⟩

/-- Recovery quarantines a scan that is being analyzed, with its event. -/
theorem inv_recover {row : ScanRow} {now updated : Int} {e : AuditEvent} (inv : Inv env given s)
    (found : s.scan row.id = some row) (analyzing : row.state = .ANALYZING)
    (recovery : e.eventType = .RECOVERY_STALE_SCAN_QUARANTINED) (named : e.scanId = some row.id)
    (noArtifact : e.artifactId = none) :
    Inv env given ((s.putScan (quarantineRow row now updated)).addEvent e) := by
  have put : Inv env given (s.putScan (quarantineRow row now updated)) :=
    inv_putScan inv found (quarantineRow_replaces analyzing)
  refine { put with recovered := ?_, approvals := ?_, eventArtifacts := ?_ }
  · rintro id ⟨e',member,type,scan⟩
    rcases List.mem_append.mp member with old | new
    · exact put.recovered id ⟨e',old,type,scan⟩
    · obtain rfl := List.mem_singleton.mp new
      obtain rfl : row.id = id := Option.some.inj (named.symm.trans scan)
      refine ⟨quarantineRow row now updated,?_,.inr rfl,rfl⟩
      change (s.putScan (quarantineRow row now updated)).scan row.id = _
      rw [scan_putScan,found]
      exact if_pos rfl
  · intro a member
    have other : approves a.id e = false := by simp [approves,recovery]
    simp only [World.addEvent,List.filter_append,List.length_append]
    rw [put.approvals a member]
    simp [other]
  · intro e' member
    rcases List.mem_append.mp member with old | new
    · exact put.eventArtifacts e' old
    · obtain rfl := List.mem_singleton.mp new
      refine ⟨fun approval => ?_,fun id named' => ?_⟩
      · rw [recovery] at approval
        cases approval
      · rw [noArtifact] at named'
        cases named'

/-- An artifact with its lineage and its approval. -/
theorem inv_addArtifact {me : Nat} {a : ArtifactRow} {e : AuditEvent} (inv : Inv env given s)
    (unused : ∀ b ∈ s.artifacts, b.id ≠ a.id) (lineage : given.keys → Lineage env s a) (approval : approves a.id e = true) :
    Inv env given ((s.addArtifact me a).addEvent e) := by
  simp only [approves,decide_eq_true_eq] at approval
  obtain ⟨type,named⟩ := approval
  have fresh : s.events.filter (approves a.id) = [] := by
    refine List.filter_eq_nil_iff.mpr fun e' member approved => ?_
    simp only [approves,decide_eq_true_eq] at approved
    obtain ⟨b,listed,same⟩ := (inv.eventArtifacts e' member).2 a.id approved.2
    exact unused b listed same
  refine ⟨inv.distinct,inv.rowOwner,inv.ownedRow,inv.released,?_,?_,?_,?_,?_,?_,?_,inv.objects⟩
  · rintro id ⟨e',member,recovery,scan⟩
    rcases List.mem_append.mp member with old | new
    · exact inv.recovered id ⟨e',old,recovery,scan⟩
    · obtain rfl := List.mem_singleton.mp new
      rw [type] at recovery
      cases recovery
  · simp only [World.addEvent,World.addArtifact,List.map_append,List.map_cons,List.map_nil]
    refine inv.artifactsDistinct.append (List.nodup_singleton _) ?_
    intro id old new
    obtain ⟨b,member,rfl⟩ := List.mem_map.mp old
    exact unused b member (List.mem_singleton.mp new)
  · intro b member
    rcases List.mem_append.mp member with old | new
    · obtain ⟨k,owned⟩ := inv.artifactOwner b old
      exact ⟨k,by simpa [World.addEvent,World.addArtifact,Function.update_of_ne (unused b old)] using owned⟩
    · obtain rfl := List.mem_singleton.mp new
      exact ⟨me,by simp [World.addEvent,World.addArtifact]⟩
  · intro id k owned
    by_cases same : id = a.id
    · exact ⟨a,List.mem_append_right _ (List.mem_singleton_self a),same.symm⟩
    · obtain ⟨b,member,equal⟩ := inv.ownedArtifact id k
        (by simpa [World.addEvent,World.addArtifact,Function.update_of_ne same] using owned)
      exact ⟨b,List.mem_append_left _ member,equal⟩
  · intro distinct b member
    rcases List.mem_append.mp member with old | new
    · exact inv.lineage distinct b old
    · obtain rfl := List.mem_singleton.mp new
      exact lineage distinct
  · intro b member
    simp only [World.addEvent,World.addArtifact,List.filter_append,List.length_append]
    rcases List.mem_append.mp member with old | new
    · have other : approves b.id e = false := by
        simp only [approves,named,decide_eq_false_iff_not,not_and]
        intro _ same
        exact unused b old (Option.some.inj same).symm
      rw [inv.approvals b old]
      simp [other]
    · obtain rfl := List.mem_singleton.mp new
      rw [fresh]
      simp [approves,type,named]
  · intro e' member
    rcases List.mem_append.mp member with old | new
    · refine ⟨(inv.eventArtifacts e' old).1,fun id naming => ?_⟩
      obtain ⟨b,listed,same⟩ := (inv.eventArtifacts e' old).2 id naming
      exact ⟨b,List.mem_append_left _ listed,same⟩
    · obtain rfl := List.mem_singleton.mp new
      refine ⟨fun _ => named ▸ Option.some_ne_none a.id,fun id naming => ?_⟩
      exact ⟨a,List.mem_append_right _ (List.mem_singleton_self a),Option.some.inj (named.symm.trans naming)⟩

/-! ### Changes that others may rely on -/

section Guarantees
variable {me : Nat}

private theorem update_other {f : Text → Option Nat} {key : Text} (fresh : f key = none ∨ f key = some me) {k : Nat}
    (differs : k ≠ me) (x : Text) : Function.update f key (some me) x = some k ↔ f x = some k := by
  by_cases same : x = key
  · subst same
    rw [Function.update_self]
    rcases fresh with none | own
    · simp [none,Ne.symm differs]
    · simp [own,Ne.symm differs]
  · rw [Function.update_of_ne same]

theorem keeps_addEvent (s : World) (e : AuditEvent) (k : Nat) : Keeps given k s (s.addEvent e) :=
  { Keeps.refl k s with events := fun _ member => List.mem_append_left _ member }

theorem unowned (inv : Inv env given s) {id : Text} (unused : s.scan id = none) : s.history.scanOwner id = none := by
  cases owned : s.history.scanOwner id with
  | none => rfl
  | some k =>
    obtain ⟨row,found⟩ := inv.ownedRow id k owned
    rw [unused] at found
    cases found

theorem keeps_addScan {row : ScanRow} (inv : Inv env given s) (unused : s.scan row.id = none) :
    Guarantee (Keeps given) me s (s.addScan me row) := by
  intro k differs
  refine { Keeps.refl k s with scanOwner := update_other (.inl (unowned inv unused)) differs, scans := ?_ }
  intro id owned
  obtain ⟨r,found⟩ := inv.ownedRow id k owned
  have other : id ≠ row.id := by
    rintro rfl
    rw [unused] at found
    cases found
  exact .inl (by rw [scan_addScan me unused,if_neg other])

theorem keeps_putScan {row' : ScanRow} (owned : s.history.scanOwner row'.id = some me) :
    Guarantee (Keeps given) me s (s.putScan row') := by
  intro k differs
  refine { Keeps.refl k s with scans := ?_ }
  intro id other
  have distinct : id ≠ row'.id := by
    rintro rfl
    rw [owned] at other
    exact differs (Option.some.inj other).symm
  exact .inl (by rw [scan_putScan,if_neg distinct])

theorem keeps_recover {row : ScanRow} {now updated : Int} (found : s.scan row.id = some row)
    (analyzing : row.state = .ANALYZING) (k : Nat) : Keeps given k s (s.putScan (quarantineRow row now updated)) := by
  refine { Keeps.refl k s with scans := ?_ }
  intro id _
  have same : (quarantineRow row now updated).id = row.id := rfl
  by_cases own : id = row.id
  · subst own
    exact .inr ⟨row,now,updated,found,analyzing,by rw [scan_putScan,same,if_pos rfl,found]; rfl⟩
  · exact .inl (by rw [scan_putScan,same,if_neg own])

theorem keeps_setFile {area : Area} {key : Text} {content : Option Bytes}
    (own : given.keys → s.history.fileOwner key = none ∨ s.history.fileOwner key = some me) :
    Guarantee (Keeps given) me s (setFile s area key content) := by
  intro k differs
  cases area with
  | sanitized => exact { Keeps.refl k s with }
  | quarantine =>
    refine { Keeps.refl k s with quarantine := ?_ }
    intro distinct other owned
    have differs' : other ≠ key := by
      rintro rfl
      rcases own distinct with none | mine
      · rw [none] at owned
        cases owned
      · rw [mine] at owned
        exact differs (Option.some.inj owned).symm
    exact Function.update_of_ne differs' _ _

theorem keeps_addFile {area : Area} {key : Text} {content : Bytes}
    (fresh : given.keys → s.history.fileOwner key = none) :
    Guarantee (Keeps given) me s (addFile me s area key content) := by
  intro k differs
  have kept : Keeps given k s (setFile s area key (some content)) :=
    keeps_setFile (fun distinct => .inl (fresh distinct)) k differs
  have owner (distinct : given.keys) (other : Text) :
      (addFile me s area key content).history.fileOwner other = some k ↔ s.history.fileOwner other = some k := by
    cases area <;> exact update_other (.inl (fresh distinct)) differs other
  cases area with
  | quarantine => exact { kept with fileOwner := owner }
  | sanitized => exact { kept with fileOwner := owner }

theorem keeps_noteAnalysis {id : Text} {content : Option Bytes} (owned : s.history.scanOwner id = some me) :
    Guarantee (Keeps given) me s (s.noteAnalysis id content) := by
  intro k differs
  refine { Keeps.refl k s with analysed := ?_ }
  intro other mine
  have distinct : other ≠ id := by
    rintro rfl
    rw [owned] at mine
    exact differs (Option.some.inj mine).symm
  exact Function.update_of_ne distinct _ _

theorem keeps_addArtifact {a : ArtifactRow} (inv : Inv env given s) (unused : ∀ b ∈ s.artifacts, b.id ≠ a.id) :
    Guarantee (Keeps given) me s (s.addArtifact me a) := by
  have fresh : s.history.artifactOwner a.id = none := by
    cases owned : s.history.artifactOwner a.id with
    | none => rfl
    | some k =>
      obtain ⟨b,member,same⟩ := inv.ownedArtifact a.id k owned
      exact absurd same (unused b member)
  intro k differs
  exact { Keeps.refl k s with
    artifactOwner := update_other (.inl fresh) differs
    artifacts := fun _ member => List.mem_append_left _ member }

end Guarantees
end DocGuard.Lifecycle
