import DocGuard.Cdr
import DocGuard.Recovery

/-!
The inspection of the persisted state against the storage directories: the rows of
one batch and their files, the files that no row names, and stale temporary files.
A report without issues that is not truncated speaks for everything that was
inspected, and the rows after the batch are not.
-/
namespace DocGuard.Reconciliation
open DocGuard.Checks DocGuard.Ordered DocGuard.Domain DocGuard.Programs DocGuard.Database DocGuard.Recovery DocGuard.Cdr

/-! ### The storage directories -/

/-- What `stat` and a read tell about a file. -/
structure FileInfo where
  regular : Bool
  uid : Nat
  nlink : Nat
  mode : Nat
  modified : Int
  content : Bytes

/-- An entry of `os.scandir`; `stat` is `none` when it fails. -/
structure DirEntry where
  name : Text
  stat : Option FileInfo

/-- A storage directory: its entries in the order in which they are listed, the name to which the path of a key
    resolves within the directory, and what an open that follows no link finds under a name. -/
structure Directory where
  entries : List DirEntry := []
  resolved : Text → Option Text := some
  opened : Text → Option FileInfo := fun _ => none

structure Site where
  world : World := {}
  quarantine : Directory := {}
  sanitized : Directory := {}
  incoming : Directory := {}
  work : Directory := {}

/-! ### The report -/

structure ReconciliationIssue where
  code : Text
  objectId : Option Text := none

structure ReconciliationReport where
  inspectedScans : Nat := 0
  inspectedArtifacts : Nat := 0
  inspectedFiles : Nat := 0
  issues : List ReconciliationIssue := []
  staleScansQuarantined : Nat := 0
  temporaryFilesCleaned : Nat := 0
  truncated : Bool := false

/-- The arguments of `inspect`, what it is configured with, and what its environment decides. -/
structure Inspection where
  digest : Bytes → Text
  euid : Nat
  staleSeconds : Int
  batchSize : Nat
  apply : Bool := false
  cleanupTemporary : Bool := false
  now : Int
  lockAcquired : Bool := true
  /-- The transaction that quarantines a scan. -/
  recovering : Text → Choice := fun _ => {}
  /-- The removal of a temporary file: it fails, or its directory cannot be opened (`cleanupFails`). -/
  unlinking : Text → Fault := fun _ => .none
  /-- The audit event of a removal. -/
  auditing : Text → Choice := fun _ => {}

def Inspection.cutoff (c : Inspection) : Int := c.now - c.staleSeconds

/-- The site and the report while the inspection is going on. -/
structure Progress where
  site : Site
  report : ReconciliationReport := {}

def Progress.issue (p : Progress) (code id : Text) : Progress :=
  { p with report := { p.report with issues := p.report.issues ++ [⟨code,some id⟩] } }

/-- A part of the inspection; an exception ends all of it without a report. -/
abbrev Part := Progress → Except Exn Progress

/-- The parts for the members of a list, in order. -/
def forEach {α : Type} (part : α → Part) : List α → Part
  | [],p => .ok p
  | x :: rest,p => part x p >>= forEach part rest

variable (c : Inspection)

/-! ### Rows -/

/-- `StoragePaths.resolve`, for a key that `validate_storage_key` accepts. -/
def resolve (d : Directory) (key : Text) : Except Exn Text :=
  if hex32 key then
    match d.resolved key with
    | some name => .ok name
    | none => .error .ValueError
  else .error .ValueError

/-- `_private_file_matches` -/
def privateFileMatches (found : Option FileInfo) (expectedHash : Text) (expectedSize : Nat) : Bool :=
  found.any fun info => info.regular && info.uid == c.euid && info.nlink == 1 && info.mode == 0o400 &&
    info.content.length == expectedSize && c.digest info.content == expectedHash

/-- The row is counted as stale, and quarantined when the inspection applies its findings. -/
def inspectStale (row : ScanRow) : Part := fun p =>
  if stale row c.cutoff then
    let p := p.issue (lit "STALE_ANALYZING_SCAN") row.id
    if c.apply then
      match quarantineStaleScan row.id c.cutoff c.now p.site.world (c.recovering row.id) with
      | (.error e,_) => .error e
      | (.ok quarantined,world) => .ok
          { site := { p.site with world := world }
            report := { p.report with
              staleScansQuarantined := p.report.staleScansQuarantined + if quarantined then 1 else 0 } }
    else .ok p
  else .ok p

/-- The file that a row names in a directory. -/
def inspectObject (directory : Site → Directory) (code id key sha256 : Text) (size : Nat) : Part := fun p => do
  let path ← resolve (directory p.site) key
  if privateFileMatches c ((directory p.site).opened path) sha256 size then return p else return p.issue code id

def inspectParent (row : ScanRow) : Part := fun p =>
  match row.parentScanId with
  | some parent =>
    if (p.site.world.scan parent).isSome then .ok p else .ok (p.issue (lit "DERIVED_PARENT_LINEAGE_BROKEN") row.id)
  | none => .ok p

def inspectScan (row : ScanRow) : Part := fun p => do
  let p ← inspectStale c row p
  let p ← inspectObject c (·.quarantine) (lit "SCAN_OBJECT_MISSING_OR_INVALID") row.id row.storageKey row.sha256
    row.sizeBytes p
  inspectParent row p

def inspectArtifact (a : ArtifactRow) : Part :=
  inspectObject c (·.sanitized) (lit "ARTIFACT_INTEGRITY_FAILURE") a.id a.storageKey a.sha256 a.sizeBytes

/-! ### Files -/

def hidden (name : Text) : Bool := Text.startsWith name ['.']

/-- The entries of a directory; `count` of them have been counted. -/
def countOrphans (referenced : Text → Bool) (code : Text) : Nat → List DirEntry → Progress → Progress
  | _,[],p => p
  | count,entry :: rest,p =>
    if hidden entry.name then countOrphans referenced code count rest p
    else if c.batchSize < count + 1 then { p with report := { p.report with truncated := true } }
    else
      let p := { p with report := { p.report with inspectedFiles := p.report.inspectedFiles + 1 } }
      countOrphans referenced code (count + 1) rest (if referenced entry.name then p else p.issue code entry.name)

/-- `_storage_key_is_referenced`, for scans and for artifacts. -/
def scanReferences (w : World) (key : Text) : Bool := w.scans.any (·.storageKey == key)

def artifactReferences (w : World) (key : Text) : Bool := w.artifacts.any (·.storageKey == key)

/-- `_inspect_orphans` -/
def inspectOrphans (directory : Site → Directory) (references : World → Text → Bool) (code : Text) : Part := fun p =>
  .ok (countOrphans c (references p.site.world) code 0 (directory p.site).entries p)

/-! ### Temporary files -/

/-- What follows a start of the text, or a run of hexadecimal digits. -/
def after (start text : Text) : Option Text :=
  if Text.startsWith text start then some (text.drop start.length) else none

def afterHex (n : Nat) (text : Text) : Option Text :=
  if n ≤ text.length ∧ (text.take n).all lowerHex then some (text.drop n) else none

/-- `_UPLOAD_TEMP_RE` or `_CDR_TEMP_RE` matches the whole name. -/
def recognizedName (name : Text) : Bool :=
  (((after ['.'] name).bind (afterHex 32)).bind fun rest => (after ['.'] rest).bind (afterHex 16)) = some (lit ".part") ∨
  (after (lit ".cdr-") name).bind (afterHex 32) = some (lit ".part")

def trusted (info : FileInfo) : Bool :=
  info.regular && info.uid == c.euid && info.nlink == 1 && decide (info.mode = 0o400 ∨ info.mode = 0o600) &&
    decide (info.modified ≤ c.cutoff)

inductive TempArea where
  | incoming
  | work
deriving DecidableEq, Repr

def tempDirectory (s : Site) : TempArea → Directory
  | .incoming => s.incoming
  | .work => s.work

def tempAreaName : TempArea → Text
  | .incoming => lit "incoming"
  | .work => lit "work"

def Directory.remove (d : Directory) (name : Text) : Directory :=
  { d with
    entries := d.entries.filter (·.name ≠ name)
    opened := Function.update d.opened name none }

def removeTemp (s : Site) (area : TempArea) (name : Text) : Site :=
  match area with
  | .incoming => { s with incoming := s.incoming.remove name }
  | .work => { s with work := s.work.remove name }

/-- `_unlink_qualified_temp` -/
def unlinkQualifiedTemp (area : TempArea) (name : Text) (s : Site) : Except Exn (Bool × Site) :=
  match c.unlinking name with
  | .cleanupFails => .error .OSError
  | .fails => .ok (false,s)
  | .none =>
    if ((tempDirectory s area).opened name).any (trusted c) then .ok (true,removeTemp s area name) else .ok (false,s)

/-- The audit event of a temporary file that was removed. -/
def appendCleaned (area : TempArea) : Step Unit :=
  raising .AuditPersistenceError (transaction fun w _ =>
    (addToTransaction w
      { eventType := .TEMP_OBJECT_CLEANED
        scanId := none
        outcome := .SUCCESS
        details := [(lit "area",.str (tempAreaName area))] }).map fun w' => ((),w'))

/-- A stale temporary file is reported, and removed when the inspection cleans up. -/
def cleanTemp (area : TempArea) (name : Text) : Part := fun p =>
  let p := p.issue (lit "STALE_TEMP_OBJECT") name
  if c.apply && c.cleanupTemporary then
    match unlinkQualifiedTemp c area name p.site with
    | .error e => .error e
    | .ok (false,site) => .ok { p with site := site }
    | .ok (true,site) =>
      match appendCleaned area site.world (c.auditing name) with
      | (.error e,_) => .error e
      | (.ok _,world) => .ok
          { site := { site with world := world }
            report := { p.report with temporaryFilesCleaned := p.report.temporaryFilesCleaned + 1 } }
  else .ok p

/-- The entries of the two directories for temporary files; `count` recognized ones have been counted. -/
def countTemps : Nat → List (TempArea × DirEntry) → Part
  | _,[],p => .ok p
  | count,(area,entry) :: rest,p =>
    if recognizedName entry.name then
      if c.batchSize < count + 1 then .ok { p with report := { p.report with truncated := true } }
      else if entry.stat.any (trusted c) then cleanTemp c area entry.name p >>= countTemps (count + 1) rest
      else countTemps (count + 1) rest p
    else countTemps count rest p

/-- `_inspect_temporary` -/
def inspectTemporary : Part := fun p =>
  countTemps c 0 (p.site.incoming.entries.map (fun e => (.incoming,e)) ++ p.site.work.entries.map (fun e => (.work,e))) p

/-! ### The inspection -/

/-- The rows of the one batch that is read. -/
def scanBatch (s : Site) : List ScanRow := (sortedBy (·.id) s.world.scans).take c.batchSize

def artifactBatch (s : Site) : List ArtifactRow := (sortedBy (·.id) s.world.artifacts).take c.batchSize

/-- `_inspect_locked` -/
def inspectLocked (s : Site) : Except Exn Progress := do
  let scans := scanBatch c s
  let artifacts := artifactBatch c s
  let p ← forEach (inspectScan c) scans ⟨s,{ inspectedScans := scans.length, inspectedArtifacts := artifacts.length }⟩
  let p ← forEach (inspectArtifact c) artifacts p
  let p ← inspectOrphans c (·.quarantine) scanReferences (lit "QUARANTINE_ORPHAN") p
  let p ← inspectOrphans c (·.sanitized) artifactReferences (lit "SANITIZED_ORPHAN") p
  inspectTemporary c p

/-- `ReconciliationService.inspect`: the report, and the state that it leaves. -/
def inspect (s : Site) : Except Exn Progress := do
  require (1 ≤ c.batchSize ∧ c.batchSize ≤ 10000) Exn.ValueError
  require c.lockAcquired Exn.ReconciliationLocked
  inspectLocked c s

/-! ### What a report without issues says -/

/-- Nothing has been reported. -/
def Progress.Clean (p : Progress) : Prop := p.report.issues = [] ∧ p.report.truncated = false

/-- A part reports nothing exactly when the site satisfies the condition, and then leaves the site alone. -/
structure Exact (part : Part) (sound : Site → Prop) : Prop where
  reported : ∀ p p', part p = .ok p' → p'.Clean → p.Clean ∧ p'.site = p.site ∧ sound p.site
  passes : ∀ p, p.Clean → sound p.site → ∃ p', part p = .ok p' ∧ p'.Clean ∧ p'.site = p.site

theorem issue_unclean (p : Progress) (code id : Text) : ¬(p.issue code id).Clean := fun clean => by
  simp [Progress.Clean,Progress.issue] at clean

theorem Exact.bind {first second : Part} {S T : Site → Prop} (one : Exact first S) (two : Exact second T) :
    Exact (fun p => first p >>= second) (fun s => S s ∧ T s) where
  reported p p' done clean := by
    obtain ⟨q,early,late⟩ := bind_ok.mp done
    obtain ⟨clean',same',holds'⟩ := two.reported q p' late clean
    obtain ⟨clean'',same,holds⟩ := one.reported p q early clean'
    exact ⟨clean'',same'.trans same,holds,same ▸ holds'⟩
  passes p clean holds := by
    obtain ⟨q,early,clean',same⟩ := one.passes p clean holds.1
    obtain ⟨p',late,clean'',same'⟩ := two.passes q clean' (same ▸ holds.2)
    exact ⟨p',bind_ok.mpr ⟨q,early,late⟩,clean'',same'.trans same⟩

theorem Exact.forEach {α : Type} {part : α → Part} {sound : α → Site → Prop} (each : ∀ x, Exact (part x) (sound x))
    (l : List α) : Exact (forEach part l) (fun s => ∀ x ∈ l, sound x s) := by
  induction l with
  | nil =>
    refine ⟨fun p p' done clean => ?_,fun p clean _ => ⟨p,rfl,clean,rfl⟩⟩
    cases done
    exact ⟨clean,rfl,fun x member => by cases member⟩
  | cons x rest ih =>
    have both := (each x).bind ih
    refine ⟨fun p p' done clean => ?_,fun p clean holds => ?_⟩
    · obtain ⟨clean',same,holds⟩ := both.reported p p' done clean
      exact ⟨clean',same,List.forall_mem_cons.mpr holds⟩
    · exact both.passes p clean (List.forall_mem_cons.mp holds)

/-- A part that reports an issue unless a test passes. -/
theorem exact_test {test : Site → Bool} {code id : Text} {part : Part}
    (tests : ∀ p, part p = .ok (if test p.site then p else p.issue code id)) : Exact part (fun s => test s = true) where
  reported p p' done clean := by
    rw [tests] at done
    cases done
    by_cases passed : test p.site = true
    · rw [if_pos passed] at clean ⊢
      exact ⟨clean,rfl,passed⟩
    · rw [if_neg passed] at clean
      exact absurd clean (issue_unclean p code id)
  passes p clean passed := ⟨p,by rw [tests,if_pos passed],clean,rfl⟩

/-! ### Rows -/

/-- The file that the key names in a directory is private, with this digest and size. -/
def Matches (d : Directory) (key sha256 : Text) (size : Nat) : Prop :=
  ∃ name info, resolve d key = .ok name ∧ d.opened name = some info ∧ info.regular = true ∧ info.uid = c.euid ∧
    info.nlink = 1 ∧ info.mode = 0o400 ∧ info.content.length = size ∧ c.digest info.content = sha256

/-- The row is not stale, has its file, and refers to a parent that exists. -/
structure SoundScan (s : Site) (row : ScanRow) : Prop where
  fresh : ¬(row.state = .ANALYZING ∧ row.updatedAt ≤ c.cutoff)
  object : Matches c s.quarantine row.storageKey row.sha256 row.sizeBytes
  parent : ∀ parent, row.parentScanId = some parent → ∃ r ∈ s.world.scans, r.id = parent

def SoundArtifact (s : Site) (a : ArtifactRow) : Prop := Matches c s.sanitized a.storageKey a.sha256 a.sizeBytes

theorem inspectStale_exact (row : ScanRow) : Exact (inspectStale c row) (fun _ => stale row c.cutoff = false) where
  reported p p' done clean := by
    unfold inspectStale at done
    split at done
    · refine absurd clean ?_
      dsimp only at done
      split at done
      · split at done
        · cases done
        · cases done
          exact issue_unclean p _ _
      · cases done
        exact issue_unclean p _ _
    · rename_i old
      cases done
      exact ⟨clean,rfl,by simpa using old⟩
  passes p clean fresh := ⟨p,by simp [inspectStale,fresh],clean,rfl⟩

theorem inspectObject_exact (directory : Site → Directory) (code id key sha256 : Text) (size : Nat) :
    Exact (inspectObject c directory code id key sha256 size) (fun s => Matches c (directory s) key sha256 size) where
  reported p p' done clean := by
    obtain ⟨path,resolved,rest⟩ := bind_ok.mp done
    split at rest
    · rename_i found
      cases rest
      refine ⟨clean,rfl,?_⟩
      simp only [privateFileMatches,Option.any_eq_true,Bool.and_eq_true,beq_iff_eq] at found
      obtain ⟨info,opened,⟨⟨⟨⟨regular,uid⟩,nlink⟩,mode⟩,length⟩,digest⟩ := found
      exact ⟨path,info,resolved,opened,regular,uid,nlink,mode,length,digest⟩
    · cases rest
      exact absurd clean (issue_unclean p code id)
  passes p clean matching := by
    obtain ⟨path,info,resolved,opened,regular,uid,nlink,mode,length,digest⟩ := matching
    refine ⟨p,bind_ok.mpr ⟨path,resolved,?_⟩,clean,rfl⟩
    simp [privateFileMatches,opened,regular,uid,nlink,mode,length,digest]
    rfl

theorem inspectParent_exact (row : ScanRow) : Exact (inspectParent row)
    (fun s => row.parentScanId.all (fun parent => (s.world.scan parent).isSome) = true) := by
  refine @exact_test _ (lit "DERIVED_PARENT_LINEAGE_BROKEN") row.id _ fun p => ?_
  unfold inspectParent
  cases row.parentScanId with
  | none => rfl
  | some parent =>
    simp only [Option.all_some]
    split <;> rfl

theorem soundScan_iff {s : Site} {row : ScanRow} : SoundScan c s row ↔ stale row c.cutoff = false ∧
    Matches c s.quarantine row.storageKey row.sha256 row.sizeBytes ∧
    row.parentScanId.all (fun parent => (s.world.scan parent).isSome) = true := by
  have fresh : stale row c.cutoff = false ↔ ¬(row.state = .ANALYZING ∧ row.updatedAt ≤ c.cutoff) := by simp [stale]
  have parent : row.parentScanId.all (fun parent => (s.world.scan parent).isSome) = true ↔
      ∀ parent, row.parentScanId = some parent → ∃ r ∈ s.world.scans, r.id = parent := by
    simp [Option.all_eq_true,World.scan,List.find?_isSome]
  rw [fresh,parent]
  exact ⟨fun sound => ⟨sound.fresh,sound.object,sound.parent⟩,fun ⟨one,two,three⟩ => ⟨one,two,three⟩⟩

theorem inspectScan_exact (row : ScanRow) : Exact (inspectScan c row) (fun s => SoundScan c s row) := by
  have all := (inspectStale_exact c row).bind ((inspectObject_exact c (·.quarantine)
    (lit "SCAN_OBJECT_MISSING_OR_INVALID") row.id row.storageKey row.sha256 row.sizeBytes).bind (inspectParent_exact row))
  simp only [← soundScan_iff] at all
  exact all

/-! ### Files -/

def visible (entries : List DirEntry) : List DirEntry := entries.filter (fun e => !hidden e.name)

theorem countOrphans_site (referenced : Text → Bool) (code : Text) (entries : List DirEntry) (count : Nat)
    (p : Progress) : (countOrphans c referenced code count entries p).site = p.site := by
  induction entries generalizing count p with
  | nil => rfl
  | cons e rest ih =>
    simp only [countOrphans]
    split
    · exact ih count p
    · split
      · rfl
      · rw [ih]
        split <;> rfl

/-- No issue is added when every visible entry is referenced and the count stays within the batch. -/
theorem countOrphans_clean {referenced : Text → Bool} {code : Text} {entries : List DirEntry} {count : Nat}
    {p : Progress} (within : count ≤ c.batchSize) : (countOrphans c referenced code count entries p).Clean ↔
      p.Clean ∧ (∀ e ∈ visible entries, referenced e.name = true) ∧
        count + (visible entries).length ≤ c.batchSize := by
  induction entries generalizing count p with
  | nil => simp [countOrphans,visible,within]
  | cons e rest ih =>
    by_cases hide : hidden e.name = true
    · have same : visible (e :: rest) = visible rest := by simp [visible,hide]
      rw [same,countOrphans,if_pos hide]
      exact ih within
    · have more : visible (e :: rest) = e :: visible rest := by simp [visible,hide]
      rw [more,countOrphans,if_neg hide,List.forall_mem_cons,List.length_cons]
      split
      · rename_i full
        constructor
        · intro clean
          exact absurd clean.2 (by simp)
        · rintro ⟨_,_,few⟩
          omega
      · rename_i room
        rw [ih (by omega)]
        by_cases known : referenced e.name = true
        · simp only [known,if_true,true_and]
          have same : (count + 1 + (visible rest).length ≤ c.batchSize) ↔
              (count + ((visible rest).length + 1) ≤ c.batchSize) := by omega
          rw [same]
          rfl
        · rw [if_neg known]
          exact iff_of_false (fun clean => issue_unclean _ code e.name clean.1) (fun sound => known sound.2.1.1)

/-- The entries of a directory that are not hidden are referenced, and fit the batch. -/
def Referenced (d : Directory) (referenced : Text → Bool) : Prop :=
  (∀ e ∈ visible d.entries, referenced e.name = true) ∧ (visible d.entries).length ≤ c.batchSize

theorem inspectOrphans_exact (directory : Site → Directory) (references : World → Text → Bool) (code : Text) :
    Exact (inspectOrphans c directory references code)
      (fun s => Referenced c (directory s) (references s.world)) where
  reported p p' done clean := by
    cases done
    obtain ⟨clean',known,few⟩ := (countOrphans_clean c (Nat.zero_le _)).mp clean
    exact ⟨clean',countOrphans_site c _ _ _ _ p,known,by simpa using few⟩
  passes p clean sound := by
    refine ⟨_,rfl,(countOrphans_clean c (Nat.zero_le _)).mpr ⟨clean,sound.1,by simpa using sound.2⟩,?_⟩
    exact countOrphans_site c _ _ _ _ p

/-! ### Temporary files -/

/-- The entries with a recognized name. -/
def recognized (entries : List (TempArea × DirEntry)) : List (TempArea × DirEntry) :=
  entries.filter (fun e => recognizedName e.2.name)

theorem cleanTemp_unclean {area : TempArea} {name : Text} {p p' : Progress}
    (done : cleanTemp c area name p = .ok p') : ¬p'.Clean := by
  simp only [cleanTemp] at done
  split at done
  · split at done
    · cases done
    · cases done
      exact issue_unclean p _ _
    · split at done
      · cases done
      · cases done
        exact issue_unclean p _ _
  · cases done
    exact issue_unclean p _ _

theorem countTemps_exact {count : Nat} (within : count ≤ c.batchSize) (entries : List (TempArea × DirEntry)) :
    Exact (countTemps c count entries) (fun _ => (∀ e ∈ recognized entries, e.2.stat.any (trusted c) = false) ∧
      count + (recognized entries).length ≤ c.batchSize) := by
  induction entries generalizing count with
  | nil =>
    refine ⟨fun p p' done clean => ?_,fun p clean _ => ⟨p,rfl,clean,rfl⟩⟩
    cases done
    simp [recognized,within,clean]
  | cons e rest ih =>
    obtain ⟨area,e⟩ := e
    by_cases known : recognizedName e.name = true
    · have more : recognized ((area,e) :: rest) = (area,e) :: recognized rest := by simp [recognized,known]
      simp only [more,List.forall_mem_cons,List.length_cons]
      by_cases full : c.batchSize < count + 1
      · refine ⟨fun p p' done clean => ?_,fun p clean sound => ?_⟩
        · simp only [countTemps,known,full,if_true] at done
          cases done
          exact absurd clean.2 (by simp)
        · omega
      · have later := @ih (count + 1) (by omega)
        by_cases stale : e.stat.any (trusted c) = true
        · refine ⟨fun p p' done clean => ?_,fun p clean sound => ?_⟩
          · simp only [countTemps,known,full,stale,if_true,if_false] at done
            obtain ⟨q,early,late⟩ := bind_ok.mp done
            exact absurd (later.reported q p' late clean).1 (cleanTemp_unclean c early)
          · rw [stale] at sound
            cases sound.1.1
        · have fresh : e.stat.any (trusted c) = false := by simpa using stale
          refine ⟨fun p p' done clean => ?_,fun p clean sound => ?_⟩
          · simp only [countTemps,known,full,fresh,if_true,if_false,Bool.false_eq_true] at done
            obtain ⟨clean',same,others,few⟩ := later.reported p p' done clean
            exact ⟨clean',same,⟨fresh,others⟩,by omega⟩
          · obtain ⟨p',done,rest'⟩ := later.passes p clean ⟨sound.1.2,by omega⟩
            exact ⟨p',by simpa [countTemps,known,full,fresh] using done,rest'⟩
    · have same : recognized ((area,e) :: rest) = recognized rest := by simp [recognized,known]
      have later := ih within
      rw [same]
      refine ⟨fun p p' done clean => ?_,fun p clean sound => ?_⟩
      · exact later.reported p p' (by simpa [countTemps,known] using done) clean
      · obtain ⟨p',done,rest'⟩ := later.passes p clean sound
        exact ⟨p',by simpa [countTemps,known] using done,rest'⟩

/-! ### The report -/

/-- The entries of the two directories for temporary files. -/
def temporaries (s : Site) : List (TempArea × DirEntry) :=
  s.incoming.entries.map (fun e => (.incoming,e)) ++ s.work.entries.map (fun e => (.work,e))

/-- What is inspected gives no reason for an issue, and fits the batch. -/
structure Unremarkable (s : Site) : Prop where
  batchSize : 1 ≤ c.batchSize ∧ c.batchSize ≤ 10000
  lockAcquired : c.lockAcquired = true
  scans : ∀ row ∈ scanBatch c s, SoundScan c s row
  artifacts : ∀ a ∈ artifactBatch c s, SoundArtifact c s a
  quarantine : Referenced c s.quarantine (scanReferences s.world)
  sanitized : Referenced c s.sanitized (artifactReferences s.world)
  temporary : (∀ e ∈ recognized (temporaries s), e.2.stat.any (trusted c) = false) ∧
    (recognized (temporaries s)).length ≤ c.batchSize

theorem inspectTemporary_exact : Exact (inspectTemporary c)
    (fun s => (∀ e ∈ recognized (temporaries s), e.2.stat.any (trusted c) = false) ∧
      (recognized (temporaries s)).length ≤ c.batchSize) where
  reported p p' done clean := by
    simpa using (countTemps_exact c (Nat.zero_le _) (temporaries p.site)).reported p p' done clean
  passes p clean sound := (countTemps_exact c (Nat.zero_le _) (temporaries p.site)).passes p clean (by simpa using sound)

/-- The parts of the inspection after the batches have been read. -/
theorem parts_exact (scans : List ScanRow) (artifacts : List ArtifactRow) :
    Exact (fun p => forEach (inspectScan c) scans p >>= fun p => forEach (inspectArtifact c) artifacts p >>= fun p =>
        inspectOrphans c (·.quarantine) scanReferences (lit "QUARANTINE_ORPHAN") p >>= fun p =>
        inspectOrphans c (·.sanitized) artifactReferences (lit "SANITIZED_ORPHAN") p >>= inspectTemporary c)
      (fun s => (∀ row ∈ scans, SoundScan c s row) ∧ (∀ a ∈ artifacts, SoundArtifact c s a) ∧
        Referenced c s.quarantine (scanReferences s.world) ∧ Referenced c s.sanitized (artifactReferences s.world) ∧
        (∀ e ∈ recognized (temporaries s), e.2.stat.any (trusted c) = false) ∧
          (recognized (temporaries s)).length ≤ c.batchSize) := by
  have artifact (a : ArtifactRow) : Exact (inspectArtifact c a) (fun s => SoundArtifact c s a) :=
    inspectObject_exact c (·.sanitized) _ a.id a.storageKey a.sha256 a.sizeBytes
  exact (Exact.forEach (inspectScan_exact c) scans).bind ((Exact.forEach artifact artifacts).bind
    ((inspectOrphans_exact c (·.quarantine) scanReferences _).bind
      ((inspectOrphans_exact c (·.sanitized) artifactReferences _).bind (inspectTemporary_exact c))))

theorem inspect_clean {s : Site} {p : Progress} (done : inspect c s = .ok p) (clean : p.Clean) :
    p.site = s ∧ Unremarkable c s := by
  simp only [inspect,require_bind_ok] at done
  obtain ⟨size,locked,done⟩ := done
  obtain ⟨_,same,scans,artifacts,quarantine,sanitized,temporary⟩ :=
    (parts_exact c (scanBatch c s) (artifactBatch c s)).reported _ p done clean
  exact ⟨same,size,locked,scans,artifacts,quarantine,sanitized,temporary⟩

theorem inspect_unremarkable {s : Site} (holds : Unremarkable c s) :
    ∃ p, inspect c s = .ok p ∧ p.Clean ∧ p.site = s := by
  obtain ⟨p,done,clean,same⟩ := (parts_exact c (scanBatch c s) (artifactBatch c s)).passes
    ⟨s,{ inspectedScans := (scanBatch c s).length, inspectedArtifacts := (artifactBatch c s).length }⟩ ⟨rfl,rfl⟩
    ⟨holds.scans,holds.artifacts,holds.quarantine,holds.sanitized,holds.temporary⟩
  refine ⟨p,?_,clean,same⟩
  simp only [inspect,require_bind_ok]
  exact ⟨holds.batchSize,holds.lockAcquired,done⟩

/-- The rows and the files of the whole site are in order. -/
structure Covered (s : Site) : Prop where
  scans : ∀ row ∈ s.world.scans, SoundScan c s row
  artifacts : ∀ a ∈ s.world.artifacts, SoundArtifact c s a
  quarantine : ∀ e ∈ s.quarantine.entries, hidden e.name = false → ∃ row ∈ s.world.scans, row.storageKey = e.name
  sanitized : ∀ e ∈ s.sanitized.entries, hidden e.name = false → ∃ a ∈ s.world.artifacts, a.storageKey = e.name

/-- The rows that the batches leave out are in order. -/
structure RestSound (s : Site) : Prop where
  scans : ∀ row ∈ (sortedBy (·.id) s.world.scans).drop c.batchSize, SoundScan c s row
  artifacts : ∀ a ∈ (sortedBy (·.id) s.world.artifacts).drop c.batchSize, SoundArtifact c s a

theorem mem_batch {α : Type} {key : α → Text} {l : List α} {n : Nat} {x : α} :
    x ∈ l ↔ x ∈ (sortedBy key l).take n ∨ x ∈ (sortedBy key l).drop n := by
  rw [← List.mem_append,List.take_append_drop,mem_sortedBy]

theorem covered_iff {s : Site} (holds : Unremarkable c s) : Covered c s ↔ RestSound c s := by
  constructor
  · intro covered
    exact ⟨fun row member => covered.scans row (mem_batch.mpr (.inr member)),
      fun a member => covered.artifacts a (mem_batch.mpr (.inr member))⟩
  · intro rest
    refine ⟨fun row member => ?_,fun a member => ?_,fun e listed shown => ?_,fun e listed shown => ?_⟩
    · exact (mem_batch.mp member).elim (holds.scans row) (rest.scans row)
    · exact (mem_batch.mp member).elim (holds.artifacts a) (rest.artifacts a)
    · simpa [scanReferences] using holds.quarantine.1 e (by simp [visible,listed,shown])
    · simpa [artifactReferences] using holds.sanitized.1 e (by simp [visible,listed,shown])

theorem clean_covers {s : Site} (rest : Unremarkable c s → RestSound c s) :
    ∀ p, inspect c s = .ok p → p.report.issues = [] → p.report.truncated = false → Covered c p.site := by
  intro p done issues truncated
  obtain ⟨same,holds⟩ := inspect_clean c done ⟨issues,truncated⟩
  rw [same]
  exact (covered_iff c holds).mpr (rest holds)

/-- A report without issues that is not truncated covers the whole site exactly when what is inspected is remarkable,
    so that there is no such report, or the rows that the batches leave out are in order. -/
theorem clean_covers_iff (s : Site) :
    (∀ p, inspect c s = .ok p → p.report.issues = [] → p.report.truncated = false → Covered c p.site) ↔
      (Unremarkable c s → RestSound c s) := by
  refine ⟨fun covers holds => ?_,clean_covers c⟩
  obtain ⟨p,done,clean,same⟩ := inspect_unremarkable c holds
  exact (covered_iff c holds).mp (same ▸ covers p done clean.1 clean.2)

/-- A site whose rows fit one batch is covered by such a report. -/
theorem clean_covers_batch {s : Site} (scans : s.world.scans.length ≤ c.batchSize)
    (artifacts : s.world.artifacts.length ≤ c.batchSize) :
    ∀ p, inspect c s = .ok p → p.report.issues = [] → p.report.truncated = false → Covered c p.site := by
  refine clean_covers c fun _ => ⟨fun row member => ?_,fun a member => ?_⟩
  · rw [List.drop_of_length_le (by simpa using scans)] at member
    cases member
  · rw [List.drop_of_length_le (by simpa using artifacts)] at member
    cases member

/-- A scan that is being analyzed, last changed at the second zero. -/
def analyzingScan (key : Text) : ScanRow :=
  { id := key, originalFilename := [], displayFilename := [], storageKey := key, origin := .UPLOAD, parentScanId := none,
    sha256 := [], sizeBytes := 0, claimedExtension := none, claimedContentType := none, state := .ANALYZING,
    decision := some .QUARANTINE, workerStatus := .RUNNING, releaseEligible := false, updatedAt := 0 }

def singleBatch : Inspection := { digest := fun _ => [], euid := 0, staleSeconds := 60, batchSize := 1, now := 1000 }

/-- Two rows, of which the second is stale and has no file. -/
def twoRows : Site :=
  { world := { scans := [{ analyzingScan (List.replicate 32 '1') with state := .STORED },
      analyzingScan (List.replicate 32 '2')] }
    quarantine :=
      { entries := [⟨List.replicate 32 '1',none⟩]
        opened := fun name => if name = List.replicate 32 '1' then some ⟨true,0,1,0o400,0,[]⟩ else none } }

/-- The report on the two rows in batches of one has no issues and is not truncated. -/
theorem clean_uncovered : ∃ p, inspect singleBatch twoRows = .ok p ∧ p.report.issues = [] ∧
    p.report.truncated = false ∧ ¬Covered singleBatch p.site := by
  have evaluated : (match inspect singleBatch twoRows with
      | .ok p => p.report.issues.isEmpty && !p.report.truncated
      | .error _ => false) = true := by decide +kernel
  split at evaluated
  · rename_i p done
    simp only [Bool.and_eq_true,List.isEmpty_iff,Bool.not_eq_true'] at evaluated
    refine ⟨p,done,evaluated.1,evaluated.2,fun covered => ?_⟩
    rw [(inspect_clean singleBatch done evaluated).1] at covered
    have sound := covered.scans (analyzingScan (List.replicate 32 '2')) (by simp [twoRows])
    exact sound.fresh ⟨rfl,by decide⟩
  · cases evaluated

end DocGuard.Reconciliation
