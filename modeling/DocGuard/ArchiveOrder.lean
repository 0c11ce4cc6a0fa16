import DocGuard.ArchiveResults
import Mathlib.Data.List.Forall2

/-!
The order of the entries in the containers does not decide what is reported of a
file, unless a container that lies at two depths leads beyond the limit of the
depth from the deeper one: containers are looked into where they are met first.
-/
namespace DocGuard.Archive
open DocGuard.Commands DocGuard.Domain DocGuard.Findings DocGuard.Search

variable {lib : Library} {limits : ArchiveAnalysisLimits}

/-! ### Reordered containers -/

/-- The same entry, where nested ZIP files have been replaced. -/
structure Alike (φ : Bytes → Bytes) (info info' : ZipInfo) : Prop where
  filename : info'.filename = info.filename
  flagBits : info'.flagBits = info.flagBits
  compressType : info'.compressType = info.compressType
  createSystem : info'.createSystem = info.createSystem
  externalAttr : info'.externalAttr = info.externalAttr
  read : outcome info'.member = (outcome info.member).map (Option.map φ)

/-- The same container, with its entries in another order. -/
inductive Rearranged (φ : Bytes → Bytes) : Opened → Opened → Prop where
  | malformed : Rearranged φ .malformed .malformed
  | unlisted : Rearranged φ .unlisted .unlisted
  | entries {infos alike infos' : List ZipInfo} : List.Forall₂ (Alike φ) infos alike → alike.Perm infos' →
      Rearranged φ (.entries infos) (.entries infos')

/-- The entries of a file and of the ZIP files nested in it are in another order, in each occurrence of one the same. -/
structure Reordered (lib : Library) (φ : Bytes → Bytes) (content content' : Bytes) : Prop where
  file : Rearranged φ (opened lib content) (opened lib content')
  nested : ∀ a ∈ nestedFiles lib content, Rearranged φ (opened lib a) (opened lib (φ a))
  distinct : Set.InjOn φ (nestedFiles lib content)

variable {φ : Bytes → Bytes}

theorem Alike.isDir {info info' : ZipInfo} (alike : Alike φ info info') : info'.isDir = info.isDir := by
  rw [ZipInfo.isDir,ZipInfo.isDir,alike.filename]

theorem Alike.isSymlink {info info' : ZipInfo} (alike : Alike φ info info') : info'.isSymlink = info.isSymlink := by
  rw [ZipInfo.isSymlink,ZipInfo.isSymlink,alike.createSystem,alike.externalAttr]

theorem Alike.isEncrypted {info info' : ZipInfo} (alike : Alike φ info info') : info'.isEncrypted = info.isEncrypted := by
  rw [ZipInfo.isEncrypted,ZipInfo.isEncrypted,alike.flagBits]

theorem Alike.isSupported {info info' : ZipInfo} (alike : Alike φ info info') :
    isSupported lib info' = isSupported lib info := by
  rw [Archive.isSupported,Archive.isSupported,alike.compressType]

theorem Alike.nestedIn {info info' : ZipInfo} (alike : Alike φ info info') :
    nestedIn lib info' = (nestedIn lib info).map φ := by
  have passed : passedOver lib info' = passedOver lib info := by
    rw [passedOver,passedOver,alike.isDir,alike.isSymlink,alike.isEncrypted,alike.isSupported]
  unfold Archive.nestedIn
  rw [passed,alike.read]
  split
  · rfl
  · cases outcome info.member with
    | ok nested => rfl
    | error e => rfl

theorem Alike.entryReason {info info' : ZipInfo} (alike : Alike φ info info') :
    entryReason lib info' = entryReason lib info := by
  unfold Archive.entryReason
  rw [alike.isDir,alike.isSymlink,alike.isEncrypted,alike.isSupported,alike.read]
  cases outcome info.member with
  | ok nested => rfl
  | error e => rfl

theorem Alike.entryCount {info info' : ZipInfo} (alike : Alike φ info info') :
    entryCount lib info' = entryCount lib info := by
  funext seen c
  rw [Archive.entryCount,Archive.entryCount,alike.filename,kindCount,kindCount,alike.isDir,alike.isSymlink,
    alike.isEncrypted]

/-! ### The counters of a container -/

theorem entryCount_seen {c : Category} (other : c ≠ .duplicate) (info : ZipInfo) (seen : SeenNames) :
    entryCount lib info seen c = entryCount lib info [] c := by
  unfold entryCount added
  cases c <;> first | rfl | exact absurd rfl other

theorem entriesCount_sum {c : Category} (other : c ≠ .duplicate) (infos : List ZipInfo) (seen : SeenNames) :
    entriesCount lib infos seen c = (infos.map fun info => entryCount lib info [] c).sum := by
  induction infos generalizing seen with
  | nil => rfl
  | cons info rest ih => rw [entriesCount,List.map_cons,List.sum_cons,entryCount_seen other,ih]

/-- Every entry is a duplicate, or the first one with its name. -/
theorem duplicates_add {infos before : List ZipInfo} {seen : SeenNames} (notes : Notes lib before seen) :
    entriesCount lib infos seen .duplicate +
      ((infos.map fun info => collisionKey lib info.filename).toFinset \
        (before.map fun info => collisionKey lib info.filename).toFinset).card = infos.length := by
  induction infos generalizing before seen with
  | nil => simp [entriesCount]
  | cons info rest ih =>
    have known : (seen.lookup (collisionKey lib info.filename)).isSome = true ↔
        collisionKey lib info.filename ∈ (before.map fun info => collisionKey lib info.filename).toFinset := by
      rw [notes,List.mem_toFinset,List.mem_map]
    have later := ih (notes.note info)
    have one : entryCount lib info seen .duplicate =
        if (seen.lookup (collisionKey lib info.filename)).isSome then 1 else 0 := by
      rw [entryCount,show kindCount info .duplicate = 0 from kindCount_other (by decide) (by decide)]
      rfl
    rw [entriesCount,one,List.map_cons,List.toFinset_cons,List.length_cons]
    rw [List.map_append,List.toFinset_append] at later
    simp only [List.map_cons,List.map_nil,List.toFinset_cons,List.toFinset_nil,insert_empty_eq] at later
    generalize collisionKey lib info.filename = key at known later ⊢
    generalize (before.map fun info => collisionKey lib info.filename).toFinset = old at known later ⊢
    generalize (rest.map fun info => collisionKey lib info.filename).toFinset = more at later ⊢
    by_cases duplicate : key ∈ old
    · rw [Finset.union_eq_left.mpr (Finset.singleton_subset_iff.mpr duplicate)] at later
      rw [if_pos (known.mpr duplicate),Finset.insert_sdiff_of_mem _ duplicate]
      omega
    · have first : insert key more \ old = insert key (more \ (old ∪ {key})) := by
        rw [Finset.insert_sdiff_of_notMem _ duplicate]
        ext k
        by_cases same : k = key
        · simp [same]
        · simp [same]
      rw [if_neg (known.not.mpr duplicate),first,Finset.card_insert_of_notMem (by simp)]
      omega

/-! ### What a container by itself adds -/

theorem Rearranged.infos {source source' : Opened} (rearranged : Rearranged φ source source') :
    ∃ alike, List.Forall₂ (Alike φ) source.infos alike ∧ alike.Perm source'.infos := by
  cases rearranged with
  | malformed => exact ⟨[],.nil,.nil⟩
  | unlisted => exact ⟨[],.nil,.nil⟩
  | entries alike perm => exact ⟨_,alike,perm⟩

theorem alike_map {γ : Type} {f : ZipInfo → γ} {infos alike : List ZipInfo} (same : List.Forall₂ (Alike φ) infos alike)
    (kept : ∀ {info info'}, Alike φ info info' → f info' = f info) : alike.map f = infos.map f := by
  induction same with
  | nil => rfl
  | cons first _ ih => rw [List.map_cons,List.map_cons,kept first,ih]

theorem Rearranged.count {source source' : Opened} (rearranged : Rearranged φ source source') (c : Category) :
    entriesCount lib source'.infos [] c = entriesCount lib source.infos [] c := by
  obtain ⟨alike,same,perm⟩ := rearranged.infos
  by_cases duplicate : c = .duplicate
  · subst duplicate
    have names : (source'.infos.map fun info => collisionKey lib info.filename).toFinset =
        (source.infos.map fun info => collisionKey lib info.filename).toFinset := by
      rw [← alike_map same fun alike => congrArg (collisionKey lib) alike.filename]
      exact List.toFinset_eq_of_perm _ _ (perm.map _).symm
    have all := @duplicates_add lib source.infos [] [] notes_nil
    have all' := @duplicates_add lib source'.infos [] [] notes_nil
    rw [names,← perm.length_eq,← same.length_eq] at all'
    omega
  · rw [entriesCount_sum duplicate,entriesCount_sum duplicate]
    rw [← alike_map same fun alike => congrFun (congrFun alike.entryCount []) c]
    exact ((perm.map _).sum_eq).symm

/-- What the entries are mapped to is the same, but for the order. -/
theorem Rearranged.filterMap {γ δ : Type} {f : ZipInfo → Option γ} {g : ZipInfo → Option δ} {h : γ → δ}
    {source source' : Opened} (rearranged : Rearranged φ source source')
    (kept : ∀ {info info'}, Alike φ info info' → g info' = (f info).map h) :
    (source'.infos.filterMap g).Perm ((source.infos.filterMap f).map h) := by
  obtain ⟨alike,same,perm⟩ := rearranged.infos
  have mapped : alike.filterMap g = (source.infos.filterMap f).map h := by
    clear perm
    generalize source.infos = infos at same
    induction same with
    | nil => rfl
    | cons first _ ih =>
      rename_i info info' infos alike _
      have one := kept first
      cases found : f info with
      | none => rw [List.filterMap_cons_none (one.trans (by rw [found]; rfl)),List.filterMap_cons_none found,ih]
      | some a => rw [List.filterMap_cons_some (one.trans (by rw [found]; rfl)),List.filterMap_cons_some found,ih,List.map_cons]
  rw [← mapped]
  exact (perm.filterMap g).symm

theorem Rearranged.inside {a a' : Bytes} (rearranged : Rearranged φ (opened lib a) (opened lib a')) :
    (inside lib a').Perm ((inside lib a).map φ) :=
  rearranged.filterMap fun alike => alike.nestedIn

theorem Rearranged.reasons {a a' : Bytes} (rearranged : Rearranged φ (opened lib a) (opened lib a')) {file : Bool}
    (r : Reason) : r ∈ sourceReasons lib file a' ↔ r ∈ sourceReasons lib file a := by
  have perm : ((opened lib a').infos.filterMap (entryReason lib)).Perm
      (((opened lib a).infos.filterMap (entryReason lib)).map id) :=
    rearranged.filterMap fun alike => by rw [alike.entryReason,Option.map_id]; rfl
  rw [List.map_id] at perm
  unfold sourceReasons
  generalize opened lib a = source at rearranged perm ⊢
  generalize opened lib a' = source' at rearranged perm ⊢
  cases rearranged with
  | malformed => rfl
  | unlisted => rfl
  | entries _ _ => exact perm.mem_iff

/-! ### The search -/

theorem Reordered.renames {content content' : Bytes} (reordered : Reordered lib φ content content') :
    Renames (inside lib) (inside lib content) (inside lib) (inside lib content') φ := by
  have members {a a' : Bytes} (rearranged : Rearranged φ (opened lib a) (opened lib a')) (b' : Bytes) :
      b' ∈ inside lib a' ↔ ∃ b ∈ inside lib a, φ b = b' := by
    rw [rearranged.inside.mem_iff,List.mem_map]
  refine ⟨members reordered.file,fun depth a lies => members (reordered.nested a ⟨depth,lies⟩),?_⟩
  intro depth a depth' b lies lies' same
  exact reordered.distinct ⟨depth,lies⟩ ⟨depth',lies'⟩ same

/-- What the result is made of is the same. -/
structure SameReport (s s' : State) : Prop where
  counts : s'.counts = s.counts
  partials : ∀ r, r ∈ s'.partialReasons ↔ r ∈ s.partialReasons
  resources : ∀ r, r ∈ s'.resourceReasons ↔ r ∈ s.resourceReasons
  malformed : ∀ r, r ∈ s'.malformedReasons ↔ r ∈ s.malformedReasons

theorem Reordered.sameReport {content content' : Bytes} (reordered : Reordered lib φ content content')
    (uniform : Uniform (inside lib) (inside lib content) limits.maxNestingDepth) {s s' : State}
    {t t' : Inspection} (first : t.toState = s) (second : t'.toState = s')
    (searched : Searched lib limits content t) (searched' : Searched lib limits content' t')
    (kinds : Kinds s) (kinds' : Kinds s') : SameReport s s' := by
  subst first second
  have renames := reordered.renames
  have names : (Archive.searched lib limits content').names.Perm ((Archive.searched lib limits content).names.map φ) :=
    renames.search_perm uniform
  have rearranged {a : Bytes} (member : a ∈ (Archive.searched lib limits content).names) :
      Rearranged φ (opened lib a) (opened lib (φ a)) := by
    obtain ⟨depth,_,lies⟩ := found_lies member
    exact reordered.nested a ⟨depth,lies⟩
  have partials (r : Reason) : r ∈ t'.partialReasons ↔ r ∈ t.partialReasons := by
    by_cases nesting : r = .nestingDepthLimit
    · rw [nesting,searched.cut,searched'.cut]
      exact renames.search_cut uniform
    · rw [searched.reasoned r nesting,searched'.reasoned r nesting,reordered.file.reasons r]
      refine or_congr_right ⟨?_,?_⟩
      · rintro ⟨a',member,shown⟩
        obtain ⟨a,named,rfl⟩ := List.mem_map.mp (names.mem_iff.mp member)
        exact ⟨a,named,((rearranged named).reasons r).mp shown⟩
      · rintro ⟨a,named,shown⟩
        exact ⟨φ a,names.mem_iff.mpr (List.mem_map_of_mem named),((rearranged named).reasons r).mpr shown⟩
  refine ⟨?_,partials,fun r => ?_,fun r => ?_⟩
  · funext c
    have each : (Archive.searched lib limits content).names.map (fun a => sourceCount lib (φ a) c) =
        (Archive.searched lib limits content).names.map fun a => sourceCount lib a c :=
      List.map_congr_left fun a member => (rearranged member).count c
    rw [searched.counted c,searched'.counted c,(names.map _).sum_eq,List.map_map]
    rw [show sourceCount lib content' c = sourceCount lib content c from reordered.file.count c]
    exact congrArg (sourceCount lib content c + List.sum ·) each
  · rw [kinds.resources,kinds'.resources,partials]
  · rw [kinds.malformed,kinds'.malformed,partials]

/-! ### The results -/

/-- The codes with their counts, in the order of the findings. -/
def tallies (reported : List FindingFields) : List (Text × Option Json.Value) :=
  reported.map fun f => (f.code,f.metadata.lookup (lit "count"))

theorem SameReport.none {s s' : State} (same : SameReport s s') : (s'.partialReasons = [] ↔ s.partialReasons = []) ∧
    (s'.resourceReasons = [] ↔ s.resourceReasons = []) ∧ (s'.malformedReasons = [] ↔ s.malformedReasons = []) := by
  simp only [List.eq_nil_iff_forall_not_mem,same.partials,same.resources,same.malformed,true_and]

theorem SameReport.status {s s' : State} (same : SameReport s s') : parserStatus s' = parserStatus s := by
  obtain ⟨partials,_,malformed⟩ := same.none
  simp only [parserStatus,ne_eq,partials,malformed]

theorem tallies_findings (s : State) : tallies (findings limits s) =
    (observations.filter fun category => 0 < s.counts category).map
        (fun category => (category.code,some (.int (s.counts category)))) ++
      (if .nestingDepthLimit ∈ s.partialReasons then [(Category.nesting.code,none)] else []) ++
      (if s.resourceReasons ≠ [] then [(lit "ARCHIVE_RESOURCE_LIMIT",none)] else []) ++
      (if s.malformedReasons ≠ [] then [(lit "ARCHIVE_MALFORMED",none)] else []) ++
      (if s.partialReasons ≠ [] then [(lit "ARCHIVE_PARTIAL_ANALYSIS",none)] else []) := by
  have one (p : Prop) [Decidable p] {f : FindingFields} {code : Text} (same : f.code = code)
      (uncounted : f.metadata.lookup (lit "count") = none) :
      (if p then [f] else []).map (fun f => (f.code,f.metadata.lookup (lit "count"))) =
        if p then [(code,none)] else [] := by
    by_cases holds : p
    · simp [holds,same,uncounted]
    · simp [holds]
  have code (c : Category) : (observationFinding s c).code = c.code := by
    rw [observationFinding,findingPayload_code]
  have observed (categories : List Category) : (categories.map (observationFinding s)).map
      (fun f => (f.code,f.metadata.lookup (lit "count"))) =
        categories.map fun category => (category.code,some (.int (s.counts category))) := by
    rw [List.map_map]
    exact List.map_congr_left fun c _ => Prod.ext (code c) rfl
  rw [tallies,findings,List.map_append,List.map_append,List.map_append,List.map_append,observed]
  rw [one _ (findingPayload_code ..) rfl,one _ (findingPayload_code ..) rfl,one _ (findingPayload_code ..) rfl,
    one _ (findingPayload_code ..) rfl]

theorem SameReport.tallies {s s' : State} (same : SameReport s s') :
    tallies (findings limits s') = tallies (findings limits s) := by
  obtain ⟨partials,resources,malformed⟩ := same.none
  simp only [tallies_findings,same.counts,same.partials,partials,resources,malformed,ne_eq]

theorem SameReport.limited {s s' : State} (same : SameReport s s') :
    SameReport (limitFindings limits s) (limitFindings limits s') ∧
      ((findings limits s').length = (findings limits s).length) := by
  have length : (findings limits s').length = (findings limits s).length := by
    have tallied : (Archive.tallies (findings limits s')).length = (Archive.tallies (findings limits s)).length := by
      rw [same.tallies]
    rwa [Archive.tallies,Archive.tallies,List.length_map,List.length_map] at tallied
  refine ⟨?_,length⟩
  unfold limitFindings
  rw [length]
  split
  · refine ⟨same.counts,fun r => ?_,fun r => ?_,same.malformed⟩
    · simp only [List.mem_insert_iff,same.partials]
    · simp only [List.mem_insert_iff,same.resources]
  · exact same

/-- What is kept of the findings is decided by their codes. -/
theorem tallies_reported (s : State) : tallies (reportedFindings limits s) =
    if limits.maxFindings < (findings limits s).length then
      let all := tallies (findings limits (limitFindings limits s))
      let required := all.filter fun tally => mandatory.contains tally.1
      let optional := all.filter fun tally => !mandatory.contains tally.1
      (optional.take (limits.maxFindings - required.length) ++ required).take limits.maxFindings
    else tallies (findings limits (limitFindings limits s)) := by
  unfold reportedFindings
  split
  · simp only [tallies,List.map_take,List.map_append,List.filter_map,List.length_map]
    rfl
  · rfl

theorem SameReport.result {s s' : State} (same : SameReport s s') :
    (result lib limits s').status = (result lib limits s).status ∧
      Archive.tallies (result lib limits s').findings = Archive.tallies (result lib limits s).findings := by
  have both : SameReport (limitFindings limits s) (limitFindings limits s') ∧
      (findings limits s').length = (findings limits s).length := same.limited
  obtain ⟨limited,length⟩ := both
  refine ⟨limited.status,?_⟩
  show Archive.tallies (reportedFindings limits s') = Archive.tallies (reportedFindings limits s)
  rw [tallies_reported,tallies_reported,length,limited.tallies]

/-- If no budget stops the inspection of either file, and no container that lies at two depths leads beyond the limit of
    the depth from the deeper one, then the order of the entries changes neither the status nor the findings' codes and
    counts. -/
theorem order_indifferent (lib : Library) (limits : ArchiveAnalysisLimits) (family family' : FileFamily)
    (content content' : Bytes) (φ : Bytes → Bytes) (analysis analysis' : ArchiveAnalysis) (full : lib.Full)
    (free : Set.InjOn lib.sha256 (nestedFiles lib content)) (free' : Set.InjOn lib.sha256 (nestedFiles lib content'))
    (reordered : Reordered lib φ content content')
    (uniform : Uniform (inside lib) (inside lib content) limits.maxNestingDepth)
    (returned : analyzeArchive lib limits family (some content) = .ok analysis)
    (returned' : analyzeArchive lib limits family' (some content') = .ok analysis')
    (unstopped : (inspect lib limits content).2.resourceReasons = [])
    (unstopped' : (inspect lib limits content').2.resourceReasons = []) :
    analysis'.status = analysis.status ∧ tallies analysis'.findings = tallies analysis.findings := by
  obtain ⟨ran,rfl⟩ := analyzeArchive_returned returned
  obtain ⟨ran',rfl⟩ := analyzeArchive_returned returned'
  exact (reordered.sameReport uniform rfl rfl (inspect_searched full free ran unstopped)
    (inspect_searched full free' ran' unstopped') (inspect_kinds lib limits content)
    (inspect_kinds lib limits content')).result

def turnedAnalysis : ArchiveAnalysis :=
  result programLibrary DEFAULT_ARCHIVE_LIMITS
    (inspect programLibrary DEFAULT_ARCHIVE_LIMITS (zipBytes turnedCarrier)).2.toState

/-- The ZIP with the program is turned wherever it occurs. -/
def turn (data : Bytes) : Bytes := if data = zipBytes programMembers then zipBytes turnedProgram else data

theorem carrier_turned : Reordered programLibrary turn (zipBytes carrierMembers) (zipBytes turnedCarrier) := by
  have turned : turn (zipBytes programMembers) = zipBytes turnedProgram := if_pos rfl
  have listed : carrierMembers ∈ programFiles ∧ turnedCarrier ∈ programFiles ∧ programMembers ∈ programFiles ∧
      turnedProgram ∈ programFiles := by simp [programFiles]
  obtain ⟨carrier,carrier',program,program'⟩ := listed
  have once {depth : Nat} {a : Bytes}
      (lies : Lies (inside programLibrary) (inside programLibrary (zipBytes carrierMembers)) depth a) :
      a = zipBytes programMembers := (lies_once carrier_inside.1 (program_last List.mem_cons_self) lies).2
  have zip (members : List Stored) (start : (zipBytes members).take 4 = [0x50,0x4b,3,4]) : isZip (zipBytes members) = true := by
    rw [← isZip_take,start]
    rfl
  have plain (m : Stored) (other : isZip m.data = false) : outcome m.info.member = .ok none := by
    simp [outcome,Stored.info,other]
  have nested (m : Stored) (found : isZip m.data = true) : outcome m.info.member = .ok (some m.data) := by
    simp [outcome,Stored.info,found]
  have note : Alike turn noteMember.info noteMember.info :=
    ⟨rfl,rfl,rfl,rfl,rfl,by rw [plain noteMember (by decide +kernel)]; rfl⟩
  have run : Alike turn programMember.info programMember.info :=
    ⟨rfl,rfl,rfl,rfl,rfl,by rw [plain programMember (by decide +kernel)]; rfl⟩
  refine ⟨?_,?_,?_⟩
  · rw [program_opened carrier,program_opened carrier']
    have inner : Alike turn (Stored.info ⟨lit "inner.zip",zipBytes programMembers,0x5c3694c7⟩)
        (Stored.info ⟨lit "inner.zip",zipBytes turnedProgram,0x603940af⟩) := by
      refine ⟨rfl,rfl,rfl,rfl,rfl,?_⟩
      rw [nested _ (zip programMembers (by decide +kernel)),nested _ (zip turnedProgram (by decide +kernel))]
      exact congrArg (fun data => Except.ok (some data)) turned.symm
    exact .entries (.cons inner (.cons note .nil)) (List.Perm.swap _ _ [])
  · rintro a ⟨depth,lies⟩
    rw [once lies,turned,program_opened program,program_opened program']
    exact .entries (.cons run (.cons note .nil)) (List.Perm.swap _ _ [])
  · rintro a ⟨_,lies⟩ b ⟨_,lies'⟩ _
    rw [once lies,once lies']

theorem carrier_unstopped : (inspect programLibrary {} (zipBytes carrierMembers)).2.resourceReasons = [] ∧
    (inspect programLibrary {} (zipBytes turnedCarrier)).1 = .ok () ∧
    (inspect programLibrary {} (zipBytes turnedCarrier)).2.resourceReasons = [] := by
  decide +kernel

theorem carrier_uniform : Uniform (inside programLibrary) (inside programLibrary (zipBytes carrierMembers))
    DEFAULT_ARCHIVE_LIMITS.maxNestingDepth := by
  intro a upper lower high low deeper
  have once {depth : Nat}
      (lies : Lies (inside programLibrary) (inside programLibrary (zipBytes carrierMembers)) depth a) : depth = 1 :=
    (lies_once carrier_inside.1 (program_last List.mem_cons_self) lies).1
  rw [once high,once low] at deeper
  omega

theorem order_indifferent_carrier : turnedAnalysis.status = programAnalysis.status ∧
    tallies turnedAnalysis.findings = tallies programAnalysis.findings :=
  order_indifferent programLibrary {} .ZIP .ZIP (zipBytes carrierMembers) (zipBytes turnedCarrier) turn
    programAnalysis turnedAnalysis (storedLibrary_full _) carrier_free
    (free_once carrier_inside.2 (program_last (by simp))) carrier_turned carrier_uniform
    (analyzeArchive_zip program_complete.1) (analyzeArchive_zip carrier_unstopped.2.1) carrier_unstopped.1
    carrier_unstopped.2.2

end DocGuard.Archive
