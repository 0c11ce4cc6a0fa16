import DocGuard.ArchiveSearch

/-!
What the result of an inspection says about the containers that can be reached
from a file, when no budget stops the inspection.
-/
namespace DocGuard.Archive
open DocGuard.Commands DocGuard.Domain DocGuard.Findings DocGuard.Search

/-! ### The kinds of reasons -/

def Reason.isResource : Reason → Bool
  | .compressedInputLimit | .zipEntryLimit | .memberInspectionLimit | .memberActualByteLimit | .totalActualByteLimit
  | .nestedMaterializationLimit | .findingLimit => true
  | _ => false

def Reason.isMalformed : Reason → Bool
  | .archiveInputUnavailable | .malformedNestedArchive | .malformedArchive | .centralDirectoryError
  | .memberDecompressionError => true
  | _ => false

/-- The reasons for which the analysis is partial are all of them, and the others are those of their kinds. -/
structure Kinds (s : State) : Prop where
  resources : ∀ r, r ∈ s.resourceReasons ↔ r ∈ s.partialReasons ∧ r.isResource = true
  malformed : ∀ r, r ∈ s.malformedReasons ↔ r ∈ s.partialReasons ∧ r.isMalformed = true

/-- A part of the inspection keeps the kinds of the reasons apart. -/
def Keeps {α : Type} (m : Walk α) : Prop := Ensures (fun s => Kinds s.toState) m fun _ s => Kinds s.toState

variable {lib : Library} {limits : ArchiveAnalysisLimits} {α β : Type}

theorem keeps_bind {m : Walk α} {k : α → Walk β} (first : Keeps m) (rest : ∀ a, Keeps (k a)) : Keeps (m >>= k) :=
  ensures_bind first rest fun _ _ => id

theorem keeps_pure (a : α) : Keeps (pure a) := ensures_pure fun _ => id

theorem keeps_raise (e : Raised) : Keeps (Command.raise e : Walk α) := ensures_raise fun _ => id

theorem keeps_observe (f : Inspection → α) : Keeps (Command.observe f) := fun _ => id

/-- A step that touches no reasons. -/
theorem keeps_update {f : Inspection → Inspection} (partials : ∀ s, (f s).partialReasons = s.partialReasons)
    (resources : ∀ s, (f s).resourceReasons = s.resourceReasons)
    (malformed : ∀ s, (f s).malformedReasons = s.malformedReasons) : Keeps (Command.update f) := by
  intro s kinds
  refine ⟨fun r => ?_,fun r => ?_⟩
  · show r ∈ (f s).resourceReasons ↔ r ∈ (f s).partialReasons ∧ _
    rw [resources,partials]
    exact kinds.resources r
  · show r ∈ (f s).malformedReasons ↔ r ∈ (f s).partialReasons ∧ _
    rw [malformed,partials]
    exact kinds.malformed r

theorem keeps_names {f : Inspection → Inspection} (only : ∀ s, NamesOnly s (f s)) : Keeps (Command.update f) := by
  refine keeps_update (fun s => ?_) (fun s => ?_) fun s => ?_
  all_goals
    obtain ⟨_,_,_,_,same⟩ := only s
    rw [same]

theorem mem_marked {reasons all : List Reason} {reason : Reason} {kind : Reason → Bool}
    (kept : ∀ r, r ∈ reasons ↔ r ∈ all ∧ kind r = true) (r : Reason) :
    (kind reason = true → (r ∈ reasons.insert reason ↔ r ∈ all.insert reason ∧ kind r = true)) ∧
      (kind reason = false → (r ∈ reasons ↔ r ∈ all.insert reason ∧ kind r = true)) := by
  simp only [List.mem_insert_iff,kept]
  constructor
  · intro own
    by_cases same : r = reason
    · simp [same,own]
    · simp [same]
  · intro other
    by_cases same : r = reason
    · simp [same,other]
    · simp [same]

theorem kinds_resource {s : State} {reason : Reason} (own : reason.isResource = true) (other : reason.isMalformed = false)
    (kinds : Kinds s) : Kinds { s with
      resourceReasons := s.resourceReasons.insert reason
      partialReasons := s.partialReasons.insert reason } :=
  ⟨fun r => (mem_marked kinds.resources r).1 own,fun r => (mem_marked kinds.malformed r).2 other⟩

theorem markResource_keeps {reason : Reason} (own : reason.isResource = true) (other : reason.isMalformed = false) :
    Keeps (markResource reason) :=
  fun _ kinds => kinds_resource own other kinds

theorem markPartial_keeps {reason : Reason} (resource : reason.isResource = false) (malformed : reason.isMalformed = false) :
    Keeps (markPartial reason) :=
  fun _ kinds => ⟨fun r => (mem_marked kinds.resources r).2 resource,fun r => (mem_marked kinds.malformed r).2 malformed⟩

theorem markMalformed_keeps {reason : Reason} (e : Exn) (own : reason.isMalformed = true) (other : reason.isResource = false) :
    Keeps (markMalformed reason e) :=
  fun _ kinds => ⟨fun r => (mem_marked kinds.resources r).2 other,fun r => (mem_marked kinds.malformed r).1 own⟩

theorem unsupportedMethod_keeps (method : Nat) : Keeps (unsupportedMethod method) :=
  fun _ kinds => ⟨fun r => (mem_marked kinds.resources r).2 rfl,fun r => (mem_marked kinds.malformed r).2 rfl⟩

theorem stopReading_keeps {reason : Reason} (around : List ZipInfo) (own : reason.isResource = true)
    (other : reason.isMalformed = false) : Keeps (stopReading limits reason around : Walk α) := by
  refine keeps_bind (markResource_keeps own other) fun _ => keeps_bind ?_ fun _ => keeps_raise _
  refine keeps_update (fun s => ?_) (fun s => ?_) fun s => ?_
  all_goals
    dsimp only
    split <;> rfl

theorem accountActualBytes_keeps (around : List ZipInfo) (chunk : Bytes) (memberBytes : Nat) :
    Keeps (accountActualBytes limits around chunk memberBytes) := by
  refine keeps_bind (keeps_update (fun _ => rfl) (fun _ => rfl) fun _ => rfl) fun _ => keeps_bind (keeps_observe _) fun s => ?_
  split
  · exact stopReading_keeps around rfl rfl
  · split
    · exact stopReading_keeps around rfl rfl
    · exact keeps_pure _

theorem appendNested_keeps (around : List ZipInfo) (chunk : Bytes) : Keeps (appendNested limits around chunk) := by
  refine keeps_bind (keeps_observe _) fun s => ?_
  split
  · exact stopReading_keeps around rfl rfl
  · exact keeps_update (fun _ => rfl) (fun _ => rfl) fun _ => rfl

theorem readChunk_keeps (member : Member) (offset n : Nat) : Keeps (readChunk member offset n) := fun _ => id

theorem openMember_keeps (member : Member) : Keeps (openMember limits member) := by
  intro s kinds
  unfold openMember
  split
  · exact kinds
  · exact ⟨kinds.resources,kinds.malformed⟩

theorem readRest_keeps {around : List ZipInfo} {member : Member} {turns : Nat} {first : Bytes} {memberBytes : Nat}
    {nested : Option Bytes} : Keeps (readRest limits around member turns first memberBytes nested) := by
  induction turns generalizing first memberBytes nested with
  | zero => exact keeps_pure _
  | succ turns ih =>
    unfold readRest
    split
    · exact keeps_pure _
    · refine keeps_bind (keeps_observe _) fun s => keeps_bind (readChunk_keeps _ _ _) fun chunk => ?_
      split
      · exact keeps_pure _
      · refine keeps_bind (accountActualBytes_keeps _ _ _) fun total => ?_
        cases nested with
        | none => exact ih
        | some target => exact keeps_bind (appendNested_keeps _ _) fun _ => ih

theorem readMember_keeps (around : List ZipInfo) (member : Member) : Keeps (readMember limits around member) := by
  refine keeps_bind (openMember_keeps member) fun _ => keeps_bind (keeps_observe _) fun s =>
    keeps_bind (readChunk_keeps _ _ _) fun first => keeps_bind (accountActualBytes_keeps _ _ _) fun total => ?_
  split
  · exact keeps_bind (appendNested_keeps _ _) fun _ => readRest_keeps
  · exact readRest_keeps

variable {descend : Bytes → Walk Unit} {depth : Nat}

theorem inspectNested_keeps (info : ZipInfo) (nested : Bytes) (descends : ∀ nested, Keeps (descend nested)) :
    Keeps (inspectNested lib limits descend depth info nested) := by
  refine keeps_bind (keeps_update (fun _ => rfl) (fun _ => rfl) fun _ => rfl) fun _ => ?_
  split
  · exact keeps_bind (markPartial_keeps rfl rfl) fun _ => keeps_names (retainRecord_only lib limits _ _ _ _ _)
  · refine keeps_bind (keeps_observe _) fun s => ?_
    split
    · exact keeps_update (fun _ => rfl) (fun _ => rfl) fun _ => rfl
    · exact keeps_bind (keeps_update (fun _ => rfl) (fun _ => rfl) fun _ => rfl) fun _ => descends nested

theorem afterReading_keeps (info : ZipInfo) (descends : ∀ nested, Keeps (descend nested))
    (read : Except Raised (Option Bytes)) : Keeps (afterReading lib limits descend depth info read) := by
  match read with
  | .error .stop => exact keeps_pure _
  | .error (.library e) =>
    unfold afterReading
    dsimp only
    split
    · exact keeps_bind (unsupportedMethod_keeps _) fun _ => keeps_pure _
    · split
      · exact keeps_bind (markMalformed_keeps e rfl rfl) fun _ => keeps_pure _
      · exact keeps_raise _
  | .ok none => exact keeps_pure _
  | .ok (some nested) => exact keeps_bind (inspectNested_keeps info nested descends) fun _ => keeps_pure _

theorem inspectEntry_keeps (info : ZipInfo) (seen : SeenNames) (around : List ZipInfo)
    (descends : ∀ nested, Keeps (descend nested)) : Keeps (inspectEntry lib limits descend depth info seen around) := by
  refine keeps_bind (keeps_observe _) fun s => ?_
  split
  · exact keeps_bind (markResource_keeps rfl rfl) fun _ => keeps_pure _
  · refine keeps_bind ?_ fun _ => ?_
    · refine keeps_update (fun s => ?_) (fun s => ?_) fun s => ?_
      all_goals
        obtain ⟨_,_,_,_,same⟩ := inspectName_only lib limits info.filename depth seen { s with
          membersInspected := s.membersInspected + 1
          history := { s.history with visited := (info,seen) :: s.history.visited } }
        rw [same]
    · split
      · exact keeps_bind (keeps_update (fun _ => rfl) (fun _ => rfl) fun _ => rfl) fun _ => keeps_pure _
      · split
        · refine keeps_bind (keeps_names fun s => ?_) fun _ => keeps_pure _
          exact (counted_only .symlink s).trans (retainRecord_only lib limits _ _ _ _ _ _)
        · split
          · exact keeps_bind (keeps_names (counted_only .encrypted)) fun _ =>
              keeps_bind (markPartial_keeps rfl rfl) fun _ =>
                keeps_bind (keeps_names (retainRecord_only lib limits _ _ _ _ _)) fun _ => keeps_pure _
          · split
            · exact keeps_bind (unsupportedMethod_keeps _) fun _ => keeps_pure _
            · exact ensures_attempt (readMember_keeps around info.member) (afterReading_keeps info descends)

variable {descends : Bytes → List ZipInfo → Walk Unit} {around : List ZipInfo}

theorem inspectEntries_keeps {infos : List ZipInfo} {seen : SeenNames} (below : ∀ nested left, Keeps (descends nested left)) :
    Keeps (inspectEntries lib limits descends depth around infos seen) := by
  induction infos generalizing seen with
  | nil => exact keeps_pure _
  | cons info rest ih =>
    refine keeps_bind (inspectEntry_keeps info seen around fun nested => below nested (rest ++ around)) fun goOn => ?_
    cases goOn with
    | false => exact keeps_pure _
    | true => exact ih

theorem inspectContainer_keeps (container : Container) (below : ∀ nested left, Keeps (descends nested left)) :
    Keeps (inspectContainer lib limits descends depth around container) := by
  refine keeps_bind (keeps_update (fun _ => rfl) (fun _ => rfl) fun _ => rfl) fun _ => ?_
  split
  · split
    · exact markMalformed_keeps _ rfl rfl
    · exact keeps_raise _
  · refine keeps_bind (keeps_update (fun _ => rfl) (fun _ => rfl) fun _ => rfl) fun _ => ?_
    split
    · exact keeps_bind (markResource_keeps rfl rfl) fun _ => inspectEntries_keeps below
    · exact inspectEntries_keeps below

theorem inspectArchive_keeps {levels : Nat} {source : Bytes} :
    Keeps (inspectArchive lib limits levels source depth around) := by
  induction levels generalizing source depth around with
  | zero => exact keeps_pure _
  | succ levels ih =>
    refine keeps_bind (keeps_update (fun _ => rfl) (fun _ => rfl) fun _ => rfl) fun _ =>
      keeps_bind (keeps_observe _) fun s => ?_
    split
    · exact markResource_keeps rfl rfl
    · split
      · split
        · refine markMalformed_keeps _ ?_ ?_ <;> split <;> rfl
        · exact keeps_raise _
      · exact inspectContainer_keeps _ fun _ _ => ih

theorem inspect_kinds (lib : Library) (limits : ArchiveAnalysisLimits) (content : Bytes) :
    Kinds (inspect lib limits content).2.toState :=
  inspectArchive_keeps {} ⟨fun _ => ⟨nofun,fun held => held.1⟩,fun _ => ⟨nofun,fun held => held.1⟩⟩

/-! ### What a container shows -/

/-- An entry shows what the category is about, after the entries before it in its container. -/
def Shows (lib : Library) (before : List ZipInfo) (info : ZipInfo) : Category → Prop
  | .symlink => info.isDir = false ∧ info.isSymlink = true
  | .encrypted => info.isDir = false ∧ info.isSymlink = false ∧ info.isEncrypted = true
  | .duplicate => ∃ earlier ∈ before, collisionKey lib earlier.filename = collisionKey lib info.filename
  | category => exhibits lib info.filename [] category = true

/-- Some entry of the container shows it. -/
def Exhibits (lib : Library) (source : Bytes) (c : Category) : Prop :=
  ∃ before info after, (opened lib source).infos = before ++ info :: after ∧ Shows lib before info c

/-- The analysis has looked at the entry and at all of its data. -/
def Legible (lib : Library) (info : ZipInfo) : Prop :=
  info.isDir = true ∨ info.isSymlink = true ∨
    info.isEncrypted = false ∧ isSupported lib info = true ∧ ∃ nested, outcome info.member = .ok nested

/-- The names that a container had before are those of the entries before. -/
def Notes (lib : Library) (before : List ZipInfo) (seen : SeenNames) : Prop :=
  ∀ key, (seen.lookup key).isSome = true ↔ ∃ earlier ∈ before, collisionKey lib earlier.filename = key

theorem lookup_noteName (name : Text) (seen : SeenNames) (key : Text) :
    ((noteName lib name seen).lookup key).isSome = true ↔ (seen.lookup key).isSome = true ∨ collisionKey lib name = key := by
  unfold noteName
  split
  · rename_i known
    by_cases same : collisionKey lib name = key
    · rw [← same,known]
      simp
    · simp [same]
  · by_cases same : collisionKey lib name = key
    · rw [same,List.lookup_cons_self]
      simp
    · have other : (key == collisionKey lib name) = false := beq_false_of_ne (Ne.symm same)
      rw [List.lookup_cons,other]
      simp [same]

theorem Notes.note {before : List ZipInfo} {seen : SeenNames} (notes : Notes lib before seen) (info : ZipInfo) :
    Notes lib (before ++ [info]) (noteName lib info.filename seen) := by
  intro key
  rw [lookup_noteName,notes key]
  simp [or_and_right,exists_or]

theorem pos_ite (p : Prop) [Decidable p] : (0 < if p then 1 else 0) ↔ p := by
  by_cases holds : p
  · simp [holds]
  · simp [holds]

theorem kindCount_other {info : ZipInfo} {c : Category} (symlink : c ≠ .symlink) (encrypted : c ≠ .encrypted) :
    kindCount info c = 0 := by
  simp [kindCount,symlink,encrypted]

theorem kindCount_symlink (info : ZipInfo) : 0 < kindCount info .symlink ↔ info.isDir = false ∧ info.isSymlink = true := by
  by_cases directory : info.isDir = true
  · simp [kindCount,directory]
  · simp [kindCount,directory,pos_ite]

theorem kindCount_encrypted (info : ZipInfo) :
    0 < kindCount info .encrypted ↔ info.isDir = false ∧ info.isSymlink = false ∧ info.isEncrypted = true := by
  by_cases directory : info.isDir = true
  · simp [kindCount,directory]
  · by_cases symlink : info.isSymlink = true
    · simp [kindCount,directory,symlink]
    · simp [kindCount,directory,symlink,pos_ite]

theorem entryCount_pos {before : List ZipInfo} {seen : SeenNames} (notes : Notes lib before seen) (info : ZipInfo)
    (c : Category) : 0 < entryCount lib info seen c ↔ Shows lib before info c := by
  have other (symlink : c ≠ .symlink) (encrypted : c ≠ .encrypted) :
      0 < entryCount lib info seen c ↔ exhibits lib info.filename seen c = true := by
    rw [entryCount,kindCount_other symlink encrypted,Nat.add_zero]
    exact pos_ite _
  cases c with
  | symlink => simpa [entryCount,added,exhibits,Shows] using kindCount_symlink info
  | encrypted => simpa [entryCount,added,exhibits,Shows] using kindCount_encrypted info
  | duplicate => exact (other (by decide) (by decide)).trans (notes (collisionKey lib info.filename))
  | _ => exact other (by decide) (by decide)

theorem entriesCount_pos {infos before : List ZipInfo} {seen : SeenNames} (notes : Notes lib before seen) (c : Category) :
    0 < entriesCount lib infos seen c ↔
      ∃ front info back, infos = front ++ info :: back ∧ Shows lib (before ++ front) info c := by
  induction infos generalizing before seen with
  | nil =>
    constructor
    · exact nofun
    · rintro ⟨front,info,back,split,_⟩
      exact absurd split.symm (List.append_ne_nil_of_right_ne_nil _ (List.cons_ne_nil _ _))
  | cons first rest ih =>
    rw [entriesCount,Nat.add_pos_iff_pos_or_pos,entryCount_pos notes,ih (notes.note first)]
    constructor
    · rintro (shown | ⟨front,info,back,rfl,shown⟩)
      · exact ⟨[],first,rest,rfl,by rwa [List.append_nil]⟩
      · exact ⟨first :: front,info,back,rfl,by simpa using shown⟩
    · rintro ⟨front,info,back,split,shown⟩
      cases front with
      | nil =>
        obtain ⟨rfl,rfl⟩ := List.cons.inj split
        exact .inl (by rwa [List.append_nil] at shown)
      | cons head front =>
        obtain ⟨rfl,rfl⟩ := List.cons.inj split
        exact .inr ⟨front,info,back,rfl,by simpa using shown⟩

theorem notes_nil : Notes lib [] [] := by
  intro key
  simp

theorem sourceCount_pos (source : Bytes) (c : Category) : 0 < sourceCount lib source c ↔ Exhibits lib source c :=
  entriesCount_pos notes_nil c

theorem entryReason_none (info : ZipInfo) : entryReason lib info = none ↔ Legible lib info := by
  unfold entryReason Legible
  by_cases directory : info.isDir = true
  · simp [directory]
  by_cases symlink : info.isSymlink = true
  · simp [symlink]
  by_cases encrypted : info.isEncrypted = true
  · simp [directory,symlink,encrypted]
  by_cases supported : isSupported lib info = true
  · cases read : outcome info.member with
    | ok nested => simp [directory,symlink,encrypted,supported]
    | error e =>
      simp [directory,symlink,encrypted,supported]
      split <;> simp
  · simp [directory,symlink,encrypted,supported]

/-- The limit of the depth is no reason of a container by itself. -/
theorem sourceReasons_other {file : Bool} {source : Bytes} {r : Reason} (member : r ∈ sourceReasons lib file source) :
    r ≠ .nestingDepthLimit := by
  have entry (info : ZipInfo) : entryReason lib info ≠ some .nestingDepthLimit := by
    unfold entryReason
    repeat' split
    all_goals exact nofun
  rintro rfl
  unfold sourceReasons at member
  split at member
  · cases file
    · cases List.mem_singleton.mp member
    · cases List.mem_singleton.mp member
  · cases List.mem_singleton.mp member
  · obtain ⟨info,_,reason⟩ := List.mem_filterMap.mp member
    exact entry info reason

theorem sourceReasons_nil (file : Bool) (source : Bytes) : sourceReasons lib file source = [] ↔
    ∃ infos, opened lib source = .entries infos ∧ ∀ info ∈ infos, Legible lib info := by
  unfold sourceReasons
  cases opened lib source with
  | malformed => simp
  | unlisted => simp
  | entries infos => simp [List.filterMap_eq_nil_iff,entryReason_none]

/-! ### The findings -/

/-- The codes of some findings, in their order. -/
def codesOf (reported : List FindingFields) : List Text := reported.map (·.code)

theorem codesOf_findings (s : State) : codesOf (findings limits s) =
    (observations.filter fun category => 0 < s.counts category).map Category.code ++
      (if .nestingDepthLimit ∈ s.partialReasons then [Category.nesting.code] else []) ++
      (if s.resourceReasons ≠ [] then [lit "ARCHIVE_RESOURCE_LIMIT"] else []) ++
      (if s.malformedReasons ≠ [] then [lit "ARCHIVE_MALFORMED"] else []) ++
      (if s.partialReasons ≠ [] then [lit "ARCHIVE_PARTIAL_ANALYSIS"] else []) := by
  have one (p : Prop) [Decidable p] (f : FindingFields) :
      (if p then [f] else []).map (·.code) = if p then [f.code] else [] := by
    split <;> rfl
  have observed (categories : List Category) :
      (categories.map (observationFinding s)).map (·.code) = categories.map Category.code := by
    rw [List.map_map]
    exact List.map_congr_left fun c _ => findingPayload_code ..
  simp only [codesOf,findings,List.map_append,one,findingPayload_code,observed]

theorem observations_distinct : (observations.map Category.code).Nodup := by decide +kernel

theorem observations_optional : ∀ c ∈ observations, c.code ∉ mandatory := by decide +kernel

theorem required_codes : [Category.nesting.code,lit "ARCHIVE_RESOURCE_LIMIT",lit "ARCHIVE_MALFORMED",
    lit "ARCHIVE_PARTIAL_ANALYSIS"] ⊆ mandatory := by decide +kernel

/-- The finding of a category is there exactly if something was counted. -/
theorem observed_iff {s : State} {c : Category} (observed : c ∈ observations) :
    c.code ∈ codesOf (findings limits s) ↔ 0 < s.counts c := by
  have absent {p : Prop} [Decidable p] {code : Text} (required : code ∈ mandatory) : c.code ∉ if p then [code] else [] := by
    intro member
    split at member
    · exact observations_optional c observed (List.mem_singleton.mp member ▸ required)
    · cases member
  have shown : c.code ∈ (observations.filter fun category => 0 < s.counts category).map Category.code ↔ 0 < s.counts c := by
    constructor
    · intro member
      obtain ⟨c',kept,same⟩ := List.mem_map.mp member
      obtain ⟨observed',positive⟩ := List.mem_filter.mp kept
      rw [← List.inj_on_of_nodup_map observations_distinct observed' observed same]
      exact of_decide_eq_true positive
    · intro positive
      exact List.mem_map.mpr ⟨c,List.mem_filter.mpr ⟨observed,decide_eq_true positive⟩,rfl⟩
  rw [codesOf_findings]
  simp only [List.mem_append,shown]
  constructor
  · rintro ((((positive | member) | member) | member) | member)
    · exact positive
    · exact absurd member (absent (required_codes (by simp)))
    · exact absurd member (absent (required_codes (by simp)))
    · exact absurd member (absent (required_codes (by simp)))
    · exact absurd member (absent (required_codes (by simp)))
  · exact fun positive => .inl (.inl (.inl (.inl positive)))

/-! ### Complete results -/

theorem parserStatus_complete {s : State} : parserStatus s = .COMPLETE ↔ s.malformedReasons = [] ∧ s.partialReasons = [] := by
  unfold parserStatus
  split
  · rename_i malformed
    simp [malformed]
  · rename_i regular
    split
    · rename_i reasons
      simp [reasons]
    · rename_i none
      simp only [ne_eq,not_not] at regular none
      simp [regular,none]

/-- A complete result is that of a state without reasons, with all findings. -/
theorem result_complete {s : State} (complete : (result lib limits s).status = .COMPLETE) :
    s.partialReasons = [] ∧ (result lib limits s).findings = findings limits s := by
  have status : parserStatus (limitFindings limits s) = .COMPLETE := complete
  obtain ⟨_,none⟩ := parserStatus_complete.mp status
  show s.partialReasons = [] ∧ reportedFindings limits s = findings limits s
  unfold reportedFindings
  unfold limitFindings at none ⊢
  split at none
  · exact absurd none (List.ne_nil_of_mem List.mem_insert_self)
  · rename_i fits
    simp only [if_neg fits]
    exact ⟨none,trivial⟩

theorem analyzeArchive_returned {family : FileFamily} {content : Bytes} {analysis : ArchiveAnalysis}
    (returned : analyzeArchive lib limits family (some content) = .ok analysis) :
    (inspect lib limits content).1 = .ok () ∧ analysis = result lib limits (inspect lib limits content).2.toState := by
  unfold analyzeArchive at returned
  split at returned
  · cases returned
  · dsimp only at returned
    cases ended : inspect lib limits content with
    | mk ran s =>
      rw [ended] at returned
      cases ran with
      | ok a =>
        cases returned
        exact ⟨rfl,rfl⟩
      | error e => cases returned

/-- Without a reason to be partial, the search has been cut nowhere and has found every nested file. -/
theorem complete_searched {content : Bytes} (full : lib.Full) (free : Set.InjOn lib.sha256 (nestedFiles lib content))
    (ran : (inspect lib limits content).1 = .ok ()) (none : (inspect lib limits content).2.partialReasons = []) :
    Searched lib limits content (inspect lib limits content).2 ∧
      ∀ a, a ∈ (searched lib limits content).names ↔ a ∈ nestedFiles lib content := by
  have unstopped : (inspect lib limits content).2.resourceReasons = [] := by
    refine List.eq_nil_iff_forall_not_mem.mpr fun r member => ?_
    have held := ((inspect_kinds lib limits content).resources r).mp member
    rw [none] at held
    cases held.1
  have walked := inspect_searched full free ran unstopped
  have uncut : (searched lib limits content).cut = false := by
    by_contra marked
    have member := walked.1.mpr (Bool.eq_true_of_not_eq_false marked)
    rw [none] at member
    cases member
  refine ⟨walked,fun a => ⟨fun member => ?_,?_⟩⟩
  · obtain ⟨depth,_,lies⟩ := found_lies member
    exact ⟨depth,lies⟩
  · rintro ⟨depth,lies⟩
    exact uncut_found uncut lies

section Complete
variable {family : FileFamily} {content : Bytes} {analysis : ArchiveAnalysis}

theorem complete_shown (full : lib.Full) (free : Set.InjOn lib.sha256 (nestedFiles lib content))
    (returned : analyzeArchive lib limits family (some content) = .ok analysis) (complete : analysis.status = .COMPLETE) :
    ∀ c ∈ observations, c.code ∈ codesOf analysis.findings ↔
      ∃ a, (a = content ∨ a ∈ nestedFiles lib content) ∧ Exhibits lib a c := by
  obtain ⟨ran,rfl⟩ := analyzeArchive_returned returned
  obtain ⟨none,reported⟩ := result_complete complete
  obtain ⟨⟨_,counted,_⟩,found⟩ := complete_searched full free ran none
  intro c observed
  rw [reported,observed_iff observed,counted c,Nat.add_pos_iff_pos_or_pos,sourceCount_pos]
  constructor
  · rintro (own | positive)
    · exact ⟨content,.inl rfl,own⟩
    · obtain ⟨n,member,some⟩ := List.exists_mem_ne_zero_of_sum_ne_zero (Nat.ne_of_gt positive)
      obtain ⟨a,named,rfl⟩ := List.mem_map.mp member
      exact ⟨a,.inr ((found a).mp named),(sourceCount_pos a c).mp (Nat.pos_of_ne_zero some)⟩
  · rintro ⟨a,rfl | nested,shown⟩
    · exact .inl shown
    · refine .inr (Nat.lt_of_lt_of_le ((sourceCount_pos a c).mpr shown) ?_)
      exact List.le_sum_of_mem (List.mem_map.mpr ⟨a,(found a).mpr nested,rfl⟩)

theorem complete_seen (full : lib.Full) (free : Set.InjOn lib.sha256 (nestedFiles lib content))
    (returned : analyzeArchive lib limits family (some content) = .ok analysis) (complete : analysis.status = .COMPLETE) :
    ∀ a, a = content ∨ a ∈ nestedFiles lib content →
      ∃ infos, opened lib a = .entries infos ∧ ∀ info ∈ infos, Legible lib info := by
  obtain ⟨ran,rfl⟩ := analyzeArchive_returned returned
  obtain ⟨none,_⟩ := result_complete complete
  obtain ⟨⟨_,_,reasoned⟩,found⟩ := complete_searched full free ran none
  have clean {r : Reason} (other : r ≠ .nestingDepthLimit) : ¬ (r ∈ sourceReasons lib true content ∨
      ∃ a ∈ (searched lib limits content).names, r ∈ sourceReasons lib false a) := by
    rw [← reasoned r other,none]
    exact List.not_mem_nil
  rintro a (rfl | nested)
  · refine (sourceReasons_nil true a).mp (List.eq_nil_iff_forall_not_mem.mpr fun r member => ?_)
    exact clean (sourceReasons_other member) (.inl member)
  · refine (sourceReasons_nil false a).mp (List.eq_nil_iff_forall_not_mem.mpr fun r member => ?_)
    exact clean (sourceReasons_other member) (.inr ⟨a,(found a).mpr nested,member⟩)

end Complete

/-- A complete result is right about every container that can be reached, at any depth: the finding of a category is there
    exactly if some of them shows it, and nothing of them was left out. -/
theorem complete_sound (lib : Library) (limits : ArchiveAnalysisLimits) (family : FileFamily) (content : Bytes)
    (analysis : ArchiveAnalysis) (full : lib.Full) (free : Set.InjOn lib.sha256 (nestedFiles lib content))
    (returned : analyzeArchive lib limits family (some content) = .ok analysis) (complete : analysis.status = .COMPLETE) :
    (∀ c ∈ observations, c.code ∈ codesOf analysis.findings ↔
      ∃ a, (a = content ∨ a ∈ nestedFiles lib content) ∧ Exhibits lib a c) ∧
    ∀ a, a = content ∨ a ∈ nestedFiles lib content →
      ∃ infos, opened lib a = .entries infos ∧ ∀ info ∈ infos, Legible lib info :=
  ⟨complete_shown full free returned complete,complete_seen full free returned complete⟩

/-! ### A sample -/

theorem storedLibrary_zipFile {files : List (List Stored)} (distinct : (files.map zipBytes).Nodup) {members : List Stored}
    (member : members ∈ files) : (storedLibrary files).zipFile (zipBytes members) = .ok ⟨.ok (members.map Stored.info)⟩ := by
  have found : files.find? (fun others => zipBytes others == zipBytes members) = some members := by
    cases ended : files.find? fun others => zipBytes others == zipBytes members with
    | none => exact absurd (beq_self_eq_true _) (List.find?_eq_none.mp ended members member)
    | some others =>
      have same : (zipBytes others == zipBytes members) = true := by
        simpa using List.find?_some ended
      rw [List.inj_on_of_nodup_map distinct (List.mem_of_find?_eq_some ended) member (eq_of_beq same)]
  simp only [storedLibrary,found]

theorem storedLibrary_opened {files : List (List Stored)} (distinct : (files.map zipBytes).Nodup) {members : List Stored}
    (member : members ∈ files) :
    opened (storedLibrary files) (zipBytes members) = .entries (members.map Stored.info) := by
  rw [opened,storedLibrary_zipFile distinct member]

theorem storedLibrary_full (files : List (List Stored)) : (storedLibrary files).Full := by
  intro source info member
  have stored : ∃ members : List Stored, info ∈ members.map Stored.info := by
    simp only [opened,storedLibrary] at member
    generalize files.find? (fun others => zipBytes others == source) = found at member
    cases found with
    | none => cases member
    | some others => exact ⟨others,member⟩
  obtain ⟨members,held⟩ := stored
  obtain ⟨m,_,rfl⟩ := List.mem_map.mp held
  show 4 ≤ 64 * 1024
  omega

/-- A file with one nested file in it, which has none. -/
theorem lies_once {source nested : Bytes} (one : inside lib source = [nested]) (last : inside lib nested = [])
    {depth : Nat} {a : Bytes} (lies : Lies (inside lib) (inside lib source) depth a) : depth = 1 ∧ a = nested := by
  induction lies with
  | start member =>
    rw [one] at member
    exact ⟨rfl,List.mem_singleton.mp member⟩
  | step before member ih =>
    rw [ih.2,last] at member
    cases member

theorem free_once {source nested : Bytes} (one : inside lib source = [nested]) (last : inside lib nested = []) :
    Set.InjOn lib.sha256 (nestedFiles lib source) := by
  rintro a ⟨_,lies⟩ b ⟨_,lies'⟩ _
  rw [(lies_once one last lies).2,(lies_once one last lies').2]

def noteMember : Stored := ⟨lit "notes.txt",[0x68,0x65,0x6c,0x6c,0x6f],0x3610a686⟩
def programMember : Stored := ⟨lit "run.exe",[0x4d,0x5a],0x8fb09b5d⟩

/-- A ZIP with a program in it, and one that it is nested in. -/
def programMembers : List Stored := [programMember,noteMember]
def carrierMembers : List Stored := [⟨lit "inner.zip",zipBytes programMembers,0x5c3694c7⟩,noteMember]

/-- The same with the members the other way round. -/
def turnedProgram : List Stored := [noteMember,programMember]
def turnedCarrier : List Stored := [noteMember,⟨lit "inner.zip",zipBytes turnedProgram,0x603940af⟩]

def programFiles : List (List Stored) := [programMembers,carrierMembers,turnedProgram,turnedCarrier]
def programLibrary : Library := storedLibrary programFiles

theorem program_opened {members : List Stored} (member : members ∈ programFiles) :
    opened programLibrary (zipBytes members) = .entries (members.map Stored.info) :=
  storedLibrary_opened (by decide +kernel) member

theorem program_last {members : List Stored} (member : members ∈ [programMembers,turnedProgram]) :
    inside programLibrary (zipBytes members) = [] := by
  have listed : ∀ members ∈ [programMembers,turnedProgram],
      members ∈ programFiles ∧ (members.map Stored.info).filterMap (nestedIn programLibrary) = [] := by
    simp only [List.forall_mem_cons,List.not_mem_nil,false_imp_iff,implies_true,and_true]
    refine ⟨⟨by simp [programFiles],?_⟩,by simp [programFiles],?_⟩
    all_goals decide +kernel
  rw [inside,program_opened (listed members member).1]
  exact (listed members member).2

theorem carrier_inside : inside programLibrary (zipBytes carrierMembers) = [zipBytes programMembers] ∧
    inside programLibrary (zipBytes turnedCarrier) = [zipBytes turnedProgram] := by
  rw [inside,inside,program_opened (by simp [programFiles]),program_opened (by simp [programFiles])]
  decide +kernel

theorem carrier_free : Set.InjOn programLibrary.sha256 (nestedFiles programLibrary (zipBytes carrierMembers)) :=
  free_once carrier_inside.1 (program_last List.mem_cons_self)

def programAnalysis : ArchiveAnalysis :=
  result programLibrary DEFAULT_ARCHIVE_LIMITS
    (inspect programLibrary DEFAULT_ARCHIVE_LIMITS (zipBytes carrierMembers)).2.toState

theorem program_complete :
    (inspect programLibrary DEFAULT_ARCHIVE_LIMITS (zipBytes carrierMembers)).1 = .ok () ∧
    programAnalysis.status = .COMPLETE := by
  decide +kernel

theorem analyzeArchive_routed {lib : Library} {limits : ArchiveAnalysisLimits} {family : FileFamily} {content : Bytes}
    (package : family = .ZIP ∨ family = .OOXML_CANDIDATE) : analyzeArchive lib limits family (some content) =
      match inspect lib limits content with
      | (.ok _,s) => .ok (result lib limits s.toState)
      | (.error raised,_) => .error (.escaped raised) := by
  refine if_neg ?_
  rintro ⟨noZip,noPackage⟩
  exact package.elim noZip noPackage

theorem analyzeArchive_inspected {lib : Library} {limits : ArchiveAnalysisLimits} {family : FileFamily} {content : Bytes}
    (package : family = .ZIP ∨ family = .OOXML_CANDIDATE) (ran : (inspect lib limits content).1 = .ok ()) :
    analyzeArchive lib limits family (some content) = .ok (result lib limits (inspect lib limits content).2.toState) := by
  rw [analyzeArchive_routed package]
  generalize inspect lib limits content = ended at ran ⊢
  obtain ⟨returned,s⟩ := ended
  obtain rfl : returned = .ok () := ran
  rfl

theorem analyzeArchive_escaped {lib : Library} {limits : ArchiveAnalysisLimits} {family : FileFamily} {content : Bytes}
    {raised : Raised} (package : family = .ZIP ∨ family = .OOXML_CANDIDATE)
    (ran : (inspect lib limits content).1 = .error raised) :
    analyzeArchive lib limits family (some content) = .error (.escaped raised) := by
  rw [analyzeArchive_routed package]
  generalize inspect lib limits content = ended at ran ⊢
  obtain ⟨returned,s⟩ := ended
  obtain rfl : returned = .error raised := ran
  rfl

theorem analyzeArchive_zip {lib : Library} {limits : ArchiveAnalysisLimits} {content : Bytes}
    (ran : (inspect lib limits content).1 = .ok ()) : analyzeArchive lib limits .ZIP (some content) =
      .ok (result lib limits (inspect lib limits content).2.toState) :=
  analyzeArchive_inspected (.inl rfl) ran

theorem complete_sound_carrier :
    (∀ c ∈ observations, c.code ∈ codesOf programAnalysis.findings ↔
      ∃ a, (a = zipBytes carrierMembers ∨ a ∈ nestedFiles programLibrary (zipBytes carrierMembers)) ∧
        Exhibits programLibrary a c) ∧
    ∀ a, a = zipBytes carrierMembers ∨ a ∈ nestedFiles programLibrary (zipBytes carrierMembers) →
      ∃ infos, opened programLibrary a = .entries infos ∧ ∀ info ∈ infos, Legible programLibrary info :=
  complete_sound programLibrary DEFAULT_ARCHIVE_LIMITS .ZIP (zipBytes carrierMembers) programAnalysis
    (storedLibrary_full _) carrier_free (analyzeArchive_zip program_complete.1) program_complete.2

end DocGuard.Archive
