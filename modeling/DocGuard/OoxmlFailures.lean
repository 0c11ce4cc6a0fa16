import DocGuard.OoxmlVisits

/-!
What becomes of the errors that the libraries raise while a package is inspected:
which of them the handlers catch, and what is kept of the inspection before one.
-/
namespace DocGuard.Ooxml
open DocGuard.Commands DocGuard.Domain DocGuard.Vba
open DocGuard.Archive (Container Declared Exn Stored ZipInfo crc32 declaredBytes)

variable {lib : Library} {limits : OfficeAnalysisLimits} {members : Members} {s t : State}

/-! ### What later steps keep -/

/-- The state without the marks, the bytes read and what VBA projects add. -/
def State.settled (s : State) : State := { s.outline with malformed := false, parserException := none }

/-- The state `s` has every observation of the state `t`. -/
structure Extends (limits : OfficeAnalysisLimits) (t s : State) : Prop where
  settled : s.settled = t.settled
  bytesRead : t.bytesRead ≤ s.bytesRead
  encrypted : t.encrypted → s.encrypted
  malformed : t.malformed → s.malformed
  reasons : t.partialReasons ⊆ s.partialReasons
  passed : t.passed <+: s.passed
  macroDetected : t.vba.macroDetected → s.vba.macroDetected
  moduleCount : min t.vba.moduleCount limits.maxVbaModules ≤ s.vba.moduleCount
  moduleNames : t.vba.moduleNames <+: s.vba.moduleNames
  triggers : t.vba.autoexecTriggers ⊆ s.vba.autoexecTriggers
  classes : t.vba.indicatorClasses ⊆ s.vba.indicatorClasses
  indicators : t.vba.indicatorNames ⊆ s.vba.indicatorNames

theorem extends_refl (s : State) : Extends limits s s where
  settled := rfl
  bytesRead := Nat.le_refl _
  encrypted := id
  malformed := id
  reasons := List.Subset.refl _
  passed := List.prefix_rfl
  macroDetected := id
  moduleCount := Nat.min_le_left _ _
  moduleNames := List.prefix_rfl
  triggers := List.Subset.refl _
  classes := List.Subset.refl _
  indicators := List.Subset.refl _

theorem extends_trans (s t u : State) (first : Extends limits s t) (second : Extends limits t u) : Extends limits s u where
  settled := second.settled.trans first.settled
  bytesRead := first.bytesRead.trans second.bytesRead
  encrypted := second.encrypted ∘ first.encrypted
  malformed := second.malformed ∘ first.malformed
  reasons := List.Subset.trans first.reasons second.reasons
  passed := first.passed.trans second.passed
  macroDetected := second.macroDetected ∘ first.macroDetected
  moduleCount := (Nat.le_min.mpr ⟨first.moduleCount,Nat.min_le_right _ _⟩).trans second.moduleCount
  moduleNames := first.moduleNames.trans second.moduleNames
  triggers := List.Subset.trans first.triggers second.triggers
  classes := List.Subset.trans first.classes second.classes
  indicators := List.Subset.trans first.indicators second.indicators

/-- What is reported at a state is reported later; where no VBA project adds to it, with the same metadata. -/
theorem Extends.finding (extends_ : Extends limits t s) (code : OfficeCode) :
    (reports t code → reports s code) ∧
      (code ∉ [OfficeCode.VBA_MACRO,.VBA_AUTOEXEC,.VBA_EXECUTION_INDICATOR,.MALFORMED,.PARTIAL_ANALYSIS] →
        findingMetadata limits s code = findingMetadata limits t code) := by
  have same {α : Type} (field : State → α) (apart : ∀ t, field t.settled = field t) : field s = field t := by
    rw [← apart s, extends_.settled, apart]
  have some {items more : List Text} (inside : items ⊆ more) (found : items ≠ []) : more ≠ [] := by
    obtain ⟨item,member⟩ := List.exists_mem_of_ne_nil _ found
    exact List.ne_nil_of_mem (inside member)
  have application := same State.application fun _ => rfl
  have projects := same State.vbaProjectCount fun _ => rfl
  cases code with
  | MACRO_ENABLED =>
    have enabled := same State.macroEnabled fun _ => rfl
    simp only [reports, findingMetadata, enabled, application, projects]
    exact ⟨id,fun _ => trivial⟩
  | VBA_MACRO =>
    refine ⟨?_,fun other => absurd (by decide) other⟩
    simp only [reports, projects, Bool.or_eq_true]
    exact Or.imp_right extends_.macroDetected
  | VBA_AUTOEXEC =>
    refine ⟨?_,fun other => absurd (by decide) other⟩
    simp only [reports, decide_eq_true_eq]
    exact some extends_.triggers
  | VBA_EXECUTION_INDICATOR =>
    refine ⟨?_,fun other => absurd (by decide) other⟩
    simp only [reports, decide_eq_true_eq]
    exact some extends_.classes
  | EXTERNAL_RELATIONSHIP =>
    have count := same State.externalRelationshipCount fun _ => rfl
    have summaries := same State.externalSummaries fun _ => rfl
    have capped := same State.externalSummaryCapped fun _ => rfl
    simp only [reports, findingMetadata, count, summaries, capped]
    exact ⟨id,fun _ => trivial⟩
  | EXTERNAL_TEMPLATE =>
    have count := same State.externalTemplateCount fun _ => rfl
    have summaries := same State.externalTemplateSummaries fun _ => rfl
    simp only [reports, findingMetadata, count, summaries]
    exact ⟨id,fun _ => trivial⟩
  | EMBEDDED_OBJECT =>
    have count := same State.embeddedObjectCount fun _ => rfl
    simp only [reports, findingMetadata, count]
    exact ⟨id,fun _ => trivial⟩
  | ACTIVEX =>
    have count := same State.activexCount fun _ => rfl
    simp only [reports, findingMetadata, count]
    exact ⟨id,fun _ => trivial⟩
  | ENCRYPTED => exact ⟨extends_.encrypted,fun _ => rfl⟩
  | MALFORMED => exact ⟨extends_.malformed,fun other => absurd (by decide) other⟩
  | PARTIAL_ANALYSIS =>
    refine ⟨?_,fun other => absurd (by decide) other⟩
    simp only [reports, decide_eq_true_eq]
    exact some extends_.reasons

theorem extends_kept : KeptByReading (Extends limits) where
  refl := extends_refl
  trans := extends_trans
  bytesRead s _ := { extends_refl s with settled := rfl, bytesRead := Nat.le_add_right _ _ }
  encrypted s := { extends_refl s with settled := rfl, encrypted := fun _ => rfl }
  raised s := { extends_refl s with settled := rfl }

theorem markPartial_extends (reason : Text) (s : State) : Extends limits s (s.markPartial reason) :=
  { extends_refl s with settled := rfl, reasons := fun _ member => List.mem_insert_of_mem member }

theorem malformedPart_extends (reason : Text) (e : Option Text) (s : State) : Extends limits s (s.malformedPart reason e) :=
  { extends_refl s with
    settled := rfl
    malformed := fun _ => rfl
    reasons := fun _ member => List.mem_insert_of_mem member }

theorem mergeProject_extends (name : Text) (data : Bytes) : Moves (Extends limits) Any (mergeProject lib limits name data) := by
  have left {items more : List Text} : items ⊆ items ∪ more := fun _ member => List.mem_union_iff.mpr (.inl member)
  intro s
  rcases mergeProject_cases lib limits name data s with ⟨_,ran⟩ | ⟨analysis,_,ran⟩
  · rw [ran]
    exact ⟨{ extends_refl s with settled := rfl, passed := List.prefix_append _ _ },fun _ _ => trivial⟩
  · rw [ran]
    refine ⟨?_,nofun⟩
    exact {
      settled := rfl
      bytesRead := Nat.le_refl _
      encrypted := id
      malformed := id
      reasons := left
      passed := List.prefix_append _ _
      macroDetected := fun detected => Bool.or_eq_true_iff.mpr (.inl detected)
      moduleCount := Nat.le_min.mpr ⟨(Nat.min_le_left _ _).trans (Nat.le_add_right _ _),Nat.min_le_right _ _⟩
      moduleNames := List.prefix_append _ _
      triggers := left
      classes := left
      indicators := left }

theorem afterVbaRead_extends (name : Text) (read : Except Raised Bytes) :
    Moves (Extends limits) Any (afterVbaRead lib limits name read) := by
  match read with
  | .ok data => exact mergeProject_extends name data
  | .error (.limit reason) => exact moves_update (markPartial_extends reason)
  | .error .valueError | .error (.xml _) | .error (.library _) | .error .other => exact moves_raise extends_refl trivial

theorem inspectVbaMember_extends (name : Text) : Moves (Extends limits) Any (inspectVbaMember lib limits members name) :=
  moves_attempt extends_trans (moves_readMember extends_kept) fun read _ => afterVbaRead_extends name read

/-! ### Errors -/

/-- The inspection up to the VBA projects; the result is the members to be read as projects. -/
def untilProjects (lib : Library) (limits : OfficeAnalysisLimits) (members : Members) : Inspection (List Text) := do
  match ← readRequiredXml lib limits members _CONTENT_TYPES_PART with
  | none => return []
  | some root => do
    let overrides ← contentTypeOverrides root
    Command.update (classifyPackage lib overrides members)
    let s ← Command.observe id
    if s.application = .UNKNOWN then
      Command.update (State.malformedPart (lit "inconsistent_package_structure") none)
    inspectRelationships lib limits members
    Command.update (countObjects limits members)
    let s ← Command.observe id
    let projects := vbaMembers lib members overrides s.application
    Command.update (countProjects limits projects)
    return projects.take limits.maxVbaProjects

theorem inspectPackage_cut : inspectPackage lib limits members =
    untilProjects lib limits members >>= Command.forEach (inspectVbaMember lib limits members) := by
  have capabilities (overrides : List (Text × Text)) : inspectCapabilities lib limits members overrides = (do
      Command.update (countObjects limits members)
      let s ← Command.observe id
      let projects := vbaMembers lib members overrides s.application
      Command.update (countProjects limits projects)
      return projects.take limits.maxVbaProjects) >>= Command.forEach (inspectVbaMember lib limits members) := rfl
  unfold inspectPackage untilProjects
  rw [bind_bind]
  refine congrArg _ (funext fun read => ?_)
  cases read with
  | none => rfl
  | some root =>
    dsimp only
    unfold inspectContents
    rw [bind_bind]
    refine congrArg _ (funext fun overrides => ?_)
    rw [bind_bind]
    refine congrArg _ (funext fun _ => ?_)
    rw [bind_bind]
    refine congrArg _ (funext fun s => ?_)
    rw [capabilities]
    dsimp only
    split
    · simp only [bind_bind]
    · simp only [bind_bind]

/-- A state in which an error is met: one that ends the inspection, or one that a VBA project is given up for. -/
inductive AtError (lib : Library) (limits : OfficeAnalysisLimits) (members : Members) (start : State) : State → Prop
  | ended {e : Raised} {t : State} (run : inspectPackage lib limits members start = (.error e,t)) :
    AtError lib limits members start t
  | skipped {before after : List Text} {name : Text} {u v t : State} {e : Raised}
    (until_ : untilProjects lib limits members start = (.ok (before ++ name :: after),u))
    (loop : Command.forEach (inspectVbaMember lib limits members) before u = (.ok (),v))
    (read : readMember limits members name limits.maxVbaProjectBytes v = (.error e,t)) :
    AtError lib limits members start t

/-- The state in which the inspection ends has every observation made before an error. -/
theorem AtError.extends {start : State} (met : AtError lib limits members start t) :
    Extends limits t (inspectPackage lib limits members start).2 := by
  cases met with
  | ended run =>
    rw [run]
    exact extends_refl t
  | skipped until_ loop read =>
    rename_i before after name u v e
    have ran : inspectPackage lib limits members start =
        (afterVbaRead lib limits name (.error e) >>= fun _ =>
          Command.forEach (inspectVbaMember lib limits members) after) t := by
      rw [inspectPackage_cut, bind_returned until_, forEach_append, bind_returned loop]
      show (inspectVbaMember lib limits members name >>= fun _ =>
        Command.forEach (inspectVbaMember lib limits members) after) v = _
      have given : inspectVbaMember lib limits members name v = afterVbaRead lib limits name (.error e) t := by
        show afterVbaRead lib limits name (readMember limits members name limits.maxVbaProjectBytes v).1
          (readMember limits members name limits.maxVbaProjectBytes v).2 = _
        rw [read]
      simp only [bind, given]
    have later : Moves (Extends limits) Any (afterVbaRead lib limits name (.error e) >>= fun _ =>
        Command.forEach (inspectVbaMember lib limits members) after) :=
      moves_bind extends_trans (afterVbaRead_extends name _) fun _ =>
        moves_forEach extends_refl extends_trans fun name _ => inspectVbaMember_extends name
    rw [ran]
    exact (later t).1

variable (limits) in
/-- The handlers keep what was observed. -/
theorem onRaised_extends {e : Raised} (caught : Caught e) (t : State) :
    ∃ s, onRaised e t = (.ok (),s) ∧ Extends limits t s := by
  cases e with
  | limit reason => exact ⟨_,rfl,markPartial_extends _ _⟩
  | valueError => exact ⟨_,rfl,malformedPart_extends _ _ _⟩
  | xml name => exact ⟨_,rfl,malformedPart_extends _ _ _⟩
  | other => cases caught
  | library e =>
    cases e
    case UnicodeDecodeError | OSError | EOFError | BadZipFile | ZlibError => exact ⟨_,rfl,malformedPart_extends _ _ _⟩
    all_goals
      revert caught
      simp [Caught]

theorem onRaised_uncaught {e : Raised} (uncaught : ¬ Caught e) (t : State) : onRaised e t = (.error e,t) := by
  cases e with
  | limit reason => exact absurd trivial uncaught
  | valueError => exact absurd trivial uncaught
  | xml name => exact absurd trivial uncaught
  | other => rfl
  | library e => cases e <;> first | rfl | exact absurd (by simp [Caught]) uncaught

/-! ### Packages that survive -/

/-- A package is analyzed: with a mark if a library has raised, and with all that was observed before any error. -/
structure Survives (lib : Library) (limits : OfficeAnalysisLimits) (data : Bytes) (members : Members) (s : State) : Prop where
  inspected : Inspected lib limits data members s
  analyzed : analyzeOoxml lib limits data = .ok (some (result limits s))
  incomplete : s.raised → parserStatus s = .PARTIAL ∨ parserStatus s = .MALFORMED
  kept : ∀ start t, checkNames limits members = (true,start) → AtError lib limits members start t → Extends limits t s

theorem incomplete_of_raised (ended : inspect lib limits members = .ok s) (raised : s.raised) :
    parserStatus s = .PARTIAL ∨ parserStatus s = .MALFORMED := by
  cases status : parserStatus s with
  | COMPLETE =>
    obtain ⟨root,found⟩ := inspect_complete ended (parserStatus_complete.mp status).2
    rw [found.raised] at raised
    cases raised
  | PARTIAL => exact .inl rfl
  | MALFORMED => exact .inr rfl

theorem checkNames_blank (limits : OfficeAnalysisLimits) (members : Members) :
    Blank (checkNames limits members).2 ∧ (checkNames limits members).2.meter = {} := by
  unfold checkNames
  dsimp only
  split_ifs <;> exact ⟨⟨rfl,rfl⟩,rfl⟩

variable (lib) in
/-- An inspection ends with a state unless its package raises an error that is not caught. -/
theorem inspect_survives {start : State} (checked : checkNames limits members = (true,start))
    (caught : ∀ e, (inspectPackage lib limits members start).1 = .error e → Caught e) :
    ∃ s, inspect lib limits members = .ok s ∧ Extends limits (inspectPackage lib limits members start).2 s := by
  unfold inspect Command.except
  rw [checked]
  dsimp only
  cases ran : inspectPackage lib limits members start with
  | mk ended t =>
    cases ended with
    | ok a => exact ⟨t,rfl,extends_refl t⟩
    | error e =>
      obtain ⟨s,handled,extends_⟩ := onRaised_extends limits (caught e (by rw [ran])) t
      dsimp only
      rw [handled]
      exact ⟨s,rfl,extends_⟩

theorem inspect_escapes {start : State} {e : Raised} (checked : checkNames limits members = (true,start))
    (raised : (inspectPackage lib limits members start).1 = .error e) (uncaught : ¬ Caught e) :
    inspect lib limits members = .error e := by
  unfold inspect Command.except
  rw [checked]
  dsimp only
  cases ran : inspectPackage lib limits members start with
  | mk ended t =>
    rw [ran] at raised
    cases raised
    dsimp only
    rw [onRaised_uncaught uncaught]

/-- A package survives exactly if nothing that the inspection reads gives an error without a handler. -/
theorem failures_survived_iff {data : Bytes} {container : Container} (opened : lib.zipFile data = .ok container)
    (listed : container.infolist = .ok members) (present : _CONTENT_TYPES_PART ∈ members.names) :
    (∃ s, Survives lib limits data members s) ↔
      ∀ visit ∈ visits lib limits members, ∀ e, visit.error = some e → Caught e := by
  have survives {s : State} (ended : inspect lib limits members = .ok s) (kept : ∀ start t, checkNames limits members = (true,start) →
      AtError lib limits members start t → Extends limits t s) : ∃ s, Survives lib limits data members s := by
    have inspected : Inspected lib limits data members s := ⟨⟨container,opened,listed⟩,present,ended⟩
    exact ⟨s,inspected,inspected.analyzed,incomplete_of_raised ended,kept⟩
  cases checked : checkNames limits members with
  | mk goes start =>
    cases goes with
    | false =>
      have none : visits lib limits members = [] := by
        unfold visits
        rw [checked]
        rfl
      rw [none]
      refine ⟨fun _ _ member => absurd member List.not_mem_nil,fun _ => ?_⟩
      refine survives (s := start) (by unfold inspect; rw [checked]) fun _ _ went _ => ?_
      rw [checked] at went
      cases went
    | true =>
      have goes : (checkNames limits members).1 = true := by rw [checked]
      obtain ⟨blank,meter⟩ := checkNames_blank limits members
      rw [checked] at blank meter
      have run := inspectPackage_run lib goes present blank meter
      constructor
      · rintro ⟨s,survives⟩ visit member e gives
        by_contra uncaught
        have raised := (run.ends e uncaught).mpr ⟨visit,member,gives⟩
        have escaped := inspect_escapes checked raised uncaught
        rw [survives.inspected.ended] at escaped
        cases escaped
      · intro caught
        obtain ⟨s,ended,extends_⟩ := inspect_survives lib checked fun e raised => by
          by_contra uncaught
          obtain ⟨visit,member,gives⟩ := (run.ends e uncaught).mp raised
          exact uncaught (caught visit member e gives)
        refine survives ended fun start' t went met => ?_
        rw [checked] at went
        cases went
        exact extends_trans _ _ _ met.extends extends_

/-- The libraries at an archive with these bytes and members. -/
def archiveLibrary (data : Bytes) (infos : Members) : Library :=
  { projectLibrary [lit "Main"] with zipFile := fun given => if given = data then .ok ⟨.ok infos⟩ else .error .BadZipFile }

theorem archiveLibrary_zipFile (data : Bytes) (infos : Members) : (archiveLibrary data infos).zipFile data = .ok ⟨.ok infos⟩ :=
  if_pos rfl

/-- A document whose VBA project is encrypted, so that `zipfile` does not open it without a password. -/
def lockedData : Bytes :=
  declaredBytes (fun m => if m.name = lit "word/vbaProject.bin" then ⟨1,0⟩ else ⟨0,0⟩)
    (projectDocument.parts.map fun part => ⟨part.1,part.2,crc32 part.2⟩)

def lockedInfos : Members :=
  projectDocument.infos.map fun info =>
    if info.filename = lit "word/vbaProject.bin" then
      { info with flagBits := 1, member := { info.member with openRaises := some .RuntimeError } }
    else info

theorem failures_survived_iff_locked :
    (archiveLibrary lockedData lockedInfos).zipFile lockedData = .ok ⟨.ok lockedInfos⟩ ∧
      ((∃ s, Survives (archiveLibrary lockedData lockedInfos) {} lockedData lockedInfos s) ↔
        ∀ visit ∈ visits (archiveLibrary lockedData lockedInfos) {} lockedInfos, ∀ e, visit.error = some e → Caught e) ∧
          (visits (archiveLibrary lockedData lockedInfos) {} lockedInfos).filterMap Visit.error =
            [.limit (lit "encrypted_zip_member")] := by
  have opened := archiveLibrary_zipFile lockedData lockedInfos
  refine ⟨opened,failures_survived_iff opened rfl (by decide),?_⟩
  decide +kernel

/-- What `zipfile` raises when it opens and reads a member. -/
def memberErrors : List Exn :=
  [.BadZipFile,.OSError,.EOFError,.RuntimeError,.NotImplementedError,.UnicodeDecodeError,.ZlibError,.LZMAError,.ZstdError]

/-- An archive whose part of content types declares Deflate64, which `zipfile` does not support. -/
def deflate64Data : Bytes := declaredBytes (fun _ => ⟨0,9⟩) [⟨_CONTENT_TYPES_PART,[],crc32 []⟩]

def deflate64Infos : Members :=
  [{ filename := _CONTENT_TYPES_PART, compressType := 9, member := { content := [], openRaises := some .NotImplementedError } }]

theorem unsupported_compression_escapes :
    (archiveLibrary deflate64Data deflate64Infos).zipFile deflate64Data = .ok ⟨.ok deflate64Infos⟩ ∧
      _CONTENT_TYPES_PART ∈ deflate64Infos.names ∧
        (∀ info ∈ deflate64Infos, ∀ e, info.member.openRaises = some e → e ∈ memberErrors) ∧
          ¬ ∃ s, Survives (archiveLibrary deflate64Data deflate64Infos) DEFAULT_OFFICE_LIMITS deflate64Data deflate64Infos s := by
  have escapes : (inspect (archiveLibrary deflate64Data deflate64Infos) DEFAULT_OFFICE_LIMITS deflate64Infos).map
      (fun _ => ()) = .error (.library .NotImplementedError) := by
    decide +kernel
  refine ⟨archiveLibrary_zipFile _ _,List.mem_cons_self,fun info member e given => ?_,?_⟩
  · cases List.mem_singleton.mp member
    cases given
    decide
  · rintro ⟨s,survives⟩
    rw [survives.inspected.ended] at escapes
    cases escapes

end DocGuard.Ooxml
