import DocGuard.JsonSize
import DocGuard.OoxmlFailures

/-!
The sizes of the findings about an Office document: what is retained in the state of
an inspection, and which of the findings can outgrow the limit on metadata.
-/
namespace DocGuard.Ooxml
open DocGuard.Commands DocGuard.Contract DocGuard.Domain DocGuard.Findings DocGuard.NameSecurity DocGuard.Ordered DocGuard.Vba
open DocGuard.Archive (Container Exn Member ZipInfo)
open DocGuard.Json

variable {lib : Library} {limits : OfficeAnalysisLimits} {members : Members} {s t : State}

/-! ### The analysis of a VBA project -/

/-- The reasons for which the analysis of a VBA project is partial. -/
def vbaReasons : List Text :=
  [lit "vba_project_size_limit",lit "vba_source_unavailable",lit "vba_parser_error",lit "orphan_vba_stream",
   lit "vba_module_limit",lit "vba_source_size_limit"]

/-- Modules are only named in a project with macros, and indicators come with their classes. -/
structure WellFormed (analysis : VbaAnalysis) : Prop where
  names : analysis.moduleNames ≠ [] → analysis.macroDetected
  indicators : analysis.indicatorNames ≠ [] → analysis.indicatorClasses ≠ []
  classes : analysis.indicatorClasses ⊆ _EXECUTION_INDICATORS.map Prod.snd
  reasons : analysis.partialReasons ⊆ vbaReasons

theorem insert_subset {reasons known : List Text} {reason : Text} (inside : reasons ⊆ known) (member : reason ∈ known) :
    reasons.insert reason ⊆ known := by
  intro other here
  rcases List.mem_insert_iff.mp here with rfl | old
  · exact member
  · exact inside old

theorem WellFormed.addReason {analysis : VbaAnalysis} (wellFormed : WellFormed analysis) {reason : Text}
    (known : reason ∈ vbaReasons) : WellFormed (addReason reason analysis) :=
  { wellFormed with reasons := insert_subset wellFormed.reasons known }

theorem insert_ne_nil {items : List Text} {item : Text} : items.insert item ≠ [] :=
  List.ne_nil_of_mem List.mem_insert_self

theorem lookup_class {normalized indicatorClass : Text} (found : _EXECUTION_INDICATORS.lookup normalized = some indicatorClass) :
    indicatorClass ∈ _EXECUTION_INDICATORS.map Prod.snd := by
  obtain ⟨before,after,split_,_⟩ := List.lookup_eq_some_iff.mp found
  rw [split_, List.map_append, List.map_cons]
  exact List.mem_append_right _ List.mem_cons_self

theorem scanTrigger_wellFormed {analysis : VbaAnalysis} (wellFormed : WellFormed analysis) (normalized : Text)
    (found : Text × Text) : WellFormed (scanTrigger lib.tables limits normalized found analysis) := by
  unfold scanTrigger
  split
  · exact ⟨wellFormed.names,wellFormed.indicators,wellFormed.classes,wellFormed.reasons⟩
  · exact wellFormed

theorem scanIndicator_wellFormed {analysis : VbaAnalysis} (wellFormed : WellFormed analysis) (normalized : Text)
    (found : Text × Text) : WellFormed (scanIndicator lib.tables limits normalized found analysis) := by
  unfold scanIndicator
  split
  · exact wellFormed
  split
  · exact wellFormed
  · rename_i indicatorClass known
    split
    · exact {
        names := wellFormed.names
        indicators := fun _ => insert_ne_nil
        classes := insert_subset wellFormed.classes (lookup_class known)
        reasons := wellFormed.reasons }
    · exact wellFormed

theorem scanSource_wellFormed {analysis : VbaAnalysis} (wellFormed : WellFormed analysis) (found : List (Text × Text)) :
    WellFormed (scanSource lib.tables limits lib.isSpace found analysis) := by
  unfold scanSource
  induction found generalizing analysis with
  | nil => exact wellFormed
  | cons first rest ih => exact ih (scanIndicator_wellFormed (scanTrigger_wellFormed wellFormed _ _) _ _)

/-- The flag of macros stays while sources are scanned. -/
theorem scanSource_macroDetected (analysis : VbaAnalysis) (found : List (Text × Text)) :
    (scanSource lib.tables limits lib.isSpace found analysis).macroDetected = analysis.macroDetected := by
  have trigger (normalized : Text) (found : Text × Text) (analysis : VbaAnalysis) :
      (scanTrigger lib.tables limits normalized found analysis).macroDetected = analysis.macroDetected := by
    unfold scanTrigger
    split <;> rfl
  have indicator (normalized : Text) (found : Text × Text) (analysis : VbaAnalysis) :
      (scanIndicator lib.tables limits normalized found analysis).macroDetected = analysis.macroDetected := by
    unfold scanIndicator
    split
    · rfl
    split
    · rfl
    · split <;> rfl
  unfold scanSource
  induction found generalizing analysis with
  | nil => rfl
  | cons first rest ih =>
    rw [List.foldl_cons, ih, scanKeyword, indicator, trigger]

theorem boundedSource_wellFormed {analysis : VbaAnalysis} (wellFormed : WellFormed analysis) (source : Text) (remaining : Nat) :
    WellFormed (boundedSource source remaining analysis).2 ∧
      (boundedSource source remaining analysis).2.macroDetected = analysis.macroDetected := by
  have inspected (n : Nat) : WellFormed { analysis with sourceBytesInspected := n } :=
    ⟨wellFormed.names,wellFormed.indicators,wellFormed.classes,wellFormed.reasons⟩
  unfold boundedSource
  split
  · exact ⟨(inspected _).addReason (by decide),rfl⟩
  · exact ⟨inspected _,rfl⟩

theorem inspectModules_wellFormed {raises : Option VbaError} (modules : List Module) (index : Nat) {analysis : VbaAnalysis}
    (wellFormed : WellFormed analysis) (detected : analysis.macroDetected) :
    WellFormed (inspectModules lib.tables limits lib.isSpace raises modules index analysis).1 := by
  induction modules generalizing index analysis with
  | nil => exact wellFormed
  | cons m rest ih =>
    unfold inspectModules
    split
    · exact wellFormed.addReason (by decide)
    split
    · exact wellFormed
    · rename_i source _
      dsimp only
      split
      · exact wellFormed.addReason (by decide)
      · obtain ⟨bounded,same⟩ := boundedSource_wellFormed wellFormed source
          (limits.maxVbaSourceBytes - analysis.sourceBytesInspected)
        revert bounded same
        generalize boundedSource source (limits.maxVbaSourceBytes - analysis.sourceBytesInspected) analysis = reached
        obtain ⟨shortened,reached⟩ := reached
        intro bounded same
        have named (count : Nat) (names : List Text) :
            WellFormed { reached with moduleCount := count, moduleNames := names } :=
          ⟨fun _ => same.trans detected,bounded.indicators,bounded.classes,bounded.reasons⟩
        dsimp only
        split
        · exact named _ _
        · refine ih _ (scanSource_wellFormed (named _ _) _) ?_
          rw [scanSource_macroDetected]
          exact same.trans detected

theorem start_wellFormed (detected : Bool) (count : Nat) :
    WellFormed { macroDetected := detected, projectCount := count } :=
  ⟨fun some => absurd rfl some,fun some => absurd rfl some,List.nil_subset _,List.nil_subset _⟩

theorem parseProject_wellFormed {parser : Parser} :
    WellFormed (parseProject lib.tables limits lib.isSpace parser { projectCount := 1 }).1 := by
  unfold parseProject
  split
  · exact start_wellFormed _ _
  split
  · exact start_wellFormed _ _
  · rename_i detected _
    dsimp only
    split
    · exact start_wellFormed _ _
    · rename_i found
      have found : detected = true := by simpa using found
      subst found
      split
      · exact inspectModules_wellFormed _ _ (start_wellFormed _ _) rfl
      · rename_i count _
        split
        · have orphaned : WellFormed (addReason (lit "orphan_vba_stream")
              { macroDetected := true, projectCount := max 1 count }) := by
            refine (start_wellFormed _ _).addReason ?_
            decide
          exact inspectModules_wellFormed _ _ orphaned rfl
        · exact inspectModules_wellFormed _ _ (start_wellFormed _ _) rfl

theorem analyzeVbaBlob_wellFormed {data : Bytes} {analysis : VbaAnalysis}
    (analyzed : analyzeVbaBlob lib.tables limits lib.isSpace lib.vbaParser data = some analysis) : WellFormed analysis := by
  have parsed : WellFormed (parseProject lib.tables limits lib.isSpace (lib.vbaParser data) { projectCount := 1 }).1 :=
    parseProject_wellFormed
  unfold analyzeVbaBlob at analyzed
  split at analyzed
  · cases analyzed
    exact (start_wellFormed _ _).addReason (by decide)
  · dsimp only at analyzed
    revert parsed analyzed
    generalize parseProject lib.tables limits lib.isSpace (lib.vbaParser data) { projectCount := 1 } = ended
    obtain ⟨reached,raised⟩ := ended
    intro parsed analyzed
    match raised with
    | none =>
      cases analyzed
      split
      · exact parsed.addReason (by decide)
      · exact parsed
    | some (.expected name) =>
      cases analyzed
      have named : WellFormed { reached with parserException := some name } :=
        ⟨parsed.names,parsed.indicators,parsed.classes,parsed.reasons⟩
      have failed := named.addReason (show lit "vba_parser_error" ∈ vbaReasons by decide)
      split
      · exact failed.addReason (by decide)
      · exact failed
    | some .other => cases analyzed

/-! ### What a state retains -/

/-- The reasons for which the inspection of a package is partial. -/
def officeReasons : List Text :=
  [lit "zip_entry_limit",lit "zip_member_name_limit",lit "duplicate_zip_member",lit "encrypted_zip_member",
   lit "required_xml_part_missing",lit "ambiguous_content_type",lit "inconsistent_package_structure",
   lit "office_document_relationship_missing",lit "embedded_object_limit",lit "activex_object_limit",
   lit "vba_project_count_limit",lit "unsafe_or_malformed_xml",lit "zip_member_read_error",
   lit "member_actual_byte_limit",lit "total_actual_byte_limit",lit "xml_part_limit",lit "xml_actual_byte_limit",
   lit "relationship_limit",lit "external_relationship_limit"] ++ vbaReasons

/-- The name of the class of an exception, in at most 40 bytes. -/
def Brief (name : Text) : Prop := size (.str name) ≤ 40

instance (name : Text) : Decidable (Brief name) := by
  unfold Brief; infer_instance

/-- A state that holds what is kept of these external relationships, and of the projects that were passed on. -/
structure Retains (lib : Library) (limits : OfficeAnalysisLimits) (members : Members) (elements : List Element) (s : State) :
    Prop where
  externals : s.externalRelationshipCount = elements.length
  summaries : s.externalSummaries = (elements.map (summaryOf lib limits)).take limits.maxMetadataEntries
  capped : s.externalSummaryCapped = decide (limits.maxMetadataEntries < elements.length)
  templates : s.externalTemplateCount = (elements.filter (isTemplate lib)).length
  templateSummaries : s.externalTemplateSummaries =
    ((elements.filter (isTemplate lib)).map (summaryOf lib limits)).take limits.maxMetadataEntries
  vba : s.vba = (projectAnalyses lib limits s.passed).foldl (mergeVba limits) {}
  reasons : s.partialReasons ⊆ officeReasons
  exception : ∀ name, s.parserException = some name → Brief name
  embedded : s.embeddedObjectCount ≤ limits.maxEmbeddedObjects
  activex : s.activexCount ≤ limits.maxActivexObjects
  projects : s.vbaProjectCount ≤ members.length

/-- The state without what `Retains` says nothing about. -/
def State.retained (s : State) : State :=
  { s with
    application := .UNKNOWN
    entryCount := 0
    bytesRead := 0
    xmlPartsParsed := 0
    xmlBytesParsed := 0
    relationshipCount := 0
    macroEnabled := false
    encrypted := false
    malformed := false
    raised := false }

variable {elements : List Element}

theorem Retains.retained (holds : Retains lib limits members elements s) : Retains lib limits members elements s.retained :=
  ⟨holds.externals,holds.summaries,holds.capped,holds.templates,holds.templateSummaries,holds.vba,holds.reasons,
    holds.exception,holds.embedded,holds.activex,holds.projects⟩

theorem Retains.keep (holds : Retains lib limits members elements s) (same : t.retained = s.retained) :
    Retains lib limits members elements t := by
  have kept := holds.retained
  rw [← same] at kept
  exact ⟨kept.externals,kept.summaries,kept.capped,kept.templates,kept.templateSummaries,kept.vba,kept.reasons,
    kept.exception,kept.embedded,kept.activex,kept.projects⟩

theorem Retains.markPartial (holds : Retains lib limits members elements s) {reason : Text} (known : reason ∈ officeReasons) :
    Retains lib limits members elements (s.markPartial reason) :=
  { holds with reasons := insert_subset holds.reasons known }

theorem Retains.malformedPart (holds : Retains lib limits members elements s) {reason : Text} {e : Option Text}
    (known : reason ∈ officeReasons) (named : ∀ name, e = some name → Brief name) :
    Retains lib limits members elements (s.malformedPart reason e) where
  externals := holds.externals
  summaries := holds.summaries
  capped := holds.capped
  templates := holds.templates
  templateSummaries := holds.templateSummaries
  vba := holds.vba
  reasons := insert_subset holds.reasons known
  exception := by
    intro name given
    cases e with
    | none => exact holds.exception name given
    | some other => exact named name given
  embedded := holds.embedded
  activex := holds.activex
  projects := holds.projects

/-- Items are kept as long as there is room. -/
theorem take_append_room {α : Type} (items more : List α) (room : Nat) :
    items.take room ++ more.take (room - (items.take room).length) = (items ++ more).take room := by
  rw [List.take_append, List.length_take]
  by_cases full : room ≤ items.length
  · rw [Nat.min_eq_left full, Nat.sub_self, Nat.sub_eq_zero_of_le full]
  · rw [Nat.min_eq_right (Nat.le_of_not_le full)]

theorem recordExternal_capped (element : Element) (s : State) :
    (recordExternal lib limits element s).externalSummaryCapped =
      if s.externalSummaries.length < limits.maxMetadataEntries then s.externalSummaryCapped else true := by
  unfold recordExternal
  dsimp only
  split_ifs <;> rfl

theorem Retains.recordExternal (holds : Retains lib limits members elements s) (element : Element) :
    Retains lib limits members (elements ++ [element]) (recordExternal lib limits element s) where
  externals := by
    rw [(recordExternal_recorded element s).externals, holds.externals, List.length_append]
  summaries := by
    rw [(recordExternal_recorded element s).summaries, holds.summaries, take_append_room, List.map_append]
  capped := by
    have length : s.externalSummaries.length = min limits.maxMetadataEntries elements.length := by
      rw [holds.summaries, List.length_take, List.length_map]
    rw [recordExternal_capped, length, holds.capped, List.length_append, List.length_singleton]
    split
    · rw [decide_eq_false (by omega), decide_eq_false (by omega)]
    · rw [decide_eq_true (by omega)]
  templates := by
    rw [(recordExternal_recorded element s).templates, holds.templates, List.filter_append, List.length_append]
  templateSummaries := by
    rw [(recordExternal_recorded element s).templateSummaries, holds.templateSummaries, take_append_room,
      List.filter_append, List.map_append]
  vba := by
    rw [(recordExternal_recorded element s).field State.vba fun _ => rfl,
      (recordExternal_recorded element s).field State.passed fun _ => rfl]
    exact holds.vba
  reasons := by
    rw [(recordExternal_recorded element s).field State.partialReasons fun _ => rfl]
    exact holds.reasons
  exception := by
    rw [(recordExternal_recorded element s).field State.parserException fun _ => rfl]
    exact holds.exception
  embedded := by
    rw [(recordExternal_recorded element s).field State.embeddedObjectCount fun _ => rfl]
    exact holds.embedded
  activex := by
    rw [(recordExternal_recorded element s).field State.activexCount fun _ => rfl]
    exact holds.activex
  projects := by
    rw [(recordExternal_recorded element s).field State.vbaProjectCount fun _ => rfl]
    exact holds.projects

/-! ### What the commands append -/

/-- The errors with a reason are known by it, and those with a name are brief. -/
def Known : Raised → Prop
  | .limit reason => reason ∈ officeReasons
  | .xml name => Brief name
  | _ => True

/-- The external relationships that a command records. -/
abbrev Adds (lib : Library) (limits : OfficeAnalysisLimits) (members : Members) {α : Type} (elements : List Element)
    (m : Inspection α) : Prop :=
  Appends (Retains lib limits members) Known elements m

theorem adds_kept {f : State → State} (same : ∀ s, (f s).retained = s.retained) :
    Adds lib limits members [] (Command.update f) :=
  appends_kept fun _ s holds => holds.keep (same s)

theorem adds_call {ε α : Type} {wrap : ε → Raised} {result : Except ε α} (known : ∀ e, result = .error e → Known (wrap e)) :
    Adds lib limits members [] (call wrap result) := by
  cases result with
  | ok a => exact appends_pure a
  | error e => exact appends_after (adds_kept fun _ => rfl) fun _ => appends_raise (known e rfl)

theorem adds_readChunks {member : Member} {memberLimit turns : Nat} {data : Bytes} :
    Adds lib limits members [] (readChunks limits member memberLimit turns data) := by
  induction turns generalizing data with
  | zero => exact appends_pure data
  | succ turns ih =>
    refine appends_after (adds_call fun _ _ => trivial) fun chunk => ?_
    split
    · exact appends_pure data
    · refine appends_after (adds_kept fun _ => rfl) fun _ => appends_after (appends_observe _) fun t => ?_
      split
      · exact appends_raise (show lit "member_actual_byte_limit" ∈ officeReasons by decide)
      split
      · exact appends_raise (show lit "total_actual_byte_limit" ∈ officeReasons by decide)
      · exact ih

theorem adds_readMember {name : Text} {maximumBytes : Nat} :
    Adds lib limits members [] (readMember limits members name maximumBytes) := by
  unfold readMember
  split
  · exact appends_raise trivial
  · rename_i info _
    refine appends_except (E := Known) ?_ fun e known => ?_
    · exact appends_after (adds_call fun _ _ => trivial) fun _ => adds_readChunks
    · unfold onRuntimeError
      split
      · exact appends_after (adds_kept fun _ => rfl) fun _ =>
          appends_raise (show lit "encrypted_zip_member" ∈ officeReasons by decide)
      · exact appends_raise known

theorem adds_mergeProject {name : Text} {data : Bytes} : Adds lib limits members [] (mergeProject lib limits name data) := by
  intro before s holds
  unfold mergeProject
  cases analyzed : analyzeVbaBlob lib.tables limits lib.isSpace lib.vbaParser data with
  | none =>
    have same : projectAnalyses lib limits (s.passed ++ [(name,data)]) = projectAnalyses lib limits s.passed := by
      rw [projectAnalyses, List.filterMap_append]
      simp [analyzed, projectAnalyses]
    refine ⟨trivial,[],List.nil_prefix,?_⟩
    rw [List.append_nil]
    exact { holds with
      vba := by
        show s.vba = (projectAnalyses lib limits (s.passed ++ [(name,data)])).foldl (mergeVba limits) {}
        rw [same]
        exact holds.vba }
  | some analysis =>
    have more : projectAnalyses lib limits (s.passed ++ [(name,data)]) = projectAnalyses lib limits s.passed ++ [analysis] := by
      rw [projectAnalyses, List.filterMap_append]
      simp [analyzed, projectAnalyses]
    show Retains lib limits members (before ++ []) { s with
      passed := s.passed ++ [(name,data)]
      vba := mergeVba limits s.vba analysis
      partialReasons := s.partialReasons ∪ analysis.partialReasons }
    rw [List.append_nil]
    exact { holds with
      vba := by
        show mergeVba limits s.vba analysis =
          (projectAnalyses lib limits (s.passed ++ [(name,data)])).foldl (mergeVba limits) {}
        rw [more, List.foldl_append, ← holds.vba]
        rfl
      reasons := by
        intro reason member
        rcases List.mem_union_iff.mp member with old | new
        · exact holds.reasons old
        · exact List.mem_append_right _ ((analyzeVbaBlob_wellFormed analyzed).reasons new) }

theorem adds_inspectVbaMember {name : Text} : Adds lib limits members [] (inspectVbaMember lib limits members name) := by
  refine appends_attempt adds_readMember fun read known => ?_
  match read with
  | .ok data => exact adds_mergeProject
  | .error (.limit reason) => exact appends_kept fun _ _ holds => holds.markPartial (known (.limit reason) rfl)
  | .error .valueError => exact appends_raise trivial
  | .error (.xml name) => exact appends_raise (known (.xml name) rfl)
  | .error (.library _) => exact appends_raise trivial
  | .error .other => exact appends_raise trivial

theorem vbaMembers_nodup {overrides : List (Text × Text)} {application : OfficeApplication} :
    (vbaMembers lib members overrides application).Nodup := by
  unfold vbaMembers
  dsimp only
  split
  · split
    · rename_i added
      exact List.nodup_append.mpr ⟨sortedSet_nodup _,List.nodup_singleton _,fun a inside b last same =>
        added.2 (by rw [← List.mem_singleton.mp last, ← same]; exact inside)⟩
    · exact sortedSet_nodup _
  · exact sortedSet_nodup _

theorem length_vbaMembers {overrides : List (Text × Text)} {application : OfficeApplication} :
    (vbaMembers lib members overrides application).length ≤ members.length := by
  have inside : vbaMembers lib members overrides application ⊆ members.names := fun name member =>
    (mem_vbaMembers.mp member).1
  have fits := (vbaMembers_nodup.subperm inside).length_le
  rw [Members.names, List.length_map] at fits
  exact fits

theorem adds_inspectCapabilities {overrides : List (Text × Text)} :
    Adds lib limits members [] (inspectCapabilities lib limits members overrides) := by
  refine appends_after (appends_kept fun _ s holds => ?_) fun _ => appends_after (appends_observe _) fun t => ?_
  · have counted (embedded activex : Nat) (few : embedded ≤ limits.maxEmbeddedObjects)
        (fewer : activex ≤ limits.maxActivexObjects) :
        Retains lib limits members _ { s with embeddedObjectCount := embedded, activexCount := activex } :=
      { holds with embedded := few, activex := fewer }
    unfold countObjects
    dsimp only
    have start := counted _ _ (Nat.min_le_right (countPrefixed members _EMBEDDING_PREFIXES) _)
      (Nat.min_le_right (countPrefixed members _ACTIVEX_PREFIXES) _)
    split <;> split
    · exact (start.markPartial (by decide)).markPartial (by decide)
    · exact start.markPartial (by decide)
    · exact start.markPartial (by decide)
    · exact start
  · refine appends_after (appends_kept fun _ s holds => ?_) fun _ => ?_
    · have counted (macroEnabled : Bool) : Retains lib limits members _ { s with
          vbaProjectCount := (vbaMembers lib members overrides t.application).length
          macroEnabled := macroEnabled } :=
        { holds with projects := length_vbaMembers }
      unfold countProjects
      dsimp only
      split
      · exact (counted _).markPartial (by decide)
      · exact counted _
    · exact appends_forEach_none fun _ _ => adds_inspectVbaMember

section
variable (brief : ∀ data name, lib.fromString data = .error (.named name) → Brief name)
include brief

theorem adds_readXmlPart {name : Text} : Adds lib limits members [] (readXmlPart lib limits members name) := by
  refine appends_after (appends_observe _) fun t => ?_
  split
  · exact appends_raise (show lit "xml_part_limit" ∈ officeReasons by decide)
  split
  · exact appends_raise (show lit "xml_actual_byte_limit" ∈ officeReasons by decide)
  · refine appends_after adds_readMember fun data => appends_after (adds_kept fun _ => rfl) fun _ => ?_
    refine adds_call fun e raised => ?_
    cases e with
    | named name => exact brief data name raised
    | other => trivial

theorem adds_readRequiredXml {name : Text} : Adds lib limits members [] (readRequiredXml lib limits members name) := by
  unfold readRequiredXml
  split
  · exact appends_after (adds_readXmlPart brief) fun _ => appends_pure _
  · refine appends_after (appends_kept fun _ s holds => ?_) fun _ => appends_pure _
    exact holds.malformedPart (by decide) nofun

omit brief

theorem adds_malformedPart {reason : Text} (known : reason ∈ officeReasons) :
    Adds lib limits members [] (Command.update (State.malformedPart reason none)) :=
  appends_kept fun _ _ holds => holds.malformedPart known nofun

theorem adds_collectOverrides (elements : List Element) (overrides : List (Text × Text)) :
    Adds lib limits members [] (collectOverrides elements overrides) := by
  induction elements generalizing overrides with
  | nil => exact appends_pure _
  | cons element rest ih =>
    unfold collectOverrides
    split
    · exact ih _
    · dsimp only
      split
      · exact appends_raise trivial
      split
      · exact appends_after (adds_malformedPart (by decide)) fun _ => ih _
      · exact ih _

theorem adds_contentTypeOverrides {root : Element} : Adds lib limits members [] (contentTypeOverrides root) := by
  unfold contentTypeOverrides
  split
  · exact appends_raise trivial
  · exact adds_collectOverrides _ _

theorem adds_inspectRelationship {collectExternal : Bool} {element : Element} :
    Adds lib limits members (if collectExternal && isExternal lib element then [element] else [])
      (inspectRelationship lib limits collectExternal element) := by
  generalize chosen : (if collectExternal && isExternal lib element then [element] else []) = items
  refine appends_after (appends_observe _) fun t => ?_
  split
  · exact appends_raise (show lit "relationship_limit" ∈ officeReasons by decide)
  · refine appends_after (adds_kept fun _ => rfl) fun _ => ?_
    dsimp only
    split
    · rename_i skipped
      have none : (collectExternal && isExternal lib element) = false := by
        cases collectExternal <;> simp_all
      have empty : items = [] := by rw [← chosen, none]; rfl
      rw [empty]
      exact appends_pure _
    · rename_i collected
      have both : (collectExternal && isExternal lib element) = true := by
        cases collectExternal <;> simp_all
      have single : items = [element] := by rw [← chosen, both]; rfl
      rw [single]
      split
      · exact appends_raise (show lit "external_relationship_limit" ∈ officeReasons by decide)
      · exact appends_before (appends_update fun _ _ holds => holds.recordExternal element) fun _ => appends_pure _

theorem adds_relationshipLoop {collectExternal : Bool} (elements : List Element) :
    Adds lib limits members (if collectExternal then externalsOf lib elements else [])
      (relationshipLoop lib limits collectExternal elements) := by
  induction elements with
  | nil =>
    rw [show (if collectExternal then externalsOf lib [] else []) = [] by cases collectExternal <;> rfl]
    exact appends_pure _
  | cons element rest ih =>
    unfold relationshipLoop
    by_cases relationship : isRelationship element = true
    · rw [if_pos relationship, externalsOf_cons relationship]
      exact appends_bind adds_inspectRelationship fun _ => appends_before ih fun _ => appends_pure _
    · have none : externalsOf lib (element :: rest) = externalsOf lib rest := by
        simp [externalsOf, relationship]
      rw [if_neg relationship, none]
      exact ih

theorem adds_relationshipTargets {root : Element} {collectExternal : Bool} :
    Adds lib limits members (if collectExternal then externalsOf lib root.children else [])
      (relationshipTargets lib limits root collectExternal) := by
  unfold relationshipTargets
  by_cases tag : root.tag = qualified _RELATIONSHIPS_NAMESPACE (lit "Relationships")
  · rw [if_neg (not_not.mpr tag)]
    exact adds_relationshipLoop _
  · rw [if_pos tag]
    exact appends_raise trivial

include brief

theorem adds_inspectPart {name : Text} :
    Adds lib limits members (partExternals lib members name) (inspectPart lib limits members name) := by
  refine appends_after_returned (adds_readXmlPart brief) fun s root returned => ?_
  have parsed : partRoot lib members name = some root := (readXmlPart_returns root returned).1
  have children : partExternals lib members name = externalsOf lib root.children := by
    rw [partExternals, parsed]
    rfl
  rw [children]
  exact appends_before adds_relationshipTargets fun _ => appends_pure _

theorem adds_inspectParts {root : Element} :
    Adds lib limits members (inspectedExternals lib members) (inspectParts lib limits members root) := by
  have parts : Adds lib limits members (inspectedExternals lib members)
      (Command.forEach (inspectPart lib limits members) (relationshipNames members)) :=
    appends_forEach fun _ _ => adds_inspectPart brief
  refine appends_after adds_relationshipTargets fun _ => appends_after (appends_observe _) fun s => ?_
  dsimp only
  split
  · exact appends_after (adds_malformedPart (by decide)) fun _ => parts
  · exact parts

theorem adds_inspectRelationships : AppendsSome (Retains lib limits members) Known (inspectedExternals lib members)
    (inspectRelationships lib limits members) := by
  refine appendsSome_after (adds_readRequiredXml brief) fun s read _ => ?_
  cases read with
  | none => exact appendsSome_none (appends_pure _)
  | some root => exact (adds_inspectParts brief).some

theorem adds_inspectPackage : AppendsSome (Retains lib limits members) Known (inspectedExternals lib members)
    (inspectPackage lib limits members) := by
  refine appendsSome_after (adds_readRequiredXml brief) fun s read _ => ?_
  cases read with
  | none => exact appendsSome_none (appends_pure _)
  | some root =>
    refine appendsSome_after adds_contentTypeOverrides fun _ overrides _ => ?_
    have classified : Adds lib limits members [] (Command.update (classifyPackage lib overrides members)) :=
      adds_kept fun s => classifyPackage_field _ _ _ _ State.retained fun _ _ _ => rfl
    refine appendsSome_after classified fun _ _ _ => appendsSome_after (appends_observe _) fun t _ _ => ?_
    have rest : AppendsSome (Retains lib limits members) Known (inspectedExternals lib members) (do
        inspectRelationships lib limits members
        inspectCapabilities lib limits members overrides) :=
      appendsSome_before (adds_inspectRelationships brief) fun _ => adds_inspectCapabilities
    dsimp only
    split
    · exact appendsSome_after (adds_malformedPart (by decide)) fun _ _ _ => rest
    · exact rest

omit brief

theorem fresh_retains (fresh : s.retained = ({} : State).retained) : Retains lib limits members [] s := by
  have start : Retains lib limits members [] {} :=
    ⟨rfl,List.take_nil.symm,(decide_eq_false (Nat.not_lt_zero _)).symm,rfl,List.take_nil.symm,rfl,List.nil_subset _,
      fun _ none => (Option.some_ne_none _ none.symm).elim,Nat.zero_le _,Nat.zero_le _,Nat.zero_le _⟩
  exact start.keep fresh

theorem checkNames_retains (infos : List ZipInfo) : Retains lib limits infos [] (checkNames limits infos).2 := by
  have entries : Retains lib limits infos [] { entryCount := infos.length } := fresh_retains rfl
  have long := entries.markPartial (show lit "zip_member_name_limit" ∈ officeReasons by decide)
  have crypted {s : State} (holds : Retains lib limits infos [] s) :
      Retains lib limits infos [] ({ s with encrypted := true }.markPartial (lit "encrypted_zip_member")) :=
    (holds.keep (t := { s with encrypted := true }) rfl).markPartial (by decide)
  unfold checkNames
  extract_lets begun named
  split
  · exact entries.markPartial (show lit "zip_entry_limit" ∈ officeReasons by decide)
  · have checked : Retains lib limits infos [] named := by
      unfold named
      split
      · exact long
      · exact entries
    split
    · exact checked.malformedPart (show lit "duplicate_zip_member" ∈ officeReasons by decide)
        fun _ none => (Option.some_ne_none _ none.symm).elim
    split
    · exact crypted checked
    · exact checked

theorem checkNames_entries {infos : List ZipInfo} (goes : (checkNames limits infos).1 = true) :
    infos.length ≤ limits.maxZipEntries := by
  unfold checkNames at goes
  split at goes
  · cases goes
  · rename_i few
    exact Nat.le_of_not_lt few

theorem checkNames_projects {infos : List ZipInfo} (_ : (checkNames limits infos).1 = false) :
    (checkNames limits infos).2.vbaProjectCount = 0 := by
  unfold checkNames
  dsimp only
  split_ifs <;> rfl

theorem onRaised_retains {e : Raised} (known : Known e) (holds : Retains lib limits members elements t)
    (handled : onRaised e t = (.ok (),s)) : Retains lib limits members elements s := by
  cases e with
  | limit reason =>
    cases handled
    exact holds.markPartial known
  | valueError =>
    cases handled
    exact holds.malformedPart (by decide) fun _ same => Option.some.inj same ▸ (by decide)
  | xml name =>
    cases handled
    exact holds.malformedPart (by decide) fun _ same =>
      Option.some.inj same ▸ known
  | other => cases handled
  | library e =>
    cases e
    case UnicodeDecodeError | OSError | EOFError | BadZipFile | ZlibError =>
      cases handled
      exact holds.malformedPart (by decide) fun _ same => Option.some.inj same ▸ (by decide)
    all_goals cases handled

include brief

/-- What an inspection retains of a package: the first of its external relationships, and the projects passed on. -/
theorem inspect_retains (run : inspect lib limits members = .ok s) :
    s.vbaProjectCount ≤ limits.maxZipEntries ∧
      ∃ elements, elements <+: inspectedExternals lib members ∧ Retains lib limits members elements s := by
  have start : Retains lib limits members [] (checkNames limits members).2 := checkNames_retains members
  have entries : (checkNames limits members).1 = true → members.length ≤ limits.maxZipEntries := checkNames_entries
  have stopped : (checkNames limits members).1 = false → (checkNames limits members).2.vbaProjectCount = 0 :=
    checkNames_projects
  unfold inspect at run
  revert run start entries stopped
  cases checkNames limits members with
  | mk goes begun =>
    intro run start entries stopped
    cases goes with
    | false =>
      cases run
      have none : s.vbaProjectCount = 0 := stopped rfl
      exact ⟨none ▸ Nat.zero_le _,[],List.nil_prefix,start⟩
    | true =>
      obtain ⟨known,first,inside,held⟩ := adds_inspectPackage brief [] begun start
      dsimp only [Command.except] at run
      cases ended : inspectPackage lib limits members begun with
      | mk result t =>
        rw [ended] at run held known
        cases result with
        | ok a =>
          cases run
          exact ⟨held.projects.trans (entries rfl),first,inside,held⟩
        | error e =>
          dsimp only at run
          split at run
          · rename_i u handled
            cases run
            have kept := onRaised_retains (known e rfl) held handled
            exact ⟨kept.projects.trans (entries rfl),first,inside,kept⟩
          · cases run

end

/-! ### Projects merged -/

/-- The projects merged into an analysis. -/
def mergeAll (limits : OfficeAnalysisLimits) (analyses : List VbaAnalysis) : VbaAnalysis := analyses.foldl (mergeVba limits) {}

theorem mergeAll_snoc (analyses : List VbaAnalysis) (last : VbaAnalysis) :
    mergeAll limits (analyses ++ [last]) = mergeVba limits (mergeAll limits analyses) last := by
  rw [mergeAll, List.foldl_append]
  rfl

/-- The names of the modules are the first of all. -/
theorem mergeAll_moduleNames (analyses : List VbaAnalysis) :
    (mergeAll limits analyses).moduleNames = (analyses.flatMap VbaAnalysis.moduleNames).take limits.maxMetadataEntries := by
  induction analyses using List.reverseRecOn with
  | nil => exact List.take_nil.symm
  | append_singleton analyses last ih =>
    rw [mergeAll_snoc, List.flatMap_append, List.flatMap_singleton]
    show (mergeAll limits analyses).moduleNames ++
      last.moduleNames.take (limits.maxMetadataEntries - (mergeAll limits analyses).moduleNames.length) = _
    rw [ih]
    exact take_append_room _ _ _

/-- A set that merging unites. -/
theorem mem_mergeAll (field : VbaAnalysis → List Text) (empty : field {} = [])
    (unites : ∀ target source, field (mergeVba limits target source) = field target ∪ field source)
    (analyses : List VbaAnalysis) (text : Text) :
    text ∈ field (mergeAll limits analyses) ↔ text ∈ analyses.flatMap field := by
  induction analyses using List.reverseRecOn with
  | nil => rw [show mergeAll limits [] = {} from rfl, empty, List.flatMap_nil]
  | append_singleton analyses last ih =>
    rw [mergeAll_snoc, unites, List.flatMap_append, List.flatMap_singleton, List.mem_append, List.mem_union_iff, ih]

theorem mergeAll_wellFormed {analyses : List VbaAnalysis} (each : ∀ analysis ∈ analyses, WellFormed analysis) :
    WellFormed (mergeAll limits analyses) := by
  induction analyses using List.reverseRecOn with
  | nil => exact start_wellFormed _ _
  | append_singleton analyses last ih =>
    have before := ih fun analysis member => each analysis (List.mem_append_left _ member)
    have here := each last (List.mem_append_right _ List.mem_cons_self)
    rw [mergeAll_snoc]
    refine ⟨fun some => ?_,fun some => ?_,fun text member => ?_,fun text member => ?_⟩
    · show ((mergeAll limits analyses).macroDetected || last.macroDetected) = true
      by_cases old : (mergeAll limits analyses).moduleNames = []
      · have new : last.moduleNames ≠ [] := by
          intro none
          apply some
          show (mergeAll limits analyses).moduleNames ++ last.moduleNames.take _ = []
          rw [old, none, List.take_nil, List.append_nil]
        rw [here.names new, Bool.or_true]
      · rw [before.names old, Bool.true_or]
    · obtain ⟨text,member⟩ := List.exists_mem_of_ne_nil _ some
      rcases List.mem_union_iff.mp member with old | new
      · obtain ⟨found,inside⟩ := List.exists_mem_of_ne_nil _ (before.indicators (List.ne_nil_of_mem old))
        exact List.ne_nil_of_mem (List.mem_union_iff.mpr (.inl inside))
      · obtain ⟨found,inside⟩ := List.exists_mem_of_ne_nil _ (here.indicators (List.ne_nil_of_mem new))
        exact List.ne_nil_of_mem (List.mem_union_iff.mpr (.inr inside))
    · rcases List.mem_union_iff.mp member with old | new
      · exact before.classes old
      · exact here.classes new
    · rcases List.mem_union_iff.mp member with old | new
      · exact before.reasons old
      · exact here.reasons new

theorem projectAnalyses_wellFormed {passed : List (Text × Bytes)} :
    ∀ analysis ∈ projectAnalyses lib limits passed, WellFormed analysis := by
  intro analysis member
  obtain ⟨project,_,analyzed⟩ := List.mem_filterMap.mp member
  exact analyzeVbaBlob_wellFormed analyzed

/-! ### The sizes of the findings -/

/-- The metadata of every finding is within the limit of the trusted contract. -/
def FindingsFit (analysis : OfficeAnalysis) : Prop :=
  ∀ finding ∈ analysis.findings, size (.obj finding.metadata) ≤ MAX_FINDING_METADATA_BYTES

theorem findingsFit_iff (s : State) :
    FindingsFit (result limits s) ↔ ∀ code, reports s code → size (.obj (findingMetadata limits s code)) ≤
      MAX_FINDING_METADATA_BYTES := by
  constructor
  · intro fits code reported
    exact fits _ (List.mem_map_of_mem (List.mem_filter.mpr ⟨mem_officeCodes code,reported⟩))
  · intro fits finding member
    obtain ⟨code,inside,rfl⟩ := List.mem_map.mp member
    exact fits code (List.mem_filter.mp inside).2

/-- The codes whose findings hold texts of the document. -/
def OfficeCode.varies : OfficeCode → Bool
  | .VBA_MACRO | .VBA_AUTOEXEC | .VBA_EXECUTION_INDICATOR | .EXTERNAL_RELATIONSHIP | .EXTERNAL_TEMPLATE => true
  | _ => false

theorem size_application (application : OfficeApplication) : size (.str application.value) ≤ 12 := by
  cases application <;> decide

theorem size_reasons {reasons : List Text} (known : reasons ⊆ officeReasons) : size (sortedTexts reasons) ≤ 1277 := by
  have each : ∀ reason ∈ officeReasons, size (.str reason) ≤ 50 := by
    have plain : officeReasons.all (fun reason => reason.all plainChar && decide (reason.length ≤ 48)) = true := by
      decide
    intro reason member
    have checked := List.all_eq_true.mp plain reason member
    rw [Bool.and_eq_true, decide_eq_true_eq] at checked
    rw [size_plain checked.1]
    omega
  have few : (sortedSet reasons).length ≤ 25 := sortedSet_length_le known
  have bound : size (sortedTexts reasons) ≤ 25 * (50 + 1) + 2 := by
    refine size_arr_le (by simpa using few) fun item member => ?_
    obtain ⟨reason,inside,rfl⟩ := List.mem_map.mp member
    exact each reason (known (mem_sortedSet.mp inside))
  exact bound

theorem size_exception {name : Option Text} (brief : ∀ text, name = some text → Brief text) :
    size ((name.map .str).getD .null) ≤ 40 := by
  cases name with
  | none => decide
  | some text => exact brief text rfl

/-- The other findings are always within the limit. -/
theorem fixed_fits (holds : Retains lib DEFAULT_OFFICE_LIMITS members elements s)
    (projects : s.vbaProjectCount ≤ DEFAULT_OFFICE_LIMITS.maxZipEntries) {code : OfficeCode} (fixed : code.varies = false) :
    size (.obj (findingMetadata DEFAULT_OFFICE_LIMITS s code)) ≤ MAX_FINDING_METADATA_BYTES := by
  cases code with
  | MACRO_ENABLED =>
    have application := size_application s.application
    have count := size_nat_le (e := 4) (by decide) (Nat.lt_of_le_of_lt projects (by decide))
    rw [findingMetadata, size_fields (by rfl)]
    simp only [lit, List.map_cons, List.map_nil, List.sum_cons, List.sum_nil, List.length_cons, List.length_nil,
      MAX_FINDING_METADATA_BYTES]
    omega
  | EMBEDDED_OBJECT =>
    have count := size_nat_le (e := 3) (by decide) (Nat.lt_of_le_of_lt holds.embedded (by decide))
    rw [findingMetadata, size_fields (by rfl)]
    simp only [lit, List.map_cons, List.map_nil, List.sum_cons, List.sum_nil, List.length_cons, List.length_nil,
      MAX_FINDING_METADATA_BYTES]
    omega
  | ACTIVEX =>
    have count := size_nat_le (e := 3) (by decide) (Nat.lt_of_le_of_lt holds.activex (by decide))
    rw [findingMetadata, size_fields (by rfl)]
    simp only [lit, List.map_cons, List.map_nil, List.sum_cons, List.sum_nil, List.length_cons, List.length_nil,
      MAX_FINDING_METADATA_BYTES]
    omega
  | ENCRYPTED =>
    rw [findingMetadata]
    decide
  | MALFORMED =>
    have named := size_exception holds.exception
    rw [findingMetadata, size_fields (by rfl)]
    simp only [lit, List.map_cons, List.map_nil, List.sum_cons, List.sum_nil, List.length_cons, List.length_nil,
      MAX_FINDING_METADATA_BYTES]
    omega
  | PARTIAL_ANALYSIS =>
    have known := size_reasons holds.reasons
    rw [findingMetadata, size_fields (by rfl)]
    simp only [lit, List.map_cons, List.map_nil, List.sum_cons, List.sum_nil, List.length_cons, List.length_nil,
      MAX_FINDING_METADATA_BYTES]
    omega
  | VBA_MACRO | VBA_AUTOEXEC | VBA_EXECUTION_INDICATOR | EXTERNAL_RELATIONSHIP | EXTERNAL_TEMPLATE => cases fixed

/-- The names, triggers and indicators of some projects, as far as they are retained. -/
def retainedNames (analyses : List VbaAnalysis) : List Text :=
  sortedSet ((analyses.flatMap VbaAnalysis.moduleNames).take DEFAULT_OFFICE_LIMITS.maxMetadataEntries)

def retainedTriggers (analyses : List VbaAnalysis) : List Text := sortedSet (analyses.flatMap VbaAnalysis.autoexecTriggers)

def retainedClasses (analyses : List VbaAnalysis) : List Text := sortedSet (analyses.flatMap VbaAnalysis.indicatorClasses)

def retainedIndicators (analyses : List VbaAnalysis) : List Text := sortedSet (analyses.flatMap VbaAnalysis.indicatorNames)

/-- The summaries of some relationships, as far as they are retained. -/
def retainedSummaries (lib : Library) (elements : List Element) : List Value :=
  (elements.map (summaryOf lib DEFAULT_OFFICE_LIMITS)).take DEFAULT_OFFICE_LIMITS.maxMetadataEntries

/-- What is retained of the external relationships and of the projects fits into the limit, with the bytes of the rest
    of each finding: each array of texts is bounded by its own budget. -/
structure RetainedFit (lib : Library) (elements : List Element) (analyses : List VbaAnalysis)
    (application : OfficeApplication) (projectCount : Nat) : Prop where
  targets : 39 + size (.int elements.length) + size (.bool (decide (64 < elements.length))) +
    size (.arr (retainedSummaries lib elements)) ≤ MAX_FINDING_METADATA_BYTES
  templates : 21 + size (.int (elements.filter (isTemplate lib)).length) +
    size (.arr (retainedSummaries lib (elements.filter (isTemplate lib)))) ≤ MAX_FINDING_METADATA_BYTES
  names : 65 + size (.str application.value) + size (.int projectCount) +
    size (.int (mergeAll DEFAULT_OFFICE_LIMITS analyses).moduleCount) + size (texts (retainedNames analyses)) ≤
      MAX_FINDING_METADATA_BYTES
  triggers : 13 + size (texts (retainedTriggers analyses)) ≤ MAX_FINDING_METADATA_BYTES
  indicators : 36 + size (texts (retainedClasses analyses)) + size (texts (retainedIndicators analyses)) ≤
    MAX_FINDING_METADATA_BYTES

theorem retained_texts (analyses : List VbaAnalysis) :
    sortedSet (mergeAll DEFAULT_OFFICE_LIMITS analyses).moduleNames = retainedNames analyses ∧
      sortedSet (mergeAll DEFAULT_OFFICE_LIMITS analyses).autoexecTriggers = retainedTriggers analyses ∧
        sortedSet (mergeAll DEFAULT_OFFICE_LIMITS analyses).indicatorClasses = retainedClasses analyses ∧
          sortedSet (mergeAll DEFAULT_OFFICE_LIMITS analyses).indicatorNames = retainedIndicators analyses := by
  refine ⟨?_,?_,?_,?_⟩
  · rw [mergeAll_moduleNames]
    rfl
  · exact sortedSet_congr (mem_mergeAll VbaAnalysis.autoexecTriggers rfl (fun _ _ => rfl) analyses)
  · exact sortedSet_congr (mem_mergeAll VbaAnalysis.indicatorClasses rfl (fun _ _ => rfl) analyses)
  · exact sortedSet_congr (mem_mergeAll VbaAnalysis.indicatorNames rfl (fun _ _ => rfl) analyses)

theorem length_retainedNames (analyses : List VbaAnalysis) :
    (retainedNames analyses).length ≤ DEFAULT_OFFICE_LIMITS.maxMetadataEntries :=
  (sortedSet_length_le fun _ member => member).trans (List.length_take_le _ _)

theorem mergeAll_moduleCount (analyses : List VbaAnalysis) :
    (mergeAll limits analyses).moduleCount ≤ limits.maxVbaModules := by
  induction analyses using List.reverseRecOn with
  | nil => exact Nat.zero_le _
  | append_singleton analyses last _ =>
    rw [mergeAll_snoc]
    exact Nat.min_le_right _ _

/-- The sizes of the findings with texts of the document. -/
theorem size_varying (holds : Retains lib DEFAULT_OFFICE_LIMITS members elements s) {analyses : List VbaAnalysis}
    (vba : s.vba = mergeAll DEFAULT_OFFICE_LIMITS analyses) :
    size (.obj (findingMetadata DEFAULT_OFFICE_LIMITS s .EXTERNAL_RELATIONSHIP)) = 39 + size (.int elements.length) +
        size (.bool (decide (64 < elements.length))) + size (.arr (retainedSummaries lib elements)) ∧
      size (.obj (findingMetadata DEFAULT_OFFICE_LIMITS s .EXTERNAL_TEMPLATE)) =
        21 + size (.int (elements.filter (isTemplate lib)).length) +
          size (.arr (retainedSummaries lib (elements.filter (isTemplate lib)))) ∧
      size (.obj (findingMetadata DEFAULT_OFFICE_LIMITS s .VBA_MACRO)) = 65 + size (.str s.application.value) +
        size (.int s.vbaProjectCount) + size (.int (mergeAll DEFAULT_OFFICE_LIMITS analyses).moduleCount) +
          size (texts (retainedNames analyses)) ∧
      size (.obj (findingMetadata DEFAULT_OFFICE_LIMITS s .VBA_AUTOEXEC)) = 13 + size (texts (retainedTriggers analyses)) ∧
      size (.obj (findingMetadata DEFAULT_OFFICE_LIMITS s .VBA_EXECUTION_INDICATOR)) =
        36 + size (texts (retainedClasses analyses)) + size (texts (retainedIndicators analyses)) := by
  obtain ⟨names,triggers,classes,indicators⟩ := retained_texts analyses
  rw [← vba] at names triggers classes indicators
  refine ⟨?_,?_,?_,?_,?_⟩
  · rw [findingMetadata, size_fields (by rfl), holds.externals, holds.summaries, holds.capped]
    simp only [lit, List.map_cons, List.map_nil, List.sum_cons, List.sum_nil, List.length_cons, List.length_nil]
    have room : DEFAULT_OFFICE_LIMITS.maxMetadataEntries = 64 := rfl
    rw [retainedSummaries, room]
    omega
  · rw [findingMetadata, size_fields (by rfl), holds.templates, holds.templateSummaries]
    simp only [lit, List.map_cons, List.map_nil, List.sum_cons, List.sum_nil, List.length_cons, List.length_nil]
    rw [retainedSummaries]
    omega
  · rw [findingMetadata, size_fields (by rfl), names, List.take_of_length_le (length_retainedNames analyses), vba]
    simp only [lit, List.map_cons, List.map_nil, List.sum_cons, List.sum_nil, List.length_cons, List.length_nil]
    omega
  · rw [findingMetadata, size_fields (by rfl), sortedTexts, triggers]
    simp only [lit, List.map_cons, List.map_nil, List.sum_cons, List.sum_nil, List.length_cons, List.length_nil]
    omega
  · rw [findingMetadata, size_fields (by rfl), sortedTexts, sortedTexts, classes, indicators]
    simp only [lit, List.map_cons, List.map_nil, List.sum_cons, List.sum_nil, List.length_cons, List.length_nil]
    omega

/-- Findings that are not reported hold no texts, so that they would fit as well. -/
theorem unreported_fits (holds : Retains lib DEFAULT_OFFICE_LIMITS members elements s)
    (projects : s.vbaProjectCount ≤ DEFAULT_OFFICE_LIMITS.maxZipEntries) {analyses : List VbaAnalysis}
    (vba : s.vba = mergeAll DEFAULT_OFFICE_LIMITS analyses) (wellFormed : WellFormed s.vba) {code : OfficeCode}
    (unreported : ¬ reports s code) :
    size (.obj (findingMetadata DEFAULT_OFFICE_LIMITS s code)) ≤ MAX_FINDING_METADATA_BYTES := by
  obtain ⟨targets,templates,names,triggers,indicators⟩ := size_varying holds vba
  obtain ⟨named,triggered,classed,indicated⟩ := retained_texts analyses
  rw [← vba] at named triggered classed indicated
  cases code with
  | EXTERNAL_RELATIONSHIP =>
    have count : s.externalRelationshipCount = 0 := by simpa [reports] using unreported
    have none : elements = [] := List.eq_nil_of_length_eq_zero (holds.externals ▸ count)
    rw [targets, none]
    show 39 + size (.int 0) + size (.bool false) + size (.arr []) ≤ MAX_FINDING_METADATA_BYTES
    decide
  | EXTERNAL_TEMPLATE =>
    have count : s.externalTemplateCount = 0 := by simpa [reports] using unreported
    have none : elements.filter (isTemplate lib) = [] := List.eq_nil_of_length_eq_zero (holds.templates ▸ count)
    rw [templates, none]
    show 21 + size (.int 0) + size (.arr []) ≤ MAX_FINDING_METADATA_BYTES
    decide
  | VBA_MACRO =>
    have plain : s.vba.macroDetected = false := by
      have both := unreported
      simp only [reports, Bool.or_eq_true, not_or, Bool.not_eq_true] at both
      exact both.2
    have none : s.vba.moduleNames = [] := by
      by_contra some
      rw [wellFormed.names some] at plain
      cases plain
    rw [none, sortedSet_nil] at named
    have application := size_application s.application
    have projectCount := size_nat_le (e := 4) (by decide) (Nat.lt_of_le_of_lt projects (by decide))
    have modules : (mergeAll DEFAULT_OFFICE_LIMITS analyses).moduleCount ≤ DEFAULT_OFFICE_LIMITS.maxVbaModules :=
      mergeAll_moduleCount analyses
    have moduleCount := size_nat_le (e := 3) (by decide) (Nat.lt_of_le_of_lt modules (by decide))
    have empty : size (texts []) = 2 := by decide
    rw [names, ← named, empty, MAX_FINDING_METADATA_BYTES]
    omega
  | VBA_AUTOEXEC =>
    have none : s.vba.autoexecTriggers = [] := by simpa [reports] using unreported
    rw [none, sortedSet_nil] at triggered
    rw [triggers, ← triggered]
    decide
  | VBA_EXECUTION_INDICATOR =>
    have none : s.vba.indicatorClasses = [] := by simpa [reports] using unreported
    have nothing : s.vba.indicatorNames = [] := by
      by_contra some
      exact wellFormed.indicators some none
    rw [none, sortedSet_nil] at classed
    rw [nothing, sortedSet_nil] at indicated
    rw [indicators, ← classed, ← indicated]
    decide
  | _ => exact fixed_fits holds projects rfl

theorem findingsFit_retained (holds : Retains lib DEFAULT_OFFICE_LIMITS members elements s)
    (projects : s.vbaProjectCount ≤ DEFAULT_OFFICE_LIMITS.maxZipEntries) :
    FindingsFit (result DEFAULT_OFFICE_LIMITS s) ↔
      RetainedFit lib elements (projectAnalyses lib DEFAULT_OFFICE_LIMITS s.passed) s.application s.vbaProjectCount := by
  have vba : s.vba = mergeAll DEFAULT_OFFICE_LIMITS (projectAnalyses lib DEFAULT_OFFICE_LIMITS s.passed) := holds.vba
  have wellFormed : WellFormed s.vba := vba ▸ mergeAll_wellFormed projectAnalyses_wellFormed
  obtain ⟨targets,templates,names,triggers,indicators⟩ := size_varying holds vba
  rw [findingsFit_iff]
  constructor
  · intro fits
    have all (code : OfficeCode) :
        size (.obj (findingMetadata DEFAULT_OFFICE_LIMITS s code)) ≤ MAX_FINDING_METADATA_BYTES := by
      by_cases reported : reports s code = true
      · exact fits code reported
      · exact unreported_fits holds projects vba wellFormed reported
    exact ⟨targets ▸ all .EXTERNAL_RELATIONSHIP,templates ▸ all .EXTERNAL_TEMPLATE,names ▸ all .VBA_MACRO,
      triggers ▸ all .VBA_AUTOEXEC,indicators ▸ all .VBA_EXECUTION_INDICATOR⟩
  · intro fits code reported
    cases code with
    | EXTERNAL_RELATIONSHIP => exact targets ▸ fits.targets
    | EXTERNAL_TEMPLATE => exact templates ▸ fits.templates
    | VBA_MACRO => exact names ▸ fits.names
    | VBA_AUTOEXEC => exact triggers ▸ fits.triggers
    | VBA_EXECUTION_INDICATOR => exact indicators ▸ fits.indicators
    | _ => exact fixed_fits holds projects rfl

/-- The handlers add neither parts nor projects. -/
theorem onRaised_idle {e : Raised} (handled : onRaised e t = (.ok (),s)) : Idle t s := by
  cases e with
  | limit reason =>
    cases handled
    exact ⟨rfl,rfl⟩
  | valueError =>
    cases handled
    exact ⟨rfl,rfl⟩
  | xml name =>
    cases handled
    exact ⟨rfl,rfl⟩
  | other => cases handled
  | library e =>
    cases e
    case UnicodeDecodeError | OSError | EOFError | BadZipFile | ZlibError =>
      cases handled
      exact ⟨rfl,rfl⟩
    all_goals cases handled

/-- The state in which an inspection ends holds what the visits tell. -/
structure Found (lib : Library) (limits : OfficeAnalysisLimits) (members : Members) (visited : List Visit) (s : State) :
    Prop where
  application : s.application = visitedApplication lib members visited
  externals : s.externalRelationshipCount = visitedExternals lib limits visited
  projects : s.vbaProjectCount = visitedProjects lib members visited
  analyses : projectAnalyses lib limits s.passed = visited.filterMap Visit.analysis

theorem inspect_found (present : _CONTENT_TYPES_PART ∈ members.names) (run : inspect lib limits members = .ok s) :
    Found lib limits members (visits lib limits members) s := by
  obtain ⟨blank,meter⟩ := checkNames_blank limits members
  unfold inspect at run
  cases checked : checkNames limits members with
  | mk goes start =>
    rw [checked] at run blank meter
    cases goes with
    | false =>
      cases run
      have none : visits lib limits members = [] := by
        unfold visits
        rw [checked]
        rfl
      have surveyed : Surveyed lib limits members [] (.ok ()) s := blank.surveyed (ends_nil ()) rfl rfl rfl rfl
      rw [none]
      exact ⟨surveyed.application,surveyed.externals,surveyed.projects,surveyed.analyses⟩
    | true =>
      have surveyed := inspectPackage_run lib (by rw [checked]) present blank meter
      dsimp only [Command.except] at run
      cases ended : inspectPackage lib limits members start with
      | mk result t =>
        rw [ended] at run surveyed
        cases result with
        | ok a =>
          cases run
          exact ⟨surveyed.application,surveyed.externals,surveyed.projects,surveyed.analyses⟩
        | error e =>
          dsimp only at run
          split at run
          · rename_i u handled
            cases run
            obtain ⟨ledger,tally⟩ := onRaised_idle handled
            exact ⟨(congrArg Ledger.application ledger).trans surveyed.application,
              (congrArg Tally.externals tally).trans surveyed.externals,
              (congrArg Ledger.projects ledger).trans surveyed.projects,
              (congrArg (projectAnalyses lib limits) (congrArg Ledger.passed ledger)).trans surveyed.analyses⟩
          · cases run

/-- What is retained of a package fits: of the first of its external relationships, as many as the visits record, and
    of the projects that are analyzed. -/
def PackageFits (lib : Library) (members : Members) : Prop :=
  let visited := visits lib DEFAULT_OFFICE_LIMITS members
  RetainedFit lib ((inspectedExternals lib members).take (visitedExternals lib DEFAULT_OFFICE_LIMITS visited))
    (visited.filterMap Visit.analysis) (visitedApplication lib members visited) (visitedProjects lib members visited)

theorem findingsFit_package {data : Bytes} (brief : ∀ data name, lib.fromString data = .error (.named name) → Brief name)
    (inspected : Inspected lib DEFAULT_OFFICE_LIMITS data members s) :
    FindingsFit (result DEFAULT_OFFICE_LIMITS s) ↔ PackageFits lib members := by
  obtain ⟨projects,elements,inside,holds⟩ := inspect_retains brief inspected.ended
  have found := inspect_found inspected.contentTypes inspected.ended
  have first : elements = (inspectedExternals lib members).take
      (visitedExternals lib DEFAULT_OFFICE_LIMITS (visits lib DEFAULT_OFFICE_LIMITS members)) := by
    rw [← found.externals, holds.externals]
    exact List.prefix_iff_eq_take.mp inside
  rw [findingsFit_retained holds projects, found.analyses, found.application, found.projects, first]
  rfl

/-- The findings about a package are within the limit exactly if what is retained of it fits. -/
theorem office_findings_fit_iff {data : Bytes} {container : Container} {analysis : OfficeAnalysis}
    (brief : ∀ data name, lib.fromString data = .error (.named name) → Brief name) (opened : lib.zipFile data = .ok container)
    (listed : container.infolist = .ok members) (run : analyzeOoxml lib DEFAULT_OFFICE_LIMITS data = .ok (some analysis)) :
    FindingsFit analysis ↔ PackageFits lib members := by
  obtain ⟨members',s,inspected,rfl⟩ := analyzeOoxml_inspected run
  obtain ⟨container',opened',listed'⟩ := inspected.opened
  cases opened.symm.trans opened'
  cases listed.symm.trans listed'
  exact findingsFit_package brief inspected

theorem Document.brief (document : Document) (data : Bytes) (name : Text)
    (raised : document.library.fromString data = .error (.named name)) : Brief name := by
  unfold Document.library storedLibrary at raised
  dsimp only at raised
  generalize List.find? _ _ = found at raised
  cases found with
  | some root => cases raised
  | none =>
    cases raised
    decide

/-- A document with a VBA project and an external template. -/
def macroTemplate : Document := { projectDocument with relationships := [templateRelationship] }

def macroTemplateLibrary : Library :=
  { macroTemplate.library with vbaParser := (projectLibrary [lit "Main"]).vbaParser }

theorem macroTemplate_run :
    (inspect macroTemplateLibrary DEFAULT_OFFICE_LIMITS macroTemplate.infos).map parserStatus = .ok .COMPLETE ∧
      visitedExternals macroTemplateLibrary DEFAULT_OFFICE_LIMITS
        (visits macroTemplateLibrary DEFAULT_OFFICE_LIMITS macroTemplate.infos) = 1 ∧
      ((visits macroTemplateLibrary DEFAULT_OFFICE_LIMITS macroTemplate.infos).filterMap Visit.analysis).map
        VbaAnalysis.moduleNames = [[lit "Main"]] := by
  decide +kernel

theorem macroTemplateLibrary_zipFile :
    macroTemplateLibrary.zipFile macroTemplate.data = .ok ⟨.ok macroTemplate.infos⟩ := by
  have opened := macroTemplate.opened
  generalize macroTemplate.data = data at opened ⊢
  exact opened

theorem office_findings_fit_iff_template :
    (∀ data name, macroTemplateLibrary.fromString data = .error (.named name) → Brief name) ∧
      ∃ container analysis, macroTemplateLibrary.zipFile macroTemplate.data = .ok container ∧
        container.infolist = .ok macroTemplate.infos ∧
          analyzeOoxml macroTemplateLibrary DEFAULT_OFFICE_LIMITS macroTemplate.data = .ok (some analysis) ∧
            (FindingsFit analysis ↔ PackageFits macroTemplateLibrary macroTemplate.infos) := by
  have opened := macroTemplateLibrary_zipFile
  have brief : ∀ data name, macroTemplateLibrary.fromString data = .error (.named name) → Brief name := macroTemplate.brief
  cases ended : inspect macroTemplateLibrary DEFAULT_OFFICE_LIMITS macroTemplate.infos with
  | error e =>
    have ran := macroTemplate_run.1
    rw [ended] at ran
    cases ran
  | ok s =>
    have inspected : Inspected macroTemplateLibrary DEFAULT_OFFICE_LIMITS macroTemplate.data macroTemplate.infos s :=
      ⟨⟨_,opened,rfl⟩,List.mem_cons_self,ended⟩
    have run := inspected.analyzed
    exact ⟨brief,_,_,opened,rfl,run,office_findings_fit_iff brief opened rfl run⟩

/-- Names of 128 characters, of four bytes each but for the first. -/
def longNames : List Text := (List.range 33).map fun i => Char.ofNat (0x4e00 + i) :: List.replicate 127 (Char.ofNat 0x1d11e)

theorem longNames_run :
    (inspect (projectLibrary longNames) DEFAULT_OFFICE_LIMITS projectDocument.infos).map parserStatus = .ok .COMPLETE ∧
      ((visits (projectLibrary longNames) DEFAULT_OFFICE_LIMITS projectDocument.infos).filterMap Visit.analysis).flatMap
        VbaAnalysis.moduleNames = longNames ∧
        longNames.Nodup ∧ (longNames.all fun name => decide (510 ≤ size (.str name))) = true := by
  decide +kernel

theorem module_names_outgrow :
    (∀ data name, (projectLibrary longNames).fromString data = .error (.named name) → Brief name) ∧
      ∃ analysis, analyzeOoxml (projectLibrary longNames) DEFAULT_OFFICE_LIMITS projectDocument.data = .ok (some analysis) ∧
        ¬ FindingsFit analysis := by
  obtain ⟨ran,all,distinct,long⟩ := longNames_run
  have brief : ∀ data name, (projectLibrary longNames).fromString data = .error (.named name) → Brief name :=
    projectDocument.brief
  cases ended : inspect (projectLibrary longNames) DEFAULT_OFFICE_LIMITS projectDocument.infos with
  | error e =>
    rw [ended] at ran
    cases ran
  | ok s =>
    have opened := projectLibrary_zipFile longNames
    have inspected : Inspected (projectLibrary longNames) DEFAULT_OFFICE_LIMITS projectDocument.data projectDocument.infos s :=
      ⟨⟨_,opened,rfl⟩,List.mem_cons_self,ended⟩
    refine ⟨brief,_,inspected.analyzed,fun fits => ?_⟩
    have names := ((findingsFit_package brief inspected).mp fits).names
    generalize (visits (projectLibrary longNames) DEFAULT_OFFICE_LIMITS projectDocument.infos).filterMap Visit.analysis =
      analyses at all names
    have retained : (retainedNames analyses).Perm longNames := by
      have few : longNames.length ≤ DEFAULT_OFFICE_LIMITS.maxMetadataEntries := by decide
      rw [retainedNames, all, List.take_of_length_le few]
      exact (List.perm_ext_iff_of_nodup (sortedSet_nodup _) distinct).mpr fun _ => mem_sortedSet
    have each : ∀ item ∈ (retainedNames analyses).map Value.str, 510 ≤ size item := by
      intro item member
      obtain ⟨name,inside,rfl⟩ := List.mem_map.mp member
      exact of_decide_eq_true (List.all_eq_true.mp long name (retained.mem_iff.mp inside))
    have many := le_size_arr each
    have count : longNames.length = 33 := by decide
    rw [List.length_map, retained.length_eq, count] at many
    rw [texts, MAX_FINDING_METADATA_BYTES] at names
    omega

end DocGuard.Ooxml
