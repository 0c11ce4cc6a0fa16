import DocGuard.Findings

/-!
The scan of the submitted file with the trusted YARA rules: what is reported of
the matches that the engine finds, and what is left out under the limits. A
complete report is exact, a report that leaves something out says so, and the
trusted side accepts both.
-/
namespace DocGuard.Yara
open DocGuard.Checks DocGuard.Contract DocGuard.Domain DocGuard.Findings DocGuard.Ordered
open DocGuard.Json (Value)

/-! ### The engine -/

structure StringMatch where
  identifier : Text
  /-- The offsets of the instances. -/
  instances : List Int

structure RuleMatch where
  rule : Text
  namespace_ : Text
  strings : List StringMatch

inductive Warning where
  /-- `yara.CALLBACK_TOO_MANY_MATCHES` -/
  | tooManyMatches
  | other
deriving DecidableEq

inductive EngineError where
  | TimeoutError
  | Error
deriving DecidableEq

/-- What `pack.rules.match` does: it raises, or returns its matches after the callbacks with warnings. -/
abbrev Engine := Except EngineError (List RuleMatch × List Warning)

/-- The compiled rules; compiling them fails unless the file has the expected digest. -/
structure CompiledRulePack where
  sha256 : Text
  expected : sha256 = YARA_RULE_PACK_SHA256

def YARA_RULE_NAMESPACE : Text := lit "docguard"

structure YaraScanLimits where
  timeoutSeconds : Nat := 3
  maxMatchedRules : Nat := 32
  maxMatchInstancesPerRule : Nat := 4096
  maxStringIdsPerRule : Nat := MAX_YARA_STRING_IDS_PER_FINDING
  maxOffsetsPerRule : Nat := MAX_YARA_OFFSETS_PER_FINDING
  maxTotalMetadataBytes : Nat := 12 * 1024
  maxMatchDataBytes : Nat := 1
  positive : ∀ value ∈ [timeoutSeconds,maxMatchedRules,maxMatchInstancesPerRule,maxStringIdsPerRule,maxOffsetsPerRule,
    maxTotalMetadataBytes,maxMatchDataBytes], 0 < value := by decide
  stringIds : maxStringIdsPerRule ≤ MAX_YARA_STRING_IDS_PER_FINDING := by decide
  offsets : maxOffsetsPerRule ≤ MAX_YARA_OFFSETS_PER_FINDING := by decide
  matchCount : maxMatchInstancesPerRule ≤ MAX_YARA_REPORTED_MATCH_COUNT := by decide

inductive Reason where
  | internalTimeout
  | scannerError
  | engineMatchWarning
  | engineWarning
  | matchedRuleLimit
  | stringIdentifierLimit
  | matchInstanceLimit
  | offsetLimit
  | metadataLimit
deriving DecidableEq

def Reason.text : Reason → Text
  | .internalTimeout => lit "internal_timeout"
  | .scannerError => lit "scanner_error"
  | .engineMatchWarning => lit "engine_match_warning"
  | .engineWarning => lit "engine_warning"
  | .matchedRuleLimit => lit "matched_rule_limit"
  | .stringIdentifierLimit => lit "string_identifier_limit"
  | .matchInstanceLimit => lit "match_instance_limit"
  | .offsetLimit => lit "offset_limit"
  | .metadataLimit => lit "metadata_limit"

inductive YaraParserStatus where
  | COMPLETE
  | PARTIAL
deriving DecidableEq

def YaraParserStatus.value : YaraParserStatus → Text
  | .COMPLETE => lit "COMPLETE"
  | .PARTIAL => lit "PARTIAL"

structure YaraAnalysis where
  parserStatus : YaraParserStatus
  findings : List FindingFields
  metadata : Metadata

/-- What the scan takes from its surroundings. -/
structure Environment where
  yaraPythonVersion : Text
  yaraRuntimeVersion : Text
  durationMs : Nat

/-! ### One match -/

variable (limits : YaraScanLimits)

/-- The offsets that are kept, string by string. -/
def retainOffsets : List StringMatch → List Int → List Int
  | [],kept => kept
  | s :: rest,kept =>
    let remaining := limits.maxOffsetsPerRule - kept.length
    retainOffsets rest (if 0 < remaining then kept ++ s.instances.take remaining else kept)

/-- `actual_match_count` -/
def actualMatchCount (m : RuleMatch) : Nat := (m.strings.map fun s => s.instances.length).sum

def stringIds (m : RuleMatch) : List Text := sortedSet (m.strings.map StringMatch.identifier)

/-- `if condition: partial_reasons.add(reason)` -/
def mark (reason : Reason) (condition : Prop) [Decidable condition] : List Reason :=
  if condition then [reason] else []

/-- What is left out of the report about one match. -/
def matchReasons (m : RuleMatch) : List Reason :=
  mark .stringIdentifierLimit (limits.maxStringIdsPerRule < (stringIds m).length) ++
  mark .matchInstanceLimit (limits.maxMatchInstancesPerRule < actualMatchCount m) ++
  mark .offsetLimit ((retainOffsets limits m.strings []).length < actualMatchCount m)

/-- The metadata of the finding about one match. -/
def matchMetadata (pack : CompiledRulePack) (definition : YaraRuleDefinition) (m : RuleMatch) : Metadata :=
  [(lit "rule_id",.str definition.ruleId),
   (lit "rule_title",.str definition.title),
   (lit "rule_explanation",.str definition.explanation),
   (lit "rule_category",.str definition.category),
   (lit "confidence_class",.str definition.confidence.value),
   (lit "rule_pack_version",.str YARA_RULE_PACK_VERSION),
   (lit "rule_pack_sha256",.str pack.sha256),
   (lit "scope",.str (lit "TOP_LEVEL")),
   (lit "match_count",.int (min (actualMatchCount m) limits.maxMatchInstancesPerRule : Nat)),
   (lit "string_ids",.arr (((stringIds m).take limits.maxStringIdsPerRule).map .str)),
   (lit "offsets",.arr (((sortedSet (retainOffsets limits m.strings [])).take limits.maxOffsetsPerRule).map .int))]

/-! ### The scan -/

/-- A rule outside of the manifest. -/
inductive YaraRulePackError where
  | outsideManifest
deriving DecidableEq

theorem rule_registered {ruleId : Text} {definition : YaraRuleDefinition} (found : yaraRule ruleId = some definition) :
    (findingDefinition definition.findingCode).isSome := by
  have every : ∀ rule ∈ rules, (findingDefinition rule.findingCode).isSome := by decide +kernel
  exact every definition (List.mem_of_find?_eq_some found)

/-- The loop over the matches in order, with the bytes of metadata so far: the findings and the reasons that it adds. -/
def reportMatches (pack : CompiledRulePack) :
    List RuleMatch → Nat → Except YaraRulePackError (List FindingFields × List Reason)
  | [],_ => .ok ([],[])
  | m :: rest,metadataBytes =>
    if m.namespace_ ≠ YARA_RULE_NAMESPACE then .error .outsideManifest
    else
      match found : yaraRule m.rule with
      | none => .error .outsideManifest
      | some definition =>
        let metadata := matchMetadata limits pack definition m
        let encodedSize := Json.size (.obj metadata)
        if limits.maxTotalMetadataBytes < metadataBytes + encodedSize then
          .ok ([],matchReasons limits m ++ [.metadataLimit])
        else do
          let (findings,reasons) ← reportMatches pack rest (metadataBytes + encodedSize)
          .ok (yaraFindingPayload definition metadata (rule_registered found) :: findings,matchReasons limits m ++ reasons)

/-- The reason that the first warning gives. -/
def warningReasons : List Warning → List Reason
  | [] => []
  | .tooManyMatches :: _ => [.engineMatchWarning]
  | .other :: _ => [.engineWarning]

theorem partial_registered : (findingDefinition (lit "YARA_PARTIAL_ANALYSIS")).isSome := by decide +kernel

/-- `sorted(partial_reasons)` -/
def sortedReasons (reasons : List Reason) : Value := .arr ((sortedSet (reasons.map Reason.text)).map .str)

/-- The finding that says that something is missing. -/
def partialFinding (reasons : List Reason) : FindingFields :=
  findingPayload (lit "YARA_PARTIAL_ANALYSIS")
    [(lit "reasons",sortedReasons reasons),
     (lit "rule_pack_version",.str YARA_RULE_PACK_VERSION),
     (lit "rule_pack_sha256",.str YARA_RULE_PACK_SHA256)] partial_registered

/-- `_result` -/
def result (env : Environment) (findings : List FindingFields) (reasons : List Reason) (matchedRuleCount : Nat) :
    YaraAnalysis :=
  let status := if reasons = [] then YaraParserStatus.COMPLETE else .PARTIAL
  let findings := if reasons = [] then findings else findings ++ [partialFinding reasons]
  { parserStatus := status
    findings
    metadata :=
      [(lit "engine",.str (lit "yara-python")),
       (lit "yara_python_version",.str env.yaraPythonVersion),
       (lit "yara_runtime_version",.str env.yaraRuntimeVersion),
       (lit "rule_pack_version",.str YARA_RULE_PACK_VERSION),
       (lit "rule_pack_sha256",.str YARA_RULE_PACK_SHA256),
       (lit "scope",.str (lit "TOP_LEVEL")),
       (lit "parser_status",.str status.value),
       (lit "matched_rule_count",.int matchedRuleCount),
       (lit "retained_finding_count",.int findings.length),
       (lit "partial_reasons",sortedReasons reasons),
       (lit "duration_ms",.int env.durationMs)] }

/-- The matches in the order of their rules, as many as are reported. -/
def orderedMatches (matched : List RuleMatch) : List RuleMatch :=
  (sortedBy RuleMatch.rule matched).take limits.maxMatchedRules

/-- `scan_top_level_file` -/
def scanTopLevelFile (env : Environment) (pack : CompiledRulePack) : Engine → Except YaraRulePackError YaraAnalysis
  | .error .TimeoutError => .ok (result env [] [.internalTimeout] 0)
  | .error .Error => .ok (result env [] [.scannerError] 0)
  | .ok (matched,warnings) => do
    let (findings,reasons) ← reportMatches limits pack (orderedMatches limits matched) 0
    let reasons := warningReasons warnings ++ mark .matchedRuleLimit (limits.maxMatchedRules < matched.length) ++ reasons
    .ok (result env findings reasons matched.length)

/-! ### What is kept of a match -/

theorem retainOffsets_take {strings : List StringMatch} {kept : List Int}
    (room : kept.length ≤ limits.maxOffsetsPerRule) :
    retainOffsets limits strings kept = (kept ++ strings.flatMap StringMatch.instances).take limits.maxOffsetsPerRule := by
  induction strings generalizing kept with
  | nil => simp [retainOffsets, List.take_of_length_le room]
  | cons s rest ih =>
    rw [retainOffsets]
    by_cases more : 0 < limits.maxOffsetsPerRule - kept.length
    · have fits : (kept ++ s.instances.take (limits.maxOffsetsPerRule - kept.length)).length ≤
          limits.maxOffsetsPerRule := by
        rw [List.length_append, List.length_take]
        omega
      rw [if_pos more, ih fits, List.flatMap_cons]
      -- Whether the instances of `s` all fit or not, the same prefix is kept.
      simp only [List.take_append, List.length_append, List.length_take, List.take_take]
      rcases Nat.le_total s.instances.length (limits.maxOffsetsPerRule - kept.length) with short | long
      · simp [List.take_of_length_le room, Nat.min_eq_right short, Nat.sub_sub, List.append_assoc]
      · have full : limits.maxOffsetsPerRule - (kept.length + (limits.maxOffsetsPerRule - kept.length)) = 0 := by omega
        have none : limits.maxOffsetsPerRule - kept.length - s.instances.length = 0 := by omega
        simp [List.take_of_length_le room, Nat.min_eq_left long, full, none]
    · have full : kept.length = limits.maxOffsetsPerRule := by omega
      rw [if_neg more, ih room, List.take_append_of_le_length (by omega), List.take_append_of_le_length (by omega)]

/-- The offsets of all instances. -/
def instancesOf (m : RuleMatch) : List Int := m.strings.flatMap StringMatch.instances

theorem actualMatchCount_eq (m : RuleMatch) : actualMatchCount m = (instancesOf m).length := by
  rw [actualMatchCount, instancesOf, List.length_flatMap]

theorem retained_eq (m : RuleMatch) :
    retainOffsets limits m.strings [] = (instancesOf m).take limits.maxOffsetsPerRule := by
  rw [retainOffsets_take limits (Nat.zero_le _), List.nil_append, instancesOf]

theorem mark_nil {reason : Reason} {condition : Prop} [Decidable condition] : mark reason condition = [] ↔ ¬ condition := by
  unfold mark
  split <;> simp_all

/-- Without a reason, nothing of the match is left out. -/
theorem matchReasons_nil {m : RuleMatch} (none : matchReasons limits m = []) :
    (stringIds m).length ≤ limits.maxStringIdsPerRule ∧ actualMatchCount m ≤ limits.maxMatchInstancesPerRule ∧
      retainOffsets limits m.strings [] = instancesOf m := by
  simp only [matchReasons, List.append_eq_nil_iff, mark_nil, Nat.not_lt] at none
  obtain ⟨⟨ids,instances⟩,offsets⟩ := none
  refine ⟨ids,instances,?_⟩
  rw [actualMatchCount_eq, retained_eq, List.length_take] at offsets
  rw [retained_eq, List.take_of_length_le]
  omega

/-! ### What the trusted side accepts -/

theorem texts_map (xs : List Text) : texts (xs.map .str) = some xs := by
  induction xs with
  | nil => rfl
  | cons x rest ih => simp [texts, ih]

theorem integers_map (xs : List Int) : integers (xs.map .int) = some xs := by
  induction xs with
  | nil => rfl
  | cons x rest ih => simp [integers, ih]

theorem take_increasing {α : Type} [LinearOrder α] (n : Nat) (xs : List α) :
    (sortedSet xs).take n = sortedSet ((sortedSet xs).take n) :=
  (sortedSet_of_increasing ((sortedSet_increasing xs).sublist (List.take_sublist n _))).symm

theorem validMatchCount_ok {n : Nat} (some : 0 < n) :
    validMatchCount (.some (.int (min n limits.maxMatchInstancesPerRule : Nat))) = .ok () := by
  have limit := limits.matchCount
  have room : 0 < limits.maxMatchInstancesPerRule := limits.positive _ (by simp)
  have least : 0 < min n limits.maxMatchInstancesPerRule := lt_min some room
  have most : min n limits.maxMatchInstancesPerRule ≤ limits.maxMatchInstancesPerRule := min_le_right ..
  refine require_ok.mpr ⟨?_,?_⟩
  · exact_mod_cast least
  · exact le_trans (by exact_mod_cast most) limit

theorem validStringIds_ok {ids : List Text} (named : ∀ id ∈ ids, id.head? = some '$' ∧ id.length ≤ 128) :
    validStringIds (some (.arr (((sortedSet ids).take limits.maxStringIdsPerRule).map .str))) = .ok () := by
  have short : ((sortedSet ids).take limits.maxStringIdsPerRule).length ≤ MAX_YARA_STRING_IDS_PER_FINDING :=
    le_trans (List.length_take_le _ _) limits.stringIds
  simp only [validStringIds, List.length_map, require_bind_ok, texts_map]
  refine ⟨short,?_,require_ok.mpr (take_increasing _ ids)⟩
  intro id member
  exact named id (mem_sortedSet.mp (List.mem_of_mem_take member))

theorem validOffsets_ok {offsets : List Int} (natural : ∀ n ∈ offsets, 0 ≤ n) :
    validOffsets (some (.arr (((sortedSet offsets).take limits.maxOffsetsPerRule).map .int))) = .ok () := by
  have short : ((sortedSet offsets).take limits.maxOffsetsPerRule).length ≤ MAX_YARA_OFFSETS_PER_FINDING :=
    le_trans (List.length_take_le _ _) limits.offsets
  simp only [validOffsets, List.length_map, require_bind_ok, integers_map]
  refine ⟨short,?_,require_ok.mpr (take_increasing _ offsets)⟩
  intro n member
  exact natural n (mem_sortedSet.mp (List.mem_of_mem_take member))

/-- A match as the engine makes it: on a rule of the manifest, with an instance, and with identifiers of strings. -/
structure OnManifest (m : RuleMatch) : Prop where
  namespace_ : m.namespace_ = YARA_RULE_NAMESPACE
  rule : (yaraRule m.rule).isSome
  matched : instancesOf m ≠ []
  identifiers : ∀ s ∈ m.strings, s.identifier.head? = some '$'
  offsets : ∀ n ∈ instancesOf m, 0 ≤ n

/-- The identifiers of its strings have at most 128 characters. -/
def ShortIdentifiers (m : RuleMatch) : Prop := ∀ s ∈ m.strings, s.identifier.length ≤ 128

/-- The metadata of a finding about a match, or about what is missing, passes the check of the trusted side for it. -/
def Accepted (f : FindingFields) : Prop :=
  f.code ∈ yaraMatchCodes ∧ (∃ techniques, validateYaraMatchMetadata f = .ok techniques) ∨
    f.code = lit "YARA_PARTIAL_ANALYSIS" ∧ validateYaraPartialMetadata f.metadata = .ok ()

theorem rule_codes : ∀ rule ∈ rules, rule.findingCode ∈ yaraMatchCodes ∧
    (findingDefinition rule.findingCode).map FindingDefinition.defaultSeverity = some rule.severity := by
  decide +kernel

theorem yaraRule_self {ruleId : Text} {definition : YaraRuleDefinition} (found : yaraRule ruleId = some definition) :
    yaraRule definition.ruleId = some definition := by
  have same : definition.ruleId = ruleId := by simpa using List.find?_some found
  rw [same, found]

theorem isText_get {fields : Metadata} {key text : Text} (given : get fields key = some (.str text)) :
    isText fields key text = true := by
  rw [isText, given]
  exact beq_self_eq_true text

theorem matchMetadata_valid {pack : CompiledRulePack} {m : RuleMatch} {definition : YaraRuleDefinition}
    (found : yaraRule m.rule = some definition) (made : OnManifest m) (short : ShortIdentifiers m) {f : FindingFields}
    (metadata : f.metadata = matchMetadata limits pack definition m)
    (class_ : f.code = definition.findingCode ∧ f.severity = definition.severity) :
    validateYaraMatchMetadata f = .ok definition.mitreTechniques := by
  have keys : (matchMetadata limits pack definition m).map Prod.fst = yaraMatchKeys := rfl
  have ruleId : get (matchMetadata limits pack definition m) (lit "rule_id") = some (.str definition.ruleId) := rfl
  have trusted : isText (matchMetadata limits pack definition m) (lit "rule_title") definition.title ∧
      isText (matchMetadata limits pack definition m) (lit "rule_explanation") definition.explanation ∧
      isText (matchMetadata limits pack definition m) (lit "rule_category") definition.category ∧
      isText (matchMetadata limits pack definition m) (lit "confidence_class") definition.confidence.value ∧
      isText (matchMetadata limits pack definition m) (lit "rule_pack_version") YARA_RULE_PACK_VERSION ∧
      isText (matchMetadata limits pack definition m) (lit "rule_pack_sha256") YARA_RULE_PACK_SHA256 ∧
      isText (matchMetadata limits pack definition m) (lit "scope") (lit "TOP_LEVEL") := by
    refine ⟨?_,?_,?_,?_,?_,?_,?_⟩
    all_goals apply isText_get
    · rfl
    · rfl
    · rfl
    · rfl
    · rfl
    · rw [← pack.expected]
      rfl
    · rfl
  have count : validMatchCount (get (matchMetadata limits pack definition m) (lit "match_count")) = .ok () := by
    apply validMatchCount_ok
    rw [actualMatchCount_eq]
    exact List.length_pos_of_ne_nil made.matched
  have ids : validStringIds (get (matchMetadata limits pack definition m) (lit "string_ids")) = .ok () := by
    apply validStringIds_ok
    intro id member
    obtain ⟨s,listed,rfl⟩ := List.mem_map.mp member
    exact ⟨made.identifiers s listed,short s listed⟩
  have offsets : validOffsets (get (matchMetadata limits pack definition m) (lit "offsets")) = .ok () := by
    apply validOffsets_ok
    intro n member
    rw [retained_eq] at member
    exact made.offsets n (List.mem_of_mem_take member)
  simp only [validateYaraMatchMetadata, metadata, require_bind_ok]
  refine ⟨congrArg sortedSet keys,?_⟩
  rw [ruleId]
  simp only [yaraRule_self found, require_bind_ok]
  refine ⟨trusted,class_,?_⟩
  rw [count, ids, offsets]
  rfl

theorem yaraFinding_accepted {pack : CompiledRulePack} {m : RuleMatch} {definition : YaraRuleDefinition}
    (found : yaraRule m.rule = some definition) (made : OnManifest m) (short : ShortIdentifiers m) :
    Accepted (yaraFindingPayload definition (matchMetadata limits pack definition m) (rule_registered found)) := by
  obtain ⟨code,severity⟩ := rule_codes definition (List.mem_of_find?_eq_some found)
  have named : (yaraFindingPayload definition (matchMetadata limits pack definition m) (rule_registered found)).code =
      definition.findingCode := findingPayload_code _ (matchMetadata limits pack definition m) _
  refine Or.inl ⟨by rw [named]; exact code,definition.mitreTechniques,?_⟩
  apply matchMetadata_valid limits found made short rfl
  refine ⟨named,?_⟩
  obtain ⟨registered,given⟩ := Option.isSome_iff_exists.mp (rule_registered found)
  have payload : (yaraFindingPayload definition (matchMetadata limits pack definition m) (rule_registered found)).severity =
      registered.defaultSeverity := by
    simp only [yaraFindingPayload, findingPayload, given, Option.get_some]
  rw [payload]
  simpa [given] using severity

theorem Reason.allowed (reason : Reason) : reason.text ∈ yaraPartialReasons := by
  cases reason <;> decide

theorem partialFinding_accepted {reasons : List Reason} (some : reasons ≠ []) : Accepted (partialFinding reasons) := by
  have allowed : reasons.map Reason.text ⊆ yaraPartialReasons := by
    intro text member
    obtain ⟨reason,_,rfl⟩ := List.mem_map.mp member
    exact reason.allowed
  have given : sortedSet (reasons.map Reason.text) ≠ [] := by
    rw [ne_eq, sortedSet_eq_nil, List.map_eq_nil_iff]
    exact some
  refine Or.inr ⟨findingPayload_code ..,?_⟩
  show validateYaraPartialMetadata [(lit "reasons",sortedReasons reasons),
    (lit "rule_pack_version",.str YARA_RULE_PACK_VERSION),(lit "rule_pack_sha256",.str YARA_RULE_PACK_SHA256)] = .ok ()
  have reported : get [(lit "reasons",sortedReasons reasons),(lit "rule_pack_version",.str YARA_RULE_PACK_VERSION),
      (lit "rule_pack_sha256",.str YARA_RULE_PACK_SHA256)] (lit "reasons") = .some (sortedReasons reasons) := rfl
  simp only [validateYaraPartialMetadata, require_bind_ok]
  refine ⟨rfl,⟨isText_get rfl,isText_get rfl⟩,?_⟩
  rw [reported, sortedReasons]
  simp only [texts_map, require_bind_ok]
  refine ⟨⟨given,sortedSet_length_le allowed,?_⟩,require_ok.mpr (sortedSet_idem _).symm⟩
  intro text member
  exact allowed (mem_sortedSet.mp member)

/-! ### What is reported -/

/-- The finding counts every instance of the match, and lists all of its identifiers and offsets. -/
structure Exact (m : RuleMatch) (f : FindingFields) : Prop where
  rule : get f.metadata (lit "rule_id") = some (.str m.rule)
  matchCount : get f.metadata (lit "match_count") = some (.int (instancesOf m).length)
  stringIds : get f.metadata (lit "string_ids") =
    some (.arr ((sortedSet (m.strings.map StringMatch.identifier)).map .str))
  offsets : get f.metadata (lit "offsets") = some (.arr ((sortedSet (instancesOf m)).map .int))

theorem yaraFinding_exact {pack : CompiledRulePack} {m : RuleMatch} {definition : YaraRuleDefinition}
    (found : yaraRule m.rule = some definition) (none : matchReasons limits m = []) :
    Exact m (yaraFindingPayload definition (matchMetadata limits pack definition m) (rule_registered found)) := by
  obtain ⟨ids,instances,offsets⟩ := matchReasons_nil limits none
  have same : definition.ruleId = m.rule := by simpa using List.find?_some found
  have few : (sortedSet (instancesOf m)).length ≤ limits.maxOffsetsPerRule := by
    rw [← offsets, retained_eq]
    exact le_trans (sortedSet_length_le (List.Subset.refl _)) (List.length_take_le _ _)
  have count : min (actualMatchCount m) limits.maxMatchInstancesPerRule = (instancesOf m).length := by
    rw [Nat.min_eq_left instances, actualMatchCount_eq]
  have allIds : (stringIds m).take limits.maxStringIdsPerRule = sortedSet (m.strings.map StringMatch.identifier) :=
    List.take_of_length_le ids
  have allOffsets : (sortedSet (retainOffsets limits m.strings [])).take limits.maxOffsetsPerRule =
      sortedSet (instancesOf m) := by
    rw [offsets, List.take_of_length_le few]
  constructor
  · exact congrArg (fun id => some (Value.str id)) same
  · exact congrArg (fun n : Nat => some (Value.int n)) count
  · exact congrArg (fun ids : List Text => some (Value.arr (ids.map .str))) allIds
  · exact congrArg (fun offsets : List Int => some (Value.arr (offsets.map .int))) allOffsets

/-- The loop over the matches: what it reports is accepted, and exact if it gives no reason. -/
theorem reportMatches_spec (pack : CompiledRulePack) {matched : List RuleMatch} (metadataBytes : Nat)
    (made : ∀ m ∈ matched, OnManifest m ∧ ShortIdentifiers m) :
    ∃ findings reasons, reportMatches limits pack matched metadataBytes = .ok (findings,reasons) ∧
      (∀ f ∈ findings, Accepted f) ∧ (reasons = [] → List.Forall₂ Exact matched findings) := by
  induction matched generalizing metadataBytes with
  | nil => exact ⟨[],[],rfl,nofun,fun _ => .nil⟩
  | cons m rest ih =>
    obtain ⟨onManifest,short⟩ := made m (List.mem_cons_self ..)
    obtain ⟨definition,found⟩ := Option.isSome_iff_exists.mp onManifest.rule
    rw [reportMatches, if_neg (not_not_intro onManifest.namespace_)]
    split
    · rename_i absent
      rw [found] at absent
      cases absent
    · rename_i definition' found'
      dsimp only
      split
      · exact ⟨_,_,rfl,nofun,fun none => absurd none (by simp)⟩
      · have later (m' : RuleMatch) (member : m' ∈ rest) := made m' (List.mem_cons_of_mem _ member)
        obtain ⟨findings,reasons,reported,accepted,exact_⟩ := ih _ later
        refine ⟨_,_,by rw [reported]; rfl,?_,?_⟩
        · intro f member
          rcases List.mem_cons.mp member with rfl | member
          · exact yaraFinding_accepted limits found' onManifest short
          · exact accepted f member
        · intro none
          obtain ⟨here,later⟩ := List.append_eq_nil_iff.mp none
          exact .cons (yaraFinding_exact limits found' here) (exact_ later)

theorem related_left {α β : Type} {R : α → β → Prop} {xs : List α} {ys : List β} (related : List.Forall₂ R xs ys) {x : α}
    (member : x ∈ xs) : ∃ y ∈ ys, R x y := by
  induction related with
  | nil => cases member
  | @cons a b _ _ first _ ih =>
    rcases List.mem_cons.mp member with same | later
    · subst same
      exact ⟨b,List.mem_cons_self ..,first⟩
    · obtain ⟨y,listed,holds⟩ := ih later
      exact ⟨y,List.mem_cons_of_mem _ listed,holds⟩

/-- The matches of an engine that does not raise. -/
def matchedBy : Engine → List RuleMatch
  | .error _ => []
  | .ok (matched,_) => matched

/-- What the scan promises about its report. -/
structure Reports (matched : List RuleMatch) (analysis : YaraAnalysis) : Prop where
  accepted : ∀ f ∈ analysis.findings, Accepted f
  exact : analysis.parserStatus = .COMPLETE → List.Forall₂ Exact (sortedBy RuleMatch.rule matched) analysis.findings
  notSilent : (∃ m ∈ matched, ∀ f ∈ analysis.findings, ¬ Exact m f) →
    ∃ f ∈ analysis.findings, f.code = lit "YARA_PARTIAL_ANALYSIS"

theorem result_reports {env : Environment} {matched : List RuleMatch} {findings : List FindingFields}
    {reasons : List Reason} {count : Nat} (accepted : ∀ f ∈ findings, Accepted f)
    (exact_ : reasons = [] → List.Forall₂ Exact (sortedBy RuleMatch.rule matched) findings) :
    Reports matched (result env findings reasons count) := by
  by_cases none : reasons = []
  · subst none
    refine ⟨accepted,fun _ => exact_ rfl,?_⟩
    rintro ⟨m,member,missing⟩
    obtain ⟨f,reported,exactly⟩ := related_left (exact_ rfl) (mem_sortedBy.mpr member)
    exact absurd exactly (missing f reported)
  · refine ⟨?_,?_,?_⟩
    · intro f member
      simp only [result, if_neg none, List.mem_append, List.mem_singleton] at member
      rcases member with member | rfl
      · exact accepted f member
      · exact partialFinding_accepted none
    · intro complete
      simp [result, none] at complete
    · intro _
      refine ⟨partialFinding reasons,?_,findingPayload_code ..⟩
      simp [result, none]

/-- For every outcome of the engine with matches on the manifest whose identifiers have at most 128 characters. -/
theorem scan_reports (env : Environment) (pack : CompiledRulePack) (engine : Engine)
    (made : ∀ m ∈ matchedBy engine, OnManifest m ∧ ShortIdentifiers m) :
    ∃ analysis, scanTopLevelFile limits env pack engine = .ok analysis ∧ Reports (matchedBy engine) analysis := by
  match engine with
  | .error .TimeoutError => exact ⟨_,rfl,result_reports nofun (fun none => absurd none (by simp))⟩
  | .error .Error => exact ⟨_,rfl,result_reports nofun (fun none => absurd none (by simp))⟩
  | .ok (matched,warnings) =>
    have ordered : ∀ m ∈ orderedMatches limits matched, OnManifest m ∧ ShortIdentifiers m :=
      fun m member => made m (mem_sortedBy.mp (List.mem_of_mem_take member))
    obtain ⟨findings,reasons,reported,accepted,exact_⟩ := reportMatches_spec limits pack 0 ordered
    refine ⟨_,by rw [scanTopLevelFile, reported]; rfl,result_reports accepted ?_⟩
    intro none
    obtain ⟨before,later⟩ := List.append_eq_nil_iff.mp none
    obtain ⟨_,all⟩ := List.append_eq_nil_iff.mp before
    have within : (sortedBy RuleMatch.rule matched).length ≤ limits.maxMatchedRules := by
      rw [mark_nil] at all
      rw [sortedBy_length]
      omega
    have same : orderedMatches limits matched = sortedBy RuleMatch.rule matched := List.take_of_length_le within
    rw [matchedBy, ← same]
    exact exact_ later

def samplePack : CompiledRulePack := ⟨YARA_RULE_PACK_SHA256,rfl⟩

def sampleEnvironment : Environment := ⟨lit "4.5.4",lit "4.5.4",7⟩

/-- The test signature, at the start of the file. -/
def eicarMatch (identifier : Text) : RuleMatch := ⟨lit "DOCGUARD_EICAR_TEST",YARA_RULE_NAMESPACE,[⟨identifier,[0]⟩]⟩

/-- A rule with two strings, each of which is found twice. -/
def powershellMatch : RuleMatch :=
  ⟨lit "DOCGUARD_POWERSHELL_ENCODED",YARA_RULE_NAMESPACE,[⟨lit "$powershell",[0,90]⟩,⟨lit "$encoded_flag",[15,105]⟩]⟩

theorem scan_reports_matches :
    ∃ analysis, scanTopLevelFile {} sampleEnvironment samplePack
      (.ok ([powershellMatch,eicarMatch (lit "$eicar")],[])) = .ok analysis ∧
      Reports [powershellMatch,eicarMatch (lit "$eicar")] analysis := by
  apply scan_reports
  intro m member
  simp only [matchedBy, List.mem_cons, List.not_mem_nil, or_false] at member
  rcases member with rfl | rfl
  · refine ⟨⟨rfl,by decide,by simp [instancesOf, powershellMatch],?_,?_⟩,?_⟩
    · simp [powershellMatch, lit]
    · simp [instancesOf, powershellMatch]
    · simp [ShortIdentifiers, powershellMatch, lit]
  · refine ⟨⟨rfl,by decide,by simp [instancesOf, eicarMatch],?_,?_⟩,?_⟩
    · simp [eicarMatch, lit]
    · simp [instancesOf, eicarMatch]
    · simp [ShortIdentifiers, eicarMatch, lit]

/-- An identifier of 129 characters. -/
def longIdentifier : Text := '$' :: List.replicate 128 'a'

/-- For each finding, whether it is about a match, and what the check of the trusted side gives. -/
def checked (scan : Except YaraRulePackError YaraAnalysis) : Option (List (Bool × Option (List Text))) :=
  scan.toOption.map fun analysis => analysis.findings.map fun f =>
    (f.code == lit "YARA_PARTIAL_ANALYSIS",(validateYaraMatchMetadata f).toOption)

theorem long_identifier_rejected :
    OnManifest (eicarMatch longIdentifier) ∧ ∃ analysis,
      scanTopLevelFile {} sampleEnvironment samplePack (.ok ([eicarMatch longIdentifier],[])) = .ok analysis ∧
        ¬ ∀ f ∈ analysis.findings, Accepted f := by
  refine ⟨⟨rfl,by decide,by simp [instancesOf, eicarMatch],?_,?_⟩,?_⟩
  · simp [eicarMatch, longIdentifier]
  · simp [instancesOf, eicarMatch]
  · have rejected : checked (scanTopLevelFile {} sampleEnvironment samplePack (.ok ([eicarMatch longIdentifier],[]))) =
        some [(false,none)] := by decide +kernel
    generalize scanTopLevelFile {} sampleEnvironment samplePack (.ok ([eicarMatch longIdentifier],[])) = scan at rejected
    cases scan with
    | error e => cases rejected
    | ok analysis =>
      obtain ⟨f,single,about⟩ := List.map_eq_singleton_iff.mp (Option.some.inj rejected)
      obtain ⟨code,invalid⟩ := Prod.mk.inj about
      refine ⟨analysis,rfl,?_⟩
      intro accepted
      rcases accepted f (by simp [single]) with ⟨_,techniques,valid⟩ | ⟨partial_,_⟩
      · rw [valid] at invalid
        cases invalid
      · rw [partial_] at code
        cases code

end DocGuard.Yara
