import DocGuard.Checks
import DocGuard.Contract
import DocGuard.Json

/-!
The validated domain model of the trusted side: findings and analysis results as
the worker reports them, and the checks that turn the parsed fields into values.
A finding or a result carries the proof that its check succeeded.
-/
namespace DocGuard.Domain
open DocGuard.Ordered DocGuard.Checks DocGuard.Contract
open DocGuard.Json (Value)

inductive AnalysisStatus where
  | SUCCESS
  | UNSUPPORTED
  | FAILED
  | TIMEOUT
deriving DecidableEq, Repr

inductive Decision where
  | ALLOW
  | REVIEW
  | QUARANTINE
  | BLOCK
deriving DecidableEq, Repr

inductive ScanState where
  | STORED
  | ANALYZING
  | COMPLETED
  | QUARANTINED
  | FAILED
deriving DecidableEq, Repr

inductive ScanOrigin where
  | UPLOAD
  | CDR_DERIVED
deriving DecidableEq, Repr

def Decision.value : Decision → Text
  | .ALLOW => lit "ALLOW"
  | .REVIEW => lit "REVIEW"
  | .QUARANTINE => lit "QUARANTINE"
  | .BLOCK => lit "BLOCK"

/-- A point in time; `aware` when it carries a time zone. -/
structure DateTime where
  instant : Int
  aware : Bool
deriving DecidableEq, Repr

/-- Why a model rejects its fields: a declared constraint of a field, or a validator with its text. -/
inductive ValidationError where
  | constraint (field : Text)
  | invalid (message : Text)
deriving DecidableEq, Repr

/-- `min_length` and `max_length` of a text, in code points. -/
def lengthWithin (low high : Nat) (text : Text) : Prop := low ≤ text.length ∧ text.length ≤ high

instance (low high : Nat) (text : Text) : Decidable (lengthWithin low high text) := by
  unfold lengthWithin; infer_instance

def lowerHex (c : Char) : Bool := ('0' ≤ c && c ≤ '9') || ('a' ≤ c && c ≤ 'f')

/-- The value of a key of a JSON object. -/
def get (fields : List (Text × Value)) (key : Text) : Option Value :=
  (fields.find? (fun f => f.1 == key)).map (·.2)

/-- `_require_bounded_json` -/
def requireBoundedJson (fields : List (Text × Value)) (maximumBytes : Nat) (label : Text) :
    Except ValidationError Unit :=
  require (Json.size (.obj fields) ≤ maximumBytes)
    (.invalid (label ++ lit " exceeds " ++ Json.intText maximumBytes ++ lit " bytes"))

structure FindingFields where
  code : Text
  title : Text
  description : Text
  category : Text
  severity : Severity
  scoreDelta : Int
  mitreTechniques : List Text
  metadata : List (Text × Value)

/-! ### YARA metadata -/

def yaraMatchKeys : List Text :=
  [lit "rule_id",lit "rule_title",lit "rule_explanation",lit "rule_category",lit "confidence_class",
   lit "rule_pack_version",lit "rule_pack_sha256",lit "scope",lit "match_count",lit "string_ids",lit "offsets"]

def yaraPartialReasons : List Text :=
  [lit "engine_match_warning",lit "engine_warning",lit "internal_timeout",lit "match_instance_limit",
   lit "matched_rule_limit",lit "metadata_limit",lit "offset_limit",lit "scanner_error",lit "string_identifier_limit"]

/-- The key has this text as its value. -/
def isText (fields : List (Text × Value)) (key text : Text) : Bool :=
  match get fields key with
  | some (.str s) => s == text
  | _ => false

/-- The members of a JSON list of texts. -/
def texts : List Value → Option (List Text)
  | [] => some []
  | .str s :: rest => (texts rest).map (s :: ·)
  | _ :: _ => none

/-- The members of a JSON list of integers. -/
def integers : List Value → Option (List Int)
  | [] => some []
  | .int n :: rest => (integers rest).map (n :: ·)
  | _ :: _ => none

def validMatchCount : Option Value → Except ValidationError Unit
  | some (.int n) =>
    require (1 ≤ n ∧ n ≤ MAX_YARA_REPORTED_MATCH_COUNT) (.invalid (lit "YARA match count is invalid"))
  | _ => .error (.invalid (lit "YARA match count is invalid"))

def validStringIds : Option Value → Except ValidationError Unit
  | some (.arr items) => do
    require (items.length ≤ MAX_YARA_STRING_IDS_PER_FINDING)
      (.invalid (lit "YARA string identifier metadata is invalid"))
    match texts items with
    | none => .error (.invalid (lit "YARA string identifiers are invalid"))
    | some ids => do
      require (∀ id ∈ ids, id.head? = some '$' ∧ id.length ≤ 128)
        (.invalid (lit "YARA string identifiers are invalid"))
      require (ids = sortedSet ids) (.invalid (lit "YARA string identifiers are invalid"))
  | _ => .error (.invalid (lit "YARA string identifier metadata is invalid"))

def validOffsets : Option Value → Except ValidationError Unit
  | some (.arr items) => do
    require (items.length ≤ MAX_YARA_OFFSETS_PER_FINDING) (.invalid (lit "YARA offset metadata is invalid"))
    match integers items with
    | none => .error (.invalid (lit "YARA offsets are invalid"))
    | some offsets => do
      require (∀ n ∈ offsets, 0 ≤ n) (.invalid (lit "YARA offsets are invalid"))
      require (offsets = sortedSet offsets) (.invalid (lit "YARA offsets must be deterministic and unique"))
  | _ => .error (.invalid (lit "YARA offset metadata is invalid"))

/-- `_validate_yara_match_metadata`: the techniques of the matched rule. -/
def validateYaraMatchMetadata (f : FindingFields) : Except ValidationError (List Text) := do
  require (sortedSet (f.metadata.map (·.1)) = sortedSet yaraMatchKeys)
    (.invalid (lit "YARA match metadata shape is invalid"))
  match get f.metadata (lit "rule_id") with
  | some (.str ruleId) =>
    match yaraRule ruleId with
    | none => .error (.invalid (lit "unregistered YARA rule ID"))
    | some rule => do
      require (isText f.metadata (lit "rule_title") rule.title ∧
          isText f.metadata (lit "rule_explanation") rule.explanation ∧
          isText f.metadata (lit "rule_category") rule.category ∧
          isText f.metadata (lit "confidence_class") rule.confidence.value ∧
          isText f.metadata (lit "rule_pack_version") YARA_RULE_PACK_VERSION ∧
          isText f.metadata (lit "rule_pack_sha256") YARA_RULE_PACK_SHA256 ∧
          isText f.metadata (lit "scope") (lit "TOP_LEVEL"))
        (.invalid (lit "YARA metadata does not match the trusted rule registry"))
      require (f.code = rule.findingCode ∧ f.severity = rule.severity)
        (.invalid (lit "YARA finding class does not match the trusted rule registry"))
      validMatchCount (get f.metadata (lit "match_count"))
      validStringIds (get f.metadata (lit "string_ids"))
      validOffsets (get f.metadata (lit "offsets"))
      pure rule.mitreTechniques
  | _ => .error (.invalid (lit "unregistered YARA rule ID"))

/-- `_validate_yara_partial_metadata` -/
def validateYaraPartialMetadata (metadata : List (Text × Value)) : Except ValidationError Unit := do
  require (sortedSet (metadata.map (·.1)) = sortedSet [lit "reasons",lit "rule_pack_version",lit "rule_pack_sha256"])
    (.invalid (lit "YARA partial metadata shape is invalid"))
  require (isText metadata (lit "rule_pack_version") YARA_RULE_PACK_VERSION ∧
      isText metadata (lit "rule_pack_sha256") YARA_RULE_PACK_SHA256)
    (.invalid (lit "YARA partial metadata has an untrusted rule-pack identity"))
  match get metadata (lit "reasons") with
  | some (.arr items) =>
    match texts items with
    | none => .error (.invalid (lit "YARA partial reasons are invalid"))
    | some reasons => do
      require (reasons ≠ [] ∧ reasons.length ≤ yaraPartialReasons.length ∧ ∀ r ∈ reasons, r ∈ yaraPartialReasons)
        (.invalid (lit "YARA partial reasons are invalid"))
      require (reasons = sortedSet reasons) (.invalid (lit "YARA partial reasons are invalid"))
  | _ => .error (.invalid (lit "YARA partial reasons are invalid"))

/-! ### Findings and results -/

def yaraMatchCodes : List Text := [lit "YARA_TEST_SIGNATURE",lit "YARA_SIGNATURE_MATCH",lit "YARA_HEURISTIC_MATCH"]

def codeCharacter (c : Char) : Bool := ('A' ≤ c && c ≤ 'Z') || ('0' ≤ c && c ≤ '9') || c == '_'

/-- The techniques that a finding has to name, once the metadata of its class is checked. -/
def expectedMitre (f : FindingFields) (definition : FindingDefinition) : Except ValidationError (List Text) :=
  if f.code ∈ yaraMatchCodes then validateYaraMatchMetadata f
  else if f.code = lit "YARA_PARTIAL_ANALYSIS" then do
    validateYaraPartialMetadata f.metadata
    pure definition.mitreTechniques
  else .ok definition.mitreTechniques

/-- `Finding.require_registered_product_metadata` -/
def requireRegisteredProductMetadata (f : FindingFields) : Except ValidationError Unit :=
  match findingDefinition f.code with
  | none => .error (.invalid (lit "unregistered finding code: " ++ f.code))
  | some definition => do
    let mitre ← expectedMitre f definition
    require (f.title = definition.title ∧ f.description = definition.description ∧
        f.severity = definition.defaultSeverity ∧ f.category = definition.category ∧ f.mitreTechniques = mitre)
      (.invalid (lit "finding metadata does not match registry: " ++ f.code))

/-- The checks of `Finding`: the declared constraints, the field validators, the registry. -/
def validateFinding (f : FindingFields) : Except ValidationError Unit := do
  require (lengthWithin 1 128 f.code ∧ f.code.all codeCharacter) (.constraint (lit "code"))
  require (lengthWithin 1 200 f.title) (.constraint (lit "title"))
  require (lengthWithin 1 2000 f.description) (.constraint (lit "description"))
  require (lengthWithin 1 100 f.category) (.constraint (lit "category"))
  require (-100 ≤ f.scoreDelta ∧ f.scoreDelta ≤ 100) (.constraint (lit "score_delta"))
  require (f.scoreDelta = 0) (.invalid (lit "worker findings cannot supply policy score"))
  require (∀ m ∈ f.mitreTechniques, m ≠ [] ∧ m.length ≤ 32)
    (.invalid (lit "MITRE technique identifiers must be 1-32 characters"))
  requireBoundedJson f.metadata MAX_FINDING_METADATA_BYTES (lit "finding metadata")
  requireRegisteredProductMetadata f

structure ResultFields where
  schemaVersion : Text
  workerVersion : Text
  status : AnalysisStatus
  detectedType : Option Text
  sizeBytes : Int
  findings : List FindingFields
  analyzerMetadata : List (Text × Value)
  startedAt : DateTime
  completedAt : DateTime
  durationMs : Int

/-- The checks of `AnalysisResult`, those of its findings included. -/
def validateResult (r : ResultFields) : Except ValidationError Unit := do
  require (r.schemaVersion = ANALYSIS_SCHEMA_VERSION)
    (.invalid (lit "unsupported schema version: " ++ r.schemaVersion))
  require (lengthWithin 1 64 r.workerVersion) (.constraint (lit "worker_version"))
  require (∀ t ∈ r.detectedType, t.length ≤ 200) (.constraint (lit "detected_type"))
  require (0 ≤ r.sizeBytes) (.constraint (lit "size_bytes"))
  require (r.findings.length ≤ MAX_FINDINGS_PER_ANALYSIS) (.constraint (lit "findings"))
  forAll validateFinding r.findings
  requireBoundedJson r.analyzerMetadata MAX_ANALYZER_METADATA_BYTES (lit "analyzer metadata")
  require (r.startedAt.aware ∧ r.completedAt.aware) (.invalid (lit "timestamps must be timezone-aware"))
  require (0 ≤ r.durationMs) (.constraint (lit "duration_ms"))
  require (r.startedAt.instant ≤ r.completedAt.instant) (.invalid (lit "completed_at must not precede started_at"))

/-- A validated result: only fields that pass every check make one. -/
structure AnalysisResult extends ResultFields where
  valid : validateResult toResultFields = .ok ()

/-- `AnalysisResult.model_validate` on parsed fields. -/
def AnalysisResult.modelValidate (r : ResultFields) : Except ValidationError AnalysisResult :=
  match checked : validateResult r with
  | .ok () => .ok ⟨r,checked⟩
  | .error e => .error e

theorem registered_code {f : FindingFields} (registered : requireRegisteredProductMetadata f = .ok ()) :
    f.code ∈ knownCodes := by
  unfold requireRegisteredProductMetadata at registered
  split at registered
  · cases registered
  · exact findingDefinition_mem ‹_›

theorem validFinding_code {f : FindingFields} (valid : validateFinding f = .ok ()) : f.code ∈ knownCodes := by
  simp only [validateFinding,requireBoundedJson,require_bind_ok] at valid
  exact registered_code valid.2.2.2.2.2.2.2.2

theorem AnalysisResult.findings_valid (r : AnalysisResult) {f : FindingFields} (member : f ∈ r.findings) :
    validateFinding f = .ok () := by
  have valid := r.valid
  simp only [validateResult,require_bind_ok] at valid
  obtain ⟨_,checked,_⟩ := bind_ok.mp valid.2.2.2.2.2
  exact forAll_ok.mp checked f member

/-- Every finding of a validated result has a registered code. -/
theorem AnalysisResult.code_known (r : AnalysisResult) {f : FindingFields} (member : f ∈ r.findings) :
    f.code ∈ knownCodes :=
  validFinding_code (r.findings_valid member)

end DocGuard.Domain
