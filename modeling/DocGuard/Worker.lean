import DocGuard.ArchiveEvidence
import DocGuard.Decisions
import DocGuard.DisplayNames
import DocGuard.Ooxml
import DocGuard.Orchestrator
import DocGuard.Sanitizer
import DocGuard.Yara

/-!
One analysis by the worker, from the request to the result that it writes: the
content is identified, its name is checked, one structural analyzer is chosen by
what was identified, and the rules are matched. What the policy releases of the
results has been analyzed completely on its way.
-/
namespace DocGuard.Worker
open DocGuard.Archive (Bytes FileFamily)
open DocGuard.Checks DocGuard.Contract DocGuard.Domain DocGuard.Findings DocGuard.NameSecurity
open DocGuard.Json (Value)
open DocGuard.Sanitizer (Floats WorkerRequest parseRequest requestFields validateRequest)

/-! ### Identification -/

def familyValue : FileFamily → Text
  | .PDF => lit "PDF"
  | .ZIP => lit "ZIP"
  | .OOXML_CANDIDATE => lit "OOXML_CANDIDATE"
  | .OLE_COMPOUND => lit "OLE_COMPOUND"
  | .WINDOWS_EXECUTABLE => lit "WINDOWS_EXECUTABLE"
  | .TEXT => lit "TEXT"
  | .UNKNOWN => lit "UNKNOWN"

structure FileIdentification where
  mime : Text
  family : FileFamily
  description : Text

def FileIdentification.supported (identification : FileIdentification) : Bool := identification.family ≠ .UNKNOWN

/-- How a run of `/usr/bin/file` ends; the output is the decoded text of its first bytes, without the blanks around it. -/
inductive FileRun where
  /-- It cannot be started, or takes too long. -/
  | raised
  | ended (returncode : Int) (output : Text)

/-- `_run_file`; the result is none for an `IdentificationError`. -/
def runFile : FileRun → Option Text
  | .raised => none
  | .ended returncode output => if returncode ≠ 0 then none else if output = [] then none else some output

def oleMarkers : List Text := [lit "composite document file",lit "cdfv2 "]
def ooxmlMarkers : List Text := [lit "microsoft word 2007+",lit "microsoft excel 2007+",lit "microsoft powerpoint 2007+"]

/-- `_classify` -/
def classify (tables : UnicodeTables) (mime description : Text) : FileFamily :=
  let mime := tables.casefold mime
  let description := tables.casefold description
  let mentions (marker : Text) : Bool := Ooxml.occursIn marker description
  if mime = lit "application/pdf" ∨ mentions (lit "pdf document") then .PDF
  else if mime ∈ [lit "application/vnd.microsoft.portable-executable",lit "application/x-dosexec"] ∨
      [lit "pe32",lit "pe ",lit "ms-dos executable"].any fun start => Text.startsWith description start then
    .WINDOWS_EXECUTABLE
  else if mime ∈ [lit "application/msword",lit "application/encrypted",lit "application/vnd.ms-excel",
      lit "application/vnd.ms-powerpoint",lit "application/x-ole-storage"] ∨ oleMarkers.any mentions then
    .OLE_COMPOUND
  else if Ooxml.occursIn (lit "officedocument") mime ∨ ooxmlMarkers.any mentions then .OOXML_CANDIDATE
  else if mime ∈ [lit "application/zip",lit "application/x-zip"] ∨ mentions (lit "zip archive") then .ZIP
  else if Text.startsWith mime (lit "text/") ∨ Text.endsWith description (lit " text") then .TEXT
  else .UNKNOWN

/-- `identify_file`; the result is none for an `IdentificationError`. -/
def identifyFile (tables : UnicodeTables) (mimeRun descriptionRun : FileRun) : Option FileIdentification := do
  let mime ← runFile mimeRun
  let description ← runFile descriptionRun
  return ⟨mime,classify tables mime description,description⟩

/-! ### The name of the file -/

/-- `_EXPECTED_FAMILIES` -/
def _EXPECTED_FAMILIES : List (Text × List FileFamily) :=
  [(lit "pdf",[.PDF]),
   (lit "doc",[.OLE_COMPOUND]),
   (lit "xls",[.OLE_COMPOUND]),
   (lit "ppt",[.OLE_COMPOUND]),
   (lit "docx",[.ZIP,.OOXML_CANDIDATE]),
   (lit "docm",[.ZIP,.OOXML_CANDIDATE]),
   (lit "xlsx",[.ZIP,.OOXML_CANDIDATE]),
   (lit "xlsm",[.ZIP,.OOXML_CANDIDATE]),
   (lit "pptx",[.ZIP,.OOXML_CANDIDATE]),
   (lit "pptm",[.ZIP,.OOXML_CANDIDATE]),
   (lit "zip",[.ZIP]),
   (lit "txt",[.TEXT]),
   (lit "csv",[.TEXT]),
   (lit "rtf",[.TEXT])]

/-- A text, or `null`. -/
def optionalText (text : Option Text) : Value := (text.map Value.str).getD .null

/-- `_normalized_mime` -/
def normalizedMime (tables : UnicodeTables) (value : Option Text) : Option Text := do
  let value ← value
  let normalized := tables.casefold (DisplayNames.strip (value.takeWhile (· ≠ ';')))
  if normalized = [] then none else some normalized

/-- The codes of the findings about the name and the claimed type. -/
theorem name_codes : ∀ code ∈ [lit "FILE_DOUBLE_EXTENSION",lit "FILE_BIDI_OVERRIDE",lit "FILE_TYPE_MISMATCH",
    lit "FILE_EXECUTABLE_MASQUERADE",lit "FILE_CLIENT_MIME_MISMATCH"], (findingDefinition code).isSome := by decide +kernel

/-- `security_findings` -/
def securityFindings (tables : UnicodeTables) (filename : Text) (identification : FileIdentification)
    (claimedContentType : Option Text) : List FindingFields :=
  let extension := finalExtension tables filename
  let observedBidi := bidiCodepoints filename 16
  let expected := _EXPECTED_FAMILIES.lookup (extension.getD [])
  let normalizedClaim := normalizedMime tables claimedContentType
  (if hasDangerousDoubleExtension tables filename then
    [findingPayload (lit "FILE_DOUBLE_EXTENSION") [(lit "final_extension",optionalText extension)]
      (name_codes _ (by simp))] else []) ++
  (if observedBidi ≠ [] then
    [findingPayload (lit "FILE_BIDI_OVERRIDE") [(lit "codepoints",.arr (observedBidi.map .str))]
      (name_codes _ (by simp))] else []) ++
  (if expected.any fun families => !families.contains identification.family then
    [findingPayload (lit "FILE_TYPE_MISMATCH")
      [(lit "claimed_extension",optionalText extension),
       (lit "observed_family",.str (familyValue identification.family))] (name_codes _ (by simp))] else []) ++
  (if identification.family = .WINDOWS_EXECUTABLE ∧ extension.any BUSINESS_EXTENSIONS.contains then
    [findingPayload (lit "FILE_EXECUTABLE_MASQUERADE") [(lit "claimed_extension",optionalText extension)]
      (name_codes _ (by simp))] else []) ++
  (if normalizedClaim.any fun claim =>
      claim != lit "application/octet-stream" && claim != tables.casefold identification.mime then
    [findingPayload (lit "FILE_CLIENT_MIME_MISMATCH")
      [(lit "claimed_content_type",optionalText normalizedClaim),
       (lit "observed_mime",.str identification.mime)] (name_codes _ (by simp))] else [])

/-! ### The analyzers -/

/-- What an analyzer of a document returns. -/
structure Analysis where
  findings : List FindingFields
  metadata : Metadata
  complete : Bool
  detectedType : Text

/-- An exception, as far as the handlers of `main` tell them apart. -/
inductive Escaped where
  /-- An `OSError`, a `UnicodeError` or a `ValueError`. -/
  | handled
  | other
deriving DecidableEq

/-- What one analysis takes from its surroundings. -/
structure Environment where
  tables : UnicodeTables
  /-- `/usr/bin/file` with `--mime-type`, and without it. -/
  mimeRun : FileRun
  descriptionRun : FileRun
  /-- The bytes at the path of the sample, unless `stat` fails. -/
  content : Option Bytes
  /-- `analyze_pdf`, whose detected type is that of the family. -/
  analyzePdf : Bytes → Except Escaped Analysis
  analyzeOleOffice : Bytes → Except Escaped (Option Analysis)
  office : Ooxml.Library
  archive : Archive.Library
  /-- The rules, unless `compile_rule_pack` raises. -/
  pack : Option Yara.CompiledRulePack
  engine : Yara.Engine
  yara : Yara.Environment
  startedAt : Int
  completedAt : Int
  startedNs : Int
  completedNs : Int

/-- What of `analyze_ooxml` escapes; a limit and an error of the XML parser do not. -/
def officeEscaped : Ooxml.Raised → Escaped
  | .valueError | .library .OSError | .library .UnicodeDecodeError => .handled
  | _ => .other

def archiveEscaped : Archive.Failure → Escaped
  | .escaped (.library .OSError) | .escaped (.library .UnicodeDecodeError) => .handled
  | _ => .other

/-- `analysis.detected_type` of an OOXML package -/
def packageType (application : Ooxml.OfficeApplication) : Text := lit "OFFICE_" ++ application.value ++ lit "_OOXML"

variable (env : Environment)

/-- `_run_office_analysis` -/
def runOfficeAnalysis (content : Bytes) (family : FileFamily) : Except Escaped (Option Analysis) :=
  if family = .OLE_COMPOUND then env.analyzeOleOffice content
  else
    match Ooxml.analyzeOoxml env.office Vba.DEFAULT_OFFICE_LIMITS content with
    | .error raised => .error (officeEscaped raised)
    | .ok none => .ok none
    | .ok (some analysis) =>
      .ok (some ⟨analysis.findings,analysis.metadata,analysis.parserStatus = .COMPLETE,packageType analysis.application⟩)

/-- `_run_archive_analysis` -/
def runArchiveAnalysis (content : Bytes) (family : FileFamily) : Except Escaped Analysis :=
  match Archive.analyzeArchive env.archive Archive.DEFAULT_ARCHIVE_LIMITS family (some content) with
  | .error failure => .error (archiveEscaped failure)
  | .ok analysis => .ok ⟨analysis.findings,analysis.metadata,analysis.status = .COMPLETE,familyValue .ZIP⟩

/-- The defaults of `YaraScanLimits`. -/
def DEFAULT_YARA_LIMITS : Yara.YaraScanLimits := {}

/-- `_run_yara_analysis` -/
def runYaraAnalysis : Except Escaped Yara.YaraAnalysis :=
  match env.pack with
  | none => .error .other
  | some pack => (Yara.scanTopLevelFile DEFAULT_YARA_LIMITS env.yara pack env.engine).mapError fun _ => .other

/-- What the analysis of the structure gives, with its entry of the metadata. -/
structure Structural where
  findings : List FindingFields := []
  entry : Metadata := []
  complete : Bool := true
  detectedType : Text

/-- The result of an analyzer, under its key. -/
def Analysis.structural (key : Text) (analysis : Analysis) : Structural :=
  ⟨analysis.findings,[(key,.obj analysis.metadata)],analysis.complete,analysis.detectedType⟩

/-- The part of `main` that chooses an analyzer by the family. -/
def analyzeStructure (content : Bytes) (family : FileFamily) : Except Escaped Structural :=
  match family with
  | .PDF => do
    let analysis ← env.analyzePdf content
    return { analysis.structural (lit "pdf") with detectedType := familyValue family }
  | .ZIP | .OOXML_CANDIDATE => do
    match ← runOfficeAnalysis env content family with
    | some analysis => return analysis.structural (lit "office")
    | none => return (← runArchiveAnalysis env content family).structural (lit "archive")
  | .OLE_COMPOUND => do
    match ← runOfficeAnalysis env content family with
    | some analysis => return analysis.structural (lit "office")
    | none => return { detectedType := familyValue family }
  | .WINDOWS_EXECUTABLE | .TEXT | .UNKNOWN => return { detectedType := familyValue family }

/-! ### The result -/

def WORKER_VERSION : Text := lit "0.8.0"

/-- `duration_ms` -/
def durationMs : Int := max 0 ((env.completedNs - env.startedNs) / 1000000)

def analysisStatus (identification : FileIdentification) (structural : Structural) (rules : Yara.YaraAnalysis) :
    AnalysisStatus :=
  if structural.complete = false ∨ rules.parserStatus ≠ .COMPLETE then .FAILED
  else if identification.supported then .SUCCESS
  else .UNSUPPORTED

/-- The result of an analysis. -/
def resultFields (content : Bytes) (identification : FileIdentification) (filename : Text) (claimed : Option Text)
    (structural : Structural) (rules : Yara.YaraAnalysis) : ResultFields where
  schemaVersion := ANALYSIS_SCHEMA_VERSION
  workerVersion := WORKER_VERSION
  status := analysisStatus identification structural rules
  detectedType := some structural.detectedType
  sizeBytes := content.length
  findings := securityFindings env.tables filename identification claimed ++ structural.findings ++ rules.findings
  analyzerMetadata :=
    [(lit "analyzer",.str (lit "libmagic-file")),
     (lit "detected_mime",.str identification.mime),
     (lit "signature_description",.str identification.description),
     (lit "claimed_extension",optionalText (finalExtension env.tables filename))] ++
    structural.entry ++ [(lit "yara",.obj rules.metadata)]
  startedAt := ⟨env.startedAt,true⟩
  completedAt := ⟨env.completedAt,true⟩
  durationMs := durationMs env

/-- The result after an `IdentificationError`. -/
def unidentified (content : Bytes) : ResultFields where
  schemaVersion := ANALYSIS_SCHEMA_VERSION
  workerVersion := WORKER_VERSION
  status := .FAILED
  detectedType := none
  sizeBytes := content.length
  findings := []
  analyzerMetadata :=
    [(lit "analyzer",.str (lit "libmagic-file")),(lit "error_code",.str (lit "file_identification_failed"))]
  startedAt := ⟨env.startedAt,true⟩
  completedAt := ⟨env.completedAt,true⟩
  durationMs := durationMs env

/-- The analysis of identified content. -/
def analyzeIdentified (content : Bytes) (identification : FileIdentification) (filename : Text)
    (claimed : Option Text) : Except Escaped ResultFields := do
  let structural ← analyzeStructure env content identification.family
  let rules ← runYaraAnalysis env
  return resultFields env content identification filename claimed structural rules

/-- How the process of the worker ends. -/
inductive Ending where
  /-- With the result of an analysis on its output, and status 0. -/
  | analyzed (fields : ResultFields)
  /-- As `sanitize_pdf` does. -/
  | sanitizes
  | escaped (e : Escaped)

/-- `request.get("original_filename", "unnamed-document")`, if it is a text. -/
def requestFilename (request : Metadata) : Option Text :=
  match get request (lit "original_filename") with
  | none => some (lit "unnamed-document")
  | some (.str filename) => some filename
  | some _ => none

/-- `request.get("claimed_content_type")`, if it is a text or nothing. -/
def requestContentType (request : Metadata) : Option (Option Text) :=
  match get request (lit "claimed_content_type") with
  | none | some .null => some none
  | some (.str claimed) => some (some claimed)
  | some _ => none

/-- The part of `main` behind the operation; `none` stands for a name or a content type of another type. -/
def analyzeSample (filename : Option Text) (claimed : Option (Option Text)) : Ending :=
  match env.content with
  | none => .escaped .handled
  | some content =>
    match identifyFile env.tables env.mimeRun env.descriptionRun,filename,claimed with
    | none,_,_ => .analyzed (unidentified env content)
    | some identification,some filename,some claimed =>
      match analyzeIdentified env content identification filename claimed with
      | .ok fields => .analyzed fields
      | .error e => .escaped e
    | some _,_,_ => .escaped .handled

variable (floats : Floats)

/-- `main`, for the text on its input -/
def main (raw : Text) : Ending :=
  match parseRequest floats raw with
  | .error _ => .escaped .handled
  | .ok request =>
    let operation := (get request (lit "operation")).getD (.str (lit "ANALYZE"))
    if operation = .str (lit "SANITIZE_PDF") then .sanitizes
    else if operation ≠ .str (lit "ANALYZE") then .escaped .handled
    else analyzeSample env (requestFilename request) (requestContentType request)

/-- How the sandbox runs the worker. -/
inductive Isolation where
  | unavailable
  | ran (timedOut outputLimitExceeded : Bool)

/-- What the trusted side sees of the end of the worker. -/
def execution (isolation : Isolation) (ending : Ending) : Orchestrator.Execution AnalysisResult :=
  match isolation,ending with
  | .unavailable,_ => .isolationError
  | .ran timedOut outputLimitExceeded,.analyzed fields =>
    .ended timedOut outputLimitExceeded 0 (AnalysisResult.modelValidate fields)
  -- A report of a rendering has keys that a result has not.
  | .ran timedOut outputLimitExceeded,.sanitizes =>
    .ended timedOut outputLimitExceeded 0 (.error (.invalid (lit "extra_forbidden")))
  | .ran timedOut outputLimitExceeded,.escaped e =>
    .ended timedOut outputLimitExceeded (if e = .handled then 2 else 1) (.error (.invalid (lit "json_invalid")))

end DocGuard.Worker
