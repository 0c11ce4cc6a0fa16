import DocGuard.Json
import DocGuard.NameSecurity

/-!
The limits of the Office analyzers, and what the worker keeps of a VBA project:
the names of its modules, and the triggers and indicators that the library finds in
their sources. The library may raise at every call.
-/
namespace DocGuard.Vba
open DocGuard.NameSecurity
open DocGuard.Json (utf8)

abbrev Bytes := List UInt8

/-! ### Limits -/

structure OfficeAnalysisLimits where
  maxZipEntries : Nat := 4096
  maxMemberNameLength : Nat := 512
  maxTotalBytesRead : Nat := 64 * 1024 * 1024
  maxMemberBytes : Nat := 8 * 1024 * 1024
  maxXmlParts : Nat := 256
  maxXmlBytes : Nat := 4 * 1024 * 1024
  maxRelationships : Nat := 2048
  maxExternalRelationships : Nat := 256
  maxEmbeddedObjects : Nat := 256
  maxActivexObjects : Nat := 256
  maxVbaProjects : Nat := 8
  maxVbaProjectBytes : Nat := 8 * 1024 * 1024
  maxVbaModules : Nat := 128
  maxVbaSourceBytes : Nat := 4 * 1024 * 1024
  maxMetadataStringLength : Nat := 256
  maxMetadataEntries : Nat := 64
  maxSelectedMaterializations : Nat := 8
  positive : ∀ value ∈ [maxZipEntries,maxMemberNameLength,maxTotalBytesRead,maxMemberBytes,maxXmlParts,maxXmlBytes,
    maxRelationships,maxExternalRelationships,maxEmbeddedObjects,maxActivexObjects,maxVbaProjects,maxVbaProjectBytes,
    maxVbaModules,maxVbaSourceBytes,maxMetadataStringLength,maxMetadataEntries,maxSelectedMaterializations],
    0 < value := by decide

def DEFAULT_OFFICE_LIMITS : OfficeAnalysisLimits := {}

/-! ### The library -/

/-- One of `_EXPECTED_ERRORS` with its name, or another exception. -/
inductive VbaError where
  | expected (name : Text)
  | other
deriving DecidableEq

/-- A module that `extract_macros` yields, and the kinds and keywords that `VBA_Scanner` finds in a source. -/
structure Module where
  name : Text
  source : Except VbaError Text
  scan : Text → Except VbaError (List (Text × Text))

/-- What `VBA_Parser` gives for a project. -/
structure Parser where
  opens : Except VbaError Unit
  detectVbaMacros : Except VbaError Bool
  /-- The number of `vba_projects`, if it is a list. -/
  vbaProjects : Option Nat
  extractMacros : List Module
  /-- What the extraction raises after these modules. -/
  extractionRaises : Option VbaError

variable (tables : UnicodeTables) (limits : OfficeAnalysisLimits)

/-! ### What is kept -/

structure VbaAnalysis where
  macroDetected : Bool := false
  projectCount : Nat := 0
  moduleCount : Nat := 0
  sourceBytesInspected : Nat := 0
  moduleNames : List Text := []
  autoexecTriggers : List Text := []
  indicatorClasses : List Text := []
  indicatorNames : List Text := []
  partialReasons : List Text := []
  parserException : Option Text := none

def _AUTOEXEC_NAMES : List Text :=
  [lit "auto_close",lit "auto_open",lit "autoclose",lit "autoexec",lit "autoexit",lit "autonew",lit "autoopen",
   lit "document_beforeclose",lit "document_close",lit "document_new",lit "document_open",lit "presentation_open",
   lit "presentation_slideshowbegin",lit "workbook_activate",lit "workbook_beforeclose",lit "workbook_close",
   lit "workbook_open",lit "worksheet_calculate"]

def _EXECUTION_INDICATORS : List (Text × Text) :=
  [(lit "cmd.exe",lit "command_shell"),
   (lit "create",lit "process_creation"),
   (lit "createobject",lit "com_object_creation"),
   (lit "encodedcommand",lit "powershell"),
   (lit "invoke-command",lit "powershell"),
   (lit "invoke-expression",lit "powershell"),
   (lit "powershell",lit "powershell"),
   (lit "run",lit "process_launch"),
   (lit "scripting.filesystemobject",lit "scripting_host"),
   (lit "shell",lit "process_launch"),
   (lit "shell.application",lit "process_launch"),
   (lit "shellexecute",lit "process_launch"),
   (lit "start-process",lit "powershell"),
   (lit "wscript.shell",lit "scripting_host")]

/-- `_safe_text`, in the form of both Office modules, which differ in the text for nothing -/
def safeTextOr (empty value : Text) (hardLimit : Nat) : Text :=
  let sanitized := (tables.normalizeNfc value).filter fun c => !BIDI_CONTROLS.contains c && !tables.isOther c
  let cut := sanitized.take (min hardLimit limits.maxMetadataStringLength)
  if cut = [] then empty else cut

/-- `_safe_text` -/
def safeText (value : Text) (hardLimit : Nat) : Text := safeTextOr tables limits (lit "unnamed") value hardLimit

/-- `keyword.casefold().strip()`; the blanks are those of `str.isspace`. -/
def normalizedKeyword (isSpace : Char → Bool) (keyword : Text) : Text :=
  (((tables.casefold keyword).dropWhile isSpace).reverse.dropWhile isSpace).reverse

/-- What a pair of a scan adds to the triggers. -/
def scanTrigger (normalized : Text) (found : Text × Text) (result : VbaAnalysis) : VbaAnalysis :=
  if found.1 = lit "AutoExec" ∧ normalized ∈ _AUTOEXEC_NAMES ∧ result.autoexecTriggers.length < limits.maxMetadataEntries then
    { result with autoexecTriggers := result.autoexecTriggers.insert (safeText tables limits found.2 128) }
  else result

/-- What a pair of a scan adds to the indicators. -/
def scanIndicator (normalized : Text) (found : Text × Text) (result : VbaAnalysis) : VbaAnalysis :=
  if found.1 ≠ lit "Suspicious" then result
  else
    match _EXECUTION_INDICATORS.lookup normalized with
    | none => result
    | some indicatorClass =>
      if result.indicatorNames.length < limits.maxMetadataEntries then
        { result with
          indicatorNames := result.indicatorNames.insert (safeText tables limits found.2 128)
          indicatorClasses := result.indicatorClasses.insert indicatorClass }
      else result

/-- One pair of a scan. -/
def scanKeyword (isSpace : Char → Bool) (result : VbaAnalysis) (found : Text × Text) : VbaAnalysis :=
  let normalized := normalizedKeyword tables isSpace found.2
  scanIndicator tables limits normalized found (scanTrigger tables limits normalized found result)

/-- `_scan_source` -/
def scanSource (isSpace : Char → Bool) (found : List (Text × Text)) (result : VbaAnalysis) : VbaAnalysis :=
  found.foldl (scanKeyword tables limits isSpace) result

/-- The characters whose bytes are within a length. -/
def fitting : Nat → Text → Text
  | _,[] => []
  | limit,c :: rest => if c.utf8Size ≤ limit then c :: fitting (limit - c.utf8Size) rest else []

def addReason (reason : Text) (result : VbaAnalysis) : VbaAnalysis :=
  { result with partialReasons := result.partialReasons.insert reason }

/-- The source of a module and its length in bytes, as far as the budget reaches. -/
def boundedSource (source : Text) (remaining : Nat) (result : VbaAnalysis) : Text × VbaAnalysis :=
  if remaining < (utf8 source).length then
    (fitting remaining source,addReason (lit "vba_source_size_limit")
      { result with sourceBytesInspected := result.sourceBytesInspected + remaining })
  else (source,{ result with sourceBytesInspected := result.sourceBytesInspected + (utf8 source).length })

/-- The loop over the modules; it ends with what is raised in it. -/
def inspectModules (isSpace : Char → Bool) (raises : Option VbaError) :
    List Module → Nat → VbaAnalysis → VbaAnalysis × Option VbaError
  | [],_,result => (result,raises)
  | m :: rest,index,result =>
    if limits.maxVbaModules ≤ index then (addReason (lit "vba_module_limit") result,none)
    else match m.source with
      | .error e => (result,some e)
      | .ok source =>
        let remaining := limits.maxVbaSourceBytes - result.sourceBytesInspected
        if remaining = 0 then (addReason (lit "vba_source_size_limit") result,none)
        else
          let (source,result) := boundedSource source remaining result
          let result := { result with
            moduleCount := result.moduleCount + 1
            moduleNames := if result.moduleNames.length < limits.maxMetadataEntries then
              result.moduleNames ++ [safeText tables limits m.name 128] else result.moduleNames }
          match m.scan source with
          | .error e => (result,some e)
          | .ok found => inspectModules isSpace raises rest (index + 1) (scanSource tables limits isSpace found result)

/-- The body of the `try` of `analyze_vba_blob`. -/
def parseProject (isSpace : Char → Bool) (parser : Parser) (result : VbaAnalysis) : VbaAnalysis × Option VbaError :=
  match parser.opens with
  | .error e => (result,some e)
  | .ok () =>
    match parser.detectVbaMacros with
    | .error e => (result,some e)
    | .ok detected =>
      let result := { result with macroDetected := detected }
      if !detected then (result,none)
      else
        let result := match parser.vbaProjects with
          | none => result
          | some count =>
            let result := { result with projectCount := max 1 count }
            if count = 0 then addReason (lit "orphan_vba_stream") result else result
        inspectModules tables limits isSpace parser.extractionRaises parser.extractMacros 0 result

/-- `analyze_vba_blob`, with the pinned versions of the libraries; nothing is returned if another exception escapes. -/
def analyzeVbaBlob (isSpace : Char → Bool) (parserOf : Bytes → Parser) (data : Bytes) : Option VbaAnalysis :=
  if limits.maxVbaProjectBytes < data.length then
    some (addReason (lit "vba_project_size_limit") { projectCount := 1 })
  else
    let unavailable (result : VbaAnalysis) : VbaAnalysis :=
      if result.macroDetected ∧ result.moduleCount = 0 then addReason (lit "vba_source_unavailable") result else result
    match parseProject tables limits isSpace (parserOf data) { projectCount := 1 } with
    | (result,none) =>
      -- Without macros the analysis returns before the last check, which then does not apply.
      some (unavailable result)
    | (result,some (.expected name)) =>
      some (unavailable (addReason (lit "vba_parser_error") { result with parserException := some name }))
    | (_,some .other) => none

end DocGuard.Vba
