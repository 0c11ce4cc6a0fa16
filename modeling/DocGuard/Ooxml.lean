import DocGuard.Archive
import DocGuard.Vba

/-!
The inspection of an OOXML package: its content types, its relationships and its
VBA projects. The libraries that open the package, parse XML and split URLs are
parameters; the pinned version of the XML parser is installed.
-/
namespace DocGuard.Ooxml
open DocGuard.Commands DocGuard.Contract DocGuard.Domain DocGuard.Findings DocGuard.NameSecurity DocGuard.Ordered DocGuard.Vba
open DocGuard.Archive (Container Exn Member ZipInfo)
open DocGuard.Json (Value)

/-! ### The libraries -/

/-- An element, with its namespace in its tag. -/
inductive Element where
  | mk (tag : Text) (attrib : List (Text × Text)) (children : List Element)

namespace Element

def tag : Element → Text
  | .mk tag _ _ => tag

def children : Element → List Element
  | .mk _ _ children => children

/-- `str(element.attrib.get(name, ""))` -/
def attr (name : Text) : Element → Text
  | .mk _ attrib _ => (attrib.lookup name).getD []

end Element

/-- What the XML parser raises. -/
inductive XmlError where
  /-- A `ParseError`, a `DefusedXmlException` or a `ValueError`, by the name of its class. -/
  | named (name : Text)
  /-- Another exception, as the `LookupError` for an encoding that is not known. -/
  | other
deriving DecidableEq

structure Library where
  tables : UnicodeTables
  /-- `str.isspace` of a character -/
  isSpace : Char → Bool
  zipFile : Bytes → Except Exn Container
  /-- `SafeElementTree.fromstring(data)` -/
  fromString : Bytes → Except XmlError Element
  /-- Scheme and hostname, unless `urlsplit` raises. -/
  urlsplit : Text → Option (Text × Option Text)
  vbaParser : Bytes → Parser

/-! ### Constants -/

def _CONTENT_TYPES_PART : Text := lit "[Content_Types].xml"
def _ROOT_RELATIONSHIPS_PART : Text := lit "_rels/.rels"
def _CONTENT_TYPES_NAMESPACE : Text := lit "http://schemas.openxmlformats.org/package/2006/content-types"
def _RELATIONSHIPS_NAMESPACE : Text := lit "http://schemas.openxmlformats.org/package/2006/relationships"

/-- `f"{{{namespace}}}{name}"` -/
def qualified (namespace_ name : Text) : Text := '{' :: namespace_ ++ '}' :: name

inductive OfficeApplication where
  | WORD
  | EXCEL
  | POWERPOINT
  | UNKNOWN
deriving DecidableEq

def OfficeApplication.value : OfficeApplication → Text
  | .WORD => lit "WORD"
  | .EXCEL => lit "EXCEL"
  | .POWERPOINT => lit "POWERPOINT"
  | .UNKNOWN => lit "UNKNOWN"

/-- `_APPLICATION_PATHS` -/
def applicationPath : OfficeApplication → Option Text
  | .WORD => some (lit "word/document.xml")
  | .EXCEL => some (lit "xl/workbook.xml")
  | .POWERPOINT => some (lit "ppt/presentation.xml")
  | .UNKNOWN => none

/-- `_APPLICATION_MARKERS` -/
def applicationMarkers : OfficeApplication → List Text
  | .WORD => [lit "wordprocessingml",lit "vnd.ms-word"]
  | .EXCEL => [lit "spreadsheetml",lit "vnd.ms-excel"]
  | .POWERPOINT => [lit "presentationml",lit "vnd.ms-powerpoint"]
  | .UNKNOWN => []

/-- `_VBA_PATHS` -/
def vbaPath : OfficeApplication → Option Text
  | .WORD => some (lit "word/vbaProject.bin")
  | .EXCEL => some (lit "xl/vbaProject.bin")
  | .POWERPOINT => some (lit "ppt/vbaProject.bin")
  | .UNKNOWN => none

def _EMBEDDING_PREFIXES : List Text := [lit "word/embeddings/",lit "xl/embeddings/",lit "ppt/embeddings/"]
def _ACTIVEX_PREFIXES : List Text := [lit "word/activeX/",lit "xl/activeX/",lit "ppt/activeX/"]

/-! ### State -/

/-- `_State` -/
structure State where
  application : OfficeApplication := .UNKNOWN
  entryCount : Nat := 0
  bytesRead : Nat := 0
  xmlPartsParsed : Nat := 0
  xmlBytesParsed : Nat := 0
  relationshipCount : Nat := 0
  externalRelationshipCount : Nat := 0
  externalSummaries : List Value := []
  externalSummaryCapped : Bool := false
  externalTemplateCount : Nat := 0
  externalTemplateSummaries : List Value := []
  embeddedObjectCount : Nat := 0
  activexCount : Nat := 0
  macroEnabled : Bool := false
  vbaProjectCount : Nat := 0
  encrypted : Bool := false
  malformed : Bool := false
  parserException : Option Text := none
  partialReasons : List Text := []
  vba : VbaAnalysis := {}
  /-- The members whose bytes were passed to `analyze_vba_blob`, for statements about runs; no step reads it. -/
  passed : List (Text × Bytes) := []
  /-- Whether `zipfile` or the XML parser has raised, for statements about runs; no step reads it. -/
  raised : Bool := false

inductive Raised where
  /-- `OfficeLimitError` -/
  | limit (reason : Text)
  | valueError
  /-- A `ParseError`, a `DefusedXmlException` or a `ValueError` of the XML parser. -/
  | xml (name : Text)
  | library (e : Exn)
  /-- Another exception of the XML parser, or what `analyze_vba_blob` does not expect. -/
  | other
deriving DecidableEq

def XmlError.raised : XmlError → Raised
  | .named name => .xml name
  | .other => .other

abbrev Inspection := Command State Raised

/-- The entries by their names, which are distinct. -/
abbrev Members := List ZipInfo

def Members.names (members : Members) : List Text := members.map ZipInfo.filename

def Members.get (members : Members) (name : Text) : Option ZipInfo := members.find? fun info => info.filename == name

variable (lib : Library) (limits : OfficeAnalysisLimits)

/-- `state.partial` -/
def State.markPartial (reason : Text) (s : State) : State := { s with partialReasons := s.partialReasons.insert reason }

/-- `state.malformed_part` -/
def State.malformedPart (reason : Text) (e : Option Text) (s : State) : State :=
  { s.markPartial reason with
    malformed := true
    parserException := e.orElse fun _ => s.parserException }

/-! ### Members -/

/-- A call of a library. -/
def call {ε α : Type} (wrap : ε → Raised) : Except ε α → Inspection α
  | .ok a => pure a
  | .error e => do
    Command.update fun s => { s with raised := true }
    Command.raise (wrap e)

def library {α : Type} (result : Except Exn α) : Inspection α := call .library result

/-- The loop of `_read_member`; every turn but the last reads at least one byte. -/
def readChunks (member : Member) (memberLimit : Nat) : Nat → Bytes → Inspection Bytes
  | 0,data => pure data
  | turns+1,data => do
    let chunk ← library (member.read data.length (min 65536 (memberLimit + 1 - data.length)))
    if chunk = [] then pure data
    else do
      Command.update fun s => { s with bytesRead := s.bytesRead + chunk.length }
      let s ← Command.observe id
      if memberLimit < (data ++ chunk).length then Command.raise (.limit (lit "member_actual_byte_limit"))
      else if limits.maxTotalBytesRead < s.bytesRead then Command.raise (.limit (lit "total_actual_byte_limit"))
      else readChunks member memberLimit turns (data ++ chunk)

/-- `archive.open(info, mode="r")` -/
def openMember (member : Member) : Except Exn Unit :=
  match member.openRaises with
  | some e => .error e
  | none => .ok ()

def openAndRead (member : Member) (memberLimit : Nat) : Inspection Bytes := do
  library (openMember member)
  readChunks limits member memberLimit (member.content.length + 1) []

/-- `isinstance(exc, RuntimeError)` -/
def Raised.isRuntimeError : Raised → Bool
  | .limit _ | .library .RuntimeError | .library .NotImplementedError => true
  | _ => false

/-- `except RuntimeError` of `_read_member` -/
def onRuntimeError (info : ZipInfo) (e : Raised) : Inspection Bytes :=
  if e.isRuntimeError && info.isEncrypted then do
    Command.update fun s => { s with encrypted := true }
    Command.raise (.limit (lit "encrypted_zip_member"))
  else Command.raise e

/-- `_read_member` -/
def readMember (members : Members) (name : Text) (maximumBytes : Nat) : Inspection Bytes :=
  match members.get name with
  | none => Command.raise .valueError
  | some info =>
    Command.except (openAndRead limits info.member (min maximumBytes limits.maxMemberBytes)) (onRuntimeError info)

/-- `_read_xml` of a part that is there -/
def readXmlPart (members : Members) (name : Text) : Inspection Element := do
  let s ← Command.observe id
  if limits.maxXmlParts ≤ s.xmlPartsParsed then Command.raise (.limit (lit "xml_part_limit"))
  else if limits.maxXmlBytes ≤ s.xmlBytesParsed then Command.raise (.limit (lit "xml_actual_byte_limit"))
  else do
    let data ← readMember limits members name (min (limits.maxXmlBytes - s.xmlBytesParsed) limits.maxMemberBytes)
    Command.update fun s => { s with
      xmlPartsParsed := s.xmlPartsParsed + 1
      xmlBytesParsed := s.xmlBytesParsed + data.length }
    call XmlError.raised (lib.fromString data)

/-- `_read_xml(..., required=True)` -/
def readRequiredXml (members : Members) (name : Text) : Inspection (Option Element) :=
  if name ∈ members.names then do
    let root ← readXmlPart lib limits members name
    return some root
  else do
    Command.update (State.malformedPart (lit "required_xml_part_missing") none)
    return none

/-! ### Content types -/

/-- `overrides[name] = type` -/
def setType (name type : Text) : List (Text × Text) → List (Text × Text)
  | [] => [(name,type)]
  | entry :: rest => if entry.1 = name then (name,type) :: rest else entry :: setType name type rest

/-- The loop of `_content_type_overrides`. -/
def collectOverrides : List Element → List (Text × Text) → Inspection (List (Text × Text))
  | [],overrides => pure overrides
  | element :: rest,overrides =>
    if element.tag ≠ qualified _CONTENT_TYPES_NAMESPACE (lit "Override") then collectOverrides rest overrides
    else
      let partName := (element.attr (lit "PartName")).dropWhile (· = '/')
      let contentType := element.attr (lit "ContentType")
      if partName = [] ∨ contentType = [] then Command.raise .valueError
      else do
        if (overrides.lookup partName).any (· ≠ contentType) then
          Command.update (State.malformedPart (lit "ambiguous_content_type") none)
        collectOverrides rest (setType partName contentType overrides)

/-- `_content_type_overrides` -/
def contentTypeOverrides (root : Element) : Inspection (List (Text × Text)) :=
  if root.tag ≠ qualified _CONTENT_TYPES_NAMESPACE (lit "Types") then Command.raise .valueError
  else collectOverrides root.children []

/-- `needle in text` -/
def occursIn (needle text : Text) : Bool := decide (needle <:+: text)

/-- `overrides.get(expected_path, "").casefold()` -/
def mainType (overrides : List (Text × Text)) (application : OfficeApplication) : Text :=
  lib.tables.casefold (((applicationPath application).bind fun path => overrides.lookup path).getD [])

/-- An application with its main part, of one of its types. -/
def isCandidate (overrides : List (Text × Text)) (members : Members) (application : OfficeApplication) : Bool :=
  (applicationPath application).any (members.names.contains ·) &&
    (applicationMarkers application).any fun marker => occursIn marker (mainType lib overrides application)

/-- `_classify_package` -/
def classifyPackage (overrides : List (Text × Text)) (members : Members) (s : State) : State :=
  match [OfficeApplication.WORD,.EXCEL,.POWERPOINT].filter (isCandidate lib overrides members) with
  | [application] => { s with
      application := application
      macroEnabled := occursIn (lit "macroenabled") (mainType lib overrides application) }
  | _ => s

/-! ### Relationships -/

/-- `str(PurePosixPath(text))` -/
def purePosixPath (text : Text) : Text :=
  let root := if Text.startsWith text (lit "///") then lit "/" else
    if Text.startsWith text (lit "//") then lit "//" else if Text.startsWith text (lit "/") then lit "/" else []
  let pieces := (text.splitOn '/').filter fun piece => piece ≠ [] ∧ piece ≠ ['.']
  let path := root ++ ['/'].intercalate pieces
  if path = [] then lit "." else path

/-- `_safe_text` -/
def safeText (value : Text) (hardLimit : Nat) : Text := safeTextOr lib.tables limits (lit "unknown") value hardLimit

/-- `text.rsplit("/", 1)[-1]` -/
def lastSegment (text : Text) : Text := (text.reverse.takeWhile (· ≠ '/')).reverse

/-- `text[-n:]` -/
def lastChars (n : Nat) (text : Text) : Text := text.drop (text.length - n)

/-- `summary["relationship_type"]` -/
def summaryType (relationshipType : Text) : Text :=
  let segment := lastSegment (lastChars 2048 relationshipType)
  safeText lib limits (if segment = [] then lit "unknown" else segment) 128

def summaryScheme (scheme : Text) : Text × Value :=
  (lit "scheme",.str (safeText lib limits scheme 32))

def summaryHostname (hostname : Text) : Text × Value :=
  (lit "hostname",.str (safeText lib limits hostname 128))

/-- The scheme and the hostname of a target, as far as there are any. -/
def summaryTarget (safeTarget : Text) : List (Text × Value) :=
  if Text.startsWith safeTarget (lit "\\\\") || Text.startsWith safeTarget (lit "//") then
    let host := ((portable safeTarget).dropWhile (· = '/')).takeWhile (· ≠ '/')
    (lit "scheme",.str (lit "unc")) :: (if host = [] then [] else [summaryHostname lib limits host])
  else
    match lib.urlsplit safeTarget with
    | none => [(lit "parse_status",.str (lit "invalid"))]
    | some (scheme,hostname) =>
      (if scheme = [] then [] else [summaryScheme lib limits (lib.tables.casefold scheme)]) ++
        ((hostname.filter (· ≠ [])).map (summaryHostname lib limits)).toList

/-- `_external_summary` -/
def externalSummary (relationshipType target : Text) : Value :=
  let safeTarget := target.take 2048
  .obj ([(lit "relationship_type",.str (summaryType lib limits relationshipType)),
    (lit "target_length",.int target.length),
    (lit "target_truncated",.bool (decide (safeTarget.length < target.length)))] ++ summaryTarget lib limits safeTarget)

/-- `target_mode.casefold() == "external"` -/
def isExternal (element : Element) : Bool :=
  decide (lib.tables.casefold (element.attr (lit "TargetMode")) = lit "external")

/-- `relationship_type.casefold().endswith(...)` -/
def typeEndsWith (suffix : Text) (element : Element) : Bool :=
  Text.endsWith (lib.tables.casefold (element.attr (lit "Type"))) suffix

def isRelationship (element : Element) : Bool :=
  decide (element.tag = qualified _RELATIONSHIPS_NAMESPACE (lit "Relationship"))

/-- What is recorded of an external relationship. -/
def recordExternal (element : Element) (s : State) : State :=
  let summary := externalSummary lib limits (element.attr (lit "Type")) (element.attr (lit "Target"))
  let s := { s with externalRelationshipCount := s.externalRelationshipCount + 1 }
  let s := if s.externalSummaries.length < limits.maxMetadataEntries then
    { s with externalSummaries := s.externalSummaries ++ [summary] } else { s with externalSummaryCapped := true }
  if typeEndsWith lib (lit "/attachedtemplate") element then
    { s with
      externalTemplateCount := s.externalTemplateCount + 1
      externalTemplateSummaries := if s.externalTemplateSummaries.length < limits.maxMetadataEntries then
        s.externalTemplateSummaries ++ [summary] else s.externalTemplateSummaries }
  else s

/-- The loop body of `_relationship_targets`. -/
def inspectRelationship (collectExternal : Bool) (element : Element) : Inspection (List Text) := do
  let s ← Command.observe id
  if limits.maxRelationships ≤ s.relationshipCount then Command.raise (.limit (lit "relationship_limit"))
  else do
    Command.update fun s => { s with relationshipCount := s.relationshipCount + 1 }
    let target := element.attr (lit "Target")
    let targets := if typeEndsWith lib (lit "/officedocument") element ∧ target ≠ [] then [purePosixPath target] else []
    if !collectExternal || !isExternal lib element then return targets
    else if limits.maxExternalRelationships ≤ s.externalRelationshipCount then
      Command.raise (.limit (lit "external_relationship_limit"))
    else do
      Command.update (recordExternal lib limits element)
      return targets

/-- The loop of `_relationship_targets`. -/
def relationshipLoop (collectExternal : Bool) : List Element → Inspection (List Text)
  | [] => pure []
  | element :: rest =>
    if isRelationship element then do
      let targets ← inspectRelationship lib limits collectExternal element
      let later ← relationshipLoop collectExternal rest
      return targets ++ later
    else relationshipLoop collectExternal rest

/-- `_relationship_targets` -/
def relationshipTargets (root : Element) (collectExternal : Bool) : Inspection (List Text) :=
  if root.tag ≠ qualified _RELATIONSHIPS_NAMESPACE (lit "Relationships") then Command.raise .valueError
  else relationshipLoop lib limits collectExternal root.children

/-- The names of the relationship parts other than the one of the package, sorted. -/
def relationshipNames (members : Members) : List Text :=
  sortedSet (members.names.filter fun name => Text.endsWith name (lit ".rels") && decide (name ≠ _ROOT_RELATIONSHIPS_PART))

/-- A relationship part other than the one of the package. -/
def inspectPart (members : Members) (name : Text) : Inspection Unit := do
  let root ← readXmlPart lib limits members name
  let _ ← relationshipTargets lib limits root true

/-- `_inspect_relationships`, from the relationships of the package on -/
def inspectParts (members : Members) (root : Element) : Inspection Unit := do
  let rootOfficeTargets ← relationshipTargets lib limits root false
  let s ← Command.observe id
  if (applicationPath s.application).any (· ∉ rootOfficeTargets) then
    Command.update (State.malformedPart (lit "office_document_relationship_missing") none)
  Command.forEach (inspectPart lib limits members) (relationshipNames members)

/-- `_inspect_relationships` -/
def inspectRelationships (members : Members) : Inspection Unit := do
  match ← readRequiredXml lib limits members _ROOT_RELATIONSHIPS_PART with
  | none => return ()
  | some root => inspectParts lib limits members root

/-! ### Capabilities -/

/-- `_merge_vba` -/
def mergeVba (target source : VbaAnalysis) : VbaAnalysis where
  macroDetected := target.macroDetected || source.macroDetected
  projectCount := min (target.projectCount + 1) limits.maxVbaProjects
  moduleCount := min (target.moduleCount + source.moduleCount) limits.maxVbaModules
  sourceBytesInspected := min (target.sourceBytesInspected + source.sourceBytesInspected) limits.maxVbaSourceBytes
  moduleNames := target.moduleNames ++ source.moduleNames.take (limits.maxMetadataEntries - target.moduleNames.length)
  autoexecTriggers := target.autoexecTriggers ∪ source.autoexecTriggers
  indicatorClasses := target.indicatorClasses ∪ source.indicatorClasses
  indicatorNames := target.indicatorNames ∪ source.indicatorNames
  partialReasons := target.partialReasons ∪ source.partialReasons
  parserException := target.parserException.orElse fun _ => source.parserException

def countPrefixed (members : Members) (starts : List Text) : Nat :=
  (members.names.filter fun name => starts.any (Text.startsWith name)).length

/-- The counts of embedded objects and controls. -/
def countObjects (members : Members) (s : State) : State :=
  let embedded := countPrefixed members _EMBEDDING_PREFIXES
  let activex := countPrefixed members _ACTIVEX_PREFIXES
  let s := { s with
    embeddedObjectCount := min embedded limits.maxEmbeddedObjects
    activexCount := min activex limits.maxActivexObjects }
  let s := if limits.maxEmbeddedObjects < embedded then s.markPartial (lit "embedded_object_limit") else s
  if limits.maxActivexObjects < activex then s.markPartial (lit "activex_object_limit") else s

/-- `"vbaproject" in content_type.casefold()` -/
def isVbaType (contentType : Text) : Bool := occursIn (lit "vbaproject") (lib.tables.casefold contentType)

/-- The members that are taken for VBA projects. -/
def vbaMembers (members : Members) (overrides : List (Text × Text)) (application : OfficeApplication) : List Text :=
  let declared := sortedSet ((overrides.filter fun entry => isVbaType lib entry.2 && members.names.contains entry.1).map
    Prod.fst)
  match vbaPath application with
  | some path => if path ∈ members.names ∧ path ∉ declared then declared ++ [path] else declared
  | none => declared

/-- The analysis of a VBA project is merged into the state. -/
def mergeProject (name : Text) (data : Bytes) : Inspection Unit := do
  Command.update fun s => { s with passed := s.passed ++ [(name,data)] }
  match analyzeVbaBlob lib.tables limits lib.isSpace lib.vbaParser data with
  | none => Command.raise .other
  | some analysis => Command.update fun s => { s with
      vba := mergeVba limits s.vba analysis
      partialReasons := s.partialReasons ∪ analysis.partialReasons }

/-- What is done with what the reading of a VBA project gives. -/
def afterVbaRead (name : Text) : Except Raised Bytes → Inspection Unit
  | .ok data => mergeProject lib limits name data
  | .error (.limit reason) => Command.update (State.markPartial reason)
  | .error e => Command.raise e

/-- The loop body of `_inspect_capabilities`. -/
def inspectVbaMember (members : Members) (name : Text) : Inspection Unit := do
  let read ← Command.attempt (readMember limits members name limits.maxVbaProjectBytes)
  afterVbaRead lib limits name read

/-- The state before the VBA projects are read. -/
def countProjects (projects : List Text) (s : State) : State :=
  let s := { s with
    vbaProjectCount := projects.length
    macroEnabled := s.macroEnabled || !projects.isEmpty }
  if limits.maxVbaProjects < projects.length then s.markPartial (lit "vba_project_count_limit") else s

/-- `_inspect_capabilities` -/
def inspectCapabilities (members : Members) (overrides : List (Text × Text)) : Inspection Unit := do
  Command.update (countObjects limits members)
  let s ← Command.observe id
  let projects := vbaMembers lib members overrides s.application
  Command.update (countProjects limits projects)
  Command.forEach (inspectVbaMember lib limits members) (projects.take limits.maxVbaProjects)

/-! ### The package -/

/-- The part of the `try` of `analyze_ooxml` after the content types are there. -/
def inspectContents (members : Members) (contentTypes : Element) : Inspection Unit := do
  let overrides ← contentTypeOverrides contentTypes
  Command.update (classifyPackage lib overrides members)
  let s ← Command.observe id
  if s.application = .UNKNOWN then
    Command.update (State.malformedPart (lit "inconsistent_package_structure") none)
  inspectRelationships lib limits members
  inspectCapabilities lib limits members overrides

/-- The `try` of `analyze_ooxml`. -/
def inspectPackage (members : Members) : Inspection Unit := do
  match ← readRequiredXml lib limits members _CONTENT_TYPES_PART with
  | none => return ()
  | some root => inspectContents lib limits members root

/-- The handlers of `analyze_ooxml`. -/
def onRaised : Raised → Inspection Unit
  | .limit reason => Command.update (State.markPartial reason)
  | .valueError => Command.update (State.malformedPart (lit "unsafe_or_malformed_xml") (some (lit "ValueError")))
  | .xml name => Command.update (State.malformedPart (lit "unsafe_or_malformed_xml") (some name))
  | .library .UnicodeDecodeError =>
    Command.update (State.malformedPart (lit "unsafe_or_malformed_xml") (some Exn.UnicodeDecodeError.name))
  | .library .OSError => Command.update (State.malformedPart (lit "zip_member_read_error") (some Exn.OSError.name))
  | .library .EOFError => Command.update (State.malformedPart (lit "zip_member_read_error") (some Exn.EOFError.name))
  | .library .BadZipFile => Command.update (State.malformedPart (lit "zip_member_read_error") (some Exn.BadZipFile.name))
  | .library .ZlibError => Command.update (State.malformedPart (lit "zip_member_read_error") (some Exn.ZlibError.name))
  | e => Command.raise e

/-- The checks of the names of the members, from a fresh state; the result says whether the package is inspected. -/
def checkNames (infos : List ZipInfo) : Bool × State :=
  let s : State := { entryCount := infos.length }
  if limits.maxZipEntries < infos.length then (false,s.markPartial (lit "zip_entry_limit"))
  else
    let s := if infos.any fun info => limits.maxMemberNameLength < info.filename.length then
      s.markPartial (lit "zip_member_name_limit") else s
    if ¬ (infos.map ZipInfo.filename).Nodup then (false,s.malformedPart (lit "duplicate_zip_member") none)
    else if infos.any ZipInfo.isEncrypted then
      (true,{ s with encrypted := true }.markPartial (lit "encrypted_zip_member"))
    else (true,s)

/-- The state in which the inspection of a package ends, unless an exception escapes. -/
def inspect (infos : List ZipInfo) : Except Raised State :=
  match checkNames limits infos with
  | (false,s) => .ok s
  | (true,s) =>
    match Command.except (inspectPackage lib limits infos) onRaised s with
    | (.ok (),s) => .ok s
    | (.error e,_) => .error e

/-! ### The analysis -/

inductive OfficeParserStatus where
  | COMPLETE
  | PARTIAL
  | MALFORMED
deriving DecidableEq

def OfficeParserStatus.value : OfficeParserStatus → Text
  | .COMPLETE => lit "COMPLETE"
  | .PARTIAL => lit "PARTIAL"
  | .MALFORMED => lit "MALFORMED"

structure OfficeAnalysis where
  application : OfficeApplication
  parserStatus : OfficeParserStatus
  findings : List FindingFields
  metadata : Metadata

/-- The codes of the findings about a package. -/
inductive OfficeCode where
  | MACRO_ENABLED
  | VBA_MACRO
  | VBA_AUTOEXEC
  | VBA_EXECUTION_INDICATOR
  | EXTERNAL_RELATIONSHIP
  | EXTERNAL_TEMPLATE
  | EMBEDDED_OBJECT
  | ACTIVEX
  | ENCRYPTED
  | MALFORMED
  | PARTIAL_ANALYSIS
deriving DecidableEq

def OfficeCode.value : OfficeCode → Text
  | .MACRO_ENABLED => lit "OFFICE_MACRO_ENABLED"
  | .VBA_MACRO => lit "OFFICE_VBA_MACRO"
  | .VBA_AUTOEXEC => lit "OFFICE_VBA_AUTOEXEC"
  | .VBA_EXECUTION_INDICATOR => lit "OFFICE_VBA_EXECUTION_INDICATOR"
  | .EXTERNAL_RELATIONSHIP => lit "OFFICE_EXTERNAL_RELATIONSHIP"
  | .EXTERNAL_TEMPLATE => lit "OFFICE_EXTERNAL_TEMPLATE"
  | .EMBEDDED_OBJECT => lit "OFFICE_EMBEDDED_OBJECT"
  | .ACTIVEX => lit "OFFICE_ACTIVEX"
  | .ENCRYPTED => lit "OFFICE_ENCRYPTED"
  | .MALFORMED => lit "OFFICE_MALFORMED"
  | .PARTIAL_ANALYSIS => lit "OFFICE_PARTIAL_ANALYSIS"

theorem OfficeCode.registered (code : OfficeCode) : (findingDefinition code.value).isSome := by
  cases code <;> decide +kernel

def texts (values : List Text) : Value := .arr (values.map .str)

/-- `sorted(values)`, for a set -/
def sortedTexts (values : List Text) : Value := texts (sortedSet values)

/-- The codes that `_result` reports in a state, in its order. -/
def reports (s : State) : OfficeCode → Bool
  | .MACRO_ENABLED => s.macroEnabled
  | .VBA_MACRO => s.vbaProjectCount ≠ 0 || s.vba.macroDetected
  | .VBA_AUTOEXEC => s.vba.autoexecTriggers ≠ []
  | .VBA_EXECUTION_INDICATOR => s.vba.indicatorClasses ≠ []
  | .EXTERNAL_RELATIONSHIP => s.externalRelationshipCount ≠ 0
  | .EXTERNAL_TEMPLATE => s.externalTemplateCount ≠ 0
  | .EMBEDDED_OBJECT => s.embeddedObjectCount ≠ 0
  | .ACTIVEX => s.activexCount ≠ 0
  | .ENCRYPTED => s.encrypted
  | .MALFORMED => s.malformed
  | .PARTIAL_ANALYSIS => s.partialReasons ≠ []

/-- The metadata of a finding. -/
def findingMetadata (s : State) : OfficeCode → Metadata
  | .MACRO_ENABLED =>
    [(lit "application",.str s.application.value),(lit "vba_project_count",.int s.vbaProjectCount)]
  | .VBA_MACRO =>
    [(lit "application",.str s.application.value),
     (lit "project_count",.int s.vbaProjectCount),
     (lit "module_count",.int s.vba.moduleCount),
     (lit "module_names",texts ((sortedSet s.vba.moduleNames).take limits.maxMetadataEntries))]
  | .VBA_AUTOEXEC => [(lit "triggers",sortedTexts s.vba.autoexecTriggers)]
  | .VBA_EXECUTION_INDICATOR =>
    [(lit "indicator_classes",sortedTexts s.vba.indicatorClasses),(lit "indicators",sortedTexts s.vba.indicatorNames)]
  | .EXTERNAL_RELATIONSHIP =>
    [(lit "count",.int s.externalRelationshipCount),
     (lit "targets",.arr s.externalSummaries),
     (lit "targets_capped",.bool s.externalSummaryCapped)]
  | .EXTERNAL_TEMPLATE =>
    [(lit "count",.int s.externalTemplateCount),(lit "targets",.arr s.externalTemplateSummaries)]
  | .EMBEDDED_OBJECT => [(lit "count",.int s.embeddedObjectCount)]
  | .ACTIVEX => [(lit "count",.int s.activexCount)]
  | .ENCRYPTED => [(lit "container",.str (lit "OOXML"))]
  | .MALFORMED => [(lit "parser_exception",(s.parserException.map .str).getD .null)]
  | .PARTIAL_ANALYSIS => [(lit "reasons",sortedTexts s.partialReasons)]

def officeCodes : List OfficeCode :=
  [.MACRO_ENABLED,.VBA_MACRO,.VBA_AUTOEXEC,.VBA_EXECUTION_INDICATOR,.EXTERNAL_RELATIONSHIP,.EXTERNAL_TEMPLATE,
   .EMBEDDED_OBJECT,.ACTIVEX,.ENCRYPTED,.MALFORMED,.PARTIAL_ANALYSIS]

def findings (s : State) : List FindingFields :=
  (officeCodes.filter (reports s)).map fun code => findingPayload code.value (findingMetadata limits s code) code.registered

def parserStatus (s : State) : OfficeParserStatus :=
  if s.malformed then .MALFORMED else if s.partialReasons ≠ [] then .PARTIAL else .COMPLETE

def metadata (s : State) : Metadata :=
  [(lit "container",.str (lit "OOXML")),
   (lit "application",.str s.application.value),
   (lit "parser_status",.str (parserStatus s).value),
   (lit "xml_parser",.str (lit "defusedxml")),
   (lit "xml_parser_version",.str (lit "0.7.1")),
   (lit "entry_count",.int s.entryCount),
   (lit "actual_bytes_read",.int s.bytesRead),
   (lit "xml_parts_parsed",.int s.xmlPartsParsed),
   (lit "xml_bytes_parsed",.int s.xmlBytesParsed),
   (lit "relationship_count",.int s.relationshipCount),
   (lit "external_relationship_count",.int s.externalRelationshipCount),
   (lit "embedded_object_count",.int s.embeddedObjectCount),
   (lit "activex_count",.int s.activexCount),
   (lit "macro_enabled",.bool s.macroEnabled),
   (lit "vba_project_count",.int s.vbaProjectCount),
   (lit "vba_module_count",.int s.vba.moduleCount),
   (lit "encrypted",.bool s.encrypted),
   (lit "partial_reasons",sortedTexts s.partialReasons)]

/-- `_result` -/
def result (s : State) : OfficeAnalysis := ⟨s.application,parserStatus s,findings limits s,metadata s⟩

/-- `except (OSError, zipfile.BadZipFile, zipfile.LargeZipFile)` around the opening of the package -/
def handledAtOpening : Exn → Bool
  | .OSError | .BadZipFile | .LargeZipFile => true
  | _ => false

/-- `analyze_ooxml`, for the bytes of a file; the result is none if they are no OOXML package. -/
def analyzeOoxml (data : Bytes) : Except Raised (Option OfficeAnalysis) :=
  match lib.zipFile data with
  | .error e => if handledAtOpening e then .ok none else .error (.library e)
  | .ok container =>
    match container.infolist with
    | .error e => .error (.library e)
    | .ok infos =>
      if _CONTENT_TYPES_PART ∉ infos.map ZipInfo.filename then .ok none
      else (inspect lib limits infos).map fun s => some (result limits s)

end DocGuard.Ooxml
