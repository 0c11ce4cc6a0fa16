import DocGuard.Text

/-!
The contract shared by the worker and the trusted side: the sizes that both
sides agree on, the registered findings and the trusted YARA rules.
-/
namespace DocGuard.Contract

def ANALYSIS_SCHEMA_VERSION : Text := lit "2.1"
def MAX_FINDINGS_PER_ANALYSIS : Nat := 256
def MAX_FINDING_METADATA_BYTES : Nat := 16 * 1024
def MAX_ANALYZER_METADATA_BYTES : Nat := 32 * 1024

/-- Finding severity, independent from any final document decision. -/
inductive Severity where
  | INFO
  | LOW
  | MEDIUM
  | HIGH
  | CRITICAL
deriving DecidableEq, Repr

structure FindingDefinition where
  code : Text
  title : Text
  description : Text
  defaultSeverity : Severity
  category : Text
  mitreTechniques : List Text := []
deriving DecidableEq

set_option maxRecDepth 4000 in
/-- The registered findings, in source order. -/
def definitions : List FindingDefinition :=
  [⟨lit "FILE_DOUBLE_EXTENSION",lit "Dangerous double extension observed",
     lit "The filename ends in an executable-capable extension after a business-document extension.",.HIGH,
     lit "file-identity",[]⟩,
   ⟨lit "FILE_BIDI_OVERRIDE",lit "Bidirectional filename control observed",
     lit "The filename contains Unicode bidirectional controls that can alter its visual ordering.",.HIGH,
     lit "file-identity",[]⟩,
   ⟨lit "FILE_TYPE_MISMATCH",lit "Filename type does not match observed content",
     lit "The filename extension claims a different file family than the libmagic content identification.",.HIGH,
     lit "file-identity",[]⟩,
   ⟨lit "FILE_EXECUTABLE_MASQUERADE",lit "Executable content masquerades as a business document",
     lit "Libmagic identified Windows executable content while the filename claims a business-document extension.",
     .CRITICAL,lit "file-identity",[lit "T1036.008"]⟩,
   ⟨lit "FILE_CLIENT_MIME_MISMATCH",lit "Client content type differs from observed content",
     lit "The client-provided Content-Type differs from the libmagic identification; the client claim was not " ++
       lit "trusted for analysis.",
     .INFO,lit "file-identity",[]⟩,
   ⟨lit "PDF_JAVASCRIPT",lit "PDF JavaScript capability detected",
     lit "The PDF structure contains a JavaScript action or document JavaScript name-tree entry.",.MEDIUM,
     lit "pdf-active-content",[lit "T1204.002"]⟩,
   ⟨lit "PDF_OPEN_ACTION",lit "Automatic PDF open action detected",
     lit "The PDF catalog contains an OpenAction that a viewer may process when the document opens.",.MEDIUM,
     lit "pdf-actions",[]⟩,
   ⟨lit "PDF_ADDITIONAL_ACTION",lit "PDF additional actions detected",
     lit "The PDF contains one or more event-triggered additional-action dictionaries.",.MEDIUM,lit "pdf-actions",[]⟩,
   ⟨lit "PDF_LAUNCH_ACTION",lit "PDF launch action detected",
     lit "The PDF contains an action intended to launch an application, document, or resource.",.HIGH,
     lit "pdf-actions",[lit "T1204.002"]⟩,
   ⟨lit "PDF_EMBEDDED_FILE",lit "PDF embedded file structure detected",
     lit "The PDF contains one or more embedded-file specifications or payload structures.",.MEDIUM,
     lit "pdf-attachments",[]⟩,
   ⟨lit "PDF_ACROFORM",lit "PDF interactive AcroForm detected",
     lit "The PDF catalog contains an interactive AcroForm structure.",.LOW,lit "pdf-forms",[]⟩,
   ⟨lit "PDF_XFA",lit "PDF XFA form structure detected",
     lit "The PDF AcroForm contains an XFA structure; DocGuard does not execute or render XFA.",.MEDIUM,
     lit "pdf-forms",[]⟩,
   ⟨lit "PDF_EXTERNAL_URI",lit "PDF external URI action detected",
     lit "The PDF contains one or more URI actions; DocGuard records bounded lexical metadata and never fetches " ++
       lit "them.",
     .LOW,lit "pdf-external-reference",[]⟩,
   ⟨lit "PDF_EXTERNAL_SUBMISSION",lit "PDF form submission to an external target detected",
     lit "A structurally-confirmed SubmitForm action targets a URL-shaped destination with an explicit scheme; " ++
       lit "DocGuard records only bounded scheme/hostname metadata and never submits data or fetches the target.",
     .MEDIUM,lit "pdf-external-reference",[]⟩,
   ⟨lit "PDF_ENCRYPTED",lit "Encrypted PDF detected",
     lit "The PDF uses encryption or password protection, which is not inherently malicious.",.LOW,
     lit "pdf-analysis-limitation",[]⟩,
   ⟨lit "PDF_PARTIAL_ANALYSIS",lit "PDF analysis was incomplete",
     lit "Structural PDF inspection stopped before complete coverage; bounded metadata records the reason.",.MEDIUM,
     lit "pdf-analysis-limitation",[]⟩,
   ⟨lit "PDF_MALFORMED",lit "Malformed PDF structure detected",
     lit "The PDF parser reported structural damage, so complete analysis cannot be trusted.",.HIGH,
     lit "pdf-structure",[]⟩,
   ⟨lit "PDF_FALLBACK_INDICATOR",lit "Bounded lexical indicators observed in a structurally incomplete PDF",
     lit "Structural PDF analysis was incomplete or rejected, so DocGuard additionally searched the raw bytes for a " ++
       lit "fixed set of known PDF name-object keywords. This is a bounded, non-executing lexical scan, not " ++
       lit "confirmed PDF object traversal: a match here is not equivalent to, and must not be confused with, a " ++
       lit "structurally-confirmed finding such as PDF_JAVASCRIPT or PDF_XFA.",
     .MEDIUM,lit "pdf-analysis-limitation",[]⟩,
   ⟨lit "OFFICE_MACRO_ENABLED",lit "Macro-enabled Office structure detected",
     lit "The Office container declares macro-enabled content or a VBA project structure.",.LOW,lit "office-macros",
     [lit "T1204.002"]⟩,
   ⟨lit "OFFICE_VBA_MACRO",lit "Office VBA macro project detected",
     lit "One or more VBA projects or modules are structurally present in the Office document.",.MEDIUM,
     lit "office-macros",[lit "T1204.002"]⟩,
   ⟨lit "OFFICE_VBA_AUTOEXEC",lit "Office VBA auto-execution entry point detected",
     lit "Static VBA analysis identified an entry point that Office may invoke automatically.",.HIGH,
     lit "office-macros",[lit "T1059.005",lit "T1204.002"]⟩,
   ⟨lit "OFFICE_VBA_EXECUTION_INDICATOR",lit "Office VBA execution-capable indicator detected",
     lit "Static VBA analysis identified bounded APIs or constructs capable of launching commands, scripts, or " ++
       lit "processes; their presence does not prove maliciousness.",
     .HIGH,lit "office-macros",[lit "T1059.005"]⟩,
   ⟨lit "OFFICE_EXTERNAL_RELATIONSHIP",lit "External Office relationship detected",
     lit "The OOXML package contains one or more external relationships; DocGuard records only bounded lexical " ++
       lit "metadata and never fetches them.",
     .LOW,lit "office-external-reference",[]⟩,
   ⟨lit "OFFICE_EXTERNAL_TEMPLATE",lit "External Office template relationship detected",
     lit "The Word package references an external template; DocGuard does not fetch the target.",.HIGH,
     lit "office-external-reference",[lit "T1221"]⟩,
   ⟨lit "OFFICE_EMBEDDED_OBJECT",lit "Embedded Office object structure detected",
     lit "The Office container contains embedded OLE or package object structures that were not recursively " ++
       lit "analyzed.",
     .MEDIUM,lit "office-embedded-content",[]⟩,
   ⟨lit "OFFICE_ACTIVEX",lit "Office ActiveX structure detected",
     lit "The Office container contains ActiveX control structures; DocGuard does not instantiate or execute " ++
       lit "controls.",
     .MEDIUM,lit "office-active-content",[]⟩,
   ⟨lit "OFFICE_ENCRYPTED",lit "Encrypted Office document detected",
     lit "The Office container uses encryption that prevents complete structural inspection; encryption is not " ++
       lit "inherently malicious.",
     .LOW,lit "office-analysis-limitation",[]⟩,
   ⟨lit "OFFICE_PARTIAL_ANALYSIS",lit "Office analysis was incomplete",
     lit "Structural Office inspection stopped before complete coverage; bounded metadata records the reason.",
     .MEDIUM,lit "office-analysis-limitation",[]⟩,
   ⟨lit "OFFICE_MALFORMED",lit "Malformed Office structure detected",
     lit "The Office container or a required component is malformed, so complete analysis cannot be trusted.",.HIGH,
     lit "office-structure",[]⟩,
   ⟨lit "ARCHIVE_PATH_TRAVERSAL",lit "Archive path traversal observed",
     lit "The ZIP contains a member name with a parent-directory component that could escape an extraction root in " ++
       lit "another tool.",
     .HIGH,lit "archive-path",[]⟩,
   ⟨lit "ARCHIVE_ABSOLUTE_PATH",lit "Rooted archive member path observed",
     lit "The ZIP contains a POSIX, Windows drive-rooted, or UNC-style member path.",.HIGH,lit "archive-path",[]⟩,
   ⟨lit "ARCHIVE_SYMLINK",lit "Archive symbolic-link entry observed",
     lit "The ZIP contains a Unix symbolic-link entry; DocGuard did not follow or resolve it.",.HIGH,
     lit "archive-path",[]⟩,
   ⟨lit "ARCHIVE_DUPLICATE_MEMBER",lit "Ambiguous duplicate archive member observed",
     lit "The ZIP contains exact or conservatively normalized member-name collisions that may be handled " ++
       lit "inconsistently by extraction tools.",
     .MEDIUM,lit "archive-structure",[]⟩,
   ⟨lit "ARCHIVE_DANGEROUS_MEMBER",lit "Execution-capable archive member name observed",
     lit "The ZIP contains a member whose extension denotes executable, script, shortcut, library, or installer " ++
       lit "content; this does not by itself establish maliciousness.",
     .HIGH,lit "archive-member",[]⟩,
   ⟨lit "ARCHIVE_MEMBER_DOUBLE_EXTENSION",lit "Archive member uses a dangerous double extension",
     lit "The ZIP contains a member ending in an execution-capable extension after a business-document extension.",
     .HIGH,lit "archive-member",[lit "T1036.007"]⟩,
   ⟨lit "ARCHIVE_MEMBER_BIDI_OVERRIDE",lit "Bidirectional control observed in archive member name",
     lit "The ZIP contains a member name with Unicode bidirectional controls that can alter its visual ordering.",
     .HIGH,lit "archive-member",[lit "T1036.002"]⟩,
   ⟨lit "ARCHIVE_ENCRYPTED",lit "Encrypted archive member observed",
     lit "The ZIP marks one or more members as encrypted; DocGuard does not request passwords, decrypt, or " ++
       lit "brute-force them.",
     .LOW,lit "archive-analysis-limitation",[]⟩,
   ⟨lit "ARCHIVE_NESTING_LIMIT",lit "Archive nesting limit reached",
     lit "Nested ZIP inspection stopped at the configured recursion depth.",.MEDIUM,lit "archive-analysis-limitation",
     []⟩,
   ⟨lit "ARCHIVE_RESOURCE_LIMIT",lit "Archive resource limit reached",
     lit "ZIP inspection stopped because an actual-byte, entry, member, container, materialization, or finding " ++
       lit "budget was exhausted.",
     .HIGH,lit "archive-analysis-limitation",[]⟩,
   ⟨lit "ARCHIVE_MALFORMED",lit "Malformed ZIP structure detected",
     lit "The ZIP or a nested ZIP could not be inspected reliably because archive structure or decompressed member " ++
       lit "data was malformed.",
     .HIGH,lit "archive-structure",[]⟩,
   ⟨lit "ARCHIVE_PARTIAL_ANALYSIS",lit "Archive analysis was incomplete",
     lit "ZIP inspection stopped before complete coverage; bounded metadata records the reason.",.MEDIUM,
     lit "archive-analysis-limitation",[]⟩,
   ⟨lit "YARA_TEST_SIGNATURE",lit "Controlled YARA test signature matched",
     lit "A trusted local anti-malware test signature matched; the test artifact is not real malware.",.HIGH,
     lit "yara-test-signature",[]⟩,
   ⟨lit "YARA_SIGNATURE_MATCH",lit "Trusted YARA signature matched",
     lit "A trusted local high-confidence signature matched the top-level submitted file.",.HIGH,lit "yara-signature",
     []⟩,
   ⟨lit "YARA_HEURISTIC_MATCH",lit "Trusted YARA heuristic matched",
     lit "A trusted local behavioral or string-pattern rule matched the top-level submitted file; the observation " ++
       lit "is not proof of malware.",
     .MEDIUM,lit "yara-heuristic",[]⟩,
   ⟨lit "YARA_PARTIAL_ANALYSIS",lit "YARA analysis was incomplete",
     lit "YARA scanning stopped before complete coverage; bounded metadata records the reason.",.MEDIUM,
     lit "yara-analysis-limitation",[]⟩]

/-- `FINDING_DEFINITIONS`; the codes are distinct, so the first entry is the only one. -/
def findingDefinition (code : Text) : Option FindingDefinition := definitions.find? (fun d => d.code == code)

/-- The codes of `FINDING_DEFINITIONS`. -/
def knownCodes : List Text := definitions.map (·.code)

inductive YaraConfidence where
  | TEST
  | SIGNATURE
  | HEURISTIC
deriving DecidableEq, Repr

def YaraConfidence.value : YaraConfidence → Text
  | .TEST => lit "TEST"
  | .SIGNATURE => lit "SIGNATURE"
  | .HEURISTIC => lit "HEURISTIC"

structure YaraRuleDefinition where
  ruleId : Text
  title : Text
  explanation : Text
  category : Text
  confidence : YaraConfidence
  findingCode : Text
  severity : Severity
  mitreTechniques : List Text := []
deriving DecidableEq

def YARA_RULE_PACK_VERSION : Text := lit "2026.08.1"
def YARA_RULE_PACK_SHA256 : Text := lit "7b9bab1889c4db6ead3b49263e93c10b138d2b8496668791b7ca8363c5385fe7"
def MAX_YARA_STRING_IDS_PER_FINDING : Nat := 16
def MAX_YARA_OFFSETS_PER_FINDING : Nat := 16
def MAX_YARA_REPORTED_MATCH_COUNT : Int := 1000000

/-- The rules of the manifest, in source order. -/
def rules : List YaraRuleDefinition :=
  [⟨lit "DOCGUARD_EICAR_TEST",lit "EICAR anti-malware test signature",
     lit "The standard EICAR anti-malware test string was observed. EICAR is a controlled test artifact, not real " ++
       lit "malware.",
     lit "yara-test-signature",.TEST,lit "YARA_TEST_SIGNATURE",.HIGH,[]⟩,
   ⟨lit "DOCGUARD_POWERSHELL_ENCODED",lit "PowerShell encoded-command pattern",
     lit "A PowerShell executable reference and encoded-command argument with a substantial Base64-like value were " ++
       lit "both observed.",
     lit "yara-command-pattern",.HEURISTIC,lit "YARA_HEURISTIC_MATCH",.MEDIUM,[lit "T1059.001"]⟩,
   ⟨lit "DOCGUARD_WSCRIPT_ENGINE_INVOCATION",lit "Windows Script Host engine invocation pattern",
     lit "A Windows Script Host command pattern selects a script engine and names a supported script-file extension.",
     lit "yara-command-pattern",.HEURISTIC,lit "YARA_HEURISTIC_MATCH",.MEDIUM,[lit "T1059.005"]⟩,
   ⟨lit "DOCGUARD_CMD_CHAIN_INVOCATION",lit "Windows command-shell chain pattern",
     lit "A cmd.exe command execution argument and a chained command operator were observed in a bounded " ++
       lit "command-line pattern.",
     lit "yara-command-pattern",.HEURISTIC,lit "YARA_HEURISTIC_MATCH",.MEDIUM,[lit "T1059.003"]⟩,
   ⟨lit "DOCGUARD_MSHTA_SCRIPT_SCHEME",lit "Mshta inline script-scheme pattern",
     lit "An mshta invocation is followed by an inline JavaScript or VBScript scheme.",
     lit "yara-proxy-execution-pattern",.HEURISTIC,lit "YARA_HEURISTIC_MATCH",.MEDIUM,[lit "T1218.005"]⟩,
   ⟨lit "DOCGUARD_CERTUTIL_URLCACHE",lit "Certutil URL-cache transfer pattern",
     lit "A certutil invocation combines URL-cache and split arguments with an HTTP target.",
     lit "yara-transfer-pattern",.HEURISTIC,lit "YARA_HEURISTIC_MATCH",.MEDIUM,[lit "T1105"]⟩]

/-- `YARA_RULE_DEFINITIONS` -/
def yaraRule (ruleId : Text) : Option YaraRuleDefinition := rules.find? (fun r => r.ruleId == ruleId)

/-! ### Lookups -/

theorem knownCodes_nodup : knownCodes.Nodup := by decide +kernel

theorem findingDefinition_code {code : Text} {d : FindingDefinition} (found : findingDefinition code = some d) :
    d.code = code := by
  simpa using List.find?_some found

theorem findingDefinition_mem {code : Text} {d : FindingDefinition} (found : findingDefinition code = some d) :
    code ∈ knownCodes := by
  have member := List.mem_of_find?_eq_some found
  exact List.mem_map.mpr ⟨d,member,findingDefinition_code found⟩

end DocGuard.Contract
