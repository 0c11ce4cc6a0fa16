import DocGuard.Domain
import DocGuard.Sha256

/-!
The policy registry: what every finding code and every combination of codes
contributes to a decision, the structural checks of a registry, and its
fingerprint. `shipped` is the registry of the product; it passes the checks, the
pinned fingerprint included.
-/
namespace DocGuard.Registry
open DocGuard.Ordered DocGuard.Checks DocGuard.Contract DocGuard.Domain
open DocGuard.Json (Value)
open DocGuard.Sha256 (sha256)

structure FindingPolicy where
  findingCode : Text
  contribution : Int
  explanation : Text
  minimumDecision : Option Decision := none
  hardBlock : Bool := false
  tags : List Text := []
deriving DecidableEq

structure CompoundPolicy where
  name : Text
  /-- A `frozenset`: neither order nor repetition matters. -/
  requiredFindings : List Text
  contribution : Int
  explanation : Text
  minimumDecision : Option Decision := none
deriving DecidableEq

/-- `POLICY_VERSION`, `_POLICIES`, `COMPOUND_POLICIES` and `POLICY_FINGERPRINT`. -/
structure PolicyRegistry where
  version : Text
  policies : List FindingPolicy
  compounds : List CompoundPolicy
  fingerprint : Text

/-- A lookup in `FINDING_POLICIES`: of several entries with one code the dictionary keeps the last. -/
def PolicyRegistry.findingPolicy (reg : PolicyRegistry) (code : Text) : Option FindingPolicy :=
  reg.policies.reverse.find? (fun p => p.findingCode == code)

def PolicyRegistry.codes (reg : PolicyRegistry) : List Text := reg.policies.map (·.findingCode)

/-- `re.fullmatch(r"[0-9]+\.[0-9]+\.[0-9]+", version)` -/
def versionMatches (version : Text) : Bool :=
  let parts := version.splitOn '.'
  parts.length == 3 && parts.all (fun part => !part.isEmpty && part.all Char.isDigit)

def checkFindingPolicy (p : FindingPolicy) : Except Text Unit := do
  require (0 ≤ p.contribution ∧ p.contribution ≤ 100) (lit "invalid finding policy: " ++ p.findingCode)
  require (lengthWithin 1 500 p.explanation) (lit "invalid policy explanation: " ++ p.findingCode)
  require (p.minimumDecision ≠ some .ALLOW) (lit "redundant minimum decision: " ++ p.findingCode)
  require (p.hardBlock = decide (p.minimumDecision = some .BLOCK))
    (lit "hard-block policy is inconsistent: " ++ p.findingCode)

def checkCompoundPolicy (c : CompoundPolicy) : Except Text Unit := do
  require (c.requiredFindings ≠ [] ∧ ∀ code ∈ c.requiredFindings, code ∈ knownCodes)
    (lit "invalid compound findings: " ++ c.name)
  require (0 ≤ c.contribution ∧ c.contribution ≤ 100) (lit "invalid compound contribution: " ++ c.name)
  require (c.minimumDecision ≠ some .ALLOW ∧ c.minimumDecision ≠ some .BLOCK)
    (lit "invalid compound minimum decision: " ++ c.name)

/-- The checks of `validate_policy_registry` before the one on the fingerprint. -/
def structuralChecks (reg : PolicyRegistry) : Except Text Unit := do
  require (versionMatches reg.version) (lit "policy version is invalid")
  require (sortedSet reg.codes = sortedSet knownCodes) (lit "finding policy coverage is not exact")
  require reg.codes.Nodup (lit "duplicate finding policy code")
  forAll checkFindingPolicy reg.policies
  require (reg.compounds.map (·.name)).Nodup (lit "duplicate compound policy name")
  forAll checkCompoundPolicy reg.compounds

def minimumDecisionValue : Option Decision → Value
  | some d => .str d.value
  | none => .null

/-- The normal form that `compute_policy_fingerprint` hashes. -/
def normalized (reg : PolicyRegistry) : Value :=
  .obj [(lit "version",.str reg.version),
    (lit "findings",.arr ((sortedBy (·.findingCode) reg.policies).map fun p =>
      .obj [(lit "code",.str p.findingCode),(lit "contribution",.int p.contribution),
        (lit "explanation",.str p.explanation),(lit "minimum_decision",minimumDecisionValue p.minimumDecision),
        (lit "hard_block",.bool p.hardBlock),(lit "tags",.arr (p.tags.map .str))])),
    (lit "compounds",.arr ((sortedBy (·.name) reg.compounds).map fun c =>
      .obj [(lit "name",.str c.name),(lit "required_findings",.arr ((sortedSet c.requiredFindings).map .str)),
        (lit "contribution",.int c.contribution),(lit "explanation",.str c.explanation),
        (lit "minimum_decision",minimumDecisionValue c.minimumDecision)]))]

/-- `compute_policy_fingerprint`, for the digest of the text in UTF-8. -/
def computePolicyFingerprint (digest : List UInt8 → Text) (reg : PolicyRegistry) : Text :=
  digest (Json.utf8 (Json.dumps true (normalized reg)))

def validatePolicyRegistry (digest : List UInt8 → Text) (reg : PolicyRegistry) : Except Text Unit := do
  structuralChecks reg
  require (computePolicyFingerprint digest reg = reg.fingerprint) (lit "policy fingerprint mismatch")

/-! ### The shipped registry -/

def policy (code : Text) (contribution : Int) (explanation : Text) (minimum : Option Decision := none)
    (hardBlock : Bool := false) (tags : List Text := []) : FindingPolicy :=
  ⟨code,contribution,explanation,minimum,hardBlock,tags⟩

def shippedPolicies : List FindingPolicy :=
  [policy (lit "FILE_DOUBLE_EXTENSION") 24 (lit "A dangerous final extension follows a document extension."),
   policy (lit "FILE_BIDI_OVERRIDE") 24 (lit "Bidirectional controls can visually disguise a filename."),
   policy (lit "FILE_TYPE_MISMATCH") 28 (lit "Observed content conflicts with the filename's claimed family."),
   policy (lit "FILE_EXECUTABLE_MASQUERADE") 50
     (lit "Executable content is presented as a business document.") (some .BLOCK) true,
   policy (lit "FILE_CLIENT_MIME_MISMATCH") 2 (lit "Client MIME metadata differs from observed content."),
   policy (lit "PDF_JAVASCRIPT") 20 (lit "The PDF contains JavaScript capability."),
   policy (lit "PDF_OPEN_ACTION") 16 (lit "The PDF contains an action processed when it opens."),
   policy (lit "PDF_ADDITIONAL_ACTION") 18 (lit "The PDF contains event-triggered actions."),
   policy (lit "PDF_LAUNCH_ACTION") 45
     (lit "The PDF contains a launch action capable of invoking an external resource.") (some .QUARANTINE),
   policy (lit "PDF_EMBEDDED_FILE") 24 (lit "The PDF contains embedded content not recursively analyzed."),
   policy (lit "PDF_ACROFORM") 8 (lit "The PDF contains an interactive form."),
   policy (lit "PDF_XFA") 24 (lit "The PDF contains XFA content that DocGuard does not render or execute."),
   policy (lit "PDF_EXTERNAL_URI") 8 (lit "The PDF contains a passive external URI reference."),
   policy (lit "PDF_EXTERNAL_SUBMISSION") 0 (lit "A form-submission action targets an external destination."),
   policy (lit "PDF_ENCRYPTED") 8 (lit "The PDF uses encryption; completeness is evaluated separately."),
   policy (lit "PDF_PARTIAL_ANALYSIS") 25 (lit "PDF structural coverage was incomplete.") (some .QUARANTINE),
   policy (lit "PDF_MALFORMED") 45
     (lit "Malformed PDF structure prevents reliable complete analysis.") (some .QUARANTINE),
   policy (lit "PDF_FALLBACK_INDICATOR") 0
     (lit "Bounded lexical name-token evidence was recovered from an incomplete PDF."),
   policy (lit "OFFICE_MACRO_ENABLED") 8 (lit "The Office container is macro-enabled."),
   policy (lit "OFFICE_VBA_MACRO") 18 (lit "The Office document contains a VBA project."),
   policy (lit "OFFICE_VBA_AUTOEXEC") 28 (lit "A VBA automatic-execution entry point is present."),
   policy (lit "OFFICE_VBA_EXECUTION_INDICATOR") 30 (lit "Static VBA analysis found execution-capable constructs."),
   policy (lit "OFFICE_EXTERNAL_RELATIONSHIP") 8
     (lit "The Office package contains a passive external relationship."),
   policy (lit "OFFICE_EXTERNAL_TEMPLATE") 42
     (lit "The Office document references a remote template.") (some .QUARANTINE),
   policy (lit "OFFICE_EMBEDDED_OBJECT") 24
     (lit "The Office document contains embedded content not recursively analyzed."),
   policy (lit "OFFICE_ACTIVEX") 24 (lit "The Office document contains ActiveX structures."),
   policy (lit "OFFICE_ENCRYPTED") 8
     (lit "Office encryption is present; analysis completeness is evaluated separately."),
   policy (lit "OFFICE_PARTIAL_ANALYSIS") 25 (lit "Office structural coverage was incomplete.") (some .QUARANTINE),
   policy (lit "OFFICE_MALFORMED") 45
     (lit "Malformed Office structure prevents reliable complete analysis.") (some .QUARANTINE),
   policy (lit "ARCHIVE_PATH_TRAVERSAL") 50
     (lit "An archive member could traverse outside an extraction root.") (some .BLOCK) true,
   policy (lit "ARCHIVE_ABSOLUTE_PATH") 50
     (lit "An archive contains an absolute or rooted member path.") (some .BLOCK) true,
   policy (lit "ARCHIVE_SYMLINK") 45
     (lit "An archive symlink can create unsafe extraction semantics for end users.") (some .BLOCK) true,
   policy (lit "ARCHIVE_DUPLICATE_MEMBER") 20 (lit "Duplicate member names create extraction ambiguity."),
   policy (lit "ARCHIVE_DANGEROUS_MEMBER") 42
     (lit "The archive contains an execution-capable member name.") (some .QUARANTINE),
   policy (lit "ARCHIVE_MEMBER_DOUBLE_EXTENSION") 32
     (lit "An archive member disguises an execution-capable extension."),
   policy (lit "ARCHIVE_MEMBER_BIDI_OVERRIDE") 28
     (lit "An archive member uses bidirectional controls for visual deception."),
   policy (lit "ARCHIVE_ENCRYPTED") 8
     (lit "An encrypted archive member was not inspected; completeness is evaluated separately."),
   policy (lit "ARCHIVE_NESTING_LIMIT") 25
     (lit "Archive nesting exceeded the configured inspection depth.") (some .QUARANTINE),
   policy (lit "ARCHIVE_RESOURCE_LIMIT") 35
     (lit "An archive resource budget stopped complete inspection.") (some .QUARANTINE),
   policy (lit "ARCHIVE_MALFORMED") 45
     (lit "Malformed archive structure prevents reliable complete analysis.") (some .QUARANTINE),
   policy (lit "ARCHIVE_PARTIAL_ANALYSIS") 25
     (lit "Archive structural coverage was incomplete.") (some .QUARANTINE),
   policy (lit "YARA_TEST_SIGNATURE") 50
     (lit "The controlled anti-malware test signature matched.") (some .BLOCK) true,
   policy (lit "YARA_SIGNATURE_MATCH") 50
     (lit "A reviewed high-confidence local signature matched.") (some .BLOCK) true,
   policy (lit "YARA_HEURISTIC_MATCH") 42
     (lit "A trusted local heuristic pattern matched; this is not proof of malware.") (some .QUARANTINE),
   policy (lit "YARA_PARTIAL_ANALYSIS") 25 (lit "YARA coverage was incomplete.") (some .QUARANTINE)]

def shippedCompounds : List CompoundPolicy :=
  [⟨lit "POLICY_COMPOUND_PDF_AUTO_JS",[lit "PDF_JAVASCRIPT",lit "PDF_OPEN_ACTION"],20,
     lit "PDF JavaScript is paired with automatic open-time triggering.",some .QUARANTINE⟩,
   ⟨lit "POLICY_COMPOUND_OFFICE_MACRO_EXECUTION_CHAIN",
     [lit "OFFICE_VBA_AUTOEXEC",lit "OFFICE_VBA_EXECUTION_INDICATOR",lit "OFFICE_VBA_MACRO"],25,
     lit "A VBA project combines automatic execution with execution-capable constructs.",some .QUARANTINE⟩,
   ⟨lit "POLICY_COMPOUND_OFFICE_AUTOEXEC_YARA",[lit "OFFICE_VBA_AUTOEXEC",lit "YARA_HEURISTIC_MATCH"],15,
     lit "Office auto-execution and a trusted YARA heuristic occur together.",some .QUARANTINE⟩,
   ⟨lit "POLICY_COMPOUND_ARCHIVE_MEMBER_MASQUERADE",
     [lit "ARCHIVE_DANGEROUS_MEMBER",lit "ARCHIVE_MEMBER_DOUBLE_EXTENSION"],18,
     lit "An execution-capable archive member also uses a deceptive document extension.",some .QUARANTINE⟩,
   ⟨lit "POLICY_COMPOUND_FILE_IDENTITY_DECEPTION",[lit "FILE_DOUBLE_EXTENSION",lit "FILE_TYPE_MISMATCH"],18,
     lit "Filename double-extension deception accompanies observed content mismatch.",some .QUARANTINE⟩]

def POLICY_VERSION : Text := lit "1.0.2"
def POLICY_FINGERPRINT : Text := lit "c6d18b6f67b79a91151567c99c8844c741820935ab9d4ad32bb131a30412469b"

def shipped : PolicyRegistry := ⟨POLICY_VERSION,shippedPolicies,shippedCompounds,POLICY_FINGERPRINT⟩

theorem shipped_codes : shipped.codes = knownCodes := rfl

theorem shipped_structural : structuralChecks shipped = .ok () := by
  simp only [structuralChecks,require_bind_ok,shipped_codes]
  refine ⟨by decide +kernel,trivial,require_bind_ok.mpr ⟨knownCodes_nodup,by decide +kernel⟩⟩

/-- The digest of the normal form of the shipped registry is the pinned one. -/
theorem shipped_fingerprint : computePolicyFingerprint sha256 shipped = POLICY_FINGERPRINT := by decide +kernel

theorem shipped_valid : validatePolicyRegistry sha256 shipped = .ok () := by
  simp only [validatePolicyRegistry,shipped_structural,shipped_fingerprint]
  rfl

end DocGuard.Registry
