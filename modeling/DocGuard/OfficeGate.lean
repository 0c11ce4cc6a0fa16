import DocGuard.ArchiveClosure
import DocGuard.Releases

/-!
The entries of a ZIP file that lead out of it, when the Office gate declines the file:
the archive analyzer runs and the entries that it looks at block the file, or it has
not come to the end of the archive, which is then not released.
-/
namespace DocGuard.Worker
open DocGuard.Archive (ArchiveAnalysis Bytes Category DEFAULT_ARCHIVE_LIMITS FileFamily Reachable ZipInfo analyzeArchive codesOf
  nestedFiles observations opened windowsRoot)
open DocGuard.Checks DocGuard.Contract DocGuard.Decisions DocGuard.Domain DocGuard.Engine DocGuard.Findings
open DocGuard.NameSecurity DocGuard.Registry
open DocGuard.Sanitizer (Floats)
open DocGuard.Sha256 (sha256)

/-! ### Entries that lead out -/

/-- A part of the name is `..`, the name is rooted, or the entry is a symlink that is not listed as a directory. -/
inductive LeadsOut (info : ZipInfo) : Category → Prop where
  | traversal (up : ['.','.'] ∈ (portable info.filename).splitOn '/') : LeadsOut info .traversal
  | absolutePath (rooted : Text.startsWith (portable info.filename) ['/'] = true ∨ windowsRoot info.filename = true) :
    LeadsOut info .absolutePath
  | symlink (file : info.isDir = false) (link : info.isSymlink = true) : LeadsOut info .symlink

/-- The categories of these entries are reported as hard blocks. -/
theorem blocking : ∀ c ∈ [Category.traversal,.absolutePath,.symlink],
    c ∈ observations ∧ ∃ p ∈ shippedPolicies, p.hardBlock = true ∧ p.findingCode = c.code := by
  decide +kernel

variable {info : ZipInfo} {c : Category}

theorem LeadsOut.listed (leads : LeadsOut info c) : c ∈ [Category.traversal,.absolutePath,.symlink] := by
  cases leads <;> simp

theorem LeadsOut.shows (leads : LeadsOut info c) (lib : Archive.Library) (before : List ZipInfo) :
    Archive.Shows lib before info c := by
  cases leads with
  | traversal up => exact List.contains_iff_mem.mpr up
  | absolutePath rooted => exact (Bool.or_eq_true _ _).mpr rooted
  | symlink file link => exact ⟨file,link⟩

theorem LeadsOut.exhibits (leads : LeadsOut info c) {lib : Archive.Library} {a : Bytes} (member : info ∈ (opened lib a).infos) :
    Archive.Exhibits lib a c := by
  obtain ⟨before,after,split⟩ := List.append_of_mem member
  exact ⟨before,info,after,split,leads.shows lib before⟩

/-! ### Decisions about a result -/

/-- If the trusted side accepts this result, the shipped policy evaluates it with such a decision, whatever the failure
    code and the state of the scan. -/
def Decides (fields : ResultFields) (decision : Decision → Prop) : Prop :=
  ∀ r, AnalysisResult.modelValidate fields = .ok r → ∀ failureCode scanState evaluatedAt now,
    (∀ t, evaluatedAt = some t → t.aware = true) →
      ∃ e, evaluatePolicy sha256 shipped (some r) failureCode scanState evaluatedAt now = .ok e ∧ decision e.decision

variable {fields : ResultFields}

/-- A finding of such an entry blocks. -/
theorem LeadsOut.blocks (leads : LeadsOut info c) (reported : c.code ∈ codesOf fields.findings) :
    Decides fields (· = .BLOCK) := by
  intro r valid failureCode scanState evaluatedAt now aware
  obtain ⟨e,evaluated⟩ := evaluatePolicy_returns (some r) failureCode scanState evaluatedAt now aware
  have decided := evaluatePolicy_decided evaluated
  obtain ⟨_,p,listed,hard,code⟩ := blocking c leads.listed
  obtain ⟨f,member,same⟩ := List.mem_map.mp reported
  have present : Present (some r) p.findingCode := by
    refine ⟨r,rfl,f,?_,same.trans code.symm⟩
    rw [modelValidate_fields valid]
    exact member
  exact ⟨e,evaluated,decided.block.mpr ⟨p,listed,hard,present⟩⟩

/-- The fields of the result that the worker writes. -/
def Ending.output : Ending → Option ResultFields
  | .analyzed fields => some fields
  | _ => none

/-- What the worker writes of a file: its status and its codes, and whether the trusted side accepts it. -/
def written (env : Environment) : Option (AnalysisStatus × List Text × Bool) :=
  (main env Sanitizer.wholeFloats notesRequest.toJson).output.map fun fields =>
    (fields.status,codesOf fields.findings,(AnalysisResult.modelValidate fields).toOption.isSome)

end DocGuard.Worker
