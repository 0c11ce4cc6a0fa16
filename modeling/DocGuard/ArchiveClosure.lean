import DocGuard.ArchiveOrder

/-!
What a complete result says of everything that can be reached from a file, and what
another order of its entries may change: entries that the inspection takes for
directories are not looked into, and the limit of the depth counts from where a
nested file is met first.
-/
namespace DocGuard.Archive
open DocGuard.Commands DocGuard.Domain DocGuard.Findings DocGuard.Search

variable {lib : Library} {limits : ArchiveAnalysisLimits}

/-! ### Reachable containers -/

/-- A container that repeatedly taking a nested ZIP file out of the one before leads to. -/
inductive Reachable (lib : Library) (content : Bytes) : Bytes → Prop where
  | file : Reachable lib content content
  | nested {a b : Bytes} : Reachable lib content a → b ∈ inside lib a → Reachable lib content b

theorem reachable_iff {content a : Bytes} : Reachable lib content a ↔ a = content ∨ a ∈ nestedFiles lib content := by
  constructor
  · intro reachable
    induction reachable with
    | file => exact .inl rfl
    | nested _ member ih =>
      rcases ih with rfl | ⟨depth,lies⟩
      · exact .inr ⟨1,.start member⟩
      · exact .inr ⟨depth + 1,.step lies member⟩
  · rintro (rfl | ⟨depth,lies⟩)
    · exact .file
    · induction lies with
      | start member => exact .nested .file member
      | step _ member ih => exact .nested ih member

/-- The categories of names and entries, other than the encrypted ones. -/
def evident : List Category := [.traversal,.absolutePath,.symlink,.duplicate,.dangerous,.doubleExtension,.bidi]

/-- A complete result shows exactly what the reachable containers show, and each of their entries that is neither a
    directory nor a symlink is unencrypted, of a supported method and readable. -/
theorem complete_exact (lib : Library) (limits : ArchiveAnalysisLimits) (family : FileFamily) (content : Bytes)
    (analysis : ArchiveAnalysis) (full : lib.Full) (free : Set.InjOn lib.sha256 (nestedFiles lib content))
    (returned : analyzeArchive lib limits family (some content) = .ok analysis) (complete : analysis.status = .COMPLETE) :
    (∀ c ∈ evident, c.code ∈ codesOf analysis.findings ↔ ∃ a, Reachable lib content a ∧ Exhibits lib a c) ∧
    ∀ a, Reachable lib content a → ∃ infos, opened lib a = .entries infos ∧
      ∀ info ∈ infos, info.isDir = false → info.isSymlink = false →
        info.isEncrypted = false ∧ isSupported lib info = true ∧ ∃ nested, outcome info.member = .ok nested := by
  refine ⟨fun c listed => ?_,fun a reachable => ?_⟩
  · have observed : c ∈ observations := by
      revert c
      decide
    simp only [complete_shown full free returned complete c observed,reachable_iff]
  · obtain ⟨infos,entries,legible⟩ := complete_seen full free returned complete a (reachable_iff.mp reachable)
    refine ⟨infos,entries,fun info member file plain => ?_⟩
    rcases legible info member with directory | symlink | read
    · rw [file] at directory
      cases directory
    · rw [plain] at symlink
      cases symlink
    · exact read

theorem complete_exact_carrier :
    (∀ c ∈ evident, c.code ∈ codesOf programAnalysis.findings ↔
      ∃ a, Reachable programLibrary (zipBytes carrierMembers) a ∧ Exhibits programLibrary a c) ∧
    ∀ a, Reachable programLibrary (zipBytes carrierMembers) a → ∃ infos, opened programLibrary a = .entries infos ∧
      ∀ info ∈ infos, info.isDir = false → info.isSymlink = false → info.isEncrypted = false ∧
        isSupported programLibrary info = true ∧ ∃ nested, outcome info.member = .ok nested :=
  complete_exact programLibrary DEFAULT_ARCHIVE_LIMITS .ZIP (zipBytes carrierMembers) programAnalysis
    (storedLibrary_full _) carrier_free (analyzeArchive_zip program_complete.1) program_complete.2

/-- A ZIP file with one entry, whose name ends in a slash, whose mode is that of a symlink and whose data is declared
    to be encrypted. -/
def lockedFolder : Bytes :=
  [0x50,0x4b,0x03,0x04,0x14,0x00,0x01,0x00,0x00,0x00,0x00,0x00,0x21,0x00,0x00,0x00,0x00,0x00,0x00,0x00,0x00,0x00,0x00,
   0x00,0x00,0x00,0x07,0x00,0x00,0x00,0x6c,0x6f,0x63,0x6b,0x65,0x64,0x2f,0x50,0x4b,0x01,0x02,0x14,0x03,0x14,0x00,0x01,
   0x00,0x00,0x00,0x00,0x00,0x21,0x00,0x00,0x00,0x00,0x00,0x00,0x00,0x00,0x00,0x00,0x00,0x00,0x00,0x07,0x00,0x00,0x00,
   0x00,0x00,0x00,0x00,0x00,0x00,0x00,0x00,0xff,0xa1,0x00,0x00,0x00,0x00,0x6c,0x6f,0x63,0x6b,0x65,0x64,0x2f,0x50,0x4b,
   0x05,0x06,0x00,0x00,0x00,0x00,0x01,0x00,0x01,0x00,0x35,0x00,0x00,0x00,0x25,0x00,0x00,0x00,0x00,0x00]

def lockedInfo : ZipInfo :=
  { filename := lit "locked/", flagBits := 1, externalAttr := 0xa1ff0000, member := { content := [] } }

def lockedLibrary : Library :=
  { storedLibrary [] with zipFile := fun data => if data = lockedFolder then .ok ⟨.ok [lockedInfo]⟩ else .error .BadZipFile }

/-- The result is complete, without a finding, though an entry is a symlink by its mode and encrypted by its flags. -/
theorem complete_lockedFolder : ∃ analysis, analyzeArchive lockedLibrary {} .ZIP (some lockedFolder) = .ok analysis ∧
    analysis.status = .COMPLETE ∧ codesOf analysis.findings = [] ∧ opened lockedLibrary lockedFolder = .entries [lockedInfo] ∧
    lockedInfo.isSymlink = true ∧ lockedInfo.isEncrypted = true ∧ lockedLibrary.Full ∧
    Set.InjOn lockedLibrary.sha256 (nestedFiles lockedLibrary lockedFolder) := by
  have ran : (inspect lockedLibrary {} lockedFolder).1 = .ok () ∧
      (result lockedLibrary {} (inspect lockedLibrary {} lockedFolder).2.toState).status = .COMPLETE ∧
      codesOf (result lockedLibrary {} (inspect lockedLibrary {} lockedFolder).2.toState).findings = [] ∧
      inside lockedLibrary lockedFolder = [] := by
    decide +kernel
  refine ⟨_,analyzeArchive_zip ran.1,ran.2.1,ran.2.2.1,by simp [opened,lockedLibrary],by decide,by decide,?_,?_⟩
  · intro source info member
    have listed : info = lockedInfo := by
      unfold opened lockedLibrary at member
      dsimp only at member
      split at member
      · cases member
      · rename_i container found
        split at found
        · cases found
          exact List.mem_singleton.mp member
        · cases found
    subst listed
    show 4 ≤ 64 * 1024
    omega
  · rintro a ⟨_,lies⟩
    have nothing {depth : Nat} {b : Bytes} (lies : Lies (inside lockedLibrary) (inside lockedLibrary lockedFolder) depth b) :
        False := by
      induction lies with
      | start member => simp [ran.2.2.2] at member
      | step _ _ ih => exact ih
    exact (nothing lies).elim

/-! ### Other orders -/

end DocGuard.Archive
