import DocGuard.ArchiveEvidence
import DocGuard.ArchiveTrace

/-!
What becomes of an analysis when the library raises: it fails closed, and keeps the
evidence of all entries that it looks at, exactly if every exception on its way is one
that a handler names.
-/
namespace DocGuard.Archive

variable {lib : Library} {limits : ArchiveAnalysisLimits}

/-! ### What the events count -/

/-- What an event adds to the counter of a category. -/
def Event.adds (lib : Library) : Event → Category → Nat
  | .entry info seen _,c => entryCount lib info seen c
  | _,_ => 0

theorem record_counts (event : Event) (s : Inspection) (c : Category) :
    (event.record lib limits s).counts c = s.counts c + event.adds lib c := by
  cases event with
  | entry info seen depth =>
    have named := inspectName_counts lib limits info.filename depth seen s c
    simp only [Event.record,Event.adds,entryCount,kindCount]
    by_cases directory : info.isDir = true
    · simp only [if_pos directory,named,Nat.add_zero]
    by_cases symlink : info.isSymlink = true
    · simp only [if_neg directory,if_pos symlink,retainRecord_counts,counted_counts,named,Nat.add_assoc]
    by_cases encrypted : info.isEncrypted = true
    · simp only [if_neg directory,if_neg symlink,if_pos encrypted,retainRecord_counts,counted_counts,named,Nat.add_assoc]
    · simp only [if_neg directory,if_neg symlink,if_neg encrypted,named,Nat.add_zero]
  | tooDeep info depth => exact congrFun (retainRecord_counts lib limits _ _ _ _ _ s) c
  | failed stage e => rfl

theorem replay_counts (events : List Event) (c : Category) :
    (replay lib limits events).counts c = (events.map fun event => event.adds lib c).sum := by
  induction events using List.reverseRecOn with
  | nil => rfl
  | append_singleton before event ih => simp [replay_snoc,record_counts,ih]

theorem counted_entry {events : List Event} {c : Category} (some : (events.map fun event => event.adds lib c).sum ≠ 0) :
    ∃ info seen depth, .entry info seen depth ∈ events ∧ 0 < entryCount lib info seen c := by
  obtain ⟨n,counted,positive⟩ := List.exists_mem_ne_zero_of_sum_ne_zero some
  obtain ⟨event,member,rfl⟩ := List.mem_map.mp counted
  cases event with
  | entry info seen depth => exact ⟨info,seen,depth,member,Nat.pos_of_ne_zero positive⟩
  | failed stage e => exact absurd rfl positive
  | tooDeep info depth => exact absurd rfl positive

/-! ### Failing closed -/

/-- After an exception the result is not complete, and what the entries show that were looked at is reported. -/
structure FailsClosed (lib : Library) (limits : ArchiveAnalysisLimits) (content : Bytes) (analysis : ArchiveAnalysis) :
    Prop where
  incomplete : ∀ stage e, .failed stage e ∈ events lib limits content → analysis.status ≠ .COMPLETE
  evident : ∀ info seen depth, .entry info seen depth ∈ events lib limits content → ∀ c ∈ observations,
    0 < entryCount lib info seen c → c.code ∈ codesOf analysis.findings

/-- An analysis returns a result that fails closed if and only if every exception of the library on its way is one that
    the handler around the call names. -/
theorem fails_closed_iff (lib : Library) (limits : ArchiveAnalysisLimits) (family : FileFamily) (content : Bytes)
    (package : family = .ZIP ∨ family = .OOXML_CANDIDATE) (room : 12 ≤ limits.maxFindings) :
    (∃ analysis, analyzeArchive lib limits family (some content) = .ok analysis ∧ FailsClosed lib limits content analysis) ↔
      ∀ event ∈ events lib limits content, event.handled = true := by
  rw [← inspect_returns_iff]
  constructor
  · rintro ⟨analysis,returned,_⟩
    exact (analyzeArchive_returned returned).1
  · intro ran
    have handled := (inspect_returns_iff content).mp ran
    have traced := (@inspect_traced lib limits content).2
    refine ⟨_,analyzeArchive_inspected package ran,fun stage e member complete => ?_,fun info seen depth member c observed some => ?_⟩
    · exact traced.failures ⟨stage,e,member,handled _ member⟩ (result_complete complete).1
    · rw [result_reported room observed,((kept_eq_iff _ _).mp traced.kept).1,replay_counts]
      exact Nat.lt_of_lt_of_le some (List.le_sum_of_mem (List.mem_map.mpr ⟨_,member,rfl⟩))

/-! ### Damaged members -/

/-- A ZIP file with an entry that leads out, and a member that is not what its CRC-32 says. -/
def flawedMembers : List Stored := [⟨lit "../x",[],0⟩,⟨lit "a.txt",[0x68,0x65,0x6c,0x6c,0x6f],0⟩]

/-- The read that comes to the end of the data raises. -/
def flawedInfos : List ZipInfo :=
  [{ filename := lit "../x", member := { content := [] } },
   { filename := lit "a.txt", member := { content := [0x68,0x65,0x6c,0x6c,0x6f], raises := some (5,.BadZipFile) } }]

def flawedLibrary : Library :=
  { storedLibrary [] with
    zipFile := fun data => if data = zipBytes flawedMembers then .ok ⟨.ok flawedInfos⟩ else .error .BadZipFile }

def Event.isFailure : Event → Bool
  | .failed _ _ => true
  | _ => false

theorem flawed_events : (events flawedLibrary DEFAULT_ARCHIVE_LIMITS (zipBytes flawedMembers)).all Event.handled = true ∧
    (events flawedLibrary DEFAULT_ARCHIVE_LIMITS (zipBytes flawedMembers)).any Event.isFailure = true ∧
    ((events flawedLibrary DEFAULT_ARCHIVE_LIMITS (zipBytes flawedMembers)).map fun event => event.adds flawedLibrary .traversal).sum = 1 := by
  decide +kernel

theorem fails_closed_iff_flawed : ∃ analysis,
    analyzeArchive flawedLibrary DEFAULT_ARCHIVE_LIMITS .ZIP (some (zipBytes flawedMembers)) = .ok analysis ∧ analysis.status ≠ .COMPLETE ∧
      Category.traversal.code ∈ codesOf analysis.findings := by
  obtain ⟨handled,failed,counted⟩ := flawed_events
  obtain ⟨analysis,returned,closed⟩ := (fails_closed_iff flawedLibrary DEFAULT_ARCHIVE_LIMITS .ZIP (zipBytes flawedMembers) (.inl rfl)
    (show 12 ≤ 64 by decide)).mpr (List.all_eq_true.mp handled)
  refine ⟨analysis,returned,?_,?_⟩
  · obtain ⟨event,member,failure⟩ := List.any_eq_true.mp failed
    cases event with
    | failed stage e => exact closed.incomplete stage e member
    | entry info seen depth => cases failure
    | tooDeep info depth => cases failure
  · obtain ⟨info,seen,depth,member,some⟩ := counted_entry (by rw [counted]; decide)
    exact closed.evident info seen depth member .traversal (by simp [observations]) some

/-- A ZIP file with an entry that leads out, and a member whose LZMA data is damaged. -/
def damagedArchive : Bytes :=
  [0x50,0x4b,0x03,0x04,0x14,0x00,0x00,0x00,0x00,0x00,0x00,0x00,0x21,0x00,0x00,0x00,0x00,0x00,0x00,0x00,0x00,0x00,0x00,
   0x00,0x00,0x00,0x04,0x00,0x00,0x00,0x2e,0x2e,0x2f,0x78,0x50,0x4b,0x03,0x04,0x3f,0x00,0x02,0x00,0x0e,0x00,0x00,0x00,
   0x21,0x00,0x76,0x0a,0xe3,0xf6,0x15,0x00,0x00,0x00,0x0c,0x00,0x00,0x00,0x01,0x00,0x00,0x00,0x61,0x09,0x04,0x05,0x00,
   0x5d,0x00,0x00,0x80,0x00,0xff,0x30,0xec,0x5c,0xff,0xff,0xff,0xff,0xf0,0x00,0x00,0x00,0x50,0x4b,0x01,0x02,0x14,0x03,
   0x14,0x00,0x00,0x00,0x00,0x00,0x00,0x00,0x21,0x00,0x00,0x00,0x00,0x00,0x00,0x00,0x00,0x00,0x00,0x00,0x00,0x00,0x04,
   0x00,0x00,0x00,0x00,0x00,0x00,0x00,0x00,0x00,0x00,0x00,0x80,0x01,0x00,0x00,0x00,0x00,0x2e,0x2e,0x2f,0x78,0x50,0x4b,
   0x01,0x02,0x3f,0x03,0x3f,0x00,0x02,0x00,0x0e,0x00,0x00,0x00,0x21,0x00,0x76,0x0a,0xe3,0xf6,0x15,0x00,0x00,0x00,0x0c,
   0x00,0x00,0x00,0x01,0x00,0x00,0x00,0x00,0x00,0x00,0x00,0x00,0x00,0x00,0x00,0x80,0x01,0x22,0x00,0x00,0x00,0x61,0x50,
   0x4b,0x05,0x06,0x00,0x00,0x00,0x00,0x02,0x00,0x02,0x00,0x61,0x00,0x00,0x00,0x56,0x00,0x00,0x00,0x00,0x00]

def damagedInfos : List ZipInfo :=
  [{ filename := lit "../x", externalAttr := 0x1800000, member := { content := [] } },
   { filename := lit "a", flagBits := 2, compressType := 14, externalAttr := 0x1800000,
     member := { content := [], raises := some (0,.LZMAError) } }]

def damagedArchiveLibrary : Library :=
  { storedLibrary [] with
    zipFile := fun data => if data = damagedArchive then .ok ⟨.ok damagedInfos⟩ else .error .BadZipFile }

/-- The exception leaves the analysis, and the entry before the member is not reported. -/
theorem damaged_member_escapes : analyzeArchive damagedArchiveLibrary DEFAULT_ARCHIVE_LIMITS .ZIP (some damagedArchive) =
    .error (.escaped (.library .LZMAError)) :=
  analyzeArchive_escaped (.inl rfl) (by decide +kernel)

end DocGuard.Archive
