import DocGuard.ArchiveSteps

/-!
The bytes of a file and of the ZIP files nested in it, counted up to the first breach
of a budget that the containers share: a traversal that ends there, as the inspection
does not, over the counters that decide what is read.
-/
namespace DocGuard.Archive
open DocGuard.Commands

/-! ### The survey -/

/-- The counters that decide what is read. -/
structure Budget where
  membersInspected : Nat := 0
  compressedBytesConsidered : Nat := 0
  actualDecompressedBytes : Nat := 0
  nestedArchiveBytesMaterialized : Nat := 0
  seenNestedDigests : List Text := []

def State.budget (s : State) : Budget :=
  ⟨s.membersInspected,s.compressedBytesConsidered,s.actualDecompressedBytes,s.nestedArchiveBytesMaterialized,
    s.seenNestedDigests⟩

/-- An inspection with these counters, of which nothing else is known. -/
def Budget.start (budget : Budget) : Inspection where
  membersInspected := budget.membersInspected
  compressedBytesConsidered := budget.compressedBytesConsidered
  actualDecompressedBytes := budget.actualDecompressedBytes
  nestedArchiveBytesMaterialized := budget.nestedArchiveBytesMaterialized
  seenNestedDigests := budget.seenNestedDigests

/-- What ends a survey. -/
inductive Ending where
  /-- A shared budget is exceeded, and the containers around still have these entries, as far as the member budget
      reaches. -/
  | breached (left : List ZipInfo)
  /-- An exception that no handler names. -/
  | raised (e : Exn)

variable (lib : Library) (limits : ArchiveAnalysisLimits)

/-- What is not opened for reading. -/
def isPassedOver (info : ZipInfo) : Bool := info.isDir || info.isSymlink || info.isEncrypted || !isSupported lib info

/-- A nested ZIP file; `descend` is the survey of its entries. -/
def surveyNested (descend : Bytes → Budget → Except Ending Budget) (depth : Nat) (nested : Bytes) (budget : Budget) :
    Except Ending Budget :=
  if limits.maxNestingDepth < depth + 1 ∨ lib.sha256 nested ∈ budget.seenNestedDigests then .ok budget
  else descend nested { budget with seenNestedDigests := lib.sha256 nested :: budget.seenNestedDigests }

/-- An entry that is read; the result says whether the container goes on. -/
def surveyMember (descend : Bytes → Budget → Except Ending Budget) (depth : Nat) (info : ZipInfo) (around : List ZipInfo)
    (budget : Budget) : Except Ending (Bool × Budget) :=
  let run := readMember limits around info.member budget.start
  match run.1 with
  | .error .stop =>
    if Breached limits run.2.toState then
      .error (.breached (around.take (limits.maxMembersInspected - budget.membersInspected)))
    else .ok (false,run.2.budget)
  | .error (.library e) =>
    if e = .NotImplementedError ∨ handledAtReading e then .ok (true,run.2.budget) else .error (.raised e)
  | .ok none => .ok (true,run.2.budget)
  | .ok (some nested) => (surveyNested lib limits descend depth nested run.2.budget).map fun budget => (true,budget)

/-- An entry, of which the member budget may leave none. -/
def surveyEntry (descend : Bytes → Budget → Except Ending Budget) (depth : Nat) (info : ZipInfo) (around : List ZipInfo)
    (budget : Budget) : Except Ending (Bool × Budget) :=
  if limits.maxMembersInspected ≤ budget.membersInspected then .ok (false,budget)
  else
    let counted := { budget with membersInspected := budget.membersInspected + 1 }
    if isPassedOver lib info then .ok (true,counted) else surveyMember lib limits descend depth info around counted

def surveyEntries (descend : Bytes → List ZipInfo → Budget → Except Ending Budget) (depth : Nat) (around : List ZipInfo) :
    List ZipInfo → Budget → Except Ending Budget
  | [],budget => .ok budget
  | info :: rest,budget =>
    match surveyEntry lib limits (fun nested => descend nested (rest ++ around)) depth info around budget with
    | .error e => .error e
    | .ok (true,budget) => surveyEntries descend depth around rest budget
    | .ok (false,budget) => .ok budget

/-- A container at a depth; there is one level less for each container around it. -/
def surveyArchive : Nat → Bytes → Nat → List ZipInfo → Budget → Except Ending Budget
  | 0,_,_,_,budget => .ok budget
  | levels+1,source,depth,around,budget =>
    let budget := { budget with compressedBytesConsidered := budget.compressedBytesConsidered + source.length }
    if limits.maxCompressedBytesConsidered < budget.compressedBytesConsidered then .ok budget
    else
      match lib.zipFile source with
      | .error e => if handledAtOpening e then .ok budget else .error (.raised e)
      | .ok container =>
        match container.infolist with
        | .error e => if handledAtListing e then .ok budget else .error (.raised e)
        | .ok infos =>
          surveyEntries lib limits (fun nested left => surveyArchive levels nested (depth + 1) left) depth around
            (infos.take limits.maxZipEntries) budget

/-- The survey of a file. -/
def survey (content : Bytes) : Except Ending Budget := surveyArchive lib limits (limits.maxNestingDepth + 1) content 0 [] {}

variable {lib limits}

/-! ### Reading -/

theorem budget_eq_iff (s t : State) : s.budget = t.budget ↔ s.membersInspected = t.membersInspected ∧
    s.compressedBytesConsidered = t.compressedBytesConsidered ∧ s.actualDecompressedBytes = t.actualDecompressedBytes ∧
      s.nestedArchiveBytesMaterialized = t.nestedArchiveBytesMaterialized ∧ s.seenNestedDigests = t.seenNestedDigests := by
  simp only [State.budget, Budget.mk.injEq]

/-- A view of the inspection, with the counters in it, that no step of the reading looks behind. -/
structure ReadView {ν : Type} (limits : ArchiveAnalysisLimits) (view : Inspection → ν) : Prop where
  budget : ∀ s t, view s = view t → s.budget = t.budget
  opens : ∀ member : Member, Follows view (openMember limits member)
  stops : ∀ (α : Type) (reason : Reason) (around : List ZipInfo),
    Follows view (stopReading limits reason around : Walk α)
  yields : ∀ (n memberBytes : Nat) (s t : Inspection), view s = view t →
    view { s with
      actualDecompressedBytes := s.actualDecompressedBytes + n
      history := { s.history with mostYielded := max s.history.mostYielded memberBytes } } =
    view { t with
      actualDecompressedBytes := t.actualDecompressedBytes + n
      history := { t.history with mostYielded := max t.history.mostYielded memberBytes } }
  materializes : ∀ (n : Nat) (s t : Inspection), view s = view t →
    view { s with nestedArchiveBytesMaterialized := s.nestedArchiveBytesMaterialized + n } =
      view { t with nestedArchiveBytesMaterialized := t.nestedArchiveBytesMaterialized + n }

section
variable {ν : Type} {view : Inspection → ν}

theorem follows_readChunk (member : Member) (offset n : Nat) : Follows view (readChunk member offset n) :=
  fun _ _ same => ⟨rfl,same⟩

variable (readable : ReadView limits view)
include readable

theorem follows_accountActualBytes (around : List ZipInfo) (chunk : Bytes) (memberBytes : Nat) :
    Follows view (accountActualBytes limits around chunk memberBytes) := by
  refine follows_bind (follows_update (readable.yields _ _)) fun _ => follows_observe (fun s t same => ?_) fun s => ?_
  · obtain ⟨_,_,bytes,_⟩ := (budget_eq_iff _ _).mp (readable.budget s t same)
    simp only [id, bytes]
  · split
    · exact readable.stops _ _ _
    split
    · exact readable.stops _ _ _
    · exact follows_pure _

theorem follows_appendNested (around : List ZipInfo) (chunk : Bytes) : Follows view (appendNested limits around chunk) := by
  refine follows_observe (fun s t same => ?_) fun s => ?_
  · obtain ⟨_,_,_,materialized,_⟩ := (budget_eq_iff _ _).mp (readable.budget s t same)
    simp only [id, materialized]
  · split
    · exact readable.stops _ _ _
    · exact follows_update (readable.materializes _)

theorem nextReadSize_view {s t : Inspection} (same : view s = view t) (memberBytes preferred : Nat) (nested : Bool) :
    nextReadSize limits s.toState memberBytes preferred nested = nextReadSize limits t.toState memberBytes preferred nested := by
  obtain ⟨_,_,bytes,materialized,_⟩ := (budget_eq_iff _ _).mp (readable.budget s t same)
  unfold nextReadSize
  rw [bytes, materialized]

theorem follows_readRest (around : List ZipInfo) (member : Member) (turns : Nat) (first : Bytes) (memberBytes : Nat)
    (nested : Option Bytes) : Follows view (readRest limits around member turns first memberBytes nested) := by
  induction turns generalizing first memberBytes nested with
  | zero => exact follows_pure nested
  | succ turns ih =>
    unfold readRest
    split
    · exact follows_pure nested
    · refine follows_observe (fun s t same => ?_) fun s => follows_bind (follows_readChunk _ _ _) fun chunk => ?_
      · dsimp only [id]
        rw [nextReadSize_view readable same]
      · split
        · exact follows_pure nested
        · refine follows_bind (follows_accountActualBytes readable _ _ _) fun total => ?_
          cases nested with
          | none => exact ih _ _ _
          | some target => exact follows_bind (follows_appendNested readable _ _) fun _ => ih _ _ _

/-- How a member is read only depends on the view. -/
theorem follows_readMember (around : List ZipInfo) (member : Member) : Follows view (readMember limits around member) := by
  refine follows_bind (readable.opens member) fun _ => follows_observe (fun s t same => ?_) fun s => ?_
  · dsimp only [id]
    rw [nextReadSize_view readable same]
  · refine follows_bind (follows_readChunk _ _ _) fun first =>
      follows_bind (follows_accountActualBytes readable _ _ _) fun total => ?_
    split
    · exact follows_bind (follows_appendNested readable _ _) fun _ => follows_readRest readable _ _ _ _ _ _
    · exact follows_readRest readable _ _ _ _ _ _

end

/-- What the reading of a member looks at and what is noted of it. -/
def Inspection.view (s : Inspection) : Budget × Bool × Option (List ZipInfo) :=
  (s.budget,decide (.nestedMaterializationLimit ∈ s.resourceReasons),s.history.leftAtBreach)

theorem view_eq_iff (s t : Inspection) : s.view = t.view ↔ s.budget = t.budget ∧
    (.nestedMaterializationLimit ∈ s.resourceReasons ↔ .nestedMaterializationLimit ∈ t.resourceReasons) ∧
      s.history.leftAtBreach = t.history.leftAtBreach := by
  simp only [Inspection.view, Prod.mk.injEq, decide_eq_decide]

variable (limits) in
theorem breached_view {s t : Inspection} (same : s.view = t.view) : Breached limits s.toState ↔ Breached limits t.toState := by
  obtain ⟨budget,nested,_⟩ := (view_eq_iff s t).mp same
  obtain ⟨_,_,bytes,_⟩ := (budget_eq_iff _ _).mp budget
  unfold Breached
  rw [bytes, nested]

theorem readView_view : ReadView limits Inspection.view where
  budget s t same := ((view_eq_iff s t).mp same).1
  opens member := by
    intro s t same
    unfold openMember
    cases member.openRaises with
    | some e => exact ⟨rfl,same⟩
    | none => exact ⟨rfl,same⟩
  stops α reason around := by
    refine follows_bind (follows_update fun s t same => ?_) fun _ => follows_bind (follows_update fun s t same => ?_) fun _ =>
      follows_raise _
    · obtain ⟨budget,nested,left⟩ := (view_eq_iff s t).mp same
      refine (view_eq_iff _ _).mpr ⟨budget,?_,left⟩
      simp only [List.mem_insert_iff, nested]
    · have breached := breached_view limits same
      obtain ⟨budget,nested,left⟩ := (view_eq_iff s t).mp same
      obtain ⟨inspected,_⟩ := (budget_eq_iff _ _).mp budget
      dsimp only
      by_cases exceeded : Breached limits s.toState
      · rw [if_pos exceeded, if_pos (breached.mp exceeded)]
        refine (view_eq_iff _ _).mpr ⟨budget,nested,?_⟩
        dsimp only
        rw [inspected, left]
      · rw [if_neg exceeded, if_neg fun there => exceeded (breached.mpr there)]
        exact same
  yields n memberBytes s t same := by
    obtain ⟨budget,nested,left⟩ := (view_eq_iff s t).mp same
    obtain ⟨inspected,compressed,bytes,rest⟩ := (budget_eq_iff _ _).mp budget
    refine (view_eq_iff _ _).mpr ⟨(budget_eq_iff _ _).mpr ⟨inspected,compressed,?_,rest⟩,nested,left⟩
    exact congrArg (· + n) bytes
  materializes n s t same := by
    obtain ⟨budget,nested,left⟩ := (view_eq_iff s t).mp same
    obtain ⟨inspected,compressed,bytes,materialized,digests⟩ := (budget_eq_iff _ _).mp budget
    refine (view_eq_iff _ _).mpr ⟨(budget_eq_iff _ _).mpr ⟨inspected,compressed,bytes,?_,digests⟩,nested,left⟩
    exact congrArg (· + n) materialized

/-! ### The first breach -/

/-- No shared budget is exceeded, and none has been noted. -/
def Sound (limits : ArchiveAnalysisLimits) (s : Inspection) : Prop :=
  ¬ Breached limits s.toState ∧ s.history.leftAtBreach = none

/-- After a part of the reading: a stop that exceeds a shared budget notes the entries around. -/
def ReadSoundly {α : Type} (limits : ArchiveAnalysisLimits) (around : List ZipInfo) (inspected : Nat)
    (result : Except Raised α) (s : Inspection) : Prop :=
  s.membersInspected = inspected ∧
    match result with
    | .error .stop =>
      if Breached limits s.toState then
        s.history.leftAtBreach = some (around.take (limits.maxMembersInspected - inspected))
      else s.history.leftAtBreach = none
    | _ => Sound limits s

/-- While a member is read. -/
def SoundAt (limits : ArchiveAnalysisLimits) (inspected : Nat) (s : Inspection) : Prop :=
  s.membersInspected = inspected ∧ Sound limits s

variable {around : List ZipInfo} {inspected : Nat}

theorem stopReading_soundly {α : Type} (reason : Reason) : Ensures (fun s => s.membersInspected = inspected ∧
    .nestedMaterializationLimit ∉ s.resourceReasons ∧ s.history.leftAtBreach = none)
      (stopReading limits reason around : Walk α) (ReadSoundly limits around inspected) := by
  rintro s ⟨rfl,_,none⟩
  simp only [stopReading, markResource, Command.update, Command.raise, bind]
  split
  · rename_i breached
    refine ⟨rfl,?_⟩
    dsimp only
    rw [if_pos breached, none, Option.none_or]
  · rename_i kept
    refine ⟨rfl,?_⟩
    dsimp only
    rw [if_neg kept, none]

theorem soundly_bind {α β : Type} {P : Inspection → Prop} {m : Walk α} {k : α → Walk β}
    (first : Ensures P m (ReadSoundly limits around inspected))
    (rest : ∀ a, Ensures (SoundAt limits inspected) (k a) (ReadSoundly limits around inspected)) :
    Ensures P (m >>= k) (ReadSoundly limits around inspected) := by
  refine ensures_bind first (fun a s reached => rest a s reached) fun e s reached => ?_
  cases e with
  | stop => exact reached
  | library e => exact reached

theorem readChunk_soundly (member : Member) (offset n : Nat) :
    Ensures (SoundAt limits inspected) (readChunk member offset n) (ReadSoundly limits around inspected) := by
  intro s sound
  show ReadSoundly limits around inspected ((member.read offset n).mapError Raised.library) s
  cases member.read offset n with
  | ok chunk => exact sound
  | error e => exact sound

theorem accountActualBytes_soundly (chunk : Bytes) (memberBytes : Nat) :
    Ensures (SoundAt limits inspected) (accountActualBytes limits around chunk memberBytes)
      (ReadSoundly limits around inspected) := by
  refine ensures_update (Q := fun s => s.membersInspected = inspected ∧
    .nestedMaterializationLimit ∉ s.resourceReasons ∧ s.history.leftAtBreach = none) ?_ ?_
  · rintro s ⟨same,unbreached,none⟩
    exact ⟨same,fun member => unbreached (.inr member),none⟩
  · apply ensures_observe
    rintro s ⟨same,other,none⟩
    dsimp only [id]
    by_cases long : limits.maxMemberBytes < memberBytes + chunk.length
    · rw [if_pos long]
      exact stopReading_soundly _ s ⟨same,other,none⟩
    · by_cases more : limits.maxTotalDecompressedBytes < s.actualDecompressedBytes
      · rw [if_neg long, if_pos more]
        exact stopReading_soundly _ s ⟨same,other,none⟩
      · rw [if_neg long, if_neg more]
        refine ⟨same,?_,none⟩
        rintro (total | member)
        · exact more total
        · exact other member

theorem appendNested_soundly (chunk : Bytes) :
    Ensures (SoundAt limits inspected) (appendNested limits around chunk) (ReadSoundly limits around inspected) := by
  apply ensures_observe
  rintro s ⟨same,unbreached,none⟩
  dsimp only [id]
  split
  · exact stopReading_soundly _ s ⟨same,fun member => unbreached (.inr member),none⟩
  · exact ⟨same,unbreached,none⟩

theorem readRest_soundly (member : Member) (turns : Nat) (first : Bytes) (memberBytes : Nat) (nested : Option Bytes) :
    Ensures (SoundAt limits inspected) (readRest limits around member turns first memberBytes nested)
      (ReadSoundly limits around inspected) := by
  induction turns generalizing first memberBytes nested with
  | zero => exact ensures_pure fun s sound => sound
  | succ turns ih =>
    unfold readRest
    split
    · exact ensures_pure fun s sound => sound
    · apply ensures_observe
      intro s sound
      refine soundly_bind (readChunk_soundly _ _ _) (fun chunk => ?_) s sound
      split
      · exact ensures_pure fun s sound => sound
      · refine soundly_bind (accountActualBytes_soundly _ _) fun total => ?_
        cases nested with
        | none => exact ih _ _ _
        | some target => exact soundly_bind (appendNested_soundly _) fun _ => ih _ _ _

variable (around) in
theorem readMember_soundly (member : Member) :
    Ensures (SoundAt limits inspected) (readMember limits around member) (ReadSoundly limits around inspected) := by
  refine soundly_bind (fun s sound => ?_) fun _ => ?_
  · unfold openMember
    cases member.openRaises with
    | some e => exact sound
    | none => exact sound
  · apply ensures_observe
    intro s sound
    refine soundly_bind (readChunk_soundly _ _ _) (fun first => ?_) s sound
    refine soundly_bind (accountActualBytes_soundly _ _) fun total => ?_
    split
    · exact soundly_bind (appendNested_soundly _) fun _ => readRest_soundly _ _ _ _ _
    · exact readRest_soundly _ _ _ _ _

/-! ### What is noted stays -/

/-- What has been noted of the first breach stays. -/
def Noted (s s' : Inspection) : Prop := ∀ left, s.history.leftAtBreach = some left → s'.history.leftAtBreach = some left

theorem noted_refl (s : Inspection) : Noted s s := fun _ => id

theorem noted_trans (s t u : Inspection) (first : Noted s t) (second : Noted t u) : Noted s u :=
  fun left found => second left (first left found)

theorem noted_update {f : Inspection → Inspection} (same : ∀ s, (f s).history.leftAtBreach = s.history.leftAtBreach) :
    Moves Noted Anything (Command.update f) :=
  moves_update fun s _ found => (same s).trans found

theorem noted_steps : ReadSteps Noted where
  refl := noted_refl
  trans := noted_trans
  opens s _ := noted_refl s
  yields s _ _ := noted_refl s
  materializes s _ := noted_refl s
  marks s _ := noted_refl s
  leaves s left := by
    intro first found
    dsimp only
    rw [found, Option.some_or]

variable {descend : Bytes → Walk Unit} {depth : Nat} {info : ZipInfo}

theorem NamesOnly.history {s s' : Inspection} (only : NamesOnly s s') : s'.history = s.history := by
  obtain ⟨_,_,_,_,rfl⟩ := only
  rfl

theorem noted_inspectNested (descends : ∀ nested, Moves Noted Anything (descend nested)) (nested : Bytes) :
    Moves Noted Anything (inspectNested lib limits descend depth info nested) := by
  refine moves_bind noted_trans (noted_update fun _ => rfl) fun _ => ?_
  split
  · refine moves_bind noted_trans (noted_update fun _ => rfl) fun _ => noted_update fun s => ?_
    rw [(retainRecord_only lib limits _ _ _ _ _ s).history]
  · refine moves_bind noted_trans (moves_observe noted_refl _) fun s => ?_
    split
    · exact noted_update fun _ => rfl
    · exact moves_bind noted_trans (noted_update fun _ => rfl) fun _ => descends nested

theorem noted_afterReading (descends : ∀ nested, Moves Noted Anything (descend nested))
    (read : Except Raised (Option Bytes)) : Moves Noted Anything (afterReading lib limits descend depth info read) := by
  match read with
  | .error .stop => exact moves_pure noted_refl _
  | .error (.library e) =>
    unfold afterReading
    dsimp only
    split
    · exact moves_bind noted_trans (noted_update fun _ => rfl) fun _ => moves_pure noted_refl _
    split
    · exact moves_bind noted_trans (noted_update fun _ => rfl) fun _ => moves_pure noted_refl _
    · exact moves_raise noted_refl trivial
  | .ok none => exact moves_pure noted_refl _
  | .ok (some nested) =>
    exact moves_bind noted_trans (noted_inspectNested descends nested) fun _ => moves_pure noted_refl _

theorem noted_inspectEntry {seen : SeenNames} (descends : ∀ nested, Moves Noted Anything (descend nested)) :
    Moves Noted Anything (inspectEntry lib limits descend depth info seen around) := by
  have goOn {m : Walk Unit} (moves : Moves Noted Anything m) : Moves Noted Anything (do m; pure true) :=
    moves_bind noted_trans moves fun _ => moves_pure noted_refl _
  refine moves_bind noted_trans (moves_observe noted_refl _) fun s => ?_
  split
  · exact moves_bind noted_trans (noted_update fun _ => rfl) fun _ => moves_pure noted_refl _
  · refine moves_bind noted_trans (noted_update fun s => ?_) fun _ => ?_
    · rw [(inspectName_only lib limits _ _ _ _).history]
    · split
      · exact goOn (noted_update fun _ => rfl)
      split
      · refine goOn (noted_update fun s => ?_)
        rw [(retainRecord_only lib limits _ _ _ _ _ _).history]
        rfl
      split
      · refine moves_bind noted_trans (noted_update fun _ => rfl) fun _ => moves_bind noted_trans (noted_update fun _ => rfl)
          fun _ => goOn (noted_update fun s => ?_)
        rw [(retainRecord_only lib limits _ _ _ _ _ _).history]
      split
      · exact goOn (noted_update fun _ => rfl)
      · exact moves_attempt noted_trans (moves_readMember noted_steps _ _) fun read _ => noted_afterReading descends read

theorem noted_inspectEntries {descend : Bytes → List ZipInfo → Walk Unit} (descends : ∀ nested left,
    Moves Noted Anything (descend nested left)) (infos : List ZipInfo) (seen : SeenNames) :
    Moves Noted Anything (inspectEntries lib limits descend depth around infos seen) := by
  induction infos generalizing seen with
  | nil => exact moves_pure noted_refl _
  | cons info rest ih =>
    refine moves_bind noted_trans (noted_inspectEntry fun nested => descends nested (rest ++ around)) fun goOn => ?_
    split
    · exact ih _
    · exact moves_pure noted_refl _

theorem noted_inspectArchive (levels : Nat) (source : Bytes) (depth : Nat) (around : List ZipInfo) :
    Moves Noted Anything (inspectArchive lib limits levels source depth around) := by
  have malformed (reason : Reason) (e : Exn) : Moves Noted Anything (markMalformed reason e) := noted_update fun _ => rfl
  have raised (e : Exn) : Moves Noted Anything (Command.raise (.library e) : Walk Unit) := moves_raise noted_refl trivial
  induction levels generalizing source depth around with
  | zero => exact moves_pure noted_refl _
  | succ levels ih =>
    refine moves_bind noted_trans (noted_update fun _ => rfl) fun _ => moves_bind noted_trans (moves_observe noted_refl _)
      fun s => ?_
    split
    · exact noted_update fun _ => rfl
    split
    · split
      · exact malformed _ _
      · exact raised _
    · refine moves_bind noted_trans (noted_update fun _ => rfl) fun _ => ?_
      split
      · split
        · exact malformed _ _
        · exact raised _
      · refine moves_bind noted_trans (noted_update fun _ => rfl) fun _ => ?_
        split
        · exact moves_bind noted_trans (noted_update fun _ => rfl) fun _ =>
            noted_inspectEntries (fun nested left => ih nested (depth + 1) left) _ _
        · exact noted_inspectEntries (fun nested left => ih nested (depth + 1) left) _ _

/-! ### The inspection follows the survey -/

/-- As long as no shared budget is exceeded the inspection counts what the survey counts; the first breach is noted. -/
def Tracks {α : Type} (limits : ArchiveAnalysisLimits) (surveyed : Except Ending (α × Budget)) (result : Except Raised α)
    (s : Inspection) : Prop :=
  match surveyed with
  | .ok (a,budget) => result = .ok a ∧ s.budget = budget ∧ Sound limits s
  | .error (.raised e) => result = .error (.library e) ∧ s.history.leftAtBreach = none
  | .error (.breached left) => s.history.leftAtBreach = some left

/-- The survey of a command without a result. -/
def unit (surveyed : Except Ending Budget) : Except Ending (Unit × Budget) := surveyed.map fun budget => ((),budget)

variable {s t : Inspection} {budget : Budget}

theorem Sound.view (sound : Sound limits s) (same : t.view = s.view) : Sound limits t := by
  obtain ⟨_,_,left⟩ := (view_eq_iff t s).mp same
  exact ⟨fun breached => sound.1 ((breached_view limits same).mp breached),left.trans sound.2⟩

theorem start_view (sound : Sound limits s) (same : s.budget = budget) : budget.start.view = s.view := by
  subst same
  refine (view_eq_iff _ _).mpr ⟨rfl,⟨nofun,fun member => absurd (Or.inr member) sound.1⟩,sound.2.symm⟩

/-- A step that the survey does not see. -/
theorem tracks_ok {α : Type} {a : α} (sound : Sound limits s) (same : s.budget = budget) (view : t.view = s.view) :
    Tracks limits (.ok (a,budget)) (.ok a) t :=
  ⟨rfl,((view_eq_iff t s).mp view).1.trans same,sound.view view⟩

theorem NamesOnly.view (only : NamesOnly s t) : t.view = s.view := by
  obtain ⟨_,_,_,_,rfl⟩ := only
  rfl

theorem resource_view {reason : Reason} (other : reason ≠ .nestedMaterializationLimit) (s : Inspection) :
    Inspection.view { s with
      resourceReasons := s.resourceReasons.insert reason
      partialReasons := s.partialReasons.insert reason } = s.view := by
  refine (view_eq_iff _ _).mpr ⟨rfl,?_,rfl⟩
  simp [List.mem_insert_iff, other.symm]

variable (lib depth info) in
theorem tracks_nested {descends : Bytes → Budget → Except Ending Budget} (nested : Bytes) (sound : Sound limits s)
    (same : s.budget = budget) (tracks : ∀ nested t budget, Sound limits t → t.budget = budget →
      Tracks limits (unit (descends nested budget)) (descend nested t).1 (descend nested t).2) :
    Tracks limits (unit (surveyNested lib limits descends depth nested budget))
      (inspectNested lib limits descend depth info nested s).1 (inspectNested lib limits descend depth info nested s).2 := by
  unfold surveyNested inspectNested
  rw [bind_returned (show (Command.update _ : Walk Unit) s = (.ok (),_) from rfl)]
  have counted : Sound limits { s with nestedArchivesDetected := s.nestedArchivesDetected + 1 } := sound.view rfl
  have kept : ({ s with nestedArchivesDetected := s.nestedArchivesDetected + 1 } : Inspection).budget = budget := same
  generalize ({ s with nestedArchivesDetected := s.nestedArchivesDetected + 1 } : Inspection) = u at counted kept ⊢
  by_cases deep : limits.maxNestingDepth < depth + 1
  · rw [if_pos deep, if_pos (Or.inl deep)]
    exact tracks_ok counted kept (retainRecord_only lib limits _ _ _ _ _ _).view
  · rw [if_neg deep, bind_returned (show (Command.observe id : Walk Inspection) u = (.ok u,u) from rfl)]
    have digests : budget.seenNestedDigests = u.seenNestedDigests := congrArg Budget.seenNestedDigests kept.symm
    by_cases seen : lib.sha256 nested ∈ u.seenNestedDigests
    · rw [if_pos (Or.inr (digests ▸ seen)), if_pos seen]
      exact tracks_ok counted kept rfl
    · rw [if_neg (not_or.mpr ⟨deep,digests ▸ seen⟩), if_neg seen]
      refine tracks nested _ _ counted ?_
      subst kept
      rfl

/-- A command that goes on after a surveyed one. -/
theorem Tracks.andThen {surveyed : Except Ending Budget} {m : Walk Unit} {α : Type}
    (once : Tracks limits (unit surveyed) (m s).1 (m s).2) (a : α) :
    Tracks limits (surveyed.map fun budget => (a,budget)) ((m >>= fun _ => pure a) s).1 ((m >>= fun _ => pure a) s).2 := by
  revert once
  cases ran : m s with
  | mk result t =>
    cases surveyed with
    | ok budget =>
      rintro ⟨rfl,counted,still⟩
      rw [bind_returned ran]
      exact ⟨rfl,counted,still⟩
    | error ending =>
      intro once
      cases result with
      | ok a =>
        rw [bind_returned ran]
        cases ending with
        | breached left => exact once
        | raised e => cases once.1
      | error e' =>
        rw [bind_raised ran]
        cases ending with
        | breached left => exact once
        | raised e =>
          cases once.1
          exact ⟨rfl,once.2⟩

/-- An exception of the library at a member. -/
theorem tracks_raised {e : Exn} (sound : Sound limits t) (kept : t.budget = budget) :
    Tracks limits (if e = .NotImplementedError ∨ handledAtReading e then .ok (true,budget) else .error (.raised e))
      (afterReading lib limits descend depth info (.error (.library e)) t).1
      (afterReading lib limits descend depth info (.error (.library e)) t).2 := by
  unfold afterReading
  dsimp only
  by_cases unsupported : e = .NotImplementedError
  · rw [if_pos (Or.inl unsupported), if_pos unsupported]
    exact tracks_ok sound kept rfl
  · rw [if_neg unsupported]
    by_cases handled : handledAtReading e = true
    · rw [if_pos (Or.inr handled), if_pos handled]
      exact tracks_ok sound kept rfl
    · rw [if_neg (not_or.mpr ⟨unsupported,handled⟩), if_neg handled]
      exact ⟨rfl,sound.2⟩

/-- What is done with what was read. -/
theorem tracks_member {descends : Bytes → Budget → Except Ending Budget} (sound : Sound limits s) (same : s.budget = budget)
    (tracks : ∀ nested t budget, Sound limits t → t.budget = budget →
      Tracks limits (unit (descends nested budget)) (descend nested t).1 (descend nested t).2) :
    Tracks limits (surveyMember lib limits descends depth info around budget)
      (inspectMember lib limits descend depth info around s).1 (inspectMember lib limits descend depth info around s).2 := by
  have started := start_view sound same
  obtain ⟨result,view⟩ := follows_readMember readView_view around info.member budget.start s started
  have begun : SoundAt limits budget.membersInspected budget.start := ⟨rfl,sound.view started⟩
  have read := readMember_soundly around info.member budget.start begun
  rw [show inspectMember lib limits descend depth info around s =
    afterReading lib limits descend depth info (readMember limits around info.member s).1
      (readMember limits around info.member s).2 from rfl, ← result]
  unfold surveyMember
  dsimp only
  generalize (readMember limits around info.member s).2 = t at view ⊢
  generalize readMember limits around info.member budget.start = run at read view ⊢
  obtain ⟨result,u⟩ := run
  dsimp only at read view ⊢
  have kept : t.budget = u.budget := ((view_eq_iff u t).mp view).1.symm
  obtain ⟨_,read⟩ := read
  match result with
  | .error .stop =>
    have breached := breached_view limits view
    have left : u.history.leftAtBreach = t.history.leftAtBreach := ((view_eq_iff u t).mp view).2.2
    dsimp only at read ⊢
    by_cases exceeded : Breached limits u.toState
    · rw [if_pos exceeded] at read
      rw [if_pos exceeded]
      exact left.symm.trans read
    · rw [if_neg exceeded] at read
      rw [if_neg exceeded]
      exact ⟨rfl,kept,fun there => exceeded (breached.mpr there),left.symm.trans read⟩
  | .error (.library e) => exact tracks_raised (Sound.view read view.symm) kept
  | .ok none => exact tracks_ok (Sound.view read view.symm) kept rfl
  | .ok (some nested) =>
    have inner := tracks_nested lib depth info nested (Sound.view read view.symm) kept tracks
    exact inner.andThen true

theorem tracks_entry {descends : Bytes → Budget → Except Ending Budget} {seen : SeenNames} (sound : Sound limits s)
    (same : s.budget = budget) (tracks : ∀ nested t budget, Sound limits t → t.budget = budget →
      Tracks limits (unit (descends nested budget)) (descend nested t).1 (descend nested t).2) :
    Tracks limits (surveyEntry lib limits descends depth info around budget)
      (inspectEntry lib limits descend depth info seen around s).1
      (inspectEntry lib limits descend depth info seen around s).2 := by
  have inspected : budget.membersInspected = s.membersInspected := congrArg Budget.membersInspected same.symm
  unfold surveyEntry inspectEntry
  rw [bind_returned (show (Command.observe id : Walk Inspection) s = (.ok s,s) from rfl)]
  by_cases reached : limits.maxMembersInspected ≤ s.membersInspected
  · rw [if_pos reached, if_pos (inspected ▸ reached)]
    exact tracks_ok sound same (resource_view (by decide) s)
  · rw [if_neg reached, if_neg (inspected ▸ reached), bind_returned (show (Command.update _ : Walk Unit) s = (.ok (),_) from rfl)]
    have only := inspectName_only lib limits info.filename depth seen { s with
      membersInspected := s.membersInspected + 1
      history := { s.history with visited := (info,seen) :: s.history.visited } }
    have counted : Sound limits { s with
        membersInspected := s.membersInspected + 1
        history := { s.history with visited := (info,seen) :: s.history.visited } } := ⟨sound.1,sound.2⟩
    have named := counted.view only.view
    have kept := ((view_eq_iff _ _).mp only.view).1
    have total : ({ s with
        membersInspected := s.membersInspected + 1
        history := { s.history with visited := (info,seen) :: s.history.visited } } : Inspection).budget =
          { budget with membersInspected := budget.membersInspected + 1 } := by
      subst same
      rfl
    rw [total] at kept
    generalize inspectName lib limits info.filename depth seen _ = u at named kept ⊢
    by_cases directory : info.isDir = true
    · rw [if_pos directory, if_pos (by simp [isPassedOver, directory])]
      exact tracks_ok named kept rfl
    rw [if_neg directory]
    by_cases symlink : info.isSymlink = true
    · rw [if_pos symlink, if_pos (by simp [isPassedOver, symlink])]
      exact tracks_ok named kept ((counted_only .symlink u).trans (retainRecord_only lib limits _ _ _ _ _ _)).view
    rw [if_neg symlink]
    by_cases encrypted : info.isEncrypted = true
    · rw [if_pos encrypted, if_pos (by simp [isPassedOver, encrypted])]
      exact tracks_ok named kept ((retainRecord_only lib limits _ _ _ _ _ _).view.trans (counted_only .encrypted u).view)
    rw [if_neg encrypted]
    by_cases unsupported : (!isSupported lib info) = true
    · rw [if_pos unsupported, if_pos (by simp [isPassedOver, unsupported])]
      exact tracks_ok named kept rfl
    · rw [if_neg unsupported, if_neg (by simp [isPassedOver, directory, symlink, encrypted, unsupported])]
      exact tracks_member named kept tracks

theorem tracks_entries {descends : Bytes → List ZipInfo → Budget → Except Ending Budget}
    {descend : Bytes → List ZipInfo → Walk Unit} (tracks : ∀ nested left t budget, Sound limits t → t.budget = budget →
      Tracks limits (unit (descends nested left budget)) (descend nested left t).1 (descend nested left t).2)
    (notes : ∀ nested left, Moves Noted Anything (descend nested left)) (infos : List ZipInfo) (seen : SeenNames)
    {s : Inspection} {budget : Budget} (sound : Sound limits s) (same : s.budget = budget) :
    Tracks limits (unit (surveyEntries lib limits descends depth around infos budget))
      (inspectEntries lib limits descend depth around infos seen s).1
      (inspectEntries lib limits descend depth around infos seen s).2 := by
  induction infos generalizing seen s budget with
  | nil => exact tracks_ok sound same rfl
  | cons info rest ih =>
    have entry : Tracks limits
        (surveyEntry lib limits (fun nested => descends nested (rest ++ around)) depth info around budget)
        (inspectEntry lib limits (fun nested => descend nested (rest ++ around)) depth info seen around s).1
        (inspectEntry lib limits (fun nested => descend nested (rest ++ around)) depth info seen around s).2 :=
      tracks_entry sound same fun nested t budget => tracks nested (rest ++ around) t budget
    unfold surveyEntries inspectEntries
    revert entry
    cases ended : inspectEntry lib limits (fun nested => descend nested (rest ++ around)) depth info seen around s with
    | mk result t =>
      cases surveyEntry lib limits (fun nested => descends nested (rest ++ around)) depth info around budget with
      | ok after =>
        obtain ⟨goOn,after⟩ := after
        rintro ⟨returned,counted,still⟩
        cases returned
        rw [bind_returned ended]
        cases goOn with
        | true => exact ih _ still counted
        | false => exact tracks_ok still counted rfl
      | error ending =>
        intro entry
        cases ending with
        | raised e =>
          obtain ⟨raised,none⟩ := entry
          cases raised
          rw [bind_raised ended]
          exact ⟨rfl,none⟩
        | breached left =>
          -- the containers around go on, but what is noted stays
          cases result with
          | error e =>
            rw [bind_raised ended]
            exact entry
          | ok goOn =>
            rw [bind_returned ended]
            cases goOn with
            | true => exact (noted_inspectEntries notes rest _ t).1 left entry
            | false => exact entry

theorem tracks_archive (levels : Nat) (source : Bytes) (depth : Nat) (around : List ZipInfo) (s : Inspection)
    (budget : Budget) (sound : Sound limits s) (same : s.budget = budget) :
    Tracks limits (unit (surveyArchive lib limits levels source depth around budget))
      (inspectArchive lib limits levels source depth around s).1
      (inspectArchive lib limits levels source depth around s).2 := by
  induction levels generalizing source depth around s budget with
  | zero => exact tracks_ok sound same rfl
  | succ levels ih =>
    unfold surveyArchive inspectArchive
    rw [bind_returned (show (Command.update _ : Walk Unit) s = (.ok (),_) from rfl)]
    have considered : Sound limits { s with compressedBytesConsidered := s.compressedBytesConsidered + source.length } :=
      ⟨sound.1,sound.2⟩
    have kept : ({ s with compressedBytesConsidered := s.compressedBytesConsidered + source.length } : Inspection).budget =
        { budget with compressedBytesConsidered := budget.compressedBytesConsidered + source.length } := by
      subst same
      rfl
    dsimp only
    generalize ({ s with compressedBytesConsidered := s.compressedBytesConsidered + source.length } : Inspection) = u
      at considered kept ⊢
    rw [bind_returned (show (Command.observe id : Walk Inspection) u = (.ok u,u) from rfl)]
    have bytes : budget.compressedBytesConsidered + source.length = u.compressedBytesConsidered :=
      (congrArg Budget.compressedBytesConsidered kept).symm
    rw [bytes] at kept ⊢
    by_cases large : limits.maxCompressedBytesConsidered < u.compressedBytesConsidered
    · rw [if_pos large, if_pos large]
      exact tracks_ok considered kept (resource_view (by decide) u)
    · rw [if_neg large, if_neg large]
      cases lib.zipFile source with
      | error e =>
        dsimp only
        by_cases handled : handledAtOpening e = true
        · rw [if_pos handled, if_pos handled]
          exact tracks_ok considered kept rfl
        · rw [if_neg handled, if_neg handled]
          exact ⟨rfl,considered.2⟩
      | ok container =>
        dsimp only
        unfold inspectContainer
        rw [bind_returned (show (Command.update _ : Walk Unit) u = (.ok (),_) from rfl)]
        cases container.infolist with
        | error e =>
          dsimp only
          by_cases handled : handledAtListing e = true
          · rw [if_pos handled, if_pos handled]
            exact tracks_ok considered kept rfl
          · rw [if_neg handled, if_neg handled]
            exact ⟨rfl,considered.2⟩
        | ok infos =>
          dsimp only
          unfold inspectInfos
          rw [bind_returned (show (Command.update _ : Walk Unit) _ = (.ok (),_) from rfl)]
          have entries (infos : List ZipInfo) (t : Inspection) (view : t.view = u.view) : Tracks limits
              (unit (surveyEntries lib limits (fun nested left => surveyArchive lib limits levels nested (depth + 1) left)
                depth around infos { budget with compressedBytesConsidered := u.compressedBytesConsidered }))
              (inspectEntries lib limits (fun nested left => inspectArchive lib limits levels nested (depth + 1) left)
                depth around infos [] t).1
              (inspectEntries lib limits (fun nested left => inspectArchive lib limits levels nested (depth + 1) left)
                depth around infos [] t).2 :=
            tracks_entries (fun nested left t budget => ih nested (depth + 1) left t budget)
              (fun nested left => noted_inspectArchive levels nested (depth + 1) left) infos []
              (considered.view view) (((view_eq_iff t u).mp view).1.trans kept)
          by_cases many : limits.maxZipEntries < infos.length
          · rw [if_pos many, bind_returned (show markResource _ _ = (.ok (),_) from rfl)]
            refine entries _ _ ?_
            exact resource_view (by decide : Reason.zipEntryLimit ≠ .nestedMaterializationLimit) { u with
              archiveCount := u.archiveCount + 1
              entryCount := u.entryCount + infos.length }
          · rw [if_neg many, List.take_of_length_le (Nat.le_of_not_lt many)]
            refine entries _ _ ?_
            rfl

/-- What the survey of a file finds of the first breach is what the inspection notes. -/
theorem noted_iff (content : Bytes) (left : List ZipInfo) :
    (inspect lib limits content).2.history.leftAtBreach = some left ↔ survey lib limits content = .error (.breached left) := by
  have sound : Sound limits {} := ⟨by simp [Breached],rfl⟩
  have tracks : Tracks limits (unit (survey lib limits content)) (inspect lib limits content).1 (inspect lib limits content).2 :=
    tracks_archive (limits.maxNestingDepth + 1) content 0 [] {} {} sound rfl
  revert tracks
  cases survey lib limits content with
  | ok budget =>
    rintro ⟨_,_,sound⟩
    rw [sound.2]
    simp
  | error ending =>
    cases ending with
    | raised e =>
      rintro ⟨_,none⟩
      rw [none]
      simp
    | breached first =>
      intro noted
      have noted : (inspect lib limits content).2.history.leftAtBreach = some first := noted
      rw [noted]
      simp

end DocGuard.Archive
