import DocGuard.ArchiveSurvey

/-!
The byte budgets that the containers of a file share. A stop ends the loop of one
container only: the containers around it go on. The budgets hold, and nothing is
read after one of them is exceeded, exactly if no stop leaves an entry behind that
a container around it goes on to read.
-/
namespace DocGuard.Archive
open DocGuard.Commands

variable (lib : Library) (limits : ArchiveAnalysisLimits)

/-! ### The entries that are left -/

/-- What becomes of an entry: it is passed over, opened for reading, or its opening raises what no handler names. -/
inductive Fate where
  | skipped
  | read
  | escapes
deriving DecidableEq

def fate (info : ZipInfo) : Fate :=
  if isPassedOver lib info then .skipped
  else
    match info.member.openRaises with
    | none => .read
    | some e => if e = .NotImplementedError || handledAtReading e then .skipped else .escapes

/-- The first entry that is not passed over is read. -/
def readsNext : List ZipInfo → Bool
  | [] => false
  | info :: rest =>
    match fate lib info with
    | .skipped => readsNext rest
    | .read => true
    | .escapes => false

/-- What the inspection promises about the bytes: no budget is exceeded by more than one byte, and nothing is read after
    one that the containers share is exceeded. -/
structure KeepsByteBudgets (s : Inspection) : Prop where
  materialized : s.nestedArchiveBytesMaterialized ≤ limits.maxNestedArchiveBytes
  member : s.history.mostYielded ≤ limits.maxMemberBytes + 1
  total : s.actualDecompressedBytes ≤ limits.maxTotalDecompressedBytes + 1
  stops : s.history.readAfterBreach = false

/-- The first stop with a shared budget exceeded left an entry behind that is read next. -/
def Owes (s : Inspection) : Prop := ∃ left, s.history.leftAtBreach = some left ∧ readsNext lib left = true

/-- The invariant; `next` tells whether the entries to come are read on. -/
structure Within (next : Bool) (s : Inspection) : Prop where
  materialized : s.nestedArchiveBytesMaterialized ≤ limits.maxNestedArchiveBytes
  member : s.history.mostYielded ≤ limits.maxMemberBytes + 1
  total : s.history.readAfterBreach = false → s.actualDecompressedBytes ≤ limits.maxTotalDecompressedBytes + 1
  late : s.history.readAfterBreach = true → Breached limits s.toState
  noted : s.history.leftAtBreach ≠ none → Breached limits s.toState
  owes : Owes lib s ↔ s.history.readAfterBreach = true ∨ Breached limits s.toState ∧ next = true

/-- The entries to come, as far as the member budget reaches, are read on. -/
def nextOf (left : List ZipInfo) (s : Inspection) : Bool :=
  readsNext lib (left.take (limits.maxMembersInspected - s.membersInspected))

/-- The invariant between two entries. -/
def Pending (left : List ZipInfo) (s : Inspection) : Prop := Within lib limits (nextOf lib limits left s) s

/-- After a command: what is pending if it returns, and nothing if an exception ends the inspection. -/
def Leaves {α : Type} (left : List ZipInfo) (result : Except Raised α) (s : Inspection) : Prop :=
  match result with
  | .ok _ => Pending lib limits left s
  | .error _ => Within lib limits false s

/-! ### Steps that do not touch the bytes -/

/-- The budgets, what is logged of them, and the number of the entries are the same. -/
structure SameBytes (s s' : Inspection) : Prop where
  materialized : s'.nestedArchiveBytesMaterialized = s.nestedArchiveBytesMaterialized
  member : s'.history.mostYielded = s.history.mostYielded
  total : s'.actualDecompressedBytes = s.actualDecompressedBytes
  late : s'.history.readAfterBreach = s.history.readAfterBreach
  left : s'.history.leftAtBreach = s.history.leftAtBreach
  inspected : s'.membersInspected = s.membersInspected
  reason : .nestedMaterializationLimit ∈ s'.resourceReasons ↔ .nestedMaterializationLimit ∈ s.resourceReasons

variable {lib limits}

theorem SameBytes.breached {s s' : Inspection} (same : SameBytes s s') :
    Breached limits s'.toState ↔ Breached limits s.toState := by
  unfold Breached
  rw [same.total, same.reason]

theorem SameBytes.within {s s' : Inspection} (same : SameBytes s s') {next : Bool} (within : Within lib limits next s) :
    Within lib limits next s' := by
  refine ⟨?_,?_,?_,?_,?_,?_⟩
  · rw [same.materialized]
    exact within.materialized
  · rw [same.member]
    exact within.member
  · rw [same.late, same.total]
    exact within.total
  · rw [same.late, same.breached]
    exact within.late
  · rw [same.left, same.breached]
    exact within.noted
  · rw [same.late, same.breached, Owes, same.left]
    exact within.owes

theorem SameBytes.pending {s s' : Inspection} (same : SameBytes s s') {left : List ZipInfo}
    (pending : Pending lib limits left s) : Pending lib limits left s' := by
  have next : nextOf lib limits left s' = nextOf lib limits left s := by
    rw [nextOf, nextOf, same.inspected]
  rw [Pending, next]
  exact same.within pending

theorem NamesOnly.sameBytes {s s' : Inspection} (only : NamesOnly s s') : SameBytes s s' := by
  obtain ⟨_,_,_,_,rfl⟩ := only
  exact ⟨rfl,rfl,rfl,rfl,rfl,rfl,Iff.rfl⟩

theorem resource_sameBytes {reason : Reason} (other : reason ≠ .nestedMaterializationLimit) (s : Inspection) :
    SameBytes s { s with
      resourceReasons := s.resourceReasons.insert reason
      partialReasons := s.partialReasons.insert reason } := by
  refine ⟨rfl,rfl,rfl,rfl,rfl,rfl,?_⟩
  simp [List.mem_insert_iff, other.symm]

/-! ### Reading a member -/

/-- While a member is read: if a shared budget is exceeded, the reading itself came too late. -/
structure Reading (lib : Library) (limits : ArchiveAnalysisLimits) (s : Inspection) : Prop where
  within : Within lib limits false s
  tooLate : Breached limits s.toState → s.history.readAfterBreach = true

theorem Reading.any {s : Inspection} (reading : Reading lib limits s) (next : Bool) : Within lib limits next s := by
  have within := reading.within
  refine ⟨within.materialized,within.member,within.total,within.late,within.noted,?_⟩
  rw [within.owes]
  constructor
  · rintro (late | ⟨_,⟨⟩⟩)
    exact Or.inl late
  · rintro (late | ⟨breached,_⟩)
    · exact Or.inl late
    · exact Or.inl (reading.tooLate breached)

theorem SameBytes.reading {s s' : Inspection} (same : SameBytes s s') (reading : Reading lib limits s) :
    Reading lib limits s' := by
  refine ⟨same.within reading.within,?_⟩
  rw [same.breached, same.late]
  exact reading.tooLate

/-- After a part of the reading: a stop leaves the entries around, anything else goes on reading. -/
def Reads {α : Type} (lib : Library) (limits : ArchiveAnalysisLimits) (around : List ZipInfo) (result : Except Raised α)
    (s : Inspection) : Prop :=
  match result with
  | .error .stop => Pending lib limits around s
  | _ => Reading lib limits s

/-- Whatever was noted before was followed by a late reading. -/
theorem stopReading_ensures {α : Type} (reason : Reason) (around : List ZipInfo) :
    Ensures (fun s => Within lib limits false s ∧ (s.history.leftAtBreach ≠ none → s.history.readAfterBreach = true))
      (stopReading limits reason around) (Reads (α := α) lib limits around) := by
  rintro s ⟨within,noted⟩
  have owes : Owes lib s ↔ s.history.readAfterBreach = true := by
    simpa using within.owes
  have grown : Breached limits s.toState → Breached limits { s.toState with
      resourceReasons := s.resourceReasons.insert reason
      partialReasons := s.partialReasons.insert reason } :=
    Or.imp id fun member => List.mem_insert_of_mem member
  show Pending lib limits around (stopReading (α := α) limits reason around s).2
  simp only [stopReading, markResource, Command.update, Command.raise, bind]
  split
  · rename_i breached
    refine ⟨within.materialized,within.member,within.total,fun _ => breached,fun _ => breached,?_⟩
    cases before : s.history.leftAtBreach with
    | none =>
      have timely : s.history.readAfterBreach = false := by
        by_contra late
        obtain ⟨left,found,_⟩ := owes.mpr (by simpa using late)
        rw [before] at found
        cases found
      simp only [Owes, Option.none_or, Option.some.injEq, exists_eq_left', timely, Bool.false_eq_true, false_or]
      exact ⟨fun next => ⟨breached,next⟩,fun both => both.2⟩
    | some left =>
      have late : s.history.readAfterBreach = true := noted (by rw [before]; exact Option.some_ne_none left)
      have owed : readsNext lib left = true := by
        obtain ⟨left',found,reads⟩ := owes.mpr late
        rw [before] at found
        cases found
        exact reads
      simp only [Owes, Option.some_or, Option.some.injEq, exists_eq_left', late, true_or, owed]
  · rename_i kept
    refine ⟨within.materialized,within.member,within.total,fun late => grown (within.late late),
      fun found => grown (within.noted found),?_⟩
    show Owes lib s ↔ _
    rw [owes]
    constructor
    · exact Or.inl
    · rintro (late | ⟨breached,_⟩)
      · exact late
      · exact absurd breached kept

theorem readChunk_ensures {P : Inspection → Prop} (member : Member) (offset n : Nat) :
    Ensures P (readChunk member offset n) fun result s => P s ∧ result ≠ .error .stop ∧
      ∀ chunk, result = .ok chunk → chunk.length ≤ max 1 n := by
  intro s holds
  refine ⟨holds,?_,?_⟩
  · show (member.read offset n).mapError Raised.library ≠ .error .stop
    cases member.read offset n with
    | ok chunk => exact nofun
    | error e => exact nofun
  · intro chunk returned
    change (member.read offset n).mapError Raised.library = .ok chunk at returned
    have short : ((member.content.drop offset).take (max 1 (min n (member.returned offset)))).length ≤ max 1 n := by
      rw [List.length_take]
      omega
    unfold Member.read at returned
    dsimp only at returned
    split at returned
    · split at returned
      · cases returned
      · cases returned
        exact short
    · cases returned
      exact short

/-- A chunk is at most one byte longer than what is left of the budgets for it. -/
def Fits (limits : ArchiveAnalysisLimits) (memberBytes : Nat) (chunk : Bytes) (s : Inspection) : Prop :=
  memberBytes + chunk.length ≤ limits.maxMemberBytes + 1 ∧
    (s.actualDecompressedBytes ≤ limits.maxTotalDecompressedBytes →
      s.actualDecompressedBytes + chunk.length ≤ limits.maxTotalDecompressedBytes + 1)

theorem nextReadSize_fits {s : Inspection} {memberBytes preferred : Nat} {nested : Bool} {chunk : Bytes}
    (below : memberBytes ≤ limits.maxMemberBytes)
    (short : chunk.length ≤ max 1 (nextReadSize limits s.toState memberBytes preferred nested)) :
    Fits limits memberBytes chunk s := by
  unfold nextReadSize at short
  dsimp only at short
  constructor
  · split at short <;> omega
  · intro under
    split at short <;> omega

/-- A chunk is accounted, and the budgets are not compared yet. -/
structure Accounted (lib : Library) (limits : ArchiveAnalysisLimits) (s : Inspection) : Prop where
  within : Within lib limits false s
  nested : .nestedMaterializationLimit ∈ s.resourceReasons → s.history.readAfterBreach = true
  noted : s.history.leftAtBreach ≠ none → s.history.readAfterBreach = true

theorem accountActualBytes_ensures {around : List ZipInfo} {chunk : Bytes} {memberBytes : Nat} :
    Ensures (fun s => Reading lib limits s ∧ Fits limits memberBytes chunk s)
      (accountActualBytes limits around chunk memberBytes)
      fun result s => Reads lib limits around result s ∧ ∀ total, result = .ok total → total ≤ limits.maxMemberBytes := by
  have moved (s : Inspection) : Reading lib limits s ∧ Fits limits memberBytes chunk s →
      Accounted lib limits { s with
        actualDecompressedBytes := s.actualDecompressedBytes + chunk.length
        history := { s.history with mostYielded := max s.history.mostYielded (memberBytes + chunk.length) } } := by
    rintro ⟨reading,short,total⟩
    have within := reading.within
    refine ⟨⟨within.materialized,max_le within.member short,?_,?_,?_,?_⟩,fun member => reading.tooLate (Or.inr member),
      fun found => reading.tooLate (within.noted found)⟩
    · intro timely
      have under : ¬ Breached limits s.toState := fun breached => by
        rw [reading.tooLate breached] at timely
        cases timely
      exact total (Nat.le_of_not_lt fun more => under (Or.inl more))
    · intro late
      exact (within.late late).imp (fun more => Nat.lt_add_right _ more) id
    · intro found
      exact (within.noted found).imp (fun more => Nat.lt_add_right _ more) id
    · exact within.owes.trans (by simp)
  refine ensures_update moved ?_
  apply ensures_observe
  rintro s ⟨within,nested,noted⟩
  have stops (reason : Reason) := stopReading_ensures (α := Nat) reason around s ⟨within,noted⟩
  dsimp only [id]
  by_cases long : limits.maxMemberBytes < memberBytes + chunk.length
  · rw [if_pos long]
    exact ⟨stops _,nofun⟩
  · by_cases more : limits.maxTotalDecompressedBytes < s.actualDecompressedBytes
    · rw [if_neg long, if_pos more]
      exact ⟨stops _,nofun⟩
    · rw [if_neg long, if_neg more]
      refine ⟨⟨within,?_⟩,?_⟩
      · rintro (total | member)
        · exact absurd total more
        · exact nested member
      · rintro total ⟨⟩
        exact Nat.le_of_not_lt long

theorem appendNested_ensures {around : List ZipInfo} {chunk : Bytes} :
    Ensures (Reading lib limits) (appendNested limits around chunk) (Reads lib limits around) := by
  apply ensures_observe
  intro s reading
  dsimp only [id]
  by_cases more : limits.maxNestedArchiveBytes < s.nestedArchiveBytesMaterialized + chunk.length
  · rw [if_pos more]
    exact stopReading_ensures _ _ s ⟨reading.within,fun found => reading.tooLate (reading.within.noted found)⟩
  · rw [if_neg more]
    have within := reading.within
    exact ⟨⟨Nat.le_of_not_lt more,within.member,within.total,within.late,within.noted,within.owes⟩,reading.tooLate⟩

/-- The rest of a command after a part of the reading. -/
theorem reads_bind {α β : Type} {P : Inspection → Prop} {around : List ZipInfo} {m : Walk α} {k : α → Walk β}
    {Q : α → Prop} (first : Ensures P m fun result s => Reads lib limits around result s ∧ ∀ a, result = .ok a → Q a)
    (rest : ∀ a, Q a → Ensures (Reading lib limits) (k a) (Reads lib limits around)) :
    Ensures P (m >>= k) (Reads lib limits around) := by
  refine ensures_bind first ?_ ?_
  · rintro a s ⟨reading,returned⟩
    exact rest a (returned a rfl) s reading
  · rintro (_ | e) s ⟨raised,_⟩
    · exact raised
    · exact raised

/-- The next chunk is read and accounted. -/
theorem chunk_ensures {β : Type} {around : List ZipInfo} {member : Member} {memberBytes preferred : Nat} {nested : Bool}
    (below : memberBytes ≤ limits.maxMemberBytes) {k : Bytes → Walk β} (rest : ∀ chunk,
      Ensures (fun s => Reading lib limits s ∧ Fits limits memberBytes chunk s) (k chunk) (Reads lib limits around)) :
    Ensures (Reading lib limits) (do
      let s ← Command.observe id
      let chunk ← readChunk member memberBytes (nextReadSize limits s.toState memberBytes preferred nested)
      k chunk) (Reads lib limits around) := by
  apply ensures_observe
  intro s reading
  have first := readChunk_ensures (P := fun t => t = s) member memberBytes
    (nextReadSize limits s.toState memberBytes preferred nested)
  refine ensures_bind first ?_ ?_ s rfl
  · rintro chunk t ⟨rfl,_,short⟩
    exact rest chunk t ⟨reading,nextReadSize_fits below (short chunk rfl)⟩
  · rintro e t ⟨rfl,other,_⟩
    cases e with
    | stop => exact absurd rfl other
    | library e => exact reading

theorem readRest_ensures {around : List ZipInfo} {member : Member} {turns : Nat} {first : Bytes} {memberBytes : Nat}
    {nested : Option Bytes} (below : memberBytes ≤ limits.maxMemberBytes) :
    Ensures (Reading lib limits) (readRest limits around member turns first memberBytes nested)
      (Reads lib limits around) := by
  induction turns generalizing first memberBytes nested with
  | zero => exact ensures_pure fun s reading => reading
  | succ turns ih =>
    unfold readRest
    split
    · exact ensures_pure fun s reading => reading
    · apply chunk_ensures below
      intro chunk
      split
      · exact ensures_pure fun s reading => reading.1
      · apply reads_bind accountActualBytes_ensures
        intro total within
        cases nested with
        | none => exact ih within
        | some target =>
          refine reads_bind (Q := fun _ => True) (ensures_mono appendNested_ensures (fun _ => id) ?_) fun _ _ => ih within
          exact fun result s appended => ⟨appended,fun _ _ => trivial⟩

theorem readMember_ensures {around : List ZipInfo} {member : Member} (opens : member.openRaises = none) :
    Ensures (Within lib limits true) (readMember limits around member) (Reads lib limits around) := by
  have opened : Ensures (Within lib limits true) (openMember limits member) fun result s =>
      Reads lib limits around result s ∧ ∀ a, result = .ok a → True := by
    intro s within
    simp only [openMember, opens]
    refine ⟨⟨⟨within.materialized,within.member,?_,?_,within.noted,?_⟩,?_⟩,fun _ _ => trivial⟩
    · intro timely
      exact within.total (by simp_all)
    · intro late
      rcases Bool.or_eq_true_iff.mp late with late | breached
      · exact within.late late
      · exact of_decide_eq_true breached
    · show Owes lib s ↔ (s.history.readAfterBreach || decide (Breached limits s.toState)) = true ∨
        Breached limits s.toState ∧ false = true
      rw [within.owes]
      simp
    · intro breached
      simpa using Or.inr breached
  apply reads_bind opened
  intro _ _
  apply chunk_ensures (Nat.zero_le _)
  intro first
  apply reads_bind accountActualBytes_ensures
  intro total within
  split
  · refine reads_bind (Q := fun _ => True) (ensures_mono appendNested_ensures (fun _ => id) ?_) fun _ _ =>
      readRest_ensures within
    exact fun result s appended => ⟨appended,fun _ _ => trivial⟩
  · exact readRest_ensures within

/-! ### One entry -/

/-- After an entry: the loop goes on with the entries left, or ends with those around, or an exception ends it all. -/
def Stepped (lib : Library) (limits : ArchiveAnalysisLimits) (left around : List ZipInfo) (result : Except Raised Bool)
    (s : Inspection) : Prop :=
  match result with
  | .ok true => Pending lib limits left s
  | .ok false => Pending lib limits around s
  | .error _ => Within lib limits false s

/-- The entry is being looked at: it counts as inspected already. -/
def Entered (lib : Library) (limits : ArchiveAnalysisLimits) (info : ZipInfo) (left : List ZipInfo) (s : Inspection) :
    Prop :=
  Within lib limits (readsNext lib (info :: left.take (limits.maxMembersInspected - s.membersInspected))) s

theorem Entered.skipped {info : ZipInfo} {left : List ZipInfo} {s : Inspection} (entered : Entered lib limits info left s)
    (skipped : fate lib info = .skipped) : Pending lib limits left s := by
  unfold Entered at entered
  rw [readsNext, skipped] at entered
  exact entered

variable {descend : Bytes → Walk Unit} {depth : Nat} {info : ZipInfo} {left around : List ZipInfo}

theorem unsupportedMethod_ensures (method : Nat) :
    Ensures (Pending lib limits left) (do
      unsupportedMethod method
      pure true) (Stepped lib limits left around) := by
  intro s pending
  show Pending lib limits left _
  refine SameBytes.pending ?_ pending
  exact ⟨rfl,rfl,rfl,rfl,rfl,rfl,Iff.rfl⟩

theorem markMalformed_ensures (reason : Reason) (e : Exn) :
    Ensures (Pending lib limits left) (do
      markMalformed reason e
      pure true) (Stepped lib limits left around) := by
  intro s pending
  show Pending lib limits left _
  refine SameBytes.pending ?_ pending
  exact ⟨rfl,rfl,rfl,rfl,rfl,rfl,Iff.rfl⟩

theorem inspectNested_ensures (descends : ∀ nested, Ensures (Reading lib limits) (descend nested)
    (Leaves lib limits left)) (nested : Bytes) : Ensures (Reading lib limits) (do
      inspectNested lib limits descend depth info nested
      pure true) (Stepped lib limits left around) := by
  have inspected : Ensures (Reading lib limits) (inspectNested lib limits descend depth info nested)
      (Leaves lib limits left) := by
    refine ensures_update (Q := Reading lib limits) ?_ ?_
    · intro s reading
      refine SameBytes.reading ?_ reading
      exact ⟨rfl,rfl,rfl,rfl,rfl,rfl,Iff.rfl⟩
    · split
      · refine ensures_update (Q := Reading lib limits) ?_ ?_
        · intro s reading
          refine SameBytes.reading ?_ reading
          exact ⟨rfl,rfl,rfl,rfl,rfl,rfl,Iff.rfl⟩
        · exact fun s reading => ((retainRecord_only lib limits _ _ _ _ _ s).sameBytes.reading reading).any _
      · apply ensures_observe
        intro s reading
        dsimp only [id]
        split
        · refine Reading.any (SameBytes.reading ?_ reading) _
          exact ⟨rfl,rfl,rfl,rfl,rfl,rfl,Iff.rfl⟩
        · refine descends nested _ (SameBytes.reading ?_ reading)
          exact ⟨rfl,rfl,rfl,rfl,rfl,rfl,Iff.rfl⟩
  refine ensures_bind inspected ?_ ?_
  · rintro ⟨⟩ s pending
    exact pending
  · intro e s within
    exact within

/-- After the reading: a stop leaves the entries around, an exception without a handler nothing. -/
def ReadingEnded (lib : Library) (limits : ArchiveAnalysisLimits) (left around : List ZipInfo) :
    Except Raised (Option Bytes) → Inspection → Prop
  | .error .stop,s => Pending lib limits around s
  | .error (.library e),s =>
    if e = .NotImplementedError ∨ handledAtReading e = true then Pending lib limits left s else Within lib limits false s
  | .ok _,s => Reading lib limits s

theorem afterReading_ensures (descends : ∀ nested, Ensures (Reading lib limits) (descend nested)
    (Leaves lib limits left)) (read : Except Raised (Option Bytes)) :
    Ensures (ReadingEnded lib limits left around read) (afterReading lib limits descend depth info read)
      (Stepped lib limits left around) := by
  match read with
  | .error .stop => exact ensures_pure fun s pending => pending
  | .error (.library e) =>
    unfold afterReading ReadingEnded
    dsimp only
    by_cases unsupported : e = .NotImplementedError
    · simp only [unsupported, true_or, if_true]
      exact unsupportedMethod_ensures _
    · by_cases handled : handledAtReading e = true
      · simp only [unsupported, handled, or_true, if_true, if_false]
        exact markMalformed_ensures _ _
      · simp only [unsupported, handled, if_false]
        exact ensures_raise fun s within => within
  | .ok none => exact ensures_pure fun s reading => reading.any _
  | .ok (some nested) => exact inspectNested_ensures descends nested

theorem readMember_ended (regular : isPassedOver lib info = false) :
    Ensures (Entered lib limits info left) (readMember limits around info.member)
      (ReadingEnded lib limits left around) := by
  intro s entered
  have fated : fate lib info = match info.member.openRaises with
      | none => .read
      | some e => if e = .NotImplementedError || handledAtReading e then .skipped else .escapes := by
    rw [fate, regular]
    rfl
  cases opens : info.member.openRaises with
  | none =>
    rw [opens] at fated
    unfold Entered at entered
    rw [readsNext, fated] at entered
    have read : Reads lib limits around _ _ := readMember_ensures opens s entered
    generalize (readMember limits around info.member s).1 = result at read ⊢
    generalize (readMember limits around info.member s).2 = s' at read ⊢
    match result with
    | .error .stop => exact read
    | .error (.library e) =>
      show if _ then Pending lib limits left _ else Within lib limits false _
      split
      · exact Reading.any read _
      · exact Reading.any read _
    | .ok nested => exact read
  | some e =>
    rw [opens] at fated
    have same : readMember limits around info.member s = (.error (.library e),s) := by
      simp only [readMember, openMember, opens, bind]
    rw [same]
    show if e = .NotImplementedError ∨ handledAtReading e = true then Pending lib limits left s
      else Within lib limits false s
    by_cases handled : e = .NotImplementedError ∨ handledAtReading e = true
    · rw [if_pos handled]
      exact entered.skipped (by rw [fated]; simp [handled])
    · rw [if_neg handled]
      unfold Entered at entered
      rw [readsNext, fated] at entered
      simpa [handled] using entered

theorem inspectMember_ensures (descends : ∀ nested, Ensures (Reading lib limits) (descend nested)
    (Leaves lib limits left)) (regular : isPassedOver lib info = false) :
    Ensures (Entered lib limits info left) (inspectMember lib limits descend depth info around)
      (Stepped lib limits left around) :=
  ensures_attempt (readMember_ended regular) (afterReading_ensures descends)

theorem Pending.entered {s : Inspection} (pending : Pending lib limits (info :: left) s) {seen : SeenNames}
    (more : s.membersInspected < limits.maxMembersInspected) :
    Entered lib limits info left (inspectName lib limits info.filename depth seen { s with
      membersInspected := s.membersInspected + 1
      history := { s.history with visited := (info,seen) :: s.history.visited } }) := by
  have shift : limits.maxMembersInspected - s.membersInspected =
      limits.maxMembersInspected - (s.membersInspected + 1) + 1 := by omega
  rw [Pending, nextOf, shift, List.take_succ_cons] at pending
  have only := (inspectName_only lib limits info.filename depth seen { s with
      membersInspected := s.membersInspected + 1
      history := { s.history with visited := (info,seen) :: s.history.visited } }).sameBytes
  rw [Entered, only.inspected]
  exact only.within ⟨pending.materialized,pending.member,pending.total,pending.late,pending.noted,pending.owes⟩

/-- An entry that is not opened. -/
theorem skipped_ensures {f : Inspection → Inspection} (same : ∀ s, SameBytes s (f s)) (skipped : fate lib info = .skipped) :
    Ensures (Entered lib limits info left) (do
      Command.update f
      pure true) (Stepped lib limits left around) :=
  fun s entered => (same s).pending (entered.skipped skipped)

theorem inspectEntry_ensures {seen : SeenNames} (descends : ∀ nested, Ensures (Reading lib limits) (descend nested)
    (Leaves lib limits left)) : Ensures (Pending lib limits (info :: left))
      (inspectEntry lib limits descend depth info seen around) (Stepped lib limits left around) := by
  apply ensures_observe
  intro s pending
  dsimp only [id]
  by_cases reached : limits.maxMembersInspected ≤ s.membersInspected
  · rw [if_pos reached]
    have zero : limits.maxMembersInspected - s.membersInspected = 0 := by omega
    refine (resource_sameBytes (by decide) s).pending ?_
    rw [Pending, nextOf, zero] at pending ⊢
    exact pending
  · rw [if_neg reached]
    refine ensures_update (P := fun t => t = s) (Q := Entered lib limits info left) ?_ ?_ s rfl
    · rintro t rfl
      exact pending.entered (by omega)
    · split
      · rename_i directory
        exact skipped_ensures (fun s => ⟨rfl,rfl,rfl,rfl,rfl,rfl,Iff.rfl⟩) (by simp [fate, isPassedOver, directory])
      · split
        · rename_i symlink
          refine skipped_ensures (fun s => ?_) (by simp [fate, isPassedOver, symlink])
          exact ((counted_only .symlink s).trans (retainRecord_only lib limits _ _ _ _ _ _)).sameBytes
        · split
          · rename_i encrypted
            intro s entered
            have pending : Pending lib limits left s := entered.skipped (by simp [fate, isPassedOver, encrypted])
            have marked : SameBytes (counted .encrypted s) { counted .encrypted s with
                partialReasons := s.partialReasons.insert .encryptedMember } := ⟨rfl,rfl,rfl,rfl,rfl,rfl,Iff.rfl⟩
            exact (retainRecord_only lib limits _ _ _ _ _ _).sameBytes.pending
              (marked.pending ((counted_only .encrypted s).sameBytes.pending pending))
          · split
            · rename_i unsupported
              refine ensures_mono (unsupportedMethod_ensures _) ?_ fun _ _ => id
              exact fun s entered => entered.skipped (by simp [fate, isPassedOver, unsupported])
            · rename_i directory symlink encrypted supported
              apply inspectMember_ensures descends
              simp only [Bool.not_eq_true] at directory symlink encrypted supported
              simp only [isPassedOver, directory, symlink, encrypted, supported, Bool.or_self]

/-! ### Containers -/

theorem inspectEntries_ensures {descend : Bytes → List ZipInfo → Walk Unit} (descends : ∀ nested left,
    Ensures (Reading lib limits) (descend nested left) (Leaves lib limits left)) {infos : List ZipInfo}
    {seen : SeenNames} : Ensures (Pending lib limits (infos ++ around))
      (inspectEntries lib limits descend depth around infos seen) (Leaves lib limits around) := by
  induction infos generalizing seen with
  | nil => exact ensures_pure fun s pending => pending
  | cons info rest ih =>
    refine ensures_bind (inspectEntry_ensures fun nested => descends nested (rest ++ around)) ?_ ?_
    · rintro ⟨⟩
      · exact ensures_pure fun s pending => pending
      · exact ih
    · intro e s within
      exact within

theorem markMalformed_leaves (reason : Reason) (e : Exn) :
    Ensures (Reading lib limits) (markMalformed reason e) (Leaves lib limits around) := by
  intro s reading
  refine Reading.any (SameBytes.reading ?_ reading) _
  exact ⟨rfl,rfl,rfl,rfl,rfl,rfl,Iff.rfl⟩

theorem raise_leaves (e : Exn) :
    Ensures (Reading lib limits) (Command.raise (.library e) : Walk Unit) (Leaves lib limits around) :=
  ensures_raise fun _ reading => reading.within

theorem inspectContainer_ensures {descend : Bytes → List ZipInfo → Walk Unit} (descends : ∀ nested left,
    Ensures (Reading lib limits) (descend nested left) (Leaves lib limits left)) (container : Container) :
    Ensures (Reading lib limits) (inspectContainer lib limits descend depth around container)
      (Leaves lib limits around) := by
  have entries (infos : List ZipInfo) : Ensures (Reading lib limits)
      (inspectEntries lib limits descend depth around infos []) (Leaves lib limits around) :=
    ensures_mono (inspectEntries_ensures descends) (fun s reading => reading.any _) fun _ _ => id
  refine ensures_update (Q := Reading lib limits) ?_ ?_
  · intro s reading
    refine SameBytes.reading ?_ reading
    exact ⟨rfl,rfl,rfl,rfl,rfl,rfl,Iff.rfl⟩
  · split
    · split
      · exact markMalformed_leaves _ _
      · exact raise_leaves _
    · refine ensures_update (Q := Reading lib limits) ?_ ?_
      · intro s reading
        refine SameBytes.reading ?_ reading
        exact ⟨rfl,rfl,rfl,rfl,rfl,rfl,Iff.rfl⟩
      · split
        · refine ensures_update (Q := Reading lib limits) ?_ (entries _)
          exact fun s reading => (resource_sameBytes (by decide) s).reading reading
        · exact entries _

theorem inspectArchive_ensures (levels : Nat) (source : Bytes) (depth : Nat) (around : List ZipInfo) :
    Ensures (Reading lib limits) (inspectArchive lib limits levels source depth around) (Leaves lib limits around) := by
  induction levels generalizing source depth around with
  | zero => exact ensures_pure fun s reading => reading.any _
  | succ levels ih =>
    refine ensures_update (Q := Reading lib limits) ?_ ?_
    · intro s reading
      refine SameBytes.reading ?_ reading
      exact ⟨rfl,rfl,rfl,rfl,rfl,rfl,Iff.rfl⟩
    · apply ensures_observe
      intro s reading
      dsimp only [id]
      by_cases large : limits.maxCompressedBytesConsidered < s.compressedBytesConsidered
      · rw [if_pos large]
        exact ((resource_sameBytes (by decide) s).reading reading).any _
      · rw [if_neg large]
        cases lib.zipFile source with
        | error e =>
          dsimp only
          by_cases handled : handledAtOpening e = true
          · rw [if_pos handled]
            exact markMalformed_leaves _ _ s reading
          · rw [if_neg handled]
            exact raise_leaves _ s reading
        | ok container => exact inspectContainer_ensures (fun nested left => ih nested (depth + 1) left) container s reading

/-- The byte budgets hold, and nothing is read after one that the containers share is exceeded, exactly if the first
    breach, if there is one, leaves no entry in the containers around that is read next. -/
theorem keeps_byte_budgets_iff (lib : Library) (limits : ArchiveAnalysisLimits) (content : Bytes) :
    KeepsByteBudgets limits (inspect lib limits content).2 ↔
      ∀ left, survey lib limits content = .error (.breached left) → readsNext lib left = false := by
  have start : Reading lib limits {} := by
    have unbreached : ¬ Breached limits ({} : Inspection).toState := by
      simp [Breached]
    refine ⟨⟨Nat.zero_le _,Nat.zero_le _,fun _ => Nat.zero_le _,by simp,fun noted => absurd rfl noted,?_⟩,
      fun breached => absurd breached unbreached⟩
    simp [Owes, unbreached]
  have within : Within lib limits false (inspect lib limits content).2 := by
    have ended : Leaves lib limits [] (inspect lib limits content).1 (inspect lib limits content).2 :=
      inspectArchive_ensures (limits.maxNestingDepth + 1) content 0 [] {} start
    cases returned : (inspect lib limits content).1 with
    | ok a => simpa [returned, Leaves, Pending, nextOf, readsNext] using ended
    | error e => simpa [returned, Leaves] using ended
  have owes : Owes lib (inspect lib limits content).2 ↔
      (inspect lib limits content).2.history.readAfterBreach = true := by
    simpa using within.owes
  constructor
  · intro keeps left breached
    by_contra reads
    have late := owes.mp ⟨left,(noted_iff content left).mpr breached,by simpa using reads⟩
    rw [keeps.stops] at late
    cases late
  · intro nothing
    have timely : (inspect lib limits content).2.history.readAfterBreach = false := by
      by_contra late
      obtain ⟨left,noted,reads⟩ := owes.mpr (by simpa using late)
      rw [nothing left ((noted_iff content left).mp noted)] at reads
      cases reads
    exact ⟨within.materialized,within.member,within.total timely,timely⟩

/-- A nested archive whose only member is too long for a total of 194 bytes, and a member after it. -/
def leafMembers : List Stored := [⟨lit "leaf.txt",List.replicate 64 65,0x414c623c⟩]
def tailedMembers : List Stored :=
  [⟨lit "nested.bin",zipBytes leafMembers,0xbe9dd597⟩,⟨lit "after.txt",[66],0x4ad0cf31⟩]

/-- The total is exceeded in the nested archive, the member after it is read all the same, and its first byte makes the
    excess two bytes. -/
theorem tail_read :
    (inspect (storedLibrary [tailedMembers,leafMembers]) { maxTotalDecompressedBytes := 194 }
      (zipBytes tailedMembers)).2.actualDecompressedBytes = 194 + 2 ∧
    (inspect (storedLibrary [tailedMembers,leafMembers]) { maxTotalDecompressedBytes := 194 }
      (zipBytes tailedMembers)).2.history.readAfterBreach = true := by
  decide +kernel

/-- The survey ends in the nested archive, with the member after it still to come. -/
example : (match survey (storedLibrary [tailedMembers,leafMembers]) { maxTotalDecompressedBytes := 194 }
    (zipBytes tailedMembers) with
  | .error (.breached left) => left.map ZipInfo.filename
  | _ => []) = [lit "after.txt"] := by
  decide +kernel

end DocGuard.Archive
