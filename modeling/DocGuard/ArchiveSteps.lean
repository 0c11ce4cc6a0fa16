import DocGuard.Archive

/-!
What the single steps of the inspection of an archive change: which fields they
leave alone, and by how much the counters of the categories grow.
-/
namespace DocGuard.Archive
open DocGuard.Commands DocGuard.NameSecurity

variable (lib : Library) (limits : ArchiveAnalysisLimits)

/-! ### Names -/

/-- Only the counters and the records of names may differ. -/
def NamesOnly (s s' : Inspection) : Prop :=
  ∃ counts records retained cut, s' = { s with
    counts := counts
    records := records
    retainedNameCount := retained
    memberNamesTruncated := cut }

theorem namesOnly_refl (s : Inspection) : NamesOnly s s :=
  ⟨s.counts,s.records,s.retainedNameCount,s.memberNamesTruncated,rfl⟩

theorem NamesOnly.trans {s t u : Inspection} (first : NamesOnly s t) (second : NamesOnly t u) : NamesOnly s u := by
  obtain ⟨_,_,_,_,rfl⟩ := first
  obtain ⟨_,_,_,_,rfl⟩ := second
  exact ⟨_,_,_,_,rfl⟩

theorem keepRecord_only (category : Category) (maximum : Nat) (names : List Text) (record : Record) (s : Inspection) :
    NamesOnly s (keepRecord lib limits category maximum names record s) := by
  unfold keepRecord
  split
  · exact namesOnly_refl s
  · split
    · exact namesOnly_refl s
    · exact ⟨s.counts,_,_,_,rfl⟩

theorem keepRecord_counts (category : Category) (maximum : Nat) (names : List Text) (record : Record) (s : Inspection) :
    (keepRecord lib limits category maximum names record s).counts = s.counts := by
  unfold keepRecord
  split
  · rfl
  · split
    · rfl
    · rfl

theorem retainRecord_only (category : Category) (maximum : Nat) (name : Text) (depth : Nat) (extra : Record)
    (s : Inspection) : NamesOnly s (retainRecord lib limits category maximum name depth extra s) :=
  keepRecord_only lib limits category maximum [name] _ s

theorem retainRecord_counts (category : Category) (maximum : Nat) (name : Text) (depth : Nat) (extra : Record)
    (s : Inspection) : (retainRecord lib limits category maximum name depth extra s).counts = s.counts :=
  keepRecord_counts lib limits category maximum [name] _ s

theorem counted_only (category : Category) (s : Inspection) : NamesOnly s (counted category s) :=
  ⟨_,s.records,s.retainedNameCount,s.memberNamesTruncated,rfl⟩

theorem counted_counts (category c : Category) (s : Inspection) :
    (counted category s).counts c = s.counts c + if c = category then 1 else 0 := by
  by_cases same : c = category
  · simp [counted, same]
  · simp [counted, same]

theorem note_only (name : Text) (seen : SeenNames) (category : Category) {keep : Inspection → Inspection}
    (kept : ∀ s, NamesOnly s (keep s)) (s : Inspection) : NamesOnly s (note lib name seen category keep s) := by
  unfold note
  split
  · exact (counted_only category s).trans (kept _)
  · exact namesOnly_refl s

/-- What a name adds to the counter of a category. -/
def added (name : Text) (seen : SeenNames) (c : Category) : Nat :=
  if exhibits lib name seen c then 1 else 0

theorem note_counts (name : Text) (seen : SeenNames) (category : Category) {keep : Inspection → Inspection}
    (kept : ∀ s, (keep s).counts = s.counts) (s : Inspection) (c : Category) :
    (note lib name seen category keep s).counts c =
      s.counts c + if c = category then added lib name seen category else 0 := by
  unfold note added
  by_cases shown : exhibits lib name seen category = true
  · simp only [shown, if_true, kept, counted_counts]
  · simp [shown]

theorem inspectName_only (name : Text) (depth : Nat) (seen : SeenNames) (s : Inspection) :
    NamesOnly s (inspectName lib limits name depth seen s) := by
  have retained (category : Category) (maximum : Nat) (extra : Record) (s : Inspection) :
      NamesOnly s (note lib name seen category (retainRecord lib limits category maximum name depth extra) s) :=
    note_only lib name seen category (retainRecord_only lib limits category maximum name depth extra) s
  dsimp only [inspectName]
  refine NamesOnly.trans ?_ (retained .bidi _ _ _)
  refine NamesOnly.trans ?_ (retained .doubleExtension _ _ _)
  refine NamesOnly.trans ?_ (retained .dangerous _ _ _)
  refine NamesOnly.trans ?_ (note_only lib name seen .duplicate (keepRecord_only lib limits .duplicate _ _ _) _)
  refine NamesOnly.trans ?_ (retained .absolutePath _ _ _)
  exact retained .traversal _ _ s

theorem inspectName_counts (name : Text) (depth : Nat) (seen : SeenNames) (s : Inspection) (c : Category) :
    (inspectName lib limits name depth seen s).counts c = s.counts c + added lib name seen c := by
  have retained (category : Category) (maximum : Nat) (extra : Record) (s : Inspection) (c : Category) :
      (note lib name seen category (retainRecord lib limits category maximum name depth extra) s).counts c =
        s.counts c + if c = category then added lib name seen category else 0 :=
    note_counts lib name seen category (retainRecord_counts lib limits category maximum name depth extra) s c
  unfold inspectName
  simp only [retained, note_counts lib name seen .duplicate (keepRecord_counts lib limits .duplicate _ _ _)]
  cases c <;> simp [added, exhibits]

/-! ### Reading -/

/-- A relation in which every step of the reading of a member stands. -/
structure ReadSteps (R : Inspection → Inspection → Prop) : Prop where
  refl : ∀ s, R s s
  trans : ∀ s t u, R s t → R t u → R s u
  opens : ∀ (s : Inspection) breached, R s { s with history := { s.history with readAfterBreach := breached } }
  yields : ∀ (s : Inspection) n most, R s { s with
    actualDecompressedBytes := s.actualDecompressedBytes + n
    history := { s.history with mostYielded := most } }
  materializes : ∀ (s : Inspection) n,
    R s { s with nestedArchiveBytesMaterialized := s.nestedArchiveBytesMaterialized + n }
  marks : ∀ (s : Inspection) reason, R s { s with
    resourceReasons := s.resourceReasons.insert reason
    partialReasons := s.partialReasons.insert reason }
  leaves : ∀ (s : Inspection) left,
    R s { s with history := { s.history with leftAtBreach := s.history.leftAtBreach.or (some left) } }

/-- Any exception may be raised. -/
abbrev Anything (_ : Raised) : Prop := True

section
variable {limits} {R : Inspection → Inspection → Prop} (steps : ReadSteps R)
include steps

theorem moves_stopReading {α : Type} (reason : Reason) (around : List ZipInfo) :
    Moves R Anything (stopReading limits reason around : Walk α) := by
  refine moves_bind steps.trans (moves_update fun s => steps.marks s reason) fun _ =>
    moves_bind steps.trans (moves_update fun s => ?_) fun _ => moves_raise steps.refl trivial
  dsimp only
  split
  · exact steps.leaves s _
  · exact steps.refl s

theorem moves_accountActualBytes (around : List ZipInfo) (chunk : Bytes) (memberBytes : Nat) :
    Moves R Anything (accountActualBytes limits around chunk memberBytes) := by
  refine moves_bind steps.trans (moves_update fun s => steps.yields s _ _) fun _ =>
    moves_bind steps.trans (moves_observe steps.refl _) fun s => ?_
  split
  · exact moves_stopReading steps _ _
  split
  · exact moves_stopReading steps _ _
  · exact moves_pure steps.refl _

theorem moves_appendNested (around : List ZipInfo) (chunk : Bytes) :
    Moves R Anything (appendNested limits around chunk) := by
  refine moves_bind steps.trans (moves_observe steps.refl _) fun s => ?_
  split
  · exact moves_stopReading steps _ _
  · exact moves_update fun s => steps.materializes s _

theorem moves_readChunk (member : Member) (offset n : Nat) : Moves R Anything (readChunk member offset n) :=
  moves_lift steps.refl fun _ _ => trivial

theorem moves_openMember (member : Member) : Moves R Anything (openMember limits member) := by
  intro s
  unfold openMember
  split
  · exact ⟨steps.refl s,fun _ _ => trivial⟩
  · exact ⟨steps.opens s _,fun _ _ => trivial⟩

theorem moves_readRest (around : List ZipInfo) (member : Member) (turns : Nat) (first : Bytes) (memberBytes : Nat)
    (nested : Option Bytes) : Moves R Anything (readRest limits around member turns first memberBytes nested) := by
  induction turns generalizing first memberBytes nested with
  | zero => exact moves_pure steps.refl _
  | succ turns ih =>
    unfold readRest
    split
    · exact moves_pure steps.refl _
    · refine moves_bind steps.trans (moves_observe steps.refl _) fun s =>
        moves_bind steps.trans (moves_readChunk steps _ _ _) fun chunk => ?_
      split
      · exact moves_pure steps.refl _
      · refine moves_bind steps.trans (moves_accountActualBytes steps _ _ _) fun total => ?_
        cases nested with
        | none => exact ih _ _ _
        | some target => exact moves_bind steps.trans (moves_appendNested steps _ _) fun _ => ih _ _ _

/-- The reading of a member stands in the relation. -/
theorem moves_readMember (around : List ZipInfo) (member : Member) :
    Moves R Anything (readMember limits around member) := by
  refine moves_bind steps.trans (moves_openMember steps member) fun _ => moves_bind steps.trans (moves_observe steps.refl _)
    fun s => moves_bind steps.trans (moves_readChunk steps _ _ _) fun first =>
      moves_bind steps.trans (moves_accountActualBytes steps _ _ _) fun total => ?_
  split
  · exact moves_bind steps.trans (moves_appendNested steps _ _) fun _ => moves_readRest steps _ _ _ _ _ _
  · exact moves_readRest steps _ _ _ _ _ _

end

/-! ### Archives of stored members -/

def littleEndian : Nat → Nat → Bytes
  | 0,_ => []
  | width+1,n => UInt8.ofNat n :: littleEndian width (n / 256)

/-- One byte of the CRC-32, bit by bit. -/
def crcByte (crc : Nat) (byte : UInt8) : Nat :=
  (fun crc => if crc % 2 = 1 then (crc / 2) ^^^ 0xedb88320 else crc / 2)^[8] (crc ^^^ byte.toNat)

def crc32 (data : Bytes) : Nat := data.foldl crcByte 0xffffffff ^^^ 0xffffffff

/-- A member that is stored as it is, with the CRC-32 of its data. -/
structure Stored where
  name : Text
  data : Bytes
  crc : Nat

/-- The flags and the compression method that are declared of a member. -/
structure Declared where
  flags : Nat := 0
  method : Nat := 0

/-- The fields that the local header and the central directory have in common. -/
def Stored.fields (declared : Declared) (m : Stored) : Bytes :=
  littleEndian 2 20 ++ littleEndian 2 declared.flags ++ littleEndian 2 declared.method ++ littleEndian 2 0 ++ littleEndian 2 33 ++
    littleEndian 4 m.crc ++ littleEndian 4 m.data.length ++ littleEndian 4 m.data.length ++
    littleEndian 2 m.name.length ++ littleEndian 2 0

def Stored.nameBytes (m : Stored) : Bytes := m.name.map fun c => UInt8.ofNat c.toNat

def Stored.localRecord (declared : Declared) (m : Stored) : Bytes :=
  [0x50,0x4b,3,4] ++ m.fields declared ++ m.nameBytes ++ m.data

def Stored.centralRecord (declared : Declared) (m : Stored) (offset : Nat) : Bytes :=
  [0x50,0x4b,1,2] ++ littleEndian 2 0x314 ++ m.fields declared ++ littleEndian 2 0 ++ littleEndian 2 0 ++ littleEndian 2 0 ++
    littleEndian 4 0 ++ littleEndian 4 offset ++ m.nameBytes

def centralDirectory (declared : Stored → Declared) : List Stored → Nat → Bytes
  | [],_ => []
  | m :: rest,offset => m.centralRecord (declared m) offset ++
      centralDirectory declared rest (offset + (m.localRecord (declared m)).length)

/-- The bytes of a ZIP file that declares this of its members, which are stored all the same. -/
def declaredBytes (declared : Stored → Declared) (members : List Stored) : Bytes :=
  let records := members.flatMap fun m => m.localRecord (declared m)
  let directory := centralDirectory declared members 0
  records ++ directory ++ [0x50,0x4b,5,6,0,0,0,0] ++ littleEndian 2 members.length ++ littleEndian 2 members.length ++
    littleEndian 4 directory.length ++ littleEndian 4 records.length ++ littleEndian 2 0

/-- The bytes of a ZIP file with these members. -/
def zipBytes (members : List Stored) : Bytes := declaredBytes (fun _ => ⟨0,0⟩) members

def Stored.info (m : Stored) : ZipInfo := { filename := m.name, member := { content := m.data } }

/-- The library on the files that these lists of members make; the digest of data is the data. -/
def storedLibrary (files : List (List Stored)) : Library where
  tables := ⟨id,id,fun _ => false⟩
  sha256 data := data.map fun byte => Char.ofNat byte.toNat
  zipFile data :=
    match files.find? fun members => zipBytes members == data with
    | some members => .ok ⟨.ok (members.map Stored.info)⟩
    | none => .error .BadZipFile
  pythonVersion := lit "3.14.4"
  zlibVersion := lit "1.3.1"

end DocGuard.Archive
