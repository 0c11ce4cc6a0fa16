import DocGuard.Commands
import DocGuard.Findings
import DocGuard.NameSecurity

/-!
The inspection of a ZIP file and of the ZIP files nested in it. The library that
opens containers and reads members is a parameter: it may find any container in
any bytes, so that files may contain themselves, and it may raise anywhere.
-/
namespace DocGuard.Archive
open DocGuard.Commands DocGuard.Contract DocGuard.Domain DocGuard.Findings DocGuard.NameSecurity DocGuard.Ordered
open DocGuard.Json (Value)

abbrev Bytes := List UInt8

/-! ### The library -/

inductive FileFamily where
  | PDF
  | ZIP
  | OOXML_CANDIDATE
  | OLE_COMPOUND
  | WINDOWS_EXECUTABLE
  | TEXT
  | UNKNOWN
deriving DecidableEq

/-- What `zipfile` and the decompressors raise. `NotImplementedError` is a `RuntimeError`; no other of these classes
    is derived from another. -/
inductive Exn where
  | BadZipFile
  | LargeZipFile
  | OSError
  | EOFError
  | RuntimeError
  | NotImplementedError
  | UnicodeDecodeError
  | ZlibError
  | LZMAError
  | ZstdError
deriving DecidableEq

/-- `type(exc).__name__` -/
def Exn.name : Exn → Text
  | .BadZipFile => lit "BadZipFile"
  | .LargeZipFile => lit "LargeZipFile"
  | .OSError => lit "OSError"
  | .EOFError => lit "EOFError"
  | .RuntimeError => lit "RuntimeError"
  | .NotImplementedError => lit "NotImplementedError"
  | .UnicodeDecodeError => lit "UnicodeDecodeError"
  | .ZlibError => lit "error"
  | .LZMAError => lit "LZMAError"
  | .ZstdError => lit "ZstdError"

/-- The data of a member as reading it behaves: what it decompresses to, how many bytes a read returns at most at each
    offset, and what opening raises, or the read that reaches a certain offset. -/
structure Member where
  content : Bytes
  openRaises : Option Exn := none
  returned : Nat → Nat := fun _ => 64 * 1024
  raises : Option (Nat × Exn) := none

/-- `stream.read(n)` at an offset; it returns nothing only at the end. -/
def Member.read (member : Member) (offset n : Nat) : Except Exn Bytes :=
  let chunk := (member.content.drop offset).take (max 1 (min n (member.returned offset)))
  match member.raises with
  | some (reached,e) => if reached ≤ offset + chunk.length then .error e else .ok chunk
  | none => .ok chunk

structure ZipInfo where
  filename : Text
  flagBits : Nat := 0
  compressType : Nat := 0
  createSystem : Nat := 3
  externalAttr : Nat := 0
  member : Member

/-- `info.is_dir()` -/
def ZipInfo.isDir (info : ZipInfo) : Bool := Text.endsWith info.filename ['/']

/-- `_is_symlink` -/
def ZipInfo.isSymlink (info : ZipInfo) : Bool :=
  info.createSystem == 3 && (info.externalAttr >>> 16) % 0x10000 / 0x1000 == 0xA

/-- `info.flag_bits & 0x1` -/
def ZipInfo.isEncrypted (info : ZipInfo) : Bool := info.flagBits % 2 == 1

/-- An opened container. -/
structure Container where
  infolist : Except Exn (List ZipInfo)

/-- The library and the functions that the inspection uses. -/
structure Library where
  tables : UnicodeTables
  /-- `hashlib.sha256(data).hexdigest()` -/
  sha256 : Bytes → Text
  zipFile : Bytes → Except Exn Container
  /-- `zipfile.ZIP_ZSTANDARD` -/
  zstandard : Option Nat := some 93
  pythonVersion : Text
  zlibVersion : Text

/-! ### Limits and state -/

structure ArchiveAnalysisLimits where
  maxZipEntries : Nat := 4096
  maxNestingDepth : Nat := 3
  maxMembersInspected : Nat := 8192
  maxCompressedBytesConsidered : Nat := 128 * 1024 * 1024
  maxMemberBytes : Nat := 32 * 1024 * 1024
  maxTotalDecompressedBytes : Nat := 128 * 1024 * 1024
  maxNestedArchiveBytes : Nat := 32 * 1024 * 1024
  maxMemberNameLength : Nat := 512
  maxFindings : Nat := 64
  maxSuspiciousMemberNames : Nat := 32
  maxDuplicateRecords : Nat := 16
  maxTraversalRecords : Nat := 16
  maxMetadataStringLength : Nat := 256
  positive : ∀ value ∈ [maxZipEntries,maxMembersInspected,maxCompressedBytesConsidered,maxMemberBytes,
    maxTotalDecompressedBytes,maxNestedArchiveBytes,maxMemberNameLength,maxFindings,maxSuspiciousMemberNames,
    maxDuplicateRecords,maxTraversalRecords,maxMetadataStringLength], 0 < value := by decide
  findings : 4 ≤ maxFindings := by decide

def DEFAULT_ARCHIVE_LIMITS : ArchiveAnalysisLimits := {}

inductive Reason where
  | archiveInputUnavailable
  | compressedInputLimit
  | malformedNestedArchive
  | malformedArchive
  | centralDirectoryError
  | zipEntryLimit
  | memberInspectionLimit
  | encryptedMember
  | memberDecompressionError
  | nestingDepthLimit
  | memberActualByteLimit
  | totalActualByteLimit
  | nestedMaterializationLimit
  | unsupportedCompressionMethod
  | findingLimit
deriving DecidableEq

def Reason.text : Reason → Text
  | .archiveInputUnavailable => lit "archive_input_unavailable"
  | .compressedInputLimit => lit "compressed_input_limit"
  | .malformedNestedArchive => lit "malformed_nested_archive"
  | .malformedArchive => lit "malformed_archive"
  | .centralDirectoryError => lit "central_directory_error"
  | .zipEntryLimit => lit "zip_entry_limit"
  | .memberInspectionLimit => lit "member_inspection_limit"
  | .encryptedMember => lit "encrypted_member"
  | .memberDecompressionError => lit "member_decompression_error"
  | .nestingDepthLimit => lit "nesting_depth_limit"
  | .memberActualByteLimit => lit "member_actual_byte_limit"
  | .totalActualByteLimit => lit "total_actual_byte_limit"
  | .nestedMaterializationLimit => lit "nested_materialization_limit"
  | .unsupportedCompressionMethod => lit "unsupported_compression_method"
  | .findingLimit => lit "finding_limit"

/-- What is counted, and kept in records of names. -/
inductive Category where
  | traversal
  | absolutePath
  | symlink
  | duplicate
  | dangerous
  | doubleExtension
  | bidi
  | encrypted
  /-- Only records are kept. -/
  | nesting
deriving DecidableEq

/-- The fields of a record. -/
abbrev Record := List (Text × Value)

/-- `_State`; the counters `traversal_count`, ... and the lists `traversal_records`, ... are functions of the category. -/
structure State where
  archiveCount : Nat := 0
  entryCount : Nat := 0
  membersInspected : Nat := 0
  directoriesSeen : Nat := 0
  actualDecompressedBytes : Nat := 0
  compressedBytesConsidered : Nat := 0
  nestedArchivesDetected : Nat := 0
  nestedArchiveBytesMaterialized : Nat := 0
  repeatedNestedArchives : Nat := 0
  unsupportedMethodCount : Nat := 0
  counts : Category → Nat := fun _ => 0
  records : Category → List Record := fun _ => []
  memberNamesTruncated : Nat := 0
  retainedNameCount : Nat := 0
  parserException : Option Exn := none
  partialReasons : List Reason := []
  resourceReasons : List Reason := []
  malformedReasons : List Reason := []
  unsupportedMethods : List Nat := []
  seenNestedDigests : List Text := []

inductive Raised where
  /-- `_ResourceStop` -/
  | stop
  | library (e : Exn)
deriving DecidableEq

/-- What has been read, for the statements about runs; no step reads it. -/
structure History where
  /-- The most bytes that one member has yielded. -/
  mostYielded : Nat := 0
  /-- A member was opened for reading after one of the shared byte budgets had been exceeded. -/
  readAfterBreach : Bool := false
  /-- The entries that the containers around still had, as far as the member budget reaches, at the first stop with a
      shared byte budget exceeded. -/
  leftAtBreach : Option (List ZipInfo) := none
  /-- The entries that were looked at, with the names that their containers had before them. -/
  visited : List (ZipInfo × List (Text × Text)) := []

structure Inspection extends State where
  history : History := {}

abbrev Walk := Command Inspection Raised

variable (lib : Library) (limits : ArchiveAnalysisLimits)

/-- `state.partial` -/
def markPartial (reason : Reason) : Walk Unit :=
  Command.update fun s => { s with partialReasons := s.partialReasons.insert reason }

/-- `state.resource` -/
def markResource (reason : Reason) : Walk Unit :=
  Command.update fun s => { s with
    resourceReasons := s.resourceReasons.insert reason
    partialReasons := s.partialReasons.insert reason }

/-- `state.malformed` -/
def markMalformed (reason : Reason) (e : Exn) : Walk Unit :=
  Command.update fun s => { s with
    malformedReasons := s.malformedReasons.insert reason
    partialReasons := s.partialReasons.insert reason
    parserException := s.parserException.orElse fun _ => some e }

/-! ### Names -/

/-- The first name of a container for each collision key, the last one first. -/
abbrev SeenNames := List (Text × Text)

/-- `_WINDOWS_ROOT.match(name)` -/
def windowsRoot : Text → Bool
  | letter :: ':' :: slash :: _ => letter.isAlpha && (slash == '\\' || slash == '/')
  | _ => false

/-- `_collision_key` -/
def collisionKey (name : Text) : Text :=
  let path := portable (lib.tables.normalizeNfc name)
  let pieces := (path.splitOn '/').filter fun piece => piece ≠ [] ∧ piece ≠ ['.']
  (if Text.startsWith path ['/'] then ['/'] else []) ++ ['/'].intercalate pieces

/-- `seen_names[normalized] = name`, unless the key is there -/
def noteName (name : Text) (seen : SeenNames) : SeenNames :=
  match seen.lookup (collisionKey lib name) with
  | some _ => seen
  | none => (collisionKey lib name,name) :: seen

/-- The tests of `_inspect_name`. -/
def exhibits (name : Text) (seen : SeenNames) : Category → Bool
  | .traversal => ((portable name).splitOn '/').contains ['.','.']
  | .absolutePath => Text.startsWith (portable name) ['/'] || windowsRoot name
  | .duplicate => (seen.lookup (collisionKey lib name)).isSome
  | .dangerous => (finalExtension lib.tables name).any DANGEROUS_EXTENSIONS.contains
  | .doubleExtension => hasDangerousDoubleExtension lib.tables name
  | .bidi => !(bidiCodepoints name 16).isEmpty
  | .symlink => false
  | .encrypted => false
  | .nesting => false

/-- `_safe_member_name`, before it is cut -/
def represented (name : Text) : Text :=
  name.flatMap fun c =>
    if BIDI_CONTROLS.contains c || lib.tables.isOther c then '\\' :: 'u' :: (
      let digits := Nat.toDigits 16 c.toNat
      List.replicate (4 - digits.length) '0' ++ digits)
    else [c]

def maximumNameLength : Nat := min limits.maxMemberNameLength limits.maxMetadataStringLength

/-- `_safe_member_name` -/
def safeMemberName (name : Text) : Text :=
  let cut := (represented lib name).take (maximumNameLength limits)
  if cut = [] then lit "unnamed-member" else cut

/-- `state.member_names_truncated += 1`, for a name that is too long -/
def truncated (name : Text) : Nat :=
  if maximumNameLength limits < (represented lib name).length then 1 else 0

/-- A record is appended if neither its category nor the names altogether are at their limit. -/
def keepRecord (category : Category) (maximum : Nat) (names : List Text) (record : Record) (s : Inspection) : Inspection :=
  if maximum ≤ (s.records category).length then s
  else if limits.maxSuspiciousMemberNames ≤ s.retainedNameCount then s
  else { s with
    retainedNameCount := s.retainedNameCount + 1
    memberNamesTruncated := s.memberNamesTruncated + (names.map (truncated lib limits)).sum
    records := Function.update s.records category (s.records category ++ [record]) }

/-- `_retain_record` -/
def retainRecord (category : Category) (maximum : Nat) (name : Text) (depth : Nat) (extra : Record) :
    Inspection → Inspection :=
  keepRecord lib limits category maximum [name]
    ([(lit "member_name",.str (safeMemberName lib limits name)),(lit "archive_depth",.int depth)] ++ extra)

def counted (category : Category) (s : Inspection) : Inspection :=
  { s with counts := Function.update s.counts category (s.counts category + 1) }

/-- A category that the name exhibits is counted, and its record kept. -/
def note (name : Text) (seen : SeenNames) (category : Category) (keep : Inspection → Inspection) (s : Inspection) :
    Inspection :=
  if exhibits lib name seen category then keep (counted category s) else s

/-- `_inspect_name` -/
def inspectName (name : Text) (depth : Nat) (seen : SeenNames) (s : Inspection) : Inspection :=
  let names := limits.maxSuspiciousMemberNames
  let extension := Value.str ((finalExtension lib.tables name).getD [])
  let previous := (seen.lookup (collisionKey lib name)).getD []
  let s := note lib name seen .traversal (retainRecord lib limits .traversal limits.maxTraversalRecords name depth []) s
  let s := note lib name seen .absolutePath
    (retainRecord lib limits .absolutePath limits.maxTraversalRecords name depth []) s
  let s := note lib name seen .duplicate (keepRecord lib limits .duplicate limits.maxDuplicateRecords [name,previous]
    [(lit "member_name",.str (safeMemberName lib limits name)),
     (lit "collides_with",.str (safeMemberName lib limits previous)),
     (lit "archive_depth",.int depth),
     (lit "collision_kind",.str (if name = previous then lit "exact" else lit "portable_normalized"))]) s
  let s := note lib name seen .dangerous
    (retainRecord lib limits .dangerous names name depth [(lit "extension",extension)]) s
  let s := note lib name seen .doubleExtension
    (retainRecord lib limits .doubleExtension names name depth [(lit "final_extension",extension)]) s
  note lib name seen .bidi (retainRecord lib limits .bidi names name depth
    [(lit "codepoints",.arr ((bidiCodepoints name 16).map .str))]) s

/-! ### Members -/

def _READ_CHUNK_BYTES : Nat := 64 * 1024

/-- One of `_ZIP_SIGNATURES`. -/
def isZip (data : Bytes) : Bool :=
  [[0x50,0x4b,3,4],[0x50,0x4b,5,6],[0x50,0x4b,7,8]].any fun signature => signature.isPrefixOf data

/-- `_next_read_size` -/
def nextReadSize (s : State) (memberBytes preferred : Nat) (nested : Bool) : Nat :=
  let maximum := min preferred (min (limits.maxMemberBytes + 1 - memberBytes)
    (limits.maxTotalDecompressedBytes + 1 - s.actualDecompressedBytes))
  max 1 (if nested then min maximum (limits.maxNestedArchiveBytes + 1 - s.nestedArchiveBytesMaterialized) else maximum)

/-- One of the byte budgets that the containers share has been exceeded. -/
def Breached (s : State) : Prop :=
  limits.maxTotalDecompressedBytes < s.actualDecompressedBytes ∨ .nestedMaterializationLimit ∈ s.resourceReasons

instance (s : State) : Decidable (Breached limits s) := by
  unfold Breached; infer_instance

/-- `archive.open(info)` -/
def openMember (member : Member) : Walk Unit := fun s =>
  match member.openRaises with
  | some e => (.error (.library e),s)
  | none => (.ok (),{ s with history :=
      { s.history with readAfterBreach := s.history.readAfterBreach || decide (Breached limits s.toState) } })

def readChunk (member : Member) (offset n : Nat) : Walk Bytes :=
  Command.lift ((member.read offset n).mapError .library)

/-- `state.resource(reason)` and `raise _ResourceStop`; `around` are the entries that the containers around still have. -/
def stopReading {α : Type} (reason : Reason) (around : List ZipInfo) : Walk α := do
  markResource reason
  Command.update fun s =>
    let left := around.take (limits.maxMembersInspected - s.membersInspected)
    if Breached limits s.toState then
      { s with history := { s.history with leftAtBreach := s.history.leftAtBreach.or (some left) } }
    else s
  Command.raise .stop

/-- `_account_actual_bytes` -/
def accountActualBytes (around : List ZipInfo) (chunk : Bytes) (memberBytes : Nat) : Walk Nat := do
  let memberBytes := memberBytes + chunk.length
  Command.update fun s => { s with
    actualDecompressedBytes := s.actualDecompressedBytes + chunk.length
    history := { s.history with mostYielded := max s.history.mostYielded memberBytes } }
  let s ← Command.observe id
  if limits.maxMemberBytes < memberBytes then stopReading limits .memberActualByteLimit around
  else if limits.maxTotalDecompressedBytes < s.actualDecompressedBytes then
    stopReading limits .totalActualByteLimit around
  else pure memberBytes

/-- `_append_nested` -/
def appendNested (around : List ZipInfo) (chunk : Bytes) : Walk Unit := do
  let s ← Command.observe id
  if limits.maxNestedArchiveBytes < s.nestedArchiveBytesMaterialized + chunk.length then
    stopReading limits .nestedMaterializationLimit around
  else Command.update fun s => { s with
    nestedArchiveBytesMaterialized := s.nestedArchiveBytesMaterialized + chunk.length }

/-- The loop of `_read_member` after a chunk; every turn but the last reads at least one byte. -/
def readRest (around : List ZipInfo) (member : Member) : Nat → Bytes → Nat → Option Bytes → Walk (Option Bytes)
  | 0,_,_,nested => pure nested
  | turns+1,first,memberBytes,nested =>
    if first = [] then pure nested
    else do
      let s ← Command.observe id
      let chunk ← readChunk member memberBytes
        (nextReadSize limits s.toState memberBytes _READ_CHUNK_BYTES nested.isSome)
      if chunk = [] then pure nested
      else do
        let memberBytes ← accountActualBytes limits around chunk memberBytes
        match nested with
        | some target => do
          appendNested limits around chunk
          readRest around member turns chunk memberBytes (some (target ++ chunk))
        | none => readRest around member turns chunk memberBytes none

/-- `_read_member` -/
def readMember (around : List ZipInfo) (member : Member) : Walk (Option Bytes) := do
  openMember limits member
  let s ← Command.observe id
  let first ← readChunk member 0 (nextReadSize limits s.toState 0 4 false)
  let memberBytes ← accountActualBytes limits around first 0
  if isZip first then do
    appendNested limits around first
    readRest limits around member (member.content.length + 1) first memberBytes (some first)
  else readRest limits around member (member.content.length + 1) first memberBytes none

/-! ### Containers -/

/-- `_supported_compression_methods` -/
def supportedCompressionMethods : List (Nat × Text) :=
  [(0,lit "stored"),(8,lit "deflate"),(12,lit "bzip2"),(14,lit "lzma")] ++
    lib.zstandard.toList.map fun method => (method,lit "zstandard")

/-- `info.compress_type in _supported_compression_methods()` -/
def isSupported (info : ZipInfo) : Bool := (supportedCompressionMethods lib).any fun method => method.1 == info.compressType

/-- `_unsupported_method` -/
def unsupportedMethod (method : Nat) : Walk Unit :=
  Command.update fun s => { s with
    unsupportedMethodCount := s.unsupportedMethodCount + 1
    unsupportedMethods := s.unsupportedMethods.insert method
    partialReasons := s.partialReasons.insert .unsupportedCompressionMethod }

/-- `except (OSError, zipfile.BadZipFile, zipfile.LargeZipFile)` around the opening of a container -/
def handledAtOpening : Exn → Bool
  | .OSError | .BadZipFile | .LargeZipFile => true
  | _ => false

/-- `except (OSError, EOFError, zipfile.BadZipFile, zipfile.LargeZipFile)` around `infolist()` -/
def handledAtListing : Exn → Bool
  | .OSError | .EOFError | .BadZipFile | .LargeZipFile => true
  | _ => false

/-- `except (OSError, EOFError, RuntimeError, zipfile.BadZipFile, zlib.error)` around the reading of a member; a
    `NotImplementedError` has a handler of its own before. -/
def handledAtReading : Exn → Bool
  | .OSError | .EOFError | .RuntimeError | .BadZipFile | .ZlibError => true
  | _ => false

/-- What `_inspect_archive` does with a nested ZIP; `descend` is the call of itself. -/
def inspectNested (descend : Bytes → Walk Unit) (depth : Nat) (info : ZipInfo) (nested : Bytes) : Walk Unit := do
  Command.update fun s => { s with nestedArchivesDetected := s.nestedArchivesDetected + 1 }
  if limits.maxNestingDepth < depth + 1 then do
    markPartial .nestingDepthLimit
    Command.update (retainRecord lib limits .nesting limits.maxSuspiciousMemberNames info.filename (depth + 1) [])
  else do
    let s ← Command.observe id
    if lib.sha256 nested ∈ s.seenNestedDigests then
      Command.update fun s => { s with repeatedNestedArchives := s.repeatedNestedArchives + 1 }
    else do
      Command.update fun s => { s with seenNestedDigests := lib.sha256 nested :: s.seenNestedDigests }
      descend nested

/-- The handlers around the reading of a member, and what is done with what was read; the result says whether the loop
    goes on. -/
def afterReading (descend : Bytes → Walk Unit) (depth : Nat) (info : ZipInfo) : Except Raised (Option Bytes) → Walk Bool
  | .error .stop => pure false
  | .error (.library e) =>
    if e = .NotImplementedError then do
      unsupportedMethod info.compressType
      pure true
    else if handledAtReading e then do
      markMalformed .memberDecompressionError e
      pure true
    else Command.raise (.library e)
  | .ok none => pure true
  | .ok (some nested) => do
    inspectNested lib limits descend depth info nested
    pure true

/-- The loop body of `_inspect_archive` from the reading of a member on. -/
def inspectMember (descend : Bytes → Walk Unit) (depth : Nat) (info : ZipInfo) (around : List ZipInfo) : Walk Bool := do
  let read ← Command.attempt (readMember limits around info.member)
  afterReading lib limits descend depth info read

/-- The loop body of `_inspect_archive`; `around` are the entries that the containers around this one still have. -/
def inspectEntry (descend : Bytes → Walk Unit) (depth : Nat) (info : ZipInfo) (seen : SeenNames)
    (around : List ZipInfo) : Walk Bool := do
  let s ← Command.observe id
  if limits.maxMembersInspected ≤ s.membersInspected then do
    markResource .memberInspectionLimit
    pure false
  else do
    Command.update fun s => inspectName lib limits info.filename depth seen { s with
      membersInspected := s.membersInspected + 1
      history := { s.history with visited := (info,seen) :: s.history.visited } }
    if info.isDir then do
      Command.update fun s => { s with directoriesSeen := s.directoriesSeen + 1 }
      pure true
    else if info.isSymlink then do
      Command.update fun s => retainRecord lib limits .symlink limits.maxSuspiciousMemberNames info.filename depth []
        (counted .symlink s)
      pure true
    else if info.isEncrypted then do
      Command.update (counted .encrypted)
      markPartial .encryptedMember
      Command.update (retainRecord lib limits .encrypted limits.maxSuspiciousMemberNames info.filename depth [])
      pure true
    else if !isSupported lib info then do
      unsupportedMethod info.compressType
      pure true
    else inspectMember lib limits descend depth info around

/-- The loop of `_inspect_archive`. -/
def inspectEntries (descend : Bytes → List ZipInfo → Walk Unit) (depth : Nat) (around : List ZipInfo) :
    List ZipInfo → SeenNames → Walk Unit
  | [],_ => pure ()
  | info :: rest,seen => do
    let goOn ← inspectEntry lib limits (fun nested => descend nested (rest ++ around)) depth info seen around
    if goOn then inspectEntries descend depth around rest (noteName lib info.filename seen) else pure ()

/-- The entries of a container, as many as may be looked at. -/
def inspectInfos (descend : Bytes → List ZipInfo → Walk Unit) (depth : Nat) (around infos : List ZipInfo) : Walk Unit := do
  Command.update fun s => { s with entryCount := s.entryCount + infos.length }
  if limits.maxZipEntries < infos.length then do
    markResource .zipEntryLimit
    inspectEntries lib limits descend depth around (infos.take limits.maxZipEntries) []
  else inspectEntries lib limits descend depth around infos []

/-- An opened container. -/
def inspectContainer (descend : Bytes → List ZipInfo → Walk Unit) (depth : Nat) (around : List ZipInfo)
    (container : Container) : Walk Unit := do
  Command.update fun s => { s with archiveCount := s.archiveCount + 1 }
  match container.infolist with
  | .error e => if handledAtListing e then markMalformed .centralDirectoryError e else Command.raise (.library e)
  | .ok infos => inspectInfos lib limits descend depth around infos

/-- `_inspect_archive`; at depth `d` it is called with `max_nesting_depth + 1 - d` levels, so that there is one left. -/
def inspectArchive : Nat → Bytes → Nat → List ZipInfo → Walk Unit
  | 0,_,_,_ => pure ()
  | levels+1,source,depth,around => do
    Command.update fun s => { s with compressedBytesConsidered := s.compressedBytesConsidered + source.length }
    let s ← Command.observe id
    if limits.maxCompressedBytesConsidered < s.compressedBytesConsidered then markResource .compressedInputLimit
    else
      match lib.zipFile source with
      | .error e =>
        if handledAtOpening e then markMalformed (if depth = 0 then .malformedArchive else .malformedNestedArchive) e
        else Command.raise (.library e)
      | .ok container =>
        inspectContainer lib limits (fun nested left => inspectArchive levels nested (depth + 1) left) depth around container

/-! ### The result -/

def Category.code : Category → Text
  | .traversal => lit "ARCHIVE_PATH_TRAVERSAL"
  | .absolutePath => lit "ARCHIVE_ABSOLUTE_PATH"
  | .symlink => lit "ARCHIVE_SYMLINK"
  | .duplicate => lit "ARCHIVE_DUPLICATE_MEMBER"
  | .dangerous => lit "ARCHIVE_DANGEROUS_MEMBER"
  | .doubleExtension => lit "ARCHIVE_MEMBER_DOUBLE_EXTENSION"
  | .bidi => lit "ARCHIVE_MEMBER_BIDI_OVERRIDE"
  | .encrypted => lit "ARCHIVE_ENCRYPTED"
  | .nesting => lit "ARCHIVE_NESTING_LIMIT"

theorem Category.registered (category : Category) : (findingDefinition category.code).isSome := by
  cases category <;> decide +kernel

/-- The categories that `_findings` reports with their counts, in its order. -/
def observations : List Category :=
  [.traversal,.absolutePath,.symlink,.duplicate,.dangerous,.doubleExtension,.bidi,.encrypted]

/-- `sorted(reasons)` -/
def sortedReasons (reasons : List Reason) : Value := .arr ((sortedSet (reasons.map Reason.text)).map .str)

def membersValue (records : List Record) : Value := .arr (records.map .obj)

def exceptionValue (e : Option Exn) : Value := (e.map fun e => Value.str e.name).getD .null

/-- The finding of a category with its count. -/
def observationFinding (s : State) (category : Category) : FindingFields :=
  findingPayload category.code
    [(lit "count",.int (s.counts category)),(lit "members",membersValue (s.records category))] category.registered

/-- `_findings` -/
def findings (s : State) : List FindingFields :=
  (observations.filter fun category => 0 < s.counts category).map (observationFinding s) ++
  (if .nestingDepthLimit ∈ s.partialReasons then
    [findingPayload Category.nesting.code
      [(lit "maximum_depth",.int limits.maxNestingDepth),(lit "members",membersValue (s.records .nesting))]
      (Category.registered .nesting)] else []) ++
  (if s.resourceReasons ≠ [] then
    [findingPayload (lit "ARCHIVE_RESOURCE_LIMIT") [(lit "reasons",sortedReasons s.resourceReasons)]
      (by decide +kernel)] else []) ++
  (if s.malformedReasons ≠ [] then
    [findingPayload (lit "ARCHIVE_MALFORMED")
      [(lit "reasons",sortedReasons s.malformedReasons),(lit "parser_exception",exceptionValue s.parserException)]
      (by decide +kernel)] else []) ++
  (if s.partialReasons ≠ [] then
    [findingPayload (lit "ARCHIVE_PARTIAL_ANALYSIS") [(lit "reasons",sortedReasons s.partialReasons)]
      (by decide +kernel)] else [])

inductive ArchiveParserStatus where
  | COMPLETE
  | PARTIAL
  | MALFORMED
deriving DecidableEq

def ArchiveParserStatus.value : ArchiveParserStatus → Text
  | .COMPLETE => lit "COMPLETE"
  | .PARTIAL => lit "PARTIAL"
  | .MALFORMED => lit "MALFORMED"

def parserStatus (s : State) : ArchiveParserStatus :=
  if s.malformedReasons ≠ [] then .MALFORMED else if s.partialReasons ≠ [] then .PARTIAL else .COMPLETE

/-- The metadata of the analyzer. -/
def metadata (s : State) : Record :=
  [(lit "family",.str (lit "ZIP")),
   (lit "parser",.str (lit "python-zipfile")),
   (lit "python_runtime_version",.str lib.pythonVersion),
   (lit "zlib_version",.str lib.zlibVersion),
   (lit "parser_status",.str (parserStatus s).value),
   (lit "supported_compression_methods",.arr ((supportedCompressionMethods lib).map fun method => .str method.2)),
   (lit "archive_count",.int s.archiveCount),
   (lit "entry_count",.int s.entryCount),
   (lit "members_inspected",.int s.membersInspected),
   (lit "directory_count",.int s.directoriesSeen),
   (lit "nested_archive_count",.int s.nestedArchivesDetected),
   (lit "repeated_nested_archive_count",.int s.repeatedNestedArchives),
   (lit "actual_decompressed_bytes",.int s.actualDecompressedBytes),
   (lit "compressed_bytes_considered",.int s.compressedBytesConsidered),
   (lit "nested_archive_bytes_materialized",.int s.nestedArchiveBytesMaterialized),
   (lit "encrypted_member_count",.int (s.counts .encrypted)),
   (lit "unsupported_compression_member_count",.int s.unsupportedMethodCount),
   (lit "unsupported_compression_methods",.arr ((sortedSet s.unsupportedMethods).map fun n => .int n)),
   (lit "member_names_truncated",.int s.memberNamesTruncated),
   (lit "partial_reasons",sortedReasons s.partialReasons)] ++
  (s.parserException.map fun e => (lit "parser_exception",Value.str e.name)).toList

structure ArchiveAnalysis where
  status : ArchiveParserStatus
  findings : List FindingFields
  metadata : Record

/-- The findings that are kept when there are too many. -/
def mandatory : List Text :=
  [lit "ARCHIVE_MALFORMED",lit "ARCHIVE_NESTING_LIMIT",lit "ARCHIVE_RESOURCE_LIMIT",lit "ARCHIVE_PARTIAL_ANALYSIS"]

/-- `state.resource("finding_limit")`, when there are too many findings -/
def limitFindings (s : State) : State :=
  if limits.maxFindings < (findings limits s).length then
    { s with
      resourceReasons := s.resourceReasons.insert .findingLimit
      partialReasons := s.partialReasons.insert .findingLimit }
  else s

/-- The findings of the result; the mandatory ones come last when not all of the others fit. -/
def reportedFindings (s : State) : List FindingFields :=
  let all := findings limits (limitFindings limits s)
  if limits.maxFindings < (findings limits s).length then
    let required := all.filter fun f => mandatory.contains f.code
    let optional := all.filter fun f => !mandatory.contains f.code
    (optional.take (limits.maxFindings - required.length) ++ required).take limits.maxFindings
  else all

/-- `_result` -/
def result (s : State) : ArchiveAnalysis where
  status := parserStatus (limitFindings limits s)
  findings := reportedFindings limits s
  metadata := metadata lib (limitFindings limits s)

inductive Failure where
  | ArchiveRoutingError
  /-- An exception that no handler of the inspection names. -/
  | escaped (raised : Raised)
deriving DecidableEq

/-- The inspection of the file, from the empty state. -/
def inspect (content : Bytes) : Except Raised Unit × Inspection :=
  inspectArchive lib limits (limits.maxNestingDepth + 1) content 0 [] {}

/-- `analyze_archive`; the content is absent when `stat` fails. -/
def analyzeArchive (detectedFamily : FileFamily) (content : Option Bytes) : Except Failure ArchiveAnalysis :=
  if detectedFamily ≠ .ZIP ∧ detectedFamily ≠ .OOXML_CANDIDATE then .error .ArchiveRoutingError
  else
    match content with
    | none =>
      .ok (result lib limits {
        malformedReasons := [.archiveInputUnavailable]
        partialReasons := [.archiveInputUnavailable]
        parserException := some .OSError })
    | some content =>
      match inspect lib limits content with
      | (.ok _,s) => .ok (result lib limits s.toState)
      | (.error raised,_) => .error (.escaped raised)

end DocGuard.Archive
