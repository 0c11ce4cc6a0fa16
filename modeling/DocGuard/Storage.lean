import DocGuard.Commands
import DocGuard.ScanService

/-!
The two functions that store a private object, system call by system call: the
streamed upload and the private copy, where one of the calls may fail. The bytes
are stored entirely or nothing is left, unless the call that fails is the close of
a descriptor that the function itself holds.
-/
namespace DocGuard.Storage
open DocGuard.Commands DocGuard.Database DocGuard.ScanService

/-! ### The machine -/

structure StoredFile where
  content : Bytes
  mode : Nat
deriving DecidableEq

/-- The two paths of an object, the descriptors that are open in the kernel, the numbers of the calls that repeat,
    and the local variables that the `finally` block reads. -/
structure Machine where
  temporary : Option StoredFile := none
  final : Option StoredFile := none
  sourceOpen : Bool := false
  targetOpen : Bool := false
  reads : Nat := 0
  writes : Nat := 0
  /-- `source_descriptor is not None` -/
  sourceDescriptor : Bool := false
  /-- `descriptor is not None`, `target_descriptor is not None` -/
  targetDescriptor : Bool := false
  finalized : Bool := false

/-- The calls that may fail, those that repeat with their number. -/
inductive Call where
  | openSource
  | statSource
  | read (n : Nat)
  | closeSource
  | openTarget
  | write (n : Nat)
  | fsync
  | closeTarget
  | chmod
  | rename
  | openDirectory
  | fsyncDirectory
  | closeDirectory
deriving DecidableEq

inductive Raised where
  | UploadTooLarge
  | EmptyUpload
  | StorageFailure
  | OSError
  /-- Another exception of the chunk iterator, or a cancellation. -/
  | other
deriving DecidableEq

def STREAM_WRITE_CHUNK_BYTES : Nat := 64 * 1024

/-- What the environment does: the one call that fails, and how many bytes each write accepts and each read returns,
    as far as there are so many. -/
structure Plan where
  fails : Option Call := none
  accepted : Nat → Nat := fun _ => STREAM_WRITE_CHUNK_BYTES
  returned : Nat → Nat := fun _ => STREAM_WRITE_CHUNK_BYTES

abbrev Sys := Command Machine Raised

variable (plan : Plan)

/-- A system call with its effect. -/
def call (c : Call) (effect : Machine → Machine) : Sys Unit := fun m =>
  if plan.fails = some c then (.error .OSError,m) else (.ok (),effect m)

/-- `os.open` of the temporary path with `O_EXCL`, assigned to the local variable. -/
def openTarget : Sys Unit :=
  call plan .openTarget fun m =>
    { m with temporary := some ⟨[],0o600⟩, targetOpen := true, targetDescriptor := true }

/-- `os.close`: a descriptor that is not open is an error, and one whose close fails is released all the same. -/
def closeTarget : Sys Unit := fun m =>
  if m.targetOpen then (if plan.fails = some .closeTarget then .error .OSError else .ok (),{ m with targetOpen := false })
  else (.error .OSError,m)

def closeSource : Sys Unit := fun m =>
  if m.sourceOpen then (if plan.fails = some .closeSource then .error .OSError else .ok (),{ m with sourceOpen := false })
  else (.error .OSError,m)

/-- `os.write`: the number of the bytes that were written. -/
def write (data : Bytes) : Sys Nat := fun m =>
  if plan.fails = some (.write m.writes) then (.error .OSError,{ m with writes := m.writes + 1 })
  else
    let count := min (plan.accepted m.writes) data.length
    (.ok count,{ m with
      writes := m.writes + 1
      temporary := m.temporary.map fun f => { f with content := f.content ++ data.take count } })

/-- `_write_all`; every turn takes at least one byte off the data, so that `turns` are enough. -/
def writeAll : Nat → Bytes → Sys Unit
  | 0,_ => pure ()
  | turns+1,data =>
    if data = [] then pure ()
    else do
      let written ← write plan data
      if written = 0 then Command.raise .OSError else writeAll turns (data.drop written)

/-- `os.read` of what is left of the source; it returns nothing only at the end. -/
def read (left : Bytes) : Sys Bytes := fun m =>
  if plan.fails = some (.read m.reads) then (.error .OSError,{ m with reads := m.reads + 1 })
  else (.ok (left.take (max 1 (min (plan.returned m.reads) STREAM_WRITE_CHUNK_BYTES))),{ m with reads := m.reads + 1 })

/-- `_fsync_directory` -/
def fsyncDirectory : Sys Unit := do
  call plan .openDirectory id
  (call plan .fsyncDirectory id).andFinally (call plan .closeDirectory id)

/-- The end of both functions, from `os.fsync` to `finalized = True`. -/
def finish : Sys Unit := do
  call plan .fsync id
  closeTarget plan
  fun m => (.ok (),{ m with targetDescriptor := false })
  call plan .chmod fun m => { m with temporary := m.temporary.map fun f => { f with mode := 0o400 } }
  call plan .rename fun m => { m with final := m.temporary, temporary := none }
  fsyncDirectory plan
  fun m => (.ok (),{ m with finalized := true })

/-- `if not finalized:` both paths are unlinked. -/
def unlinkUnlessFinalized : Sys Unit := fun m =>
  (.ok (),if m.finalized then m else { m with temporary := none, final := none })

/-! ### The streamed upload -/

/-- The slices of a chunk. -/
def slices : Nat → Bytes → List Bytes
  | 0,_ => []
  | n+1,received =>
    if received = [] then []
    else received.take STREAM_WRITE_CHUNK_BYTES :: slices n (received.drop STREAM_WRITE_CHUNK_BYTES)

/-- The slices are counted, hashed and written; `stored` are the bytes so far. -/
def storeSlices (maximumBytes : Nat) : List Bytes → Bytes → Sys Bytes
  | [],stored => pure stored
  | piece :: rest,stored =>
    if maximumBytes < stored.length + piece.length then Command.raise .UploadTooLarge
    else do
      writeAll plan piece.length piece
      storeSlices maximumBytes rest (stored ++ piece)

/-- The chunks of a body, and the exception with which the iterator ends, if it does not end regularly. -/
structure Chunks where
  received : List Bytes
  raises : Option Raised := none

/-- The body of the `try` of `stream_document_to_quarantine`. -/
def streamBody (digest : Bytes → Text) (key : Text) (maximumBytes : Nat) (chunks : Chunks) : Sys StoredDocument := do
  openTarget plan
  let stored ← storeSlices plan maximumBytes (chunks.received.flatMap fun c => slices c.length c) []
  match chunks.raises with
  | some e => Command.raise e
  | none =>
    if stored = [] then Command.raise .EmptyUpload
    else do
      finish plan
      return ⟨.quarantine,key,digest stored,stored.length⟩

/-- `except OSError`, in both functions; other exceptions go through. -/
def asStorageFailure {α : Type} : Raised → Sys α
  | .OSError => Command.raise .StorageFailure
  | e => Command.raise e

/-- The `finally` block of `stream_document_to_quarantine`. -/
def streamCleanup : Sys Unit := do
  fun m => if m.targetDescriptor then closeTarget plan m else (.ok (),m)
  unlinkUnlessFinalized

def streamDocumentToQuarantine (digest : Bytes → Text) (key : Text) (maximumBytes : Nat) (chunks : Chunks) :
    Sys StoredDocument :=
  ((streamBody plan digest key maximumBytes chunks).except asStorageFailure).andFinally (streamCleanup plan)

/-! ### The private copy -/

/-- What is found at the source path. -/
inductive SourceFile where
  | missing
  | irregular
  | regular (content : Bytes)

/-- It is a regular file, so that the copy holds its descriptor. -/
def SourceFile.isRegular : SourceFile → Bool
  | .regular _ => true
  | _ => false

def SourceFile.bytes : SourceFile → Bytes
  | .regular content => content
  | _ => []

/-- `_open_regular_read_only`, assigned to the local variable. -/
def openRegularReadOnly : SourceFile → Sys Bytes
  | .missing => Command.raise .OSError
  | .irregular => do
    call plan .openSource fun m => { m with sourceOpen := true }
    call plan .statSource id
    closeSource plan
    Command.raise .StorageFailure
  | .regular content => do
    call plan .openSource fun m => { m with sourceOpen := true }
    call plan .statSource id
    fun m => (.ok content,{ m with sourceDescriptor := true })

/-- The loop of reads; every turn but the last takes at least one byte off what is left. -/
def copyAll (maximumBytes : Nat) : Nat → Bytes → Bytes → Sys Bytes
  | 0,_,stored => pure stored
  | turns+1,left,stored => do
    let chunk ← read plan left
    if chunk = [] then pure stored
    else if maximumBytes < stored.length + chunk.length then Command.raise .StorageFailure
    else do
      writeAll plan chunk.length chunk
      copyAll maximumBytes turns (left.drop chunk.length) (stored ++ chunk)

/-- The body of the `try` of `store_private_copy`. -/
def copyBody (digest : Bytes → Text) (area : Area) (key : Text) (maximumBytes : Nat) (expectedSha256 : Text)
    (source : SourceFile) : Sys StoredDocument := do
  let content ← openRegularReadOnly plan source
  openTarget plan
  let stored ← copyAll plan maximumBytes (content.length + 1) content []
  if stored = [] ∨ digest stored ≠ expectedSha256 then Command.raise .StorageFailure
  else do
    finish plan
    return ⟨area,key,digest stored,stored.length⟩

/-- The `finally` block of `store_private_copy`. -/
def copyCleanup : Sys Unit := do
  fun m => if m.sourceDescriptor then closeSource plan m else (.ok (),m)
  fun m => if m.targetDescriptor then closeTarget plan m else (.ok (),m)
  unlinkUnlessFinalized

def storePrivateCopy (digest : Bytes → Text) (area : Area) (key : Text) (maximumBytes : Nat) (expectedSha256 : Text)
    (source : SourceFile) : Sys StoredDocument :=
  ((copyBody plan digest area key maximumBytes expectedSha256 source).except asStorageFailure).andFinally
    (copyCleanup plan)

/-! ### The stored bytes -/

section Rules
variable {plan : Plan} {held : Bool} {content : Bytes}

/-- The temporary file has this content, and the function holds its descriptor (and that of the source). -/
structure Writing (held : Bool) (content : Bytes) (m : Machine) : Prop where
  temporary : m.temporary = some ⟨content,0o600⟩
  final : m.final = none
  sourceOpen : m.sourceOpen = held
  sourceDescriptor : m.sourceDescriptor = held
  targetOpen : m.targetOpen = true
  targetDescriptor : m.targetDescriptor = true
  finalized : m.finalized = false

theorem write_ensures (data : Bytes) : Ensures (Writing held content) (write plan data)
    (fun
      | .ok count,m => count ≤ data.length ∧ Writing held (content ++ data.take count) m
      | .error _,m => Writing held content m) := by
  intro m writing
  by_cases failing : plan.fails = some (.write m.writes)
  · simp only [write,failing,if_true]
    exact ⟨writing.1,writing.2,writing.3,writing.4,writing.5,writing.6,writing.7⟩
  · simp only [write,failing,if_false]
    refine ⟨min_le_right _ _,?_,writing.2,writing.3,writing.4,writing.5,writing.6,writing.7⟩
    simp [writing.temporary]

theorem writeAll_ensures {turns : Nat} {data : Bytes} (enough : data.length ≤ turns) :
    Ensures (Writing held content) (writeAll plan turns data)
      (fun
        | .ok _,m => Writing held (content ++ data) m
        | .error _,m => ∃ partly, Writing held partly m) := by
  induction turns generalizing data content with
  | zero =>
    have empty : data = [] := List.length_eq_zero_iff.mp (Nat.le_zero.mp enough)
    exact ensures_pure fun m writing => by simpa [empty] using writing
  | succ turns ih =>
    unfold writeAll
    split
    · rename_i empty
      exact ensures_pure fun m writing => by simpa [empty] using writing
    · refine ensures_bind (write_ensures data) (fun written => ?_) (fun _ _ writing => ⟨content,writing⟩)
      split
      · exact ensures_raise fun m reached => ⟨_,reached.2⟩
      · intro m reached
        have fewer : (data.drop written).length ≤ turns := by
          rw [List.length_drop]
          omega
        have whole : content ++ data.take written ++ data.drop written = content ++ data := by
          rw [List.append_assoc,List.take_append_drop]
        have later := @ih (content ++ data.take written) _ fewer m reached.2
        rwa [whole] at later

theorem slices_flatten {turns : Nat} {received : Bytes} (enough : received.length ≤ turns) :
    (slices turns received).flatten = received := by
  induction turns generalizing received with
  | zero => simpa [slices] using (List.length_eq_zero_iff.mp (Nat.le_zero.mp enough)).symm
  | succ turns ih =>
    unfold slices
    split
    · rename_i empty
      simp [empty]
    · rename_i more
      have positive : 0 < received.length := List.length_pos_iff.mpr more
      have fewer : (received.drop STREAM_WRITE_CHUNK_BYTES).length ≤ turns := by
        rw [List.length_drop,STREAM_WRITE_CHUNK_BYTES]
        omega
      rw [List.flatten_cons,ih fewer,List.take_append_drop]

/-- The slices of all chunks, in order, are the bytes of the chunks. -/
theorem flatMap_slices (received : List Bytes) :
    (received.flatMap fun c => slices c.length c).flatten = received.flatten := by
  induction received with
  | nil => rfl
  | cons c rest ih => rw [List.flatMap_cons,List.flatten_append,slices_flatten le_rfl,ih,List.flatten_cons]

/-- What a loop leaves that stores these bytes: all of them, or some of them in the temporary file. -/
def Looped (held : Bool) (maximumBytes : Nat) (expected : Bytes) : Except Raised Bytes → Machine → Prop
  | .ok bytes,m => bytes = expected ∧ bytes.length ≤ maximumBytes ∧ Writing held bytes m
  | .error _,m => ∃ partly, Writing held partly m

theorem storeSlices_ensures {maximumBytes : Nat} {pieces : List Bytes} {stored : Bytes}
    (within : stored.length ≤ maximumBytes) :
    Ensures (Writing held stored) (storeSlices plan maximumBytes pieces stored)
      (Looped held maximumBytes (stored ++ pieces.flatten)) := by
  induction pieces generalizing stored with
  | nil => exact ensures_pure fun m writing => ⟨by simp,within,writing⟩
  | cons piece rest ih =>
    unfold storeSlices
    split
    · exact ensures_raise fun m writing => ⟨stored,writing⟩
    · rename_i fits
      have within' : (stored ++ piece).length ≤ maximumBytes := by
        rw [List.length_append]
        omega
      refine ensures_bind (writeAll_ensures le_rfl) (fun _ => ?_) (fun _ _ partly => partly)
      have later := ih within'
      rwa [List.append_assoc,← List.flatten_cons] at later

theorem read_ensures (left : Bytes) : Ensures (Writing held content) (read plan left)
    (fun
      | .ok chunk,m => (∃ n, 1 ≤ n ∧ chunk = left.take n) ∧ Writing held content m
      | .error _,m => Writing held content m) := by
  intro m writing
  have same : Writing held content { m with reads := m.reads + 1 } :=
    ⟨writing.1,writing.2,writing.3,writing.4,writing.5,writing.6,writing.7⟩
  by_cases failing : plan.fails = some (.read m.reads)
  · simp only [read,failing,if_true]
    exact same
  · simp only [read,failing,if_false]
    exact ⟨⟨_,le_max_left _ _,rfl⟩,same⟩

theorem take_ended {left : Bytes} {n : Nat} (some : 1 ≤ n) (ended : left.take n = []) : left = [] := by
  rcases List.take_eq_nil_iff.mp ended with zero | done
  · omega
  · exact done

theorem take_append_rest (left : Bytes) (n : Nat) : left.take n ++ left.drop (left.take n).length = left := by
  rw [List.length_take]
  rcases le_total n left.length with less | beyond
  · rw [min_eq_left less,List.take_append_drop]
  · rw [min_eq_right beyond,List.take_of_length_le beyond,List.drop_length,List.append_nil]

theorem copyAll_ensures {maximumBytes turns : Nat} {left stored : Bytes} (enough : left.length < turns)
    (within : stored.length ≤ maximumBytes) :
    Ensures (Writing held stored) (copyAll plan maximumBytes turns left stored)
      (Looped held maximumBytes (stored ++ left)) := by
  induction turns generalizing left stored with
  | zero => exact absurd enough (Nat.not_lt_zero _)
  | succ turns ih =>
    refine ensures_bind (read_ensures left) (fun chunk => ?_) (fun _ _ writing => ⟨stored,writing⟩)
    split
    · rename_i ended
      refine ensures_pure ?_
      rintro m ⟨⟨n,some,taken⟩,writing⟩
      exact ⟨by simp [take_ended some (taken.symm.trans ended)],within,writing⟩
    · rename_i more
      split
      · exact ensures_raise fun m reached => ⟨stored,reached.2⟩
      · rename_i fits
        rintro m ⟨⟨n,some,rfl⟩,writing⟩
        have positive : 0 < left.length := by
          refine List.length_pos_iff.mpr ?_
          rintro rfl
          exact more List.take_nil
        have within' : (stored ++ left.take n).length ≤ maximumBytes := by
          rw [List.length_append]
          omega
        have fewer : (left.drop (left.take n).length).length < turns := by
          rw [List.length_drop,List.length_take]
          omega
        have later := ih fewer within'
        rw [List.append_assoc,take_append_rest] at later
        have written : Ensures (Writing held stored) (writeAll plan (left.take n).length (left.take n)) _ :=
          writeAll_ensures le_rfl
        have copied : Ensures (Writing held stored) _ (Looped held maximumBytes (stored ++ left)) :=
          ensures_bind written (fun _ => later) (fun _ _ partly => partly)
        exact copied m writing

/-! ### The end of both functions -/

/-- All the bytes are at the final path, and the function holds at most the source. -/
structure Done (held : Bool) (content : Bytes) (m : Machine) : Prop where
  temporary : m.temporary = none
  final : m.final = some ⟨content,0o400⟩
  sourceOpen : m.sourceOpen = held
  sourceDescriptor : m.sourceDescriptor = held
  targetDescriptor : m.targetDescriptor = false
  finalized : m.finalized = true

/-- What an exception leaves to the `finally` block once the temporary path may exist: the local variable holds a
    descriptor that is open, unless its close has failed, and then the temporary file is there. -/
structure Failed (plan : Plan) (held : Bool) (m : Machine) : Prop where
  finalized : m.finalized = false
  sourceOpen : m.sourceOpen = held
  sourceDescriptor : m.sourceDescriptor = held
  target : plan.fails ≠ some .closeTarget → m.targetDescriptor = true → m.targetOpen = true
  kept : plan.fails = some .closeTarget → m.targetDescriptor = true ∧ m.temporary ≠ none
  present : plan.fails = some .closeSource → m.temporary ≠ none

theorem Writing.failed {m : Machine} (writing : Writing held content m) : Failed plan held m where
  finalized := writing.finalized
  sourceOpen := writing.sourceOpen
  sourceDescriptor := writing.sourceDescriptor
  target _ _ := writing.targetOpen
  kept _ := ⟨writing.targetDescriptor,by simp [writing.temporary]⟩
  present _ := by simp [writing.temporary]

theorem openTarget_ensures (held : Bool) : Ensures (fun m => m.final = none ∧ m.sourceOpen = held ∧ m.sourceDescriptor = held ∧
      m.targetDescriptor = false ∧ m.finalized = false) (openTarget plan)
    (fun
      | .ok _,m => Writing held [] m
      | .error _,m => Failed plan held m) := by
  rintro m ⟨final,sourceOpen,sourceDescriptor,targetDescriptor,finalized⟩
  by_cases failing : plan.fails = some .openTarget
  · simp only [openTarget,call,failing,if_true]
    exact ⟨finalized,sourceOpen,sourceDescriptor,fun _ impossible => by simp [targetDescriptor] at impossible,
      fun impossible => by simp [failing] at impossible,fun impossible => by simp [failing] at impossible⟩
  · simp only [openTarget,call,failing,if_false]
    exact ⟨rfl,final,sourceOpen,sourceDescriptor,rfl,rfl,finalized⟩

/-- The end succeeds only when the close of the descriptor does. -/
theorem finish_ensures : Ensures (Writing held content) (finish plan)
    (fun
      | .ok _,m => Done held content m ∧ plan.fails ≠ some .closeTarget
      | .error _,m => Failed plan held m) := by
  intro m writing
  obtain ⟨temporary,final,source,descriptor,opened,target,finalized⟩ := writing
  -- each call in turn is the one that fails
  cases fails : plan.fails with
  | none =>
    simp only [finish,call,closeTarget,fsyncDirectory,Command.andFinally,bind,fails,temporary,final,opened,reduceCtorEq,
      if_true,if_false,ne_eq,not_false_eq_true,and_true,id]
    exact ⟨rfl,rfl,source,descriptor,rfl,rfl⟩
  | some c =>
    cases c <;> simp [finish,call,closeTarget,fsyncDirectory,Command.andFinally,bind,fails,temporary,final,source,
      descriptor,opened,target,finalized]
    all_goals constructor <;> first | rfl | assumption | simp [fails,opened]

/-! ### All or nothing -/

/-- A document was returned, with the digest that is expected if one is, and the final file holds exactly its bytes;
    or an exception was raised and neither of the files is there. -/
def StoredOrGone (digest : Bytes → Text) (area : Area) (key : Text) (maximumBytes : Nat) (expected : Option Text)
    (bytes : Bytes) : Except Raised StoredDocument → Machine → Prop
  | .ok document,m => document = ⟨area,key,digest bytes,bytes.length⟩ ∧ (∀ e ∈ expected, document.sha256 = e) ∧
      1 ≤ bytes.length ∧ bytes.length ≤ maximumBytes ∧ m.final = some ⟨bytes,0o400⟩ ∧ m.temporary = none
  | .error _,m => m.temporary = none ∧ m.final = none

variable {digest : Bytes → Text} {area : Area} {key : Text} {maximumBytes : Nat} {expected : Option Text} {bytes : Bytes}

/-- What the body of either function hands to its `finally` block. -/
def Bodied (plan : Plan) (held : Bool) (digest : Bytes → Text) (area : Area) (key : Text) (maximumBytes : Nat)
    (bytes : Bytes) : Except Raised StoredDocument → Machine → Prop
  | .ok document,m => document = ⟨area,key,digest bytes,bytes.length⟩ ∧ 1 ≤ bytes.length ∧
      bytes.length ≤ maximumBytes ∧ Done held bytes m ∧ plan.fails ≠ some .closeTarget
  | .error _,m => Failed plan held m

theorem finished_ensures (some : 1 ≤ bytes.length) (within : bytes.length ≤ maximumBytes) :
    Ensures (Writing held bytes)
      (do
        finish plan
        return ⟨area,key,digest bytes,bytes.length⟩)
      (Bodied plan held digest area key maximumBytes bytes) :=
  ensures_bind finish_ensures (fun _ => ensures_pure fun _ reached => ⟨rfl,some,within,reached⟩) (fun _ _ failed => failed)

/-- An exception of the body stays one. -/
theorem except_ensures {P : Machine → Prop} {body : Sys StoredDocument} {post : Except Raised StoredDocument → Machine → Prop}
    (ensures : Ensures P body post) (any : ∀ e e' m, post (.error e) m → post (.error e') m) :
    Ensures P (body.except asStorageFailure) post := by
  refine ensures_except ensures (fun _ _ reached => reached) fun e => ?_
  cases e <;> exact ensures_raise fun m reached => any _ _ m reached

theorem streamBody_ensures (chunks : Chunks) : Ensures (· = {}) (streamBody plan digest key maximumBytes chunks)
    (Bodied plan false digest .quarantine key maximumBytes chunks.received.flatten) := by
  refine ensures_bind (ensures_mono (openTarget_ensures false) ?_ (fun _ _ reached => reached)) (fun _ => ?_)
    (fun _ _ failed => failed)
  · rintro m rfl
    exact ⟨rfl,rfl,rfl,rfl,rfl⟩
  · refine ensures_bind (storeSlices_ensures (Nat.zero_le _)) (fun stored => ?_)
      (fun _ _ ⟨_,writing⟩ => writing.failed)
    rw [flatMap_slices,List.nil_append]
    split
    · exact ensures_raise fun m reached => reached.2.2.failed
    · split
      · exact ensures_raise fun m reached => reached.2.2.failed
      · rename_i some
        rintro m ⟨rfl,within,writing⟩
        exact finished_ensures (List.length_pos_iff.mpr some) within m writing

/-- What a `finally` block leaves: when a close is broken it raises and a file is still there, and otherwise the
    document is stored or gone. -/
def Cleaned (broken : Prop) (stored : Machine → Prop) (ended : Except Raised Unit) (m : Machine) : Prop :=
  (broken → (∃ e, ended = .error e) ∧ ¬(m.temporary = none ∧ m.final = none)) ∧
  (¬broken → ended = .ok () ∧ stored m)

/-- From the body and the `finally` block of a function to what the function leaves. -/
theorem stored_iff {body : Sys StoredDocument} {cleanup : Sys Unit} {broken : Prop}
    {reached : Except Raised StoredDocument → Machine → Prop} (ensures : Ensures (· = {}) body reached)
    (any : ∀ e e' m, reached (.error e) m → reached (.error e') m)
    (cleaned : ∀ result, Ensures (reached result) cleanup
      (Cleaned broken (StoredOrGone digest area key maximumBytes expected bytes result))) :
    StoredOrGone digest area key maximumBytes expected bytes (((body.except asStorageFailure).andFinally cleanup) {}).1
      (((body.except asStorageFailure).andFinally cleanup) {}).2 ↔ ¬broken := by
  have ended : Ensures (· = {}) ((body.except asStorageFailure).andFinally cleanup) (fun result m =>
      (broken → (∃ e, result = .error e) ∧ ¬(m.temporary = none ∧ m.final = none)) ∧
      (¬broken → StoredOrGone digest area key maximumBytes expected bytes result m)) := by
    refine ensures_finally (except_ensures ensures any) fun result => ensures_mono (cleaned result)
      (fun _ before => before) fun after m left => ?_
    by_cases close : broken
    · obtain ⟨⟨e,rfl⟩,kept⟩ := left.1 close
      exact ⟨fun _ => ⟨⟨e,rfl⟩,kept⟩,fun sound => absurd close sound⟩
    · obtain ⟨rfl,stored⟩ := left.2 close
      exact ⟨fun impossible => absurd impossible close,fun _ => stored⟩
  obtain ⟨raises,stores⟩ := ended {} rfl
  refine ⟨fun stored close => ?_,stores⟩
  obtain ⟨⟨e,raised⟩,kept⟩ := raises close
  rw [raised] at stored
  exact kept stored

/-- The `finally` block of the upload: after a failed close the second one is an error, which leaves the file. -/
theorem streamCleanup_ensures (result : Except Raised StoredDocument) :
    Ensures (Bodied plan false digest .quarantine key maximumBytes bytes result) (streamCleanup plan)
      (Cleaned (plan.fails = some .closeTarget) (StoredOrGone digest .quarantine key maximumBytes none bytes result)) := by
  intro m reached
  cases result with
  | ok document =>
    obtain ⟨same,nonempty,within,done,unfailing⟩ := reached
    refine ⟨fun closing => absurd closing unfailing,fun _ => ?_⟩
    simp only [streamCleanup,bind,done.targetDescriptor,unlinkUnlessFinalized,done.finalized,if_true,if_false,
      Bool.false_eq_true]
    exact ⟨trivial,same,fun _ impossible => (Option.not_mem_none _ impossible).elim,nonempty,within,done.final,
      done.temporary⟩
  | error e =>
    have failed : Failed plan false m := reached
    constructor
    · intro closing
      obtain ⟨target,kept⟩ := failed.kept closing
      by_cases opened : m.targetOpen = true <;> simp [streamCleanup,bind,target,closeTarget,opened,closing,kept]
    · intro closing
      by_cases target : m.targetDescriptor = true
      · simp [streamCleanup,bind,target,closeTarget,failed.target closing target,closing,unlinkUnlessFinalized,
          failed.finalized,StoredOrGone]
      · simp [streamCleanup,bind,target,unlinkUnlessFinalized,failed.finalized,StoredOrGone]

/-- The close of a descriptor that the copy holds is the call that fails. -/
def ClosingFails (plan : Plan) (source : SourceFile) : Prop :=
  (plan.fails = some .closeTarget ∨ plan.fails = some .closeSource) ∧ source.isRegular = true

/-- No path and no descriptor has been touched yet. -/
structure Untouched (m : Machine) : Prop where
  sourceDescriptor : m.sourceDescriptor = false
  targetDescriptor : m.targetDescriptor = false
  finalized : m.finalized = false

/-- What the body of the copy hands to its `finally` block. -/
def Copied (plan : Plan) (digest : Bytes → Text) (area : Area) (key : Text) (maximumBytes : Nat) (expectedSha256 : Text)
    (source : SourceFile) : Except Raised StoredDocument → Machine → Prop
  | .ok document,m => digest source.bytes = expectedSha256 ∧ source.isRegular = true ∧
      Bodied plan true digest area key maximumBytes source.bytes (.ok document) m
  | .error _,m => (source.isRegular = true ∧ Failed plan true m) ∨ (¬ClosingFails plan source ∧ Untouched m)

theorem call_ensures {P : Machine → Prop} (c : Call) (effect : Machine → Machine) : Ensures P (call plan c effect)
    (fun
      | .ok _,m => ∃ before, P before ∧ m = effect before
      | .error _,m => plan.fails = some c ∧ P m) := by
  intro m holds
  by_cases failing : plan.fails = some c
  · simp only [call,failing,if_true]
    exact ⟨trivial,holds⟩
  · simp only [call,failing,if_false]
    exact ⟨m,holds,rfl⟩

theorem openRegularReadOnly_ensures (source : SourceFile) : Ensures (· = {}) (openRegularReadOnly plan source)
    (fun
      | .ok content,m => source = .regular content ∧ m = { sourceOpen := true, sourceDescriptor := true }
      | .error _,m => ¬ClosingFails plan source ∧ Untouched m) := by
  have untouched (opened : Bool) : Untouched { sourceOpen := opened } := ⟨rfl,rfl,rfl⟩
  cases source with
  | missing =>
    have sound : ¬ClosingFails plan .missing := fun closing => by cases closing.2
    exact ensures_raise fun m start => ⟨sound,start ▸ untouched false⟩
  | irregular =>
    have sound : ¬ClosingFails plan .irregular := fun closing => by cases closing.2
    refine ensures_bind (call_ensures _ _) (fun _ => ?_) fun _ m reached => ⟨sound,reached.2 ▸ untouched false⟩
    refine ensures_bind (call_ensures _ _) (fun _ => ?_) ?_
    · rintro m ⟨_,⟨_,rfl,rfl⟩,rfl⟩
      by_cases closing : plan.fails = some .closeSource
      · simpa [bind,closeSource,closing,sound] using untouched false
      · simpa [bind,closeSource,closing,sound,Command.raise] using untouched false
    · rintro _ m ⟨_,_,rfl,rfl⟩
      exact ⟨sound,untouched true⟩
  | regular content =>
    refine ensures_bind (call_ensures _ _) (fun _ => ?_) fun _ m reached => ⟨?_,reached.2 ▸ untouched false⟩
    · refine ensures_bind (call_ensures _ _) (fun _ => ?_) ?_
      · rintro m ⟨_,⟨_,rfl,rfl⟩,rfl⟩
        exact ⟨rfl,rfl⟩
      · rintro _ m ⟨stating,_,rfl,rfl⟩
        refine ⟨?_,untouched true⟩
        simp [ClosingFails,stating]
    · simp [ClosingFails,reached.1]

theorem copyBody_ensures (expectedSha256 : Text) (source : SourceFile) :
    Ensures (· = {}) (copyBody plan digest area key maximumBytes expectedSha256 source)
      (Copied plan digest area key maximumBytes expectedSha256 source) := by
  refine ensures_bind (openRegularReadOnly_ensures source) (fun content => ?_) (fun _ _ failed => .inr failed)
  rintro m ⟨rfl,rfl⟩
  have rest : Ensures (· = { sourceOpen := true, sourceDescriptor := true })
      (openTarget plan >>= fun _ => copyAll plan maximumBytes (content.length + 1) content [] >>= fun stored =>
        if stored = [] ∨ digest stored ≠ expectedSha256 then Command.raise .StorageFailure
        else do
          finish plan
          return (⟨area,key,digest stored,stored.length⟩ : StoredDocument))
      (Copied plan digest area key maximumBytes expectedSha256 (.regular content)) := by
    refine ensures_bind (ensures_mono (openTarget_ensures true) ?_ (fun _ _ reached => reached)) (fun _ => ?_)
      (fun _ _ failed => .inl ⟨rfl,failed⟩)
    · rintro m rfl
      exact ⟨rfl,rfl,rfl,rfl,rfl⟩
    · refine ensures_bind (copyAll_ensures (Nat.lt_succ_self _) (Nat.zero_le _)) (fun stored => ?_)
        (fun _ _ ⟨_,writing⟩ => .inl ⟨rfl,writing.failed⟩)
      rw [List.nil_append]
      split
      · exact ensures_raise fun m reached => .inl ⟨rfl,reached.2.2.failed⟩
      · rename_i agrees
        rw [not_or,not_not] at agrees
        rintro m ⟨rfl,within,writing⟩
        have finished : Ensures (Writing true stored) _ (Bodied plan true digest area key maximumBytes stored) :=
          finished_ensures (List.length_pos_iff.mpr agrees.1) within
        refine ensures_mono finished (fun _ before => before) (fun result t reached => ?_) m writing
        cases result with
        | ok document => exact ⟨agrees.2,rfl,reached⟩
        | error e => exact .inl ⟨rfl,reached⟩
  exact rest _ rfl

/-- The `finally` block of the copy: a failed close of either descriptor leaves what is at the paths. -/
theorem copyCleanup_ensures (expectedSha256 : Text) (source : SourceFile) (result : Except Raised StoredDocument) :
    Ensures (Copied plan digest area key maximumBytes expectedSha256 source result) (copyCleanup plan)
      (Cleaned (ClosingFails plan source) (StoredOrGone digest area key maximumBytes (some expectedSha256) source.bytes result)) := by
  intro m reached
  cases result with
  | ok document =>
    obtain ⟨digested,regular,same,nonempty,within,done,unfailing⟩ := reached
    constructor
    · rintro ⟨closing | closing,_⟩
      · exact absurd closing unfailing
      · simp [copyCleanup,bind,done.sourceDescriptor,closeSource,done.sourceOpen,closing,done.final]
    · intro sound
      have closing : plan.fails ≠ some .closeSource := fun closing => sound ⟨.inr closing,regular⟩
      simp only [copyCleanup,bind,done.sourceDescriptor,closeSource,done.sourceOpen,if_neg closing,done.targetDescriptor,
        unlinkUnlessFinalized,done.finalized,if_true,if_false,Bool.false_eq_true]
      refine ⟨trivial,same,fun e expected => ?_,nonempty,within,done.final,done.temporary⟩
      rw [same,← Option.some.inj expected]
      exact digested
  | error e =>
    rcases reached with ⟨regular,failed⟩ | ⟨sound,untouched⟩
    · constructor
      · rintro ⟨closing | closing,_⟩
        · obtain ⟨target,kept⟩ := failed.kept closing
          by_cases opened : m.targetOpen = true <;>
            simp [copyCleanup,bind,failed.sourceDescriptor,closeSource,failed.sourceOpen,target,closeTarget,opened,
              closing,kept]
        · simp [copyCleanup,bind,failed.sourceDescriptor,closeSource,failed.sourceOpen,closing,failed.present closing]
      · intro sound
        have source' : plan.fails ≠ some .closeSource := fun closing => sound ⟨.inr closing,regular⟩
        have target' : plan.fails ≠ some .closeTarget := fun closing => sound ⟨.inl closing,regular⟩
        by_cases target : m.targetDescriptor = true
        · simp [copyCleanup,bind,failed.sourceDescriptor,closeSource,failed.sourceOpen,source',target,closeTarget,
            failed.target target' target,target',unlinkUnlessFinalized,failed.finalized,StoredOrGone]
        · simp [copyCleanup,bind,failed.sourceDescriptor,closeSource,failed.sourceOpen,source',target,
            unlinkUnlessFinalized,failed.finalized,StoredOrGone]
    · refine ⟨fun closing => absurd closing sound,fun _ => ?_⟩
      simp [copyCleanup,bind,untouched.sourceDescriptor,untouched.targetDescriptor,unlinkUnlessFinalized,
        untouched.finalized,StoredOrGone]

end Rules

/-- Both functions store everything or leave nothing exactly when the call that fails is not the close of a
    descriptor that they hold themselves. -/
theorem all_or_nothing_iff (plan : Plan) (digest : Bytes → Text) (area : Area) (key expectedSha256 : Text)
    (maximumBytes : Nat) (chunks : Chunks) (source : SourceFile) :
    (StoredOrGone digest .quarantine key maximumBytes none chunks.received.flatten
        (streamDocumentToQuarantine plan digest key maximumBytes chunks {}).1
        (streamDocumentToQuarantine plan digest key maximumBytes chunks {}).2 ↔
      plan.fails ≠ some .closeTarget) ∧
    (StoredOrGone digest area key maximumBytes (some expectedSha256) source.bytes
        (storePrivateCopy plan digest area key maximumBytes expectedSha256 source {}).1
        (storePrivateCopy plan digest area key maximumBytes expectedSha256 source {}).2 ↔
      ¬ClosingFails plan source) :=
  ⟨stored_iff (streamBody_ensures chunks) (fun _ _ _ failed => failed) streamCleanup_ensures,
    stored_iff (copyBody_ensures expectedSha256 source) (fun _ _ _ failed => failed)
      (copyCleanup_ensures expectedSha256 source)⟩

/-- The upload of a byte whose close fails leaves the temporary file, and a copy whose source cannot be closed raises
    and leaves the final one. -/
theorem closing_leaves :
    (∃ e, (streamDocumentToQuarantine { fails := some .closeTarget } (fun _ => []) [] 10 ⟨[[7]],none⟩ {}).1 = .error e) ∧
    (streamDocumentToQuarantine { fails := some .closeTarget } (fun _ => []) [] 10 ⟨[[7]],none⟩ {}).2.temporary =
      some ⟨[7],0o600⟩ ∧
    (∃ e, (storePrivateCopy { fails := some .closeSource } (fun _ => []) .sanitized [] 10 [] (.regular [7]) {}).1 =
      .error e) ∧
    (storePrivateCopy { fails := some .closeSource } (fun _ => []) .sanitized [] 10 [] (.regular [7]) {}).2.final =
      some ⟨[7],0o400⟩ :=
  ⟨⟨.OSError,by rfl⟩,by rfl,⟨.OSError,by rfl⟩,by rfl⟩

end DocGuard.Storage
