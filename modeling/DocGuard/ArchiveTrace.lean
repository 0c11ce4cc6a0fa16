import DocGuard.ArchiveSurvey
import DocGuard.Simulation

/-!
What an inspection comes to, as a function of the file and the limits: the entries in
the order in which they are looked at, the nested files that lie too deep, and the
exceptions of the library. The inspection follows this trace step by step: it raises
what the trace ends with, and its records of names are those of the events.
-/
namespace DocGuard.Archive
open DocGuard.Commands

/-! ### The trace -/

/-- Where the library is called. -/
inductive Stage where
  | opening
  | listing
  | reading

inductive Event where
  /-- An entry is looked at, after the names of the entries before it in its container. -/
  | entry (info : ZipInfo) (seen : SeenNames) (depth : Nat)
  /-- A nested ZIP file lies below the last level. -/
  | tooDeep (info : ZipInfo) (depth : Nat)
  /-- The library raises an exception. -/
  | failed (stage : Stage) (e : Exn)

/-- An exception that a handler around the call names. -/
def Event.handled : Event → Bool
  | .failed .opening e => handledAtOpening e
  | .failed .listing e => handledAtListing e
  | .failed .reading e => decide (e = .NotImplementedError) || handledAtReading e
  | _ => true

/-- The counters that decide what is read, and the events so far. -/
structure Trace where
  budget : Budget := {}
  events : List Event := []

abbrev Tracing := Command Trace Raised

def come (event : Event) : Tracing Unit := Command.update fun t => { t with events := t.events ++ [event] }

/-- An exception of the library ends the trace unless it is handled. -/
def fail (stage : Stage) (e : Exn) : Tracing Unit := do
  come (.failed stage e)
  if (Event.failed stage e).handled then pure () else Command.raise (.library e)

variable (lib : Library) (limits : ArchiveAnalysisLimits)

/-- The reading of a member, as far as the counters decide it. -/
def traceRead (around : List ZipInfo) (member : Member) : Tracing (Except Raised (Option Bytes)) := fun t =>
  let run := readMember limits around member t.budget.start
  (.ok run.1,{ t with budget := run.2.budget })

def traceNested (descend : Bytes → Tracing Unit) (depth : Nat) (info : ZipInfo) (nested : Bytes) : Tracing Unit := do
  if limits.maxNestingDepth < depth + 1 then come (.tooDeep info (depth + 1))
  else do
    let t ← Command.observe id
    if lib.sha256 nested ∈ t.budget.seenNestedDigests then pure ()
    else do
      Command.update fun t =>
        { t with budget := { t.budget with seenNestedDigests := lib.sha256 nested :: t.budget.seenNestedDigests } }
      descend nested

def traceAfter (descend : Bytes → Tracing Unit) (depth : Nat) (info : ZipInfo) :
    Except Raised (Option Bytes) → Tracing Bool
  | .error .stop => pure false
  | .error (.library e) => do
    fail .reading e
    pure true
  | .ok none => pure true
  | .ok (some nested) => do
    traceNested lib limits descend depth info nested
    pure true

def traceEntry (descend : Bytes → Tracing Unit) (depth : Nat) (info : ZipInfo) (seen : SeenNames)
    (around : List ZipInfo) : Tracing Bool := do
  let t ← Command.observe id
  if limits.maxMembersInspected ≤ t.budget.membersInspected then pure false
  else do
    Command.update fun t => { t with budget := { t.budget with membersInspected := t.budget.membersInspected + 1 } }
    come (.entry info seen depth)
    if isPassedOver lib info then pure true
    else do
      let read ← traceRead limits around info.member
      traceAfter lib limits descend depth info read

def traceEntries (descend : Bytes → List ZipInfo → Tracing Unit) (depth : Nat) (around : List ZipInfo) :
    List ZipInfo → SeenNames → Tracing Unit
  | [],_ => pure ()
  | info :: rest,seen => do
    let goOn ← traceEntry lib limits (fun nested => descend nested (rest ++ around)) depth info seen around
    if goOn then traceEntries descend depth around rest (noteName lib info.filename seen) else pure ()

/-- A container at a depth; there is one level less for each container around it. -/
def traceArchive : Nat → Bytes → Nat → List ZipInfo → Tracing Unit
  | 0,_,_,_ => pure ()
  | levels+1,source,depth,around => do
    Command.update fun t =>
      { t with budget := { t.budget with compressedBytesConsidered := t.budget.compressedBytesConsidered + source.length } }
    let t ← Command.observe id
    if limits.maxCompressedBytesConsidered < t.budget.compressedBytesConsidered then pure ()
    else
      match lib.zipFile source with
      | .error e => fail .opening e
      | .ok container =>
        match container.infolist with
        | .error e => fail .listing e
        | .ok infos =>
          traceEntries lib limits (fun nested left => traceArchive levels nested (depth + 1) left) depth around
            (infos.take limits.maxZipEntries) []

/-- The trace of a file, with what it ends with. -/
def trace (content : Bytes) : Except Raised Unit × Trace := traceArchive lib limits (limits.maxNestingDepth + 1) content 0 [] {}

def events (content : Bytes) : List Event := (trace lib limits content).2.events

/-! ### What the events record -/

/-- What is recorded of an event. -/
def Event.record (event : Event) (s : Inspection) : Inspection :=
  match event with
  | .entry info seen depth =>
    let s := inspectName lib limits info.filename depth seen s
    if info.isDir then s
    else if info.isSymlink then
      retainRecord lib limits .symlink limits.maxSuspiciousMemberNames info.filename depth [] (counted .symlink s)
    else if info.isEncrypted then
      retainRecord lib limits .encrypted limits.maxSuspiciousMemberNames info.filename depth [] (counted .encrypted s)
    else s
  | .tooDeep info depth => retainRecord lib limits .nesting limits.maxSuspiciousMemberNames info.filename depth [] s
  | .failed _ _ => s

/-- An inspection of which only the records of these events are known. -/
def replay (events : List Event) : Inspection := events.foldl (fun s event => event.record lib limits s) {}

/-- The counters of the categories, the records of names and their number. -/
def Inspection.kept (s : Inspection) : (Category → Nat) × (Category → List Record) × Nat :=
  (s.counts,s.records,s.retainedNameCount)

theorem kept_eq_iff (s t : Inspection) : s.kept = t.kept ↔
    s.counts = t.counts ∧ s.records = t.records ∧ s.retainedNameCount = t.retainedNameCount := by
  simp only [Inspection.kept, Prod.mk.injEq]

variable {lib limits}

theorem replay_snoc (events : List Event) (event : Event) :
    replay lib limits (events ++ [event]) = event.record lib limits (replay lib limits events) := by
  simp [replay, List.foldl_append]

/-- The counters and the records after a step only depend on those before it. -/
def Recording (f : Inspection → Inspection) : Prop := ∀ s t : Inspection, s.kept = t.kept → (f s).kept = (f t).kept

theorem recording_counted (category : Category) : Recording (counted category) := by
  intro s t same
  obtain ⟨counts,records,retained⟩ := (kept_eq_iff s t).mp same
  refine (kept_eq_iff _ _).mpr ⟨?_,records,retained⟩
  simp only [counted, counts]

variable (lib limits) in
theorem recording_keepRecord (category : Category) (maximum : Nat) (names : List Text) (record : Record) :
    Recording (keepRecord lib limits category maximum names record) := by
  intro s t same
  obtain ⟨counts,records,retained⟩ := (kept_eq_iff s t).mp same
  unfold keepRecord
  rw [records, retained]
  split
  · exact same
  split
  · exact same
  · exact (kept_eq_iff _ _).mpr ⟨counts,rfl,rfl⟩

theorem recording_note {name : Text} {seen : SeenNames} {category : Category} {keep : Inspection → Inspection}
    (recording : Recording keep) : Recording (note lib name seen category keep) := by
  intro s t same
  unfold note
  split
  · exact recording _ _ (recording_counted category s t same)
  · exact same

variable (lib limits) in
theorem recording_inspectName (name : Text) (depth : Nat) (seen : SeenNames) :
    Recording (inspectName lib limits name depth seen) := by
  have retained (category : Category) (maximum : Nat) (extra : Record) :
      Recording (note lib name seen category (retainRecord lib limits category maximum name depth extra)) :=
    recording_note (recording_keepRecord lib limits category maximum _ _)
  intro s t same
  dsimp only [inspectName]
  refine retained .bidi _ _ _ _ (retained .doubleExtension _ _ _ _ (retained .dangerous _ _ _ _ ?_))
  refine recording_note (recording_keepRecord lib limits .duplicate _ _ _) _ _ ?_
  exact retained .absolutePath _ _ _ _ (retained .traversal _ _ _ _ same)


/-! ### The inspection follows the trace -/

theorem readView_budget : ReadView limits fun s => s.budget where
  budget _ _ same := same
  opens member := by
    intro s t same
    unfold openMember
    cases member.openRaises with
    | some e => exact ⟨rfl,same⟩
    | none => exact ⟨rfl,same⟩
  stops α reason around := by
    refine follows_bind (follows_update fun s t same => same) fun _ => follows_bind (follows_update fun s t same => ?_) fun _ =>
      follows_raise _
    dsimp only
    split
    · split
      · exact same
      · exact same
    · split
      · exact same
      · exact same
  yields n _ s t same := by
    obtain ⟨inspected,compressed,bytes,rest⟩ := (budget_eq_iff _ _).mp same
    exact (budget_eq_iff _ _).mpr ⟨inspected,compressed,congrArg (· + n) bytes,rest⟩
  materializes n s t same := by
    obtain ⟨inspected,compressed,bytes,materialized,digests⟩ := (budget_eq_iff _ _).mp same
    exact (budget_eq_iff _ _).mpr ⟨inspected,compressed,bytes,congrArg (· + n) materialized,digests⟩

/-- The counters and the records are the same, and what was partial stays so. -/
structure KeepsRecords (s s' : Inspection) : Prop where
  kept : s'.kept = s.kept
  partials : s.partialReasons ≠ [] → s'.partialReasons ≠ []

theorem records_steps : ReadSteps KeepsRecords where
  refl _ := ⟨rfl,id⟩
  trans _ _ _ first second := ⟨second.kept.trans first.kept,fun some => second.partials (first.partials some)⟩
  opens _ _ := ⟨rfl,id⟩
  yields _ _ _ := ⟨rfl,id⟩
  materializes _ _ := ⟨rfl,id⟩
  marks _ reason := ⟨rfl,fun _ => List.ne_nil_of_mem (List.mem_insert_self (a := reason))⟩
  leaves _ _ := ⟨rfl,id⟩

/-- The budgets are those of the trace, the counters and the records those of its events; after a handled exception the
    inspection is partial. -/
structure Traced (lib : Library) (limits : ArchiveAnalysisLimits) (s : Inspection) (t : Trace) : Prop where
  budget : s.budget = t.budget
  kept : s.kept = (replay lib limits t.events).kept
  failures : (∃ stage e, .failed stage e ∈ t.events ∧ (Event.failed stage e).handled = true) → s.partialReasons ≠ []

variable {s s' : Inspection} {t : Trace}

/-- A step that the trace does not see. -/
theorem Traced.keep (traced : Traced lib limits s t) (budget : s'.budget = s.budget) (records : KeepsRecords s s') :
    Traced lib limits s' t :=
  ⟨budget.trans traced.budget,records.kept.trans traced.kept,fun failed => records.partials (traced.failures failed)⟩

/-- A step that is marked as partial. -/
theorem Traced.mark (traced : Traced lib limits s t) (budget : s'.budget = s.budget) (kept : s'.kept = s.kept)
    (marked : s'.partialReasons ≠ []) : Traced lib limits s' t :=
  traced.keep budget ⟨kept,fun _ => marked⟩

/-- An event with its record. -/
theorem Traced.come (traced : Traced lib limits s t) (event : Event) (budget : s'.budget = s.budget)
    (kept : s'.kept = (event.record lib limits s).kept) (recording : Recording (event.record lib limits))
    (marked : (∃ stage e, event = .failed stage e ∧ event.handled = true) ∨ s.partialReasons ≠ [] → s'.partialReasons ≠ []) :
    Traced lib limits s' { t with events := t.events ++ [event] } := by
  refine ⟨budget.trans traced.budget,?_,?_⟩
  · rw [replay_snoc, kept]
    exact recording _ _ traced.kept
  · rintro ⟨stage,e,member,handled⟩
    rcases List.mem_append.mp member with before | now
    · exact marked (.inr (traced.failures ⟨stage,e,before,handled⟩))
    · obtain rfl := List.mem_singleton.mp now
      exact marked (.inl ⟨stage,e,rfl,handled⟩)

theorem recording_record (event : Event) : Recording (event.record lib limits) := by
  cases event with
  | entry info seen depth =>
    intro s t same
    have named := recording_inspectName lib limits info.filename depth seen s t same
    simp only [Event.record]
    split
    · exact named
    split
    · exact recording_keepRecord lib limits .symlink _ _ _ _ _ (recording_counted .symlink _ _ named)
    split
    · exact recording_keepRecord lib limits .encrypted _ _ _ _ _ (recording_counted .encrypted _ _ named)
    · exact named
  | tooDeep info depth => exact recording_keepRecord lib limits .nesting _ _ _
  | failed stage e => exact fun _ _ same => same

theorem NamesOnly.budget (only : NamesOnly s s') : s'.budget = s.budget := by
  obtain ⟨_,_,_,_,rfl⟩ := only
  rfl

theorem NamesOnly.partials (only : NamesOnly s s') : s'.partialReasons = s.partialReasons := by
  obtain ⟨_,_,_,_,rfl⟩ := only
  rfl

/-- What is done at an exception of the library follows what the trace does. -/
theorem fail_follows (stage : Stage) (e : Exn) (f : Inspection → Inspection) (budget : ∀ s, (f s).budget = s.budget)
    (kept : ∀ s, (f s).kept = s.kept) (marked : ∀ s, (f s).partialReasons ≠ []) :
    Simulates (Traced lib limits)
      (if (Event.failed stage e).handled then Command.update f else Command.raise (.library e)) (fail stage e) := by
  intro s t traced
  unfold fail Matches
  rw [bind_returned (show come (.failed stage e) t = (.ok (),_) from rfl)]
  by_cases handled : (Event.failed stage e).handled = true
  · rw [if_pos handled, if_pos handled]
    exact ⟨rfl,traced.come _ (budget s) (kept s) (recording_record _) fun _ => marked s⟩
  · rw [if_neg handled, if_neg handled]
    refine ⟨rfl,traced.come _ rfl rfl (recording_record _) ?_⟩
    rintro (⟨_,_,_,there⟩ | some)
    · exact absurd there handled
    · exact some

theorem read_follows (around : List ZipInfo) (member : Member) :
    Simulates (Traced lib limits) (Command.attempt (readMember limits around member)) (traceRead limits around member) := by
  intro s t traced
  have same : t.budget.start.budget = s.budget := traced.budget.symm
  obtain ⟨result,budget⟩ := follows_readMember readView_budget around member t.budget.start s same
  obtain ⟨kept,partials⟩ := (moves_readMember records_steps around member s : _ ∧ _).1
  refine ⟨congrArg Except.ok result.symm,budget.symm,kept.trans traced.kept,fun failed => partials (traced.failures failed)⟩

variable {descend : Bytes → Walk Unit} {descends : Bytes → Tracing Unit} {depth : Nat} {info : ZipInfo}

theorem nested_follows (below : ∀ nested, Simulates (Traced lib limits) (descend nested) (descends nested)) (nested : Bytes) :
    Simulates (Traced lib limits) (inspectNested lib limits descend depth info nested)
      (traceNested lib limits descends depth info nested) := by
  refine simulates_own (fun s t traced => traced.keep rfl ⟨rfl,id⟩) ?_
  unfold traceNested
  by_cases deep : limits.maxNestingDepth < depth + 1
  · rw [if_pos deep, if_pos deep]
    intro s t traced
    have only := retainRecord_only lib limits .nesting limits.maxSuspiciousMemberNames info.filename (depth + 1) [] { s with
      partialReasons := s.partialReasons.insert .nestingDepthLimit }
    refine ⟨rfl,traced.come (.tooDeep info (depth + 1)) only.budget ?_ (recording_record _) fun _ => ?_⟩
    · exact recording_keepRecord lib limits .nesting _ _ _ _ _ rfl
    · show (retainRecord lib limits .nesting _ _ _ _ _).partialReasons ≠ []
      rw [only.partials]
      exact List.ne_nil_of_mem List.mem_insert_self
  · rw [if_neg deep, if_neg deep]
    refine simulates_observe fun s t traced => ?_
    have digests : s.seenNestedDigests = t.budget.seenNestedDigests := congrArg Budget.seenNestedDigests traced.budget
    dsimp only [id]
    by_cases seen : lib.sha256 nested ∈ s.seenNestedDigests
    · rw [if_pos seen, if_pos (digests ▸ seen)]
      exact ⟨rfl,traced.keep rfl ⟨rfl,id⟩⟩
    · rw [if_neg seen, if_neg (digests ▸ seen)]
      refine simulates_bind (simulates_update fun s t traced => ⟨?_,traced.kept,traced.failures⟩) (fun _ => below nested) s t
        traced
      rw [← traced.budget]
      rfl

theorem after_follows (below : ∀ nested, Simulates (Traced lib limits) (descend nested) (descends nested))
    (read : Except Raised (Option Bytes)) :
    Simulates (Traced lib limits) (afterReading lib limits descend depth info read)
      (traceAfter lib limits descends depth info read) := by
  match read with
  | .error .stop => exact simulates_pure false
  | .error (.library e) =>
    have follows : Simulates (Traced lib limits)
        (if (Event.failed .reading e).handled then
          if e = .NotImplementedError then unsupportedMethod info.compressType
          else markMalformed .memberDecompressionError e
        else Command.raise (.library e)) (fail .reading e) := by
      by_cases unsupported : e = .NotImplementedError
      · rw [if_pos unsupported]
        refine fail_follows .reading e _ (fun _ => rfl) (fun _ => rfl) fun _ => ?_
        exact List.ne_nil_of_mem List.mem_insert_self
      · rw [if_neg unsupported]
        refine fail_follows .reading e _ (fun _ => rfl) (fun _ => rfl) fun _ => ?_
        exact List.ne_nil_of_mem List.mem_insert_self
    have same : afterReading lib limits descend depth info (.error (.library e)) =
        (if (Event.failed .reading e).handled then
          if e = .NotImplementedError then unsupportedMethod info.compressType
          else markMalformed .memberDecompressionError e
        else Command.raise (.library e)) >>= fun _ => pure true := by
      unfold afterReading Event.handled
      by_cases unsupported : e = .NotImplementedError
      · simp [unsupported]
      · by_cases handled : handledAtReading e = true
        · simp [unsupported, handled]
        · simp [unsupported, handled]
          rfl
    rw [same]
    exact simulates_bind follows fun _ => simulates_pure true
  | .ok none => exact simulates_pure true
  | .ok (some nested) => exact simulates_bind (nested_follows below nested) fun _ => simulates_pure true

theorem entry_follows {seen : SeenNames} {around : List ZipInfo}
    (below : ∀ nested, Simulates (Traced lib limits) (descend nested) (descends nested)) :
    Simulates (Traced lib limits) (inspectEntry lib limits descend depth info seen around)
      (traceEntry lib limits descends depth info seen around) := by
  refine simulates_observe fun s t traced => ?_
  have inspected : s.membersInspected = t.budget.membersInspected := congrArg Budget.membersInspected traced.budget
  dsimp only [id]
  by_cases reached : limits.maxMembersInspected ≤ s.membersInspected
  · have reached' : limits.maxMembersInspected ≤ t.budget.membersInspected := inspected ▸ reached
    rw [if_pos reached, if_pos reached']
    exact ⟨rfl,traced.mark rfl rfl (List.ne_nil_of_mem List.mem_insert_self)⟩
  · have reached' : ¬ limits.maxMembersInspected ≤ t.budget.membersInspected := inspected ▸ reached
    rw [if_neg reached, if_neg reached']
    -- The entry is counted on both sides; its record comes where the inspection branches on its kind.
    have counting : Traced lib limits
        { s with
          membersInspected := s.membersInspected + 1
          history := { s.history with visited := (info,seen) :: s.history.visited } }
        { t with budget := { t.budget with membersInspected := t.budget.membersInspected + 1 } } := by
      refine ⟨?_,traced.kept,traced.failures⟩
      rw [← traced.budget]
      rfl
    unfold Matches
    rw [bind_returned (show (Command.update _ : Walk Unit) s = (.ok (),_) from rfl),
      bind_returned (show (Command.update _ : Tracing Unit) t = (.ok (),_) from rfl),
      bind_returned (show come (.entry info seen depth) _ = (.ok (),_) from rfl)]
    generalize ({ s with
      membersInspected := s.membersInspected + 1
      history := { s.history with visited := (info,seen) :: s.history.visited } } : Inspection) = u at counting ⊢
    generalize ({ t with budget := { t.budget with membersInspected := t.budget.membersInspected + 1 } } : Trace) = v
      at counting ⊢
    have only := inspectName_only lib limits info.filename depth seen u
    have recorded {u' : Inspection} (budget : u'.budget = u.budget)
        (kept : u'.kept = ((Event.entry info seen depth).record lib limits u).kept)
        (partials : u.partialReasons ≠ [] → u'.partialReasons ≠ []) :
        Traced lib limits u' { v with events := v.events ++ [.entry info seen depth] } := by
      refine counting.come _ budget kept (recording_record _) ?_
      rintro (⟨_,_,impossible,_⟩ | some)
      · cases impossible
      · exact partials some
    by_cases directory : info.isDir = true
    · rw [if_pos directory, if_pos (by simp [isPassedOver, directory])]
      exact ⟨rfl,recorded only.budget (by simp only [Event.record, if_pos directory]; rfl) (only.partials ▸ id)⟩
    rw [if_neg directory]
    by_cases symlink : info.isSymlink = true
    · rw [if_pos symlink, if_pos (by simp [isPassedOver, symlink])]
      have linked := (only.trans (counted_only .symlink _)).trans (retainRecord_only lib limits .symlink
        limits.maxSuspiciousMemberNames info.filename depth [] _)
      refine ⟨rfl,recorded linked.budget ?_ (linked.partials ▸ id)⟩
      simp only [Event.record, if_neg directory, if_pos symlink]
      rfl
    rw [if_neg symlink]
    by_cases encrypted : info.isEncrypted = true
    · rw [if_pos encrypted, if_pos (by simp [isPassedOver, encrypted])]
      have locked := retainRecord_only lib limits .encrypted limits.maxSuspiciousMemberNames info.filename depth []
        { counted .encrypted (inspectName lib limits info.filename depth seen u) with
          partialReasons := (counted .encrypted (inspectName lib limits info.filename depth seen u)).partialReasons.insert
            .encryptedMember }
      refine ⟨rfl,recorded (locked.budget.trans only.budget) ?_ fun _ => ?_⟩
      · simp only [Event.record, if_neg directory, if_neg symlink, if_pos encrypted]
        exact recording_keepRecord lib limits .encrypted _ _ _ _ _ rfl
      · show (retainRecord lib limits .encrypted _ _ _ _ _).partialReasons ≠ []
        rw [locked.partials]
        exact List.ne_nil_of_mem List.mem_insert_self
    rw [if_neg encrypted]
    have plain {u' : Inspection} (budget : u'.budget = u.budget)
        (kept : u'.kept = (inspectName lib limits info.filename depth seen u).kept)
        (partials : u.partialReasons ≠ [] → u'.partialReasons ≠ []) :
        Traced lib limits u' { v with events := v.events ++ [.entry info seen depth] } := by
      refine recorded budget ?_ partials
      simp only [Event.record, if_neg directory, if_neg symlink, if_neg encrypted]
      exact kept
    by_cases unsupported : (!isSupported lib info) = true
    · rw [if_pos unsupported, if_pos (by simp [isPassedOver, unsupported])]
      exact ⟨rfl,plain only.budget rfl fun _ => List.ne_nil_of_mem List.mem_insert_self⟩
    · rw [if_neg unsupported, if_neg (by simp [isPassedOver, directory, symlink, encrypted, unsupported])]
      exact simulates_bind (read_follows around info.member) (after_follows below) _ _ (plain only.budget rfl (only.partials ▸ id))

theorem entries_follow {descend : Bytes → List ZipInfo → Walk Unit} {descends : Bytes → List ZipInfo → Tracing Unit}
    {around : List ZipInfo} (below : ∀ nested left, Simulates (Traced lib limits) (descend nested left) (descends nested left))
    (infos : List ZipInfo) (seen : SeenNames) :
    Simulates (Traced lib limits) (inspectEntries lib limits descend depth around infos seen)
      (traceEntries lib limits descends depth around infos seen) := by
  induction infos generalizing seen with
  | nil => exact simulates_pure ()
  | cons info rest ih =>
    refine simulates_bind (entry_follows fun nested => below nested (rest ++ around)) fun goOn => ?_
    cases goOn with
    | true => exact ih _
    | false => exact simulates_pure ()

theorem archive_follows (levels : Nat) (source : Bytes) (depth : Nat) (around : List ZipInfo) :
    Simulates (Traced lib limits) (inspectArchive lib limits levels source depth around)
      (traceArchive lib limits levels source depth around) := by
  induction levels generalizing source depth around with
  | zero => exact simulates_pure ()
  | succ levels ih =>
    refine simulates_bind (simulates_update fun s t traced => ⟨?_,traced.kept,traced.failures⟩) fun _ =>
      simulates_observe fun s t traced => ?_
    · rw [← traced.budget]
      rfl
    have bytes : s.compressedBytesConsidered = t.budget.compressedBytesConsidered :=
      congrArg Budget.compressedBytesConsidered traced.budget
    dsimp only [id]
    by_cases large : limits.maxCompressedBytesConsidered < s.compressedBytesConsidered
    · have large' : limits.maxCompressedBytesConsidered < t.budget.compressedBytesConsidered := bytes ▸ large
      rw [if_pos large, if_pos large']
      exact ⟨rfl,traced.mark rfl rfl (List.ne_nil_of_mem List.mem_insert_self)⟩
    · have large' : ¬ limits.maxCompressedBytesConsidered < t.budget.compressedBytesConsidered := bytes ▸ large
      rw [if_neg large, if_neg large']
      refine (?_ : Simulates (Traced lib limits) _ _) s t traced
      cases lib.zipFile source with
      | error e =>
        refine fail_follows .opening e _ (fun _ => rfl) (fun _ => rfl) fun _ => ?_
        exact List.ne_nil_of_mem List.mem_insert_self
      | ok container =>
        dsimp only
        refine simulates_own (fun s t traced => traced.keep rfl ⟨rfl,id⟩) ?_
        cases container.infolist with
        | error e =>
          refine fail_follows .listing e _ (fun _ => rfl) (fun _ => rfl) fun _ => ?_
          exact List.ne_nil_of_mem List.mem_insert_self
        | ok infos =>
          dsimp only
          refine simulates_own (fun s t traced => traced.keep rfl ⟨rfl,id⟩) ?_
          have entries (infos : List ZipInfo) : Simulates (Traced lib limits)
              (inspectEntries lib limits (fun nested left => inspectArchive lib limits levels nested (depth + 1) left) depth
                around infos [])
              (traceEntries lib limits (fun nested left => traceArchive lib limits levels nested (depth + 1) left) depth
                around infos []) :=
            entries_follow (fun nested left => ih nested (depth + 1) left) infos []
          by_cases many : limits.maxZipEntries < infos.length
          · rw [if_pos many]
            refine simulates_own (fun s t traced => traced.mark rfl rfl ?_) (entries _)
            exact List.ne_nil_of_mem List.mem_insert_self
          · rw [if_neg many, List.take_of_length_le (Nat.le_of_not_lt many)]
            exact entries infos

/-- The inspection of a file raises what its trace ends with; its counters and its records are those of the events, and
    it is partial if one of them is a handled exception. -/
theorem inspect_traced (content : Bytes) : (inspect lib limits content).1 = (trace lib limits content).1 ∧
    Traced lib limits (inspect lib limits content).2 (trace lib limits content).2 := by
  refine archive_follows _ content 0 [] {} {} ⟨rfl,rfl,?_⟩
  rintro ⟨_,_,member,_⟩
  cases member

/-! ### How a trace ends -/

/-- A trace returns if all of its exceptions are handled, and raises the one that is not. -/
def Fair {α : Type} (result : Except Raised α) (t : Trace) : Prop :=
  match result with
  | .ok _ => ∀ event ∈ t.events, event.handled = true
  | .error raised => ∃ event ∈ t.events, event.handled = false ∧ ∃ stage e, event = .failed stage e ∧ raised = .library e

abbrev EndsFairly {α : Type} (m : Tracing α) : Prop := Ensures (fun t => ∀ event ∈ t.events, event.handled = true) m Fair

theorem fairly_bind {α β : Type} {m : Tracing α} {k : α → Tracing β} (first : EndsFairly m) (rest : ∀ a, EndsFairly (k a)) :
    EndsFairly (m >>= k) :=
  ensures_bind first rest fun _ _ fair => fair

theorem fairly_pure {α : Type} (a : α) : EndsFairly (pure a : Tracing α) := ensures_pure fun _ handled => handled

theorem fairly_update {f : Trace → Trace} (same : ∀ t, (f t).events = t.events) :
    EndsFairly (Command.update f : Tracing Unit) := by
  intro t handled event member
  exact handled event (same t ▸ member)

theorem fairly_observe {α β : Type} {f : Trace → α} {k : α → Tracing β} (rest : ∀ a, EndsFairly (k a)) :
    EndsFairly (Command.observe f >>= k) :=
  fun t handled => rest (f t) t handled

theorem fairly_come {event : Event} (handled : event.handled = true) : EndsFairly (come event) := by
  intro t before event' member
  rcases List.mem_append.mp member with earlier | now
  · exact before event' earlier
  · exact List.mem_singleton.mp now ▸ handled

theorem fairly_fail (stage : Stage) (e : Exn) : EndsFairly (fail stage e) := by
  unfold fail
  by_cases handled : (Event.failed stage e).handled = true
  · rw [if_pos handled]
    exact fairly_bind (fairly_come handled) fun _ => fairly_pure ()
  · rw [if_neg handled]
    intro t _
    refine ⟨.failed stage e,?_,Bool.eq_false_of_not_eq_true handled,stage,e,rfl,rfl⟩
    exact List.mem_append_right _ List.mem_cons_self

section
variable {descends : Bytes → Tracing Unit} {depth : Nat} {info : ZipInfo}

theorem fairly_nested (below : ∀ nested, EndsFairly (descends nested)) (nested : Bytes) :
    EndsFairly (traceNested lib limits descends depth info nested) := by
  unfold traceNested
  split
  · exact fairly_come rfl
  · refine fairly_observe fun t => ?_
    split
    · exact fairly_pure ()
    · exact fairly_bind (fairly_update fun _ => rfl) fun _ => below nested

theorem fairly_entry {seen : SeenNames} {around : List ZipInfo} (below : ∀ nested, EndsFairly (descends nested)) :
    EndsFairly (traceEntry lib limits descends depth info seen around) := by
  refine fairly_observe fun t => ?_
  split
  · exact fairly_pure false
  · refine fairly_bind (fairly_update fun _ => rfl) fun _ => fairly_bind (fairly_come rfl) fun _ => ?_
    split
    · exact fairly_pure true
    · refine fairly_bind (fun t handled => handled) fun read => ?_
      match read with
      | .error .stop => exact fairly_pure false
      | .error (.library e) => exact fairly_bind (fairly_fail .reading e) fun _ => fairly_pure true
      | .ok none => exact fairly_pure true
      | .ok (some nested) => exact fairly_bind (fairly_nested below nested) fun _ => fairly_pure true

end

theorem fairly_entries {descends : Bytes → List ZipInfo → Tracing Unit} {depth : Nat} {around : List ZipInfo}
    (below : ∀ nested left, EndsFairly (descends nested left)) (infos : List ZipInfo) (seen : SeenNames) :
    EndsFairly (traceEntries lib limits descends depth around infos seen) := by
  induction infos generalizing seen with
  | nil => exact fairly_pure ()
  | cons info rest ih =>
    refine fairly_bind (fairly_entry fun nested => below nested (rest ++ around)) fun goOn => ?_
    cases goOn with
    | true => exact ih _
    | false => exact fairly_pure ()

theorem fairly_archive (levels : Nat) (source : Bytes) (depth : Nat) (around : List ZipInfo) :
    EndsFairly (traceArchive lib limits levels source depth around) := by
  induction levels generalizing source depth around with
  | zero => exact fairly_pure ()
  | succ levels ih =>
    refine fairly_bind (fairly_update fun _ => rfl) fun _ => fairly_observe fun t => ?_
    split
    · exact fairly_pure ()
    split
    · exact fairly_fail .opening _
    split
    · exact fairly_fail .listing _
    · exact fairly_entries (fun nested left => ih nested (depth + 1) left) _ []

/-- An inspection returns exactly if every exception that the library raises on the way is one that a handler names. -/
theorem inspect_returns_iff (content : Bytes) : (inspect lib limits content).1 = .ok () ↔
    ∀ event ∈ events lib limits content, event.handled = true := by
  rw [(inspect_traced content).1]
  have fair : Fair (trace lib limits content).1 (trace lib limits content).2 :=
    fairly_archive _ content 0 [] {} fun _ member => by cases member
  unfold events
  cases ended : (trace lib limits content).1 with
  | ok _ =>
    rw [ended] at fair
    exact iff_of_true rfl fair
  | error raised =>
    rw [ended] at fair
    obtain ⟨event,member,unhandled,_⟩ := fair
    refine iff_of_false nofun fun handled => ?_
    rw [handled event member] at unhandled
    cases unhandled

end DocGuard.Archive
