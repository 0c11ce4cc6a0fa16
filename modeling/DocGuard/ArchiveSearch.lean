import DocGuard.ArchiveReads
import DocGuard.Search

/-!
An inspection that no budget stops is a depth-first search through the nested ZIP
files: it counts, and marks as reasons, what the containers that the search finds
show by themselves, and the limit of the depth leaves the mark of the search.
-/
namespace DocGuard.Archive
open DocGuard.Commands DocGuard.Search

variable (lib : Library) (limits : ArchiveAnalysisLimits)

/-! ### Containers by themselves -/

/-- What some bytes are as a ZIP file. -/
inductive Opened where
  | malformed
  | unlisted
  | entries (infos : List ZipInfo)

def opened (source : Bytes) : Opened :=
  match lib.zipFile source with
  | .error _ => .malformed
  | .ok container =>
    match container.infolist with
    | .error _ => .unlisted
    | .ok infos => .entries infos

def Opened.infos : Opened → List ZipInfo
  | .malformed | .unlisted => []
  | .entries infos => infos

/-- The data of the entry is not read. -/
def passedOver (info : ZipInfo) : Bool := info.isDir || info.isSymlink || info.isEncrypted || !isSupported lib info

/-- The nested ZIP that an entry holds. -/
def nestedIn (info : ZipInfo) : Option Bytes :=
  if passedOver lib info then none
  else
    match outcome info.member with
    | .ok nested => nested
    | .error _ => none

/-- The nested ZIP files of a container, in the order of its entries. -/
def inside (source : Bytes) : List Bytes := (opened lib source).infos.filterMap (nestedIn lib)

/-- What an entry adds to the counters of the symlinks and of the encrypted members. -/
def kindCount (info : ZipInfo) (c : Category) : Nat :=
  if info.isDir then 0
  else if info.isSymlink then if c = .symlink then 1 else 0
  else if info.isEncrypted then if c = .encrypted then 1 else 0
  else 0

/-- What an entry adds to the counter of a category, after the names that its container had before it. -/
def entryCount (info : ZipInfo) (seen : SeenNames) (c : Category) : Nat :=
  added lib info.filename seen c + kindCount info c

def entriesCount : List ZipInfo → SeenNames → Category → Nat
  | [],_,_ => 0
  | info :: rest,seen,c => entryCount lib info seen c + entriesCount rest (noteName lib info.filename seen) c

/-- What a container by itself adds to the counter of a category. -/
def sourceCount (source : Bytes) : Category → Nat := entriesCount lib (opened lib source).infos []

/-- What an entry leaves unanalyzed. -/
def entryReason (info : ZipInfo) : Option Reason :=
  if info.isDir then none
  else if info.isSymlink then none
  else if info.isEncrypted then some .encryptedMember
  else if !isSupported lib info then some .unsupportedCompressionMethod
  else
    match outcome info.member with
    | .error e => if e = .NotImplementedError then some .unsupportedCompressionMethod else some .memberDecompressionError
    | .ok _ => none

/-- What a container by itself leaves unanalyzed; the file itself has a reason of its own. -/
def sourceReasons (file : Bool) (source : Bytes) : List Reason :=
  match opened lib source with
  | .malformed => [if file then .malformedArchive else .malformedNestedArchive]
  | .unlisted => [.centralDirectoryError]
  | .entries infos => infos.filterMap (entryReason lib)

/-! ### Parts of the inspection -/

/-- A part of the inspection keeps the marks of the stops, and stands in the relation if it returns with no such mark. -/
def Does {α : Type} (m : Walk α) (R : Inspection → α → Inspection → Prop) : Prop :=
  ∀ s, s.resourceReasons ⊆ (m s).2.resourceReasons ∧
    ∀ a, (m s).1 = .ok a → (m s).2.resourceReasons = [] → R s a (m s).2

section
variable {α β : Type}

theorem does_pure {a : α} {R : Inspection → α → Inspection → Prop} (holds : ∀ s, R s a s) : Does (pure a) R := by
  intro s
  refine ⟨List.Subset.refl _,?_⟩
  rintro a' returned _
  cases returned
  exact holds s

theorem does_raise {e : Raised} {R : Inspection → α → Inspection → Prop} : Does (Command.raise e) R :=
  fun s => ⟨List.Subset.refl s.resourceReasons,nofun⟩

theorem does_update {f : Inspection → Inspection} {R : Inspection → Unit → Inspection → Prop}
    (kept : ∀ s, (f s).resourceReasons = s.resourceReasons) (holds : ∀ s, R s () (f s)) : Does (Command.update f) R := by
  intro s
  refine ⟨?_,fun _ _ _ => holds s⟩
  show s.resourceReasons ⊆ (f s).resourceReasons
  rw [kept]
  exact List.Subset.refl _

theorem does_markResource {reason : Reason} {R : Inspection → Unit → Inspection → Prop} : Does (markResource reason) R := by
  intro s
  refine ⟨fun r member => List.mem_insert_of_mem member,fun _ _ none => ?_⟩
  have marked : s.resourceReasons.insert reason = [] := none
  exact absurd marked (List.ne_nil_of_mem List.mem_insert_self)

theorem does_bind {m : Walk α} {k : α → Walk β} {P : Inspection → α → Inspection → Prop}
    {Q : α → Inspection → β → Inspection → Prop} {R : Inspection → β → Inspection → Prop} (first : Does m P)
    (rest : ∀ a, Does (k a) (Q a)) (joins : ∀ s a t b u, P s a t → Q a t b u → R s b u) : Does (m >>= k) R := by
  intro s
  have before := first s
  simp only [bind]
  cases ended : m s with
  | mk result t =>
    rw [ended] at before
    cases result with
    | error e => exact ⟨before.1,nofun⟩
    | ok a =>
      have after := rest a t
      refine ⟨fun r member => after.1 (before.1 member),fun b returned none => ?_⟩
      have clean : t.resourceReasons = [] := List.subset_nil.mp (none ▸ after.1)
      exact joins s a t b _ (before.2 a rfl clean) (after.2 b returned none)

theorem does_observe {γ : Type} {f : Inspection → γ} {k : γ → Walk β} {R : Inspection → β → Inspection → Prop}
    (rest : ∀ c, Does (k c) R) : Does (Command.observe f >>= k) R :=
  fun s => rest (f s) s

/-- What follows a stop is of no interest. -/
theorem does_stop {reason : Reason} {k : Unit → Walk β} {Q R : Inspection → β → Inspection → Prop} (rest : Does (k ()) Q) :
    Does (markResource reason >>= k) R :=
  does_bind (P := fun _ _ _ => False) does_markResource (fun _ => rest) fun _ _ _ _ _ impossible => impossible.elim

theorem does_weaken {m : Walk α} {P R : Inspection → α → Inspection → Prop} (holds : Does m P)
    (weaker : ∀ s a t, P s a t → R s a t) : Does m R :=
  fun s => ⟨(holds s).1,fun a returned none => weaker s a _ ((holds s).2 a returned none)⟩

end

/-! ### Steps of the search -/

/-- The state of the inspection and the state of the search know the same nested files, all of them from a set. -/
structure Linked (known : Set Bytes) (found : Found Bytes) (s : Inspection) : Prop where
  digests : s.seenNestedDigests = found.names.map lib.sha256
  cut : .nestingDepthLimit ∈ s.partialReasons ↔ found.cut = true
  within : ∀ a ∈ found.names, a ∈ known

/-- What the counters and the reasons gain, besides what the new nested files add by themselves. -/
structure Gains (counts : Category → Nat) (reasons : List Reason) (new : List Bytes) (s s' : Inspection) : Prop where
  counted : ∀ c, s'.counts c = s.counts c + counts c + (new.map fun a => sourceCount lib a c).sum
  reasoned : ∀ r, r ≠ .nestingDepthLimit → (r ∈ s'.partialReasons ↔
    r ∈ s.partialReasons ∨ r ∈ reasons ∨ ∃ a ∈ new, r ∈ sourceReasons lib false a)

/-- From state to state as from one state of the search to another. -/
def Walks (known : Set Bytes) (counts : Category → Nat) (reasons : List Reason) (visits : Found Bytes → Found Bytes)
    (s s' : Inspection) : Prop :=
  ∀ found, Linked lib known found s → Linked lib known (visits found) s' ∧
    ∃ new : List (Bytes × Nat), (visits found).nodes = new ++ found.nodes ∧
      Gains lib counts reasons (new.map Prod.fst) s s'

variable {lib limits} {known : Set Bytes}

theorem Walks.trans {counts counts' : Category → Nat} {reasons reasons' : List Reason}
    {visits visits' : Found Bytes → Found Bytes} {s t u : Inspection}
    (first : Walks lib known counts reasons visits s t) (second : Walks lib known counts' reasons' visits' t u) :
    Walks lib known (fun c => counts c + counts' c) (reasons ++ reasons') (visits' ∘ visits) s u := by
  intro found linked
  obtain ⟨linked',new,nodes,gains⟩ := first found linked
  obtain ⟨linked'',newer,nodes',gains'⟩ := second (visits found) linked'
  refine ⟨linked'',newer ++ new,?_,?_,?_⟩
  · rw [Function.comp_apply,nodes',nodes,List.append_assoc]
  · intro c
    rw [gains'.counted c,gains.counted c,List.map_append,List.map_append,List.sum_append]
    omega
  · intro r other
    rw [gains'.reasoned r other,gains.reasoned r other,List.map_append,List.mem_append]
    simp only [List.mem_append]
    constructor
    · rintro ((held | own | ⟨a,member,shown⟩) | own' | ⟨a,member,shown⟩)
      · exact .inl held
      · exact .inr (.inl (.inl own))
      · exact .inr (.inr ⟨a,.inr member,shown⟩)
      · exact .inr (.inl (.inr own'))
      · exact .inr (.inr ⟨a,.inl member,shown⟩)
    · rintro (held | (own | own') | ⟨a,member | member,shown⟩)
      · exact .inl (.inl held)
      · exact .inl (.inr (.inl own))
      · exact .inr (.inl own')
      · exact .inr (.inr ⟨a,member,shown⟩)
      · exact .inl (.inr (.inr ⟨a,member,shown⟩))

/-- A step that adds to the counters and the reasons, and to nothing that the search knows of. -/
theorem walks_own {counts : Category → Nat} {reasons : List Reason} {s s' : Inspection}
    (counted : ∀ c, s'.counts c = s.counts c + counts c)
    (reasoned : ∀ r, r ∈ s'.partialReasons ↔ r ∈ s.partialReasons ∨ r ∈ reasons)
    (other : .nestingDepthLimit ∉ reasons) (digests : s'.seenNestedDigests = s.seenNestedDigests) :
    Walks lib known counts reasons id s s' := by
  intro found linked
  refine ⟨⟨digests ▸ linked.digests,?_,linked.within⟩,[],rfl,?_,?_⟩
  · rw [reasoned]
    exact ⟨fun held => linked.cut.mp (held.resolve_right other),fun cut => .inl (linked.cut.mpr cut)⟩
  · exact counted
  · intro r _
    rw [reasoned]
    simp

theorem walks_nothing {s s' : Inspection} (counts : s'.counts = s.counts) (partials : s'.partialReasons = s.partialReasons)
    (digests : s'.seenNestedDigests = s.seenNestedDigests) : Walks lib known (fun _ => 0) [] id s s' :=
  walks_own (fun c => by rw [counts,Nat.add_zero]) (fun r => by rw [partials]; simp) List.not_mem_nil digests

theorem BytesOnly.walks {s s' : Inspection} (only : BytesOnly s s') : Walks lib known (fun _ => 0) [] id s s' :=
  walks_nothing only.counts only.partials only.digests

theorem NamesOnly.kept {s s' : Inspection} (only : NamesOnly s s') :
    s'.partialReasons = s.partialReasons ∧ s'.seenNestedDigests = s.seenNestedDigests ∧
      s'.resourceReasons = s.resourceReasons := by
  obtain ⟨_,_,_,_,rfl⟩ := only
  exact ⟨rfl,rfl,rfl⟩

/-- One part of the inspection after another. -/
theorem walks_bind {α β : Type} {V : α → Prop} {W : β → Prop} {m : Walk α} {k : α → Walk β}
    {counts counts' total : Category → Nat} {reasons reasons' all : List Reason}
    {visits visits' visiting : Found Bytes → Found Bytes}
    (first : Does m fun s a t => V a ∧ Walks lib known counts reasons visits s t)
    (rest : ∀ a, Does (k a) fun t b u => V a → W b ∧ Walks lib known counts' reasons' visits' t u)
    (sum : total = fun c => counts c + counts' c) (append : all = reasons ++ reasons')
    (compose : visiting = visits' ∘ visits) :
    Does (m >>= k) fun s b u => W b ∧ Walks lib known total all visiting s u := by
  subst sum append compose
  refine does_bind first rest fun s a t b u before after => ?_
  obtain ⟨valid,walked⟩ := before
  obtain ⟨valid',walked'⟩ := after valid
  exact ⟨valid',walked.trans walked'⟩

/-- One step after another. -/
theorem walks_then {β : Type} {W : β → Prop} {m : Walk Unit} {k : Unit → Walk β}
    {counts counts' total : Category → Nat} {reasons reasons' all : List Reason}
    {visits visits' visiting : Found Bytes → Found Bytes}
    (first : Does m fun s _ t => Walks lib known counts reasons visits s t)
    (rest : Does (k ()) fun t b u => W b ∧ Walks lib known counts' reasons' visits' t u)
    (sum : total = fun c => counts c + counts' c) (append : all = reasons ++ reasons')
    (compose : visiting = visits' ∘ visits) :
    Does (m >>= k) fun s b u => W b ∧ Walks lib known total all visiting s u :=
  walks_bind (V := fun _ => True) (does_weaken first fun _ _ _ walked => ⟨trivial,walked⟩)
    (fun _ => does_weaken rest fun _ _ _ holds _ => holds) sum append compose

/-- A first step that the search does not notice. -/
theorem walks_after {β : Type} {f : Inspection → Inspection} {W : β → Prop} {k : Unit → Walk β}
    {counts : Category → Nat} {reasons : List Reason} {visits : Found Bytes → Found Bytes}
    (kept : ∀ s, (f s).resourceReasons = s.resourceReasons) (nothing : ∀ s, Walks lib known (fun _ => 0) [] id s (f s))
    (rest : Does (k ()) fun s b u => W b ∧ Walks lib known counts reasons visits s u) :
    Does (Command.update f >>= k) fun s b u => W b ∧ Walks lib known counts reasons visits s u :=
  walks_then (does_update kept nothing) rest (by simp) rfl rfl

/-! ### Nested files -/

variable {descend : Bytes → Walk Unit} {depth levels : Nat}

/-- What the call for a nested file does on the levels that are left. -/
def Descends (lib : Library) (known : Set Bytes) (descend : Bytes → Walk Unit) (levels depth : Nat) : Prop :=
  ∀ below, levels = below + 1 → ∀ nested ∈ known, Does (descend nested) fun s _ t =>
    Walks lib known (sourceCount lib nested) (sourceReasons lib false nested)
      (visitAll (inside lib) below (depth + 2) (inside lib nested)) s t

theorem retainRecord_kept (category : Category) (maximum : Nat) (name : Text) (depth : Nat) (extra : Record)
    (s : Inspection) : Walks lib known (fun _ => 0) [] id s (retainRecord lib limits category maximum name depth extra s) := by
  obtain ⟨partials,digests,_⟩ := (retainRecord_only lib limits category maximum name depth extra s).kept
  exact walks_nothing (retainRecord_counts lib limits category maximum name depth extra s) partials digests

/-- A nested file that is met for the first time is searched. -/
theorem walks_new {nested : Bytes} {s t : Inspection} (member : nested ∈ known) {below : Nat} {found : Found Bytes}
    (linked : Linked lib known found s) (new : nested ∉ found.names)
    (walked : Walks lib known (sourceCount lib nested) (sourceReasons lib false nested)
      (visitAll (inside lib) below (depth + 2) (inside lib nested))
      { s with seenNestedDigests := lib.sha256 nested :: s.seenNestedDigests } t) :
    Linked lib known (visit (inside lib) (below + 1) (depth + 1) nested found) t ∧ ∃ new : List (Bytes × Nat),
      (visit (inside lib) (below + 1) (depth + 1) nested found).nodes = new ++ found.nodes ∧
        Gains lib (fun _ => 0) [] (new.map Prod.fst) s t := by
  have pushed : Linked lib known { found with nodes := (nested,depth + 1) :: found.nodes }
      { s with seenNestedDigests := lib.sha256 nested :: s.seenNestedDigests } := by
    refine ⟨?_,linked.cut,?_⟩
    · rw [linked.digests]
      rfl
    · intro a named
      rcases List.mem_cons.mp named with same | named
      · exact same ▸ member
      · exact linked.within a named
  obtain ⟨linked',others,nodes,gains⟩ := walked _ pushed
  rw [visit_new (inside lib) new]
  refine ⟨linked',others ++ [(nested,depth + 1)],by simp [nodes],?_,?_⟩
  · intro c
    rw [gains.counted c,List.map_append,List.map_append,List.sum_append]
    simp only [List.map_cons,List.map_nil,List.sum_cons,List.sum_nil]
    omega
  · intro r other
    rw [gains.reasoned r other,List.map_append]
    simp only [List.mem_append,List.map_cons,List.map_nil,List.mem_singleton,List.not_mem_nil,false_or]
    constructor
    · rintro (held | own | ⟨a,member,shown⟩)
      · exact .inl held
      · exact .inr ⟨nested,.inr rfl,own⟩
      · exact .inr ⟨a,.inl member,shown⟩
    · rintro (held | ⟨a,member | rfl,shown⟩)
      · exact .inl held
      · exact .inr (.inr ⟨a,member,shown⟩)
      · exact .inr (.inl shown)

theorem inspectNested_does {info : ZipInfo} {nested : Bytes} (deep : depth + levels = limits.maxNestingDepth)
    (member : nested ∈ known) (free : Set.InjOn lib.sha256 known) (descends : Descends lib known descend levels depth) :
    Does (inspectNested lib limits descend depth info nested) fun s _ t =>
      True ∧ Walks lib known (fun _ => 0) [] (visit (inside lib) levels (depth + 1) nested) s t := by
  refine walks_after (fun _ => rfl) (fun s => walks_nothing rfl rfl rfl) ?_
  cases levels with
  | zero =>
    rw [if_pos (by omega)]
    refine does_bind (P := fun s _ t => t = { s with
      partialReasons := s.partialReasons.insert .nestingDepthLimit })
      (Q := fun _ s _ t => Walks lib known (fun _ => 0) [] id s t) (does_update (fun _ => rfl) fun _ => rfl)
      (fun _ => does_update (fun s => (retainRecord_only lib limits _ _ _ _ _ s).kept.2.2)
        fun s => retainRecord_kept _ _ _ _ _ s) ?_
    rintro s _ t _ u rfl kept
    refine ⟨trivial,fun found linked => ?_⟩
    have marked : Linked lib known { found with cut := true } { s with
        partialReasons := s.partialReasons.insert .nestingDepthLimit } :=
      ⟨linked.digests,⟨fun _ => rfl,fun _ => List.mem_insert_self⟩,linked.within⟩
    obtain ⟨linked',new,nodes,gains⟩ := kept _ marked
    refine ⟨linked',new,nodes,gains.counted,fun r other => ?_⟩
    rw [gains.reasoned r other,List.mem_insert_iff,or_iff_right other]
  | succ below =>
    rw [if_neg (by omega)]
    intro s
    have ran : (Command.observe id >>= fun s : Inspection =>
        if lib.sha256 nested ∈ s.seenNestedDigests then
          Command.update fun s => { s with repeatedNestedArchives := s.repeatedNestedArchives + 1 }
        else do
          Command.update fun s => { s with seenNestedDigests := lib.sha256 nested :: s.seenNestedDigests }
          descend nested : Walk Unit) s =
        if lib.sha256 nested ∈ s.seenNestedDigests then
          (.ok (),{ s with repeatedNestedArchives := s.repeatedNestedArchives + 1 })
        else descend nested { s with seenNestedDigests := lib.sha256 nested :: s.seenNestedDigests } := by
      show (if lib.sha256 nested ∈ s.seenNestedDigests then _ else _ : Walk Unit) s = _
      split <;> rfl
    rw [ran]
    by_cases repeated : lib.sha256 nested ∈ s.seenNestedDigests
    · rw [if_pos repeated]
      refine ⟨List.Subset.refl _,fun _ _ _ => ⟨trivial,fun found linked => ?_⟩⟩
      have walked : Walks lib known (fun _ => 0) [] id s { s with
          repeatedNestedArchives := s.repeatedNestedArchives + 1 } := walks_nothing rfl rfl rfl
      rw [linked.digests] at repeated
      obtain ⟨a,named,same⟩ := List.mem_map.mp repeated
      rw [free (linked.within a named) member same] at named
      rw [visit_known (inside lib) named]
      exact walked found linked
    · rw [if_neg repeated]
      have searched := descends below rfl nested member
        { s with seenNestedDigests := lib.sha256 nested :: s.seenNestedDigests }
      refine ⟨searched.1,fun a returned none => ⟨trivial,fun found linked => ?_⟩⟩
      have new : nested ∉ found.names := by
        intro named
        exact repeated (linked.digests ▸ List.mem_map_of_mem named)
      exact walks_new member linked new (searched.2 a returned none)

/-! ### Entries -/

/-- What reading an entry leaves unanalyzed. -/
def readingReasons (result : Except Exn (Option Bytes)) : List Reason :=
  match result with
  | .error e => [if e = .NotImplementedError then .unsupportedCompressionMethod else .memberDecompressionError]
  | .ok _ => []

/-- What reading an entry finds. -/
def readingNested (result : Except Exn (Option Bytes)) : List Bytes :=
  match result with
  | .error _ => []
  | .ok nested => nested.toList

theorem unsupportedMethod_does (method : Nat) : Does (unsupportedMethod method) fun s _ t =>
    True ∧ Walks lib known (fun _ => 0) [.unsupportedCompressionMethod] id s t := by
  refine does_update (fun _ => rfl) fun s => ⟨trivial,walks_own (fun _ => rfl) (fun r => ?_) (by decide) rfl⟩
  rw [List.mem_insert_iff,List.mem_singleton,or_comm]

theorem markMalformed_does {reason : Reason} (e : Exn) (other : reason ≠ .nestingDepthLimit) :
    Does (markMalformed reason e) fun s _ t => True ∧ Walks lib known (fun _ => 0) [reason] id s t := by
  refine does_update (fun _ => rfl) fun s => ⟨trivial,walks_own (fun _ => rfl) (fun r => ?_) ?_ rfl⟩
  · rw [List.mem_insert_iff,List.mem_singleton,or_comm]
  · rw [List.mem_singleton]
    exact other.symm

/-- A last step that the search does not notice, with a result. -/
theorem walks_result {α β : Type} {W : β → Prop} {m : Walk α} {b : β} {counts : Category → Nat} {reasons : List Reason}
    {visits : Found Bytes → Found Bytes} (valid : W b)
    (first : Does m fun s _ t => True ∧ Walks lib known counts reasons visits s t) :
    Does (m >>= fun _ => pure b) fun s b t => W b ∧ Walks lib known counts reasons visits s t :=
  walks_bind first (fun _ => does_pure fun _ _ => ⟨valid,walks_nothing rfl rfl rfl⟩) rfl (List.append_nil _).symm rfl

theorem afterReading_does {info : ZipInfo} (deep : depth + levels = limits.maxNestingDepth)
    (free : Set.InjOn lib.sha256 known) (descends : Descends lib known descend levels depth)
    {result : Except Exn (Option Bytes)} (members : ∀ nested ∈ readingNested result, nested ∈ known) :
    Does (afterReading lib limits descend depth info (result.mapError .library)) fun s goOn t =>
      goOn = true ∧ Walks lib known (fun _ => 0) (readingReasons result)
        (visitAll (inside lib) levels (depth + 1) (readingNested result)) s t := by
  match result with
  | .error e =>
    show Does (if e = .NotImplementedError then _ else if handledAtReading e then _ else _) _
    by_cases unsupported : e = .NotImplementedError
    · rw [if_pos unsupported]
      simp only [readingReasons,if_pos unsupported]
      exact walks_result rfl (unsupportedMethod_does info.compressType)
    · rw [if_neg unsupported]
      by_cases handled : handledAtReading e = true
      · rw [if_pos handled]
        simp only [readingReasons,if_neg unsupported]
        exact walks_result rfl (markMalformed_does e (by decide))
      · rw [if_neg handled]
        exact does_raise
  | .ok none => exact does_pure fun s => ⟨rfl,walks_nothing rfl rfl rfl⟩
  | .ok (some nested) =>
    exact walks_result rfl (inspectNested_does deep (members nested (List.mem_singleton_self nested)) free descends)

/-- Reading is stopped, and then so is the loop, or it is as without the budgets. -/
theorem inspectMember_does {info : ZipInfo} {around : List ZipInfo} (deep : depth + levels = limits.maxNestingDepth)
    (full : info.member.Full) (free : Set.InjOn lib.sha256 known) (descends : Descends lib known descend levels depth)
    (members : ∀ nested ∈ readingNested (outcome info.member), nested ∈ known) :
    Does (inspectMember lib limits descend depth info around) fun s goOn t =>
      goOn = true ∧ Walks lib known (fun _ => 0) (readingReasons (outcome info.member))
        (visitAll (inside lib) levels (depth + 1) (readingNested (outcome info.member))) s t := by
  intro s
  have ran : inspectMember lib limits descend depth info around s =
      afterReading lib limits descend depth info (readMember limits around info.member s).1
        (readMember limits around info.member s).2 := rfl
  rw [ran]
  have yields : Yields (readMember limits around info.member) s fun result => result = outcome info.member :=
    readMember_yields full around
  rcases yields with stopped | ⟨result,same,rfl,only⟩
  · rw [stopped.raised]
    exact ⟨stopped.grows,fun _ _ none => absurd none stopped.marked⟩
  · rw [same]
    have read := (afterReading_does deep free descends members : Does (afterReading lib limits descend depth info _) _)
      (readMember limits around info.member s).2
    refine ⟨only.resources ▸ read.1,fun a returned none => ?_⟩
    obtain ⟨goesOn,walked⟩ := read.2 a returned none
    refine ⟨goesOn,?_⟩
    have whole := only.walks.trans walked
    simpa using whole

theorem inspectName_walks (name : Text) (depth : Nat) (seen : SeenNames) (s : Inspection) :
    Walks lib known (added lib name seen) [] id s (inspectName lib limits name depth seen s) := by
  obtain ⟨partials,digests,_⟩ := (inspectName_only lib limits name depth seen s).kept
  refine walks_own (inspectName_counts lib limits name depth seen s) (fun r => ?_) List.not_mem_nil digests
  rw [partials]
  simp

/-- An entry that is counted in a category of its own. -/
theorem counted_walks (category : Category) (maximum : Nat) (name : Text) (depth : Nat) (extra : Record) (s : Inspection) :
    Walks lib known (fun c => if c = category then 1 else 0) [] id s
      (retainRecord lib limits category maximum name depth extra (counted category s)) := by
  have first : Walks lib known (fun c => if c = category then 1 else 0) [] id s (counted category s) :=
    walks_own (counted_counts category · s) (fun r => by simp [counted]) List.not_mem_nil rfl
  exact first.trans (retainRecord_kept category maximum name depth extra (counted category s))

/-- What is left to do for an entry after its name. -/
theorem entry_read {info : ZipInfo} (read : passedOver lib info = false) :
    (entryReason lib info).toList = readingReasons (outcome info.member) ∧
      (nestedIn lib info).toList = readingNested (outcome info.member) := by
  unfold passedOver at read
  simp only [Bool.or_eq_false_iff] at read
  obtain ⟨⟨⟨directory,symlink⟩,encrypted⟩,supported⟩ := read
  simp only [entryReason,nestedIn,passedOver,directory,symlink,encrypted,supported,Bool.or_self,Bool.false_eq_true,
    if_false]
  cases outcome info.member with
  | ok nested => exact ⟨rfl,rfl⟩
  | error e =>
    refine ⟨?_,rfl⟩
    by_cases unsupported : e = .NotImplementedError
    · simp only [readingReasons,if_pos unsupported,Option.toList_some]
    · simp only [readingReasons,if_neg unsupported,Option.toList_some]

theorem nestedIn_none {info : ZipInfo} (passed : passedOver lib info = true) : nestedIn lib info = none := by
  rw [nestedIn,if_pos passed]

theorem nestedIn_outcome {info : ZipInfo} (read : passedOver lib info = false) {nested : Bytes} :
    nested ∈ readingNested (outcome info.member) ↔ nested ∈ nestedIn lib info := by
  rw [← (entry_read read).2,Option.mem_toList,Option.mem_def]

theorem encrypted_does {info : ZipInfo} : Does (do
      Command.update (counted .encrypted)
      markPartial .encryptedMember
      Command.update (retainRecord lib limits .encrypted limits.maxSuspiciousMemberNames info.filename depth [])
      pure true) fun s goOn t =>
    goOn = true ∧ Walks lib known (fun c => if c = .encrypted then 1 else 0) [.encryptedMember] id s t := by
  have count : Does (Command.update (counted .encrypted)) fun s (_ : Unit) t =>
      Walks lib known (fun c => if c = .encrypted then 1 else 0) [] id s t :=
    does_update (fun _ => rfl) fun s =>
      walks_own (counted_counts .encrypted · s) (fun r => by simp [counted]) List.not_mem_nil rfl
  have mark : Does (markPartial .encryptedMember) fun s _ t => Walks lib known (fun _ => 0) [.encryptedMember] id s t := by
    refine does_update (fun _ => rfl) fun s => walks_own (fun _ => rfl) (fun r => ?_) (by decide) rfl
    rw [List.mem_insert_iff,List.mem_singleton,or_comm]
  have record : Does (Command.update (retainRecord lib limits .encrypted limits.maxSuspiciousMemberNames
      info.filename depth [])) fun s (_ : Unit) t => True ∧ Walks lib known (fun _ => 0) [] id s t :=
    does_update (fun s => (retainRecord_only lib limits _ _ _ _ _ s).kept.2.2) fun s =>
      ⟨trivial,retainRecord_kept _ _ _ _ _ s⟩
  have rest : Does (do
        markPartial .encryptedMember
        Command.update (retainRecord lib limits .encrypted limits.maxSuspiciousMemberNames info.filename depth [])
        pure true) fun s goOn t =>
      goOn = true ∧ Walks lib known (fun _ => 0) [.encryptedMember] id s t :=
    walks_then mark (walks_result rfl record) rfl rfl rfl
  exact walks_then count rest rfl rfl rfl

/-- The entry after its name. -/
theorem entry_does {info : ZipInfo} {around : List ZipInfo} (deep : depth + levels = limits.maxNestingDepth)
    (full : info.member.Full) (free : Set.InjOn lib.sha256 known) (descends : Descends lib known descend levels depth)
    (members : ∀ nested ∈ nestedIn lib info, nested ∈ known) :
    Does (if info.isDir then do
        Command.update fun s => { s with directoriesSeen := s.directoriesSeen + 1 }
        pure true
      else if info.isSymlink then do
        Command.update fun s => retainRecord lib limits .symlink limits.maxSuspiciousMemberNames info.filename depth []
          (counted .symlink s)
        pure true
      else if info.isEncrypted then do
        Command.update (counted .encrypted)
        markPartial .encryptedMember
        Command.update (retainRecord lib limits .encrypted limits.maxSuspiciousMemberNames info.filename depth [])
        pure true
      else if !isSupported lib info then do
        unsupportedMethod info.compressType
        pure true
      else inspectMember lib limits descend depth info around) fun s goOn t =>
      goOn = true ∧ Walks lib known (kindCount info) (entryReason lib info).toList
        (visitAll (inside lib) levels (depth + 1) (nestedIn lib info).toList) s t := by
  unfold kindCount
  by_cases directory : info.isDir = true
  · have passed : passedOver lib info = true := by simp [passedOver,directory]
    have reason : entryReason lib info = none := by simp [entryReason,directory]
    simp only [directory,if_true,nestedIn_none passed,reason]
    exact walks_result rfl (does_update (fun _ => rfl) fun s => ⟨trivial,walks_nothing rfl rfl rfl⟩)
  by_cases symlink : info.isSymlink = true
  · have passed : passedOver lib info = true := by simp [passedOver,symlink]
    have reason : entryReason lib info = none := by simp [entryReason,symlink]
    simp only [directory,symlink,if_true,nestedIn_none passed,reason]
    exact walks_result rfl (does_update (fun s => (retainRecord_only lib limits _ _ _ _ _ _).kept.2.2)
      fun s => ⟨trivial,counted_walks .symlink _ _ _ _ s⟩)
  by_cases encrypted : info.isEncrypted = true
  · have passed : passedOver lib info = true := by simp [passedOver,encrypted]
    have reason : entryReason lib info = some .encryptedMember := by simp [entryReason,directory,symlink,encrypted]
    simp only [directory,symlink,encrypted,if_true,nestedIn_none passed,reason]
    exact encrypted_does
  by_cases unsupported : (!isSupported lib info) = true
  · have passed : passedOver lib info = true := by simp [passedOver,unsupported]
    have reason : entryReason lib info = some .unsupportedCompressionMethod := by
      simp only [entryReason,directory,symlink,encrypted,unsupported,if_true]
      rfl
    simp only [directory,symlink,encrypted,unsupported,if_true,nestedIn_none passed,reason]
    exact walks_result rfl (unsupportedMethod_does info.compressType)
  · have read : passedOver lib info = false := by simp_all [passedOver]
    rw [(entry_read read).1,(entry_read read).2]
    simp only [directory,symlink,encrypted,unsupported]
    exact inspectMember_does deep full free descends fun nested member => members nested ((nestedIn_outcome read).mp member)

theorem inspectEntry_does {info : ZipInfo} {seen : SeenNames} {around : List ZipInfo}
    (deep : depth + levels = limits.maxNestingDepth) (full : info.member.Full) (free : Set.InjOn lib.sha256 known)
    (descends : Descends lib known descend levels depth) (members : ∀ nested ∈ nestedIn lib info, nested ∈ known) :
    Does (inspectEntry lib limits descend depth info seen around) fun s goOn t =>
      goOn = true ∧ Walks lib known (entryCount lib info seen) (entryReason lib info).toList
        (visitAll (inside lib) levels (depth + 1) (nestedIn lib info).toList) s t := by
  refine does_observe fun s => ?_
  split
  · exact does_stop (does_pure (R := fun _ _ _ => True) fun _ => trivial)
  · have name : Does (Command.update fun s => inspectName lib limits info.filename depth seen { s with
          membersInspected := s.membersInspected + 1
          history := { s.history with visited := (info,seen) :: s.history.visited } }) fun s (_ : Unit) t =>
        Walks lib known (added lib info.filename seen) [] id s t := by
      refine does_update (fun s => (inspectName_only lib limits info.filename depth seen _).kept.2.2) fun s => ?_
      have entered : Walks lib known (fun _ => 0) [] id s { s with
          membersInspected := s.membersInspected + 1
          history := { s.history with visited := (info,seen) :: s.history.visited } } := walks_nothing rfl rfl rfl
      simpa using entered.trans (inspectName_walks info.filename depth seen _)
    exact walks_then name (entry_does deep full free descends members) rfl rfl rfl

/-! ### Containers -/

theorem visitAll_cons {info : ZipInfo} {rest : List ZipInfo} :
    visitAll (inside lib) levels depth ((info :: rest).filterMap (nestedIn lib)) =
      visitAll (inside lib) levels depth (rest.filterMap (nestedIn lib)) ∘
        visitAll (inside lib) levels depth (nestedIn lib info).toList := by
  cases found : nestedIn lib info with
  | none =>
    rw [List.filterMap_cons_none found]
    rfl
  | some nested =>
    rw [List.filterMap_cons_some found]
    rfl

theorem reasons_cons {info : ZipInfo} {rest : List ZipInfo} : (info :: rest).filterMap (entryReason lib) =
    (entryReason lib info).toList ++ rest.filterMap (entryReason lib) := by
  cases reason : entryReason lib info with
  | none => rw [List.filterMap_cons_none reason]; rfl
  | some r => rw [List.filterMap_cons_some reason]; rfl

variable {descends : Bytes → List ZipInfo → Walk Unit} {around : List ZipInfo}

/-- What is assumed of the entries of a container: their streams return what is asked for, and what is in them is known. -/
structure Readable (lib : Library) (known : Set Bytes) (info : ZipInfo) : Prop where
  full : info.member.Full
  nested : ∀ nested ∈ nestedIn lib info, nested ∈ known

theorem inspectEntries_does {infos : List ZipInfo} {seen : SeenNames} (deep : depth + levels = limits.maxNestingDepth)
    (free : Set.InjOn lib.sha256 known) (below : ∀ left, Descends lib known (descends · left) levels depth)
    (readable : ∀ info ∈ infos, Readable lib known info) :
    Does (inspectEntries lib limits descends depth around infos seen) fun s _ t =>
      True ∧ Walks lib known (entriesCount lib infos seen) (infos.filterMap (entryReason lib))
        (visitAll (inside lib) levels (depth + 1) (infos.filterMap (nestedIn lib))) s t := by
  induction infos generalizing seen with
  | nil => exact does_pure fun s => ⟨trivial,walks_nothing rfl rfl rfl⟩
  | cons info rest ih =>
    obtain ⟨full,nested⟩ := readable info List.mem_cons_self
    have later := @ih (noteName lib info.filename seen) fun info member => readable info (List.mem_cons_of_mem _ member)
    refine walks_bind (inspectEntry_does deep full free (below (rest ++ around)) nested) (fun goOn => ?_) rfl reasons_cons
      visitAll_cons
    cases goOn with
    | false => exact does_pure fun _ impossible => by cases impossible
    | true => exact does_weaken later fun _ _ _ holds _ => holds

theorem inspectInfos_does {infos : List ZipInfo} (deep : depth + levels = limits.maxNestingDepth)
    (free : Set.InjOn lib.sha256 known) (below : ∀ left, Descends lib known (descends · left) levels depth)
    (readable : ∀ info ∈ infos, Readable lib known info) :
    Does (inspectInfos lib limits descends depth around infos) fun s _ t =>
      True ∧ Walks lib known (entriesCount lib infos []) (infos.filterMap (entryReason lib))
        (visitAll (inside lib) levels (depth + 1) (infos.filterMap (nestedIn lib))) s t := by
  refine walks_after (fun _ => rfl) (fun s => walks_nothing rfl rfl rfl) ?_
  split
  · exact does_stop (inspectEntries_does deep free below fun info member => readable info (List.mem_of_mem_take member))
  · exact inspectEntries_does deep free below readable

theorem inspectContainer_does {source : Bytes} {container : Container} (opens : lib.zipFile source = .ok container)
    (deep : depth + levels = limits.maxNestingDepth) (free : Set.InjOn lib.sha256 known)
    (below : ∀ left, Descends lib known (descends · left) levels depth)
    (readable : ∀ info ∈ (opened lib source).infos, Readable lib known info) (file : Bool) :
    Does (inspectContainer lib limits descends depth around container) fun s _ t =>
      True ∧ Walks lib known (sourceCount lib source) (sourceReasons lib file source)
        (visitAll (inside lib) levels (depth + 1) (inside lib source)) s t := by
  refine walks_after (fun _ => rfl) (fun s => walks_nothing rfl rfl rfl) ?_
  cases listed : container.infolist with
  | error e =>
    have shown : opened lib source = .unlisted := by simp only [opened,opens,listed]
    simp only [sourceCount,sourceReasons,inside,shown]
    by_cases handled : handledAtListing e = true
    · rw [if_pos handled]
      exact markMalformed_does e nofun
    · rw [if_neg handled]
      exact does_raise
  | ok infos =>
    have shown : opened lib source = .entries infos := by simp only [opened,opens,listed]
    simp only [sourceCount,sourceReasons,inside,shown]
    rw [shown] at readable
    exact inspectInfos_does deep free below (show ∀ info ∈ infos, _ from readable)

/-- What is assumed of the nested files that are known: their digests differ, and their entries are readable. -/
structure Closed (lib : Library) (known : Set Bytes) : Prop where
  free : Set.InjOn lib.sha256 known
  readable : ∀ a ∈ known, ∀ info ∈ (opened lib a).infos, Readable lib known info

theorem inspectArchive_step {source : Bytes} (deep : depth + levels = limits.maxNestingDepth)
    (free : Set.InjOn lib.sha256 known)
    (below : ∀ left, Descends lib known (fun nested => inspectArchive lib limits levels nested (depth + 1) left) levels depth)
    (readable : ∀ info ∈ (opened lib source).infos, Readable lib known info) :
    Does (inspectArchive lib limits (levels + 1) source depth around) fun s _ t =>
      True ∧ Walks lib known (sourceCount lib source) (sourceReasons lib (depth == 0) source)
        (visitAll (inside lib) levels (depth + 1) (inside lib source)) s t := by
  refine walks_after (fun _ => rfl) (fun s => walks_nothing rfl rfl rfl) (does_observe fun s => ?_)
  split
  · exact does_markResource
  · cases opens : lib.zipFile source with
    | error e =>
      have shown : opened lib source = .malformed := by simp only [opened,opens]
      simp only [sourceCount,sourceReasons,inside,shown]
      by_cases handled : handledAtOpening e = true
      · have reason : (if depth = 0 then Reason.malformedArchive else .malformedNestedArchive) =
            if (depth == 0) = true then .malformedArchive else .malformedNestedArchive := by simp
        rw [if_pos handled,reason]
        exact markMalformed_does e (by split <;> decide)
      · rw [if_neg handled]
        exact does_raise
    | ok container => exact inspectContainer_does opens deep free below readable (depth == 0)

/-- The inspection of a file on some levels is the search through the files nested in it. -/
theorem inspectArchive_does (closed : Closed lib known) {source : Bytes}
    (readable : ∀ info ∈ (opened lib source).infos, Readable lib known info)
    (deep : depth + levels = limits.maxNestingDepth) :
    Does (inspectArchive lib limits (levels + 1) source depth around) fun s _ t =>
      True ∧ Walks lib known (sourceCount lib source) (sourceReasons lib (depth == 0) source)
        (visitAll (inside lib) levels (depth + 1) (inside lib source)) s t := by
  induction levels generalizing source depth around with
  | zero => exact inspectArchive_step deep closed.free (fun _ _ impossible => by cases impossible) readable
  | succ levels ih =>
    refine inspectArchive_step deep closed.free (fun left below same nested member => ?_) readable
    obtain rfl := Nat.succ.inj same
    exact does_weaken (ih (closed.readable nested member) (by omega)) fun _ _ _ holds => holds.2

/-! ### The whole inspection -/

/-- The ZIP files nested in a file, at any depth. -/
def nestedFiles (lib : Library) (content : Bytes) : Set Bytes :=
  {a | ∃ depth, Lies (inside lib) (inside lib content) depth a}

/-- The first read of every member returns the four bytes that are asked for, unless the member is shorter. -/
def Library.Full (lib : Library) : Prop := ∀ source, ∀ info ∈ (opened lib source).infos, info.member.Full

theorem nestedFiles_closed {content : Bytes} (full : lib.Full) (free : Set.InjOn lib.sha256 (nestedFiles lib content)) :
    Closed lib (nestedFiles lib content) ∧
      ∀ info ∈ (opened lib content).infos, Readable lib (nestedFiles lib content) info := by
  have held {source nested : Bytes} {info : ZipInfo} (member : info ∈ (opened lib source).infos)
      (found : nested ∈ nestedIn lib info) : nested ∈ inside lib source := List.mem_filterMap.mpr ⟨info,member,found⟩
  refine ⟨⟨free,?_⟩,fun info member => ⟨full content info member,fun nested found => ?_⟩⟩
  · rintro a ⟨depth,lies⟩ info member
    exact ⟨full a info member,fun nested found => ⟨depth + 1,.step lies (held member found)⟩⟩
  · exact ⟨1,.start (held member found)⟩

/-- The nested ZIP files that an inspection without budgets looks into. -/
def searched (lib : Library) (limits : ArchiveAnalysisLimits) (content : Bytes) : Found Bytes :=
  search (inside lib) limits.maxNestingDepth (inside lib content)

/-- The counters and the reasons are those of the file and of the nested files that the search finds. -/
structure Searched (lib : Library) (limits : ArchiveAnalysisLimits) (content : Bytes) (s : Inspection) : Prop where
  cut : .nestingDepthLimit ∈ s.partialReasons ↔ (searched lib limits content).cut = true
  counted : ∀ c, s.counts c =
    sourceCount lib content c + ((searched lib limits content).names.map fun a => sourceCount lib a c).sum
  reasoned : ∀ r, r ≠ .nestingDepthLimit → (r ∈ s.partialReasons ↔ r ∈ sourceReasons lib true content ∨
    ∃ a ∈ (searched lib limits content).names, r ∈ sourceReasons lib false a)

theorem inspect_searched {content : Bytes} (full : lib.Full) (free : Set.InjOn lib.sha256 (nestedFiles lib content))
    (returned : (inspect lib limits content).1 = .ok ()) (unstopped : (inspect lib limits content).2.resourceReasons = []) :
    Searched lib limits content (inspect lib limits content).2 := by
  obtain ⟨closed,readable⟩ := nestedFiles_closed full free
  have walked := ((inspectArchive_does closed readable (Nat.zero_add limits.maxNestingDepth) :
    Does (inspectArchive lib limits (limits.maxNestingDepth + 1) content 0 []) _) {}).2 () returned unstopped
  have start : Linked lib (nestedFiles lib content) {} {} := by
    refine ⟨rfl,⟨fun member => absurd member List.not_mem_nil,fun marked => absurd marked Bool.false_ne_true⟩,?_⟩
    intro a member
    exact absurd member List.not_mem_nil
  obtain ⟨linked,new,nodes,gains⟩ := walked.2 {} start
  have names : (searched lib limits content).names = new.map Prod.fst := by
    rw [searched,search,Found.names,nodes,List.append_nil]
  refine ⟨linked.cut,fun c => ?_,fun r other => ?_⟩
  · rw [names]
    exact (gains.counted c).trans (by rw [Nat.zero_add])
  · rw [names]
    exact (gains.reasoned r other).trans ⟨fun held => held.resolve_left List.not_mem_nil,.inr⟩

end DocGuard.Archive
