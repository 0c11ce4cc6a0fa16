import DocGuard.ArchiveResults

/-!
No evidence is lost: whatever stops an inspection or raises in it, the counters
are the sums of what the entries show that were looked at, each after the entries
before it in a container that the file really holds.
-/
namespace DocGuard.Archive
open DocGuard.Commands DocGuard.Domain DocGuard.Findings DocGuard.Search

variable {lib : Library} {limits : ArchiveAnalysisLimits} {α β : Type}

/-! ### Reading -/

/-- What is known of the entries is the same. -/
structure SameEntries (s s' : Inspection) : Prop where
  counts : s'.counts = s.counts
  inspected : s'.membersInspected = s.membersInspected
  visited : s'.history.visited = s.history.visited

theorem SameEntries.refl (s : Inspection) : SameEntries s s := ⟨rfl,rfl,rfl⟩

theorem SameEntries.trans (s t u : Inspection) (first : SameEntries s t) (second : SameEntries t u) : SameEntries s u :=
  ⟨second.counts.trans first.counts,second.inspected.trans first.inspected,second.visited.trans first.visited⟩

/-- A part of the inspection that does not look at entries. -/
abbrev KeepsEntries (m : Walk α) : Prop := Moves SameEntries (fun _ => True) m

theorem entries_bind {m : Walk α} {k : α → Walk β} (first : KeepsEntries m) (rest : ∀ a, KeepsEntries (k a)) : KeepsEntries (m >>= k) :=
  moves_bind SameEntries.trans first rest

theorem entries_pure (a : α) : KeepsEntries (pure a) := moves_pure SameEntries.refl a

theorem entries_raise (e : Raised) : KeepsEntries (Command.raise e : Walk α) := moves_raise SameEntries.refl trivial

theorem entries_observe (f : Inspection → α) : KeepsEntries (Command.observe f) := moves_observe SameEntries.refl f

theorem markResource_entries (reason : Reason) : KeepsEntries (markResource reason) := moves_update fun _ => ⟨rfl,rfl,rfl⟩

theorem entries_steps : ReadSteps SameEntries where
  refl := SameEntries.refl
  trans := SameEntries.trans
  opens _ _ := ⟨rfl,rfl,rfl⟩
  yields _ _ _ := ⟨rfl,rfl,rfl⟩
  materializes _ _ := ⟨rfl,rfl,rfl⟩
  marks _ _ := ⟨rfl,rfl,rfl⟩
  leaves _ _ := ⟨rfl,rfl,rfl⟩

/-! ### The entries that were looked at -/

/-- What the entries looked at add to the counter of a category. -/
def visitedCount (lib : Library) (visited : List (ZipInfo × SeenNames)) (c : Category) : Nat :=
  (visited.map fun entry => entryCount lib entry.1 entry.2 c).sum

/-- The entry was looked at in a container of the set, after the names of the entries before it. -/
def Met (lib : Library) (known : Set Bytes) (entry : ZipInfo × SeenNames) : Prop :=
  ∃ a ∈ known, ∃ before after, (opened lib a).infos = before ++ entry.1 :: after ∧ Notes lib before entry.2

/-- The counters are those of the entries looked at, but for some that are still to come. -/
structure Evidence (lib : Library) (known : Set Bytes) (owed : Category → Nat) (s : Inspection) : Prop where
  counted : ∀ c, s.counts c + owed c = visitedCount lib s.history.visited c
  inspected : s.membersInspected = s.history.visited.length
  met : ∀ entry ∈ s.history.visited, Met lib known entry

/-- Between two entries nothing is owed. -/
abbrev Settled (lib : Library) (known : Set Bytes) (s : Inspection) : Prop := Evidence lib known (fun _ => 0) s

variable {known : Set Bytes} {owed : Category → Nat}

theorem SameEntries.evidence {s s' : Inspection} (same : SameEntries s s') (evidence : Evidence lib known owed s) :
    Evidence lib known owed s' := by
  refine ⟨?_,?_,?_⟩
  · rw [same.counts,same.visited]
    exact evidence.counted
  · rw [same.inspected,same.visited]
    exact evidence.inspected
  · rw [same.visited]
    exact evidence.met

/-- The library raises it at a container of the set, or at an entry of one that is read, and no handler names it. -/
def Escapes (lib : Library) (known : Set Bytes) (raised : Raised) : Prop :=
  ∃ e, raised = .library e ∧ ∃ a ∈ known,
    (lib.zipFile a = .error e ∧ handledAtOpening e = false) ∨
    (∃ container, lib.zipFile a = .ok container ∧ container.infolist = .error e ∧ handledAtListing e = false) ∨
    ∃ info ∈ (opened lib a).infos, passedOver lib info = false ∧ outcome info.member = .error e ∧
      e ≠ .NotImplementedError ∧ handledAtReading e = false

/-- A part of the inspection that settles what it looks at, and raises only what no handler names. -/
def Settles (lib : Library) (known : Set Bytes) (m : Walk α) : Prop :=
  Ensures (Settled lib known) m fun result s => Settled lib known s ∧ ∀ e, result = .error e → Escapes lib known e

theorem settles_bind {m : Walk α} {k : α → Walk β} (first : Settles lib known m) (rest : ∀ a, Settles lib known (k a)) :
    Settles lib known (m >>= k) :=
  ensures_bind first (fun a s settled => rest a s settled.1) fun _ _ raised =>
    ⟨raised.1,fun _ same => raised.2 _ (Except.error.inj same ▸ rfl)⟩

theorem settles_raise {e : Raised} (escapes : Escapes lib known e) : Settles lib known (Command.raise e : Walk α) :=
  ensures_raise fun _ settled => ⟨settled,fun _ same => Except.error.inj same ▸ escapes⟩

/-- A part of the inspection that neither looks at entries nor raises. -/
abbrev Quiet (m : Walk α) : Prop := Moves SameEntries (fun _ => False) m

theorem Quiet.settles {m : Walk α} (quiet : Quiet m) : Settles lib known m :=
  fun s settled => ⟨(quiet s).1.evidence settled,fun _ raised => ((quiet s).2 _ raised).elim⟩

theorem settles_pure (a : α) : Settles lib known (pure a) := Quiet.settles (moves_pure SameEntries.refl a)

theorem settles_observe (f : Inspection → α) : Settles lib known (Command.observe f) :=
  Quiet.settles (moves_observe SameEntries.refl f)

theorem settles_update {f : Inspection → Inspection} (same : ∀ s, SameEntries s (f s)) :
    Settles lib known (Command.update f) :=
  Quiet.settles (moves_update same)

theorem names_same {s s' : Inspection} (only : NamesOnly s s') (counts : s'.counts = s.counts) : SameEntries s s' := by
  obtain ⟨_,_,_,_,rfl⟩ := only
  exact ⟨counts,rfl,rfl⟩

theorem retainRecord_same (category : Category) (maximum : Nat) (name : Text) (depth : Nat) (extra : Record)
    (s : Inspection) : SameEntries s (retainRecord lib limits category maximum name depth extra s) :=
  names_same (retainRecord_only lib limits category maximum name depth extra s)
    (retainRecord_counts lib limits category maximum name depth extra s)

/-! ### One entry -/

variable {descend : Bytes → Walk Unit} {depth : Nat}

theorem inspectNested_settles (info : ZipInfo) {nested : Bytes} (descends : Settles lib known (descend nested)) :
    Settles lib known (inspectNested lib limits descend depth info nested) := by
  refine settles_bind (settles_update fun _ => ⟨rfl,rfl,rfl⟩) fun _ => ?_
  split
  · refine settles_bind (settles_update fun _ => ⟨rfl,rfl,rfl⟩) fun _ => ?_
    exact settles_update (retainRecord_same _ _ _ _ _)
  · refine settles_bind (settles_observe _) fun s => ?_
    split
    · exact settles_update fun _ => ⟨rfl,rfl,rfl⟩
    · exact settles_bind (settles_update fun _ => ⟨rfl,rfl,rfl⟩) fun _ => descends

theorem afterReading_settles (info : ZipInfo) (read : Except Raised (Option Bytes))
    (raises : ∀ e, read = .error (.library e) → e ≠ .NotImplementedError → handledAtReading e = false →
      Escapes lib known (.library e))
    (descends : ∀ nested, read = .ok (some nested) → Settles lib known (descend nested)) :
    Settles lib known (afterReading lib limits descend depth info read) := by
  match read with
  | .error .stop => exact settles_pure _
  | .error (.library e) =>
    unfold afterReading
    dsimp only
    by_cases unsupported : e = .NotImplementedError
    · rw [if_pos unsupported]
      exact settles_bind (settles_update fun _ => ⟨rfl,rfl,rfl⟩) fun _ => settles_pure _
    rw [if_neg unsupported]
    by_cases handled : handledAtReading e = true
    · rw [if_pos handled]
      exact settles_bind (settles_update fun _ => ⟨rfl,rfl,rfl⟩) fun _ => settles_pure _
    · rw [if_neg handled]
      exact settles_raise (raises e rfl unsupported (Bool.eq_false_of_not_eq_true handled))
  | .ok none => exact settles_pure _
  | .ok (some nested) =>
    exact settles_bind (inspectNested_settles info (descends nested rfl)) fun _ => settles_pure _

/-- What reading an entry yields or raises, besides a stop, is what the entry holds. -/
theorem readMember_outcome {info : ZipInfo} {around : List ZipInfo} {s : Inspection} (full : info.member.Full) :
    (readMember limits around info.member s).1 = .error .stop ∨
      (readMember limits around info.member s).1 = (outcome info.member).mapError .library := by
  have yields : Yields (readMember limits around info.member) s fun result => result = outcome info.member :=
    readMember_yields full around
  rcases yields with stopped | ⟨result,same,rfl,_⟩
  · exact .inl stopped.raised
  · exact .inr same

theorem inspectMember_settles {info : ZipInfo} {around : List ZipInfo} (full : info.member.Full)
    (read : passedOver lib info = false) (held : ∃ a ∈ known, info ∈ (opened lib a).infos)
    (descends : ∀ nested, nestedIn lib info = some nested → Settles lib known (descend nested)) :
    Settles lib known (inspectMember lib limits descend depth info around) := by
  intro s settled
  have ran : inspectMember lib limits descend depth info around s =
      afterReading lib limits descend depth info (readMember limits around info.member s).1
        (readMember limits around info.member s).2 := rfl
  rw [ran]
  have outcomes : (readMember limits around info.member s).1 = .error .stop ∨
      (readMember limits around info.member s).1 = (outcome info.member).mapError .library := readMember_outcome full
  refine afterReading_settles info _ (fun e raised other unhandled => ?_) (fun nested returned => descends nested ?_) _
    (((moves_readMember entries_steps around info.member s).1).evidence settled)
  · obtain ⟨a,member,listed⟩ := held
    rw [raised] at outcomes
    cases ended : outcome info.member with
    | ok found => rw [ended] at outcomes; rcases outcomes with impossible | impossible <;> cases impossible
    | error e' =>
      rw [ended] at outcomes
      rcases outcomes with impossible | same
      · cases impossible
      · obtain rfl : e = e' := by cases same; rfl
        exact ⟨e,rfl,a,member,.inr (.inr ⟨info,listed,read,ended,other,unhandled⟩)⟩
  · rw [returned] at outcomes
    cases ended : outcome info.member with
    | error e' => rw [ended] at outcomes; rcases outcomes with impossible | impossible <;> cases impossible
    | ok found =>
      rw [ended] at outcomes
      rcases outcomes with impossible | same
      · cases impossible
      · rw [nestedIn,if_neg (by simp [read]),ended]
        exact (Except.ok.inj same).symm

/-- An entry is entered in the history, with its name counted. -/
theorem entered_evidence {info : ZipInfo} {seen : SeenNames} {s : Inspection} (settled : Settled lib known s)
    (met : Met lib known (info,seen)) : Evidence lib known (kindCount info)
      (inspectName lib limits info.filename depth seen { s with
        membersInspected := s.membersInspected + 1
        history := { s.history with visited := (info,seen) :: s.history.visited } }) := by
  have counts := inspectName_counts lib limits info.filename depth seen { s with
    membersInspected := s.membersInspected + 1
    history := { s.history with visited := (info,seen) :: s.history.visited } }
  obtain ⟨counters,records,retained,cut,same⟩ := inspectName_only lib limits info.filename depth seen { s with
    membersInspected := s.membersInspected + 1
    history := { s.history with visited := (info,seen) :: s.history.visited } }
  rw [same] at counts ⊢
  refine ⟨fun c => ?_,?_,?_⟩
  · have before := settled.counted c
    have now := counts c
    dsimp only at now ⊢
    rw [now]
    simp only [visitedCount,List.map_cons,List.sum_cons,entryCount] at before ⊢
    omega
  · exact congrArg (· + 1) settled.inspected
  · intro entry member
    rcases List.mem_cons.mp member with same | member
    · exact same ▸ met
    · exact settled.met entry member

/-- The counters of the symlinks and of the encrypted members pay what is owed. -/
theorem counted_settles {s : Inspection} {category : Category}
    (evidence : Evidence lib known (fun c => if c = category then 1 else 0) s) : Settled lib known (counted category s) := by
  refine ⟨fun c => ?_,evidence.inspected,evidence.met⟩
  rw [counted_counts]
  exact evidence.counted c

theorem Met.held {info : ZipInfo} {seen : SeenNames} (met : Met lib known (info,seen)) :
    ∃ a ∈ known, info ∈ (opened lib a).infos := by
  obtain ⟨a,member,before,after,listed,_⟩ := met
  exact ⟨a,member,by simp [listed]⟩

theorem inspectEntry_settles {info : ZipInfo} {seen : SeenNames} {around : List ZipInfo} (full : info.member.Full)
    (met : Met lib known (info,seen))
    (descends : ∀ nested, nestedIn lib info = some nested → Settles lib known (descend nested)) :
    Settles lib known (inspectEntry lib limits descend depth info seen around) := by
  refine settles_bind (settles_observe _) fun s => ?_
  split
  · exact settles_bind (settles_update fun _ => ⟨rfl,rfl,rfl⟩) fun _ => settles_pure _
  · refine ensures_update (Q := Evidence lib known (kindCount info)) (fun s settled => entered_evidence settled met) ?_
    by_cases directory : info.isDir = true
    · have owed : kindCount info = fun _ => 0 := by funext c; simp [kindCount,directory]
      rw [if_pos directory,owed]
      exact settles_bind (settles_update fun _ => ⟨rfl,rfl,rfl⟩) fun _ => settles_pure _
    rw [if_neg directory]
    by_cases symlink : info.isSymlink = true
    · have owed : kindCount info = fun c => if c = .symlink then 1 else 0 := by funext c; simp [kindCount,directory,symlink]
      rw [if_pos symlink,owed]
      refine ensures_update (Q := Settled lib known) (fun s evidence => ?_) (settles_pure _)
      exact (retainRecord_same _ _ _ _ _ _).evidence (counted_settles evidence)
    rw [if_neg symlink]
    by_cases encrypted : info.isEncrypted = true
    · have owed : kindCount info = fun c => if c = .encrypted then 1 else 0 := by
        funext c
        simp [kindCount,directory,symlink,encrypted]
      rw [if_pos encrypted,owed]
      refine ensures_update (Q := Settled lib known) (fun s evidence => counted_settles evidence) ?_
      refine settles_bind (settles_update fun _ => ⟨rfl,rfl,rfl⟩) fun _ => ?_
      exact settles_bind (settles_update (retainRecord_same _ _ _ _ _)) fun _ => settles_pure _
    have owed : kindCount info = fun _ => 0 := by funext c; simp [kindCount,directory,symlink,encrypted]
    rw [if_neg encrypted,owed]
    by_cases unsupported : (!isSupported lib info) = true
    · rw [if_pos unsupported]
      exact settles_bind (settles_update fun _ => ⟨rfl,rfl,rfl⟩) fun _ => settles_pure _
    · rw [if_neg unsupported]
      exact inspectMember_settles full (by simp_all [passedOver]) met.held descends

/-! ### Containers -/

variable {descends : Bytes → List ZipInfo → Walk Unit} {around : List ZipInfo}

theorem inspectEntries_settles {a : Bytes} {before infos rest : List ZipInfo} {seen : SeenNames} (full : lib.Full)
    (member : a ∈ known) (listed : (opened lib a).infos = before ++ infos ++ rest) (notes : Notes lib before seen)
    (below : ∀ nested ∈ inside lib a, ∀ left, Settles lib known (descends nested left)) :
    Settles lib known (inspectEntries lib limits descends depth around infos seen) := by
  induction infos generalizing before seen with
  | nil => exact settles_pure _
  | cons info later ih =>
    have held : info ∈ (opened lib a).infos := by
      rw [listed]
      simp
    have met : Met lib known (info,seen) := ⟨a,member,before,later ++ rest,by simp [listed],notes⟩
    refine settles_bind (inspectEntry_settles (full a info held) met fun nested found => ?_) fun goOn => ?_
    · exact below nested (List.mem_filterMap.mpr ⟨info,held,found⟩) (later ++ around)
    · cases goOn with
      | false => exact settles_pure _
      | true => exact ih (by simp [listed]) (notes.note info)

theorem inspectContainer_settles {a : Bytes} {container : Container} (opens : lib.zipFile a = .ok container) (full : lib.Full)
    (member : a ∈ known) (below : ∀ nested ∈ inside lib a, ∀ left, Settles lib known (descends nested left)) :
    Settles lib known (inspectContainer lib limits descends depth around container) := by
  refine settles_bind (settles_update fun _ => ⟨rfl,rfl,rfl⟩) fun _ => ?_
  cases listed : container.infolist with
  | error e =>
    dsimp only
    by_cases handled : handledAtListing e = true
    · rw [if_pos handled]
      exact settles_update fun _ => ⟨rfl,rfl,rfl⟩
    · rw [if_neg handled]
      exact settles_raise ⟨e,rfl,a,member,.inr (.inl ⟨container,opens,listed,Bool.eq_false_of_not_eq_true handled⟩)⟩
  | ok infos =>
    have shown : (opened lib a).infos = infos := by simp only [opened,opens,listed,Opened.infos]
    refine settles_bind (settles_update fun _ => ⟨rfl,rfl,rfl⟩) fun _ => ?_
    split
    · refine settles_bind (settles_update fun _ => ⟨rfl,rfl,rfl⟩) fun _ => ?_
      have first : (opened lib a).infos = [] ++ infos.take limits.maxZipEntries ++ infos.drop limits.maxZipEntries := by
        rw [shown,List.nil_append,List.take_append_drop]
      exact inspectEntries_settles full member first notes_nil below
    · have all : (opened lib a).infos = [] ++ infos ++ [] := by rw [shown,List.nil_append,List.append_nil]
      exact inspectEntries_settles full member all notes_nil below

theorem inspectArchive_settles (full : lib.Full) (closed : ∀ a ∈ known, ∀ nested ∈ inside lib a, nested ∈ known)
    {levels : Nat} {a : Bytes} (member : a ∈ known) :
    Settles lib known (inspectArchive lib limits levels a depth around) := by
  induction levels generalizing a depth around with
  | zero => exact settles_pure _
  | succ levels ih =>
    refine settles_bind (settles_update fun _ => ⟨rfl,rfl,rfl⟩) fun _ =>
      settles_bind (settles_observe _) fun s => ?_
    split
    · exact settles_update fun _ => ⟨rfl,rfl,rfl⟩
    · cases opens : lib.zipFile a with
      | error e =>
        dsimp only
        by_cases handled : handledAtOpening e = true
        · rw [if_pos handled]
          exact settles_update fun _ => ⟨rfl,rfl,rfl⟩
        · rw [if_neg handled]
          exact settles_raise ⟨e,rfl,a,member,.inl ⟨opens,Bool.eq_false_of_not_eq_true handled⟩⟩
      | ok container =>
        exact inspectContainer_settles opens full member fun nested found left => ih (closed a member nested found)

/-- The file and all ZIP files nested in it. -/
def reachable (lib : Library) (content : Bytes) : Set Bytes := {a | a = content ∨ a ∈ nestedFiles lib content}

theorem reachable_closed {content a nested : Bytes} (member : a ∈ reachable lib content) (found : nested ∈ inside lib a) :
    nested ∈ reachable lib content := by
  rcases member with rfl | ⟨depth,lies⟩
  · exact .inr ⟨1,.start found⟩
  · exact .inr ⟨depth + 1,.step lies found⟩

/-- However an inspection ends, its counters are those of the entries that it looked at; it raises only what no handler
    names. -/
theorem inspect_settled (full : lib.Full) (limits : ArchiveAnalysisLimits) (content : Bytes) :
    Settled lib (reachable lib content) (inspect lib limits content).2 ∧
      ∀ e, (inspect lib limits content).1 = .error e → Escapes lib (reachable lib content) e :=
  inspectArchive_settles full (fun _ member _ found => reachable_closed member found) (.inl rfl) {}
    ⟨fun _ => rfl,rfl,nofun⟩

/-! ### The findings -/

theorem findings_length (s : State) : (findings limits s).length ≤ 12 := by
  have one {γ : Type} (p : Prop) [Decidable p] (item : γ) : (if p then [item] else []).length ≤ 1 := by
    split
    · exact Nat.le_refl 1
    · exact Nat.zero_le 1
  have observed : (observations.filter fun category => decide (0 < s.counts category)).length ≤ 8 :=
    List.length_filter_le _ observations
  have codes : (findings limits s).length = (codesOf (findings limits s)).length := (List.length_map _).symm
  rw [codes,codesOf_findings]
  simp only [List.length_append,List.length_map]
  exact Nat.add_le_add (Nat.add_le_add (Nat.add_le_add (Nat.add_le_add observed (one _ _)) (one _ _)) (one _ _)) (one _ _)

/-- With room for all findings, a category is reported if it has been counted. -/
theorem result_reported {s : State} (room : 12 ≤ limits.maxFindings) {c : Category} (observed : c ∈ observations) :
    c.code ∈ codesOf (result lib limits s).findings ↔ 0 < s.counts c := by
  have fits : ¬ limits.maxFindings < (findings limits s).length := by
    have length := @findings_length limits s
    omega
  have reported : (result lib limits s).findings = findings limits s := by
    show reportedFindings limits s = _
    rw [reportedFindings,if_neg fits,limitFindings,if_neg fits]
  rw [reported,observed_iff observed]

/-- It is reported if the entries that were looked at add to its counter. -/
theorem reported_iff {family : FileFamily} {content : Bytes} {analysis : ArchiveAnalysis} (full : lib.Full)
    (room : 12 ≤ limits.maxFindings) (returned : analyzeArchive lib limits family (some content) = .ok analysis) {c : Category}
    (observed : c ∈ observations) :
    c.code ∈ codesOf analysis.findings ↔ 0 < visitedCount lib (inspect lib limits content).2.history.visited c := by
  obtain ⟨_,rfl⟩ := analyzeArchive_returned returned
  have counted := (inspect_settled full limits content).1.counted c
  rw [Nat.add_zero] at counted
  rw [result_reported room observed,counted]

/-- An entry that was looked at adds to the counter of what it shows. -/
theorem visitedCount_pos {visited : List (ZipInfo × SeenNames)} {entry : ZipInfo × SeenNames} (member : entry ∈ visited)
    {before : List ZipInfo} (notes : Notes lib before entry.2) {c : Category} (shown : Shows lib before entry.1 c) :
    0 < visitedCount lib visited c := by
  refine Nat.lt_of_lt_of_le ((entryCount_pos notes entry.1 c).mpr shown) ?_
  exact List.le_sum_of_mem (List.mem_map.mpr ⟨entry,member,rfl⟩)

/-- What was looked at is reported, and nothing else: the finding of a category is there exactly if an entry that was
    looked at shows it, after the entries before it in a container that can be reached. -/
theorem findings_evident (lib : Library) (limits : ArchiveAnalysisLimits) (family : FileFamily) (content : Bytes)
    (analysis : ArchiveAnalysis) (full : lib.Full) (room : 12 ≤ limits.maxFindings)
    (returned : analyzeArchive lib limits family (some content) = .ok analysis) (c : Category) (observed : c ∈ observations) :
    c.code ∈ codesOf analysis.findings ↔
      ∃ entry ∈ (inspect lib limits content).2.history.visited, ∃ a, (a = content ∨ a ∈ nestedFiles lib content) ∧
        ∃ before after, (opened lib a).infos = before ++ entry.1 :: after ∧ Notes lib before entry.2 ∧
          Shows lib before entry.1 c := by
  have settled := (inspect_settled full limits content).1
  rw [reported_iff full room returned observed]
  constructor
  · intro positive
    obtain ⟨n,member,some⟩ := List.exists_mem_ne_zero_of_sum_ne_zero (Nat.ne_of_gt positive)
    obtain ⟨entry,visited,rfl⟩ := List.mem_map.mp member
    obtain ⟨a,reached,before,after,listed,notes⟩ := settled.met entry visited
    exact ⟨entry,visited,a,reached,before,after,listed,notes,
      (entryCount_pos notes entry.1 c).mp (Nat.pos_of_ne_zero some)⟩
  · rintro ⟨entry,visited,a,_,before,after,_,notes,shown⟩
    exact visitedCount_pos visited notes shown

theorem findings_evident_carrier : Category.dangerous.code ∈ codesOf programAnalysis.findings ↔
    ∃ entry ∈ (inspect programLibrary {} (zipBytes carrierMembers)).2.history.visited, ∃ a,
      (a = zipBytes carrierMembers ∨ a ∈ nestedFiles programLibrary (zipBytes carrierMembers)) ∧
        ∃ before after, (opened programLibrary a).infos = before ++ entry.1 :: after ∧
          Notes programLibrary before entry.2 ∧ Shows programLibrary before entry.1 .dangerous :=
  findings_evident programLibrary {} .ZIP (zipBytes carrierMembers) programAnalysis (storedLibrary_full _)
    (show 12 ≤ 64 by decide) (analyzeArchive_zip program_complete.1) .dangerous (by simp [observations])

/-- An analysis that does not return was asked for a file of another family, or the library has raised what no handler
    names: at a container that can be reached, or at an entry of one whose data is read. -/
theorem escapes_unhandled (lib : Library) (limits : ArchiveAnalysisLimits) (family : FileFamily) (content : Bytes)
    (failure : Failure) (full : lib.Full) (failed : analyzeArchive lib limits family (some content) = .error failure) :
    (failure = .ArchiveRoutingError ∧ family ≠ .ZIP ∧ family ≠ .OOXML_CANDIDATE) ∨
      ∃ e, failure = .escaped (.library e) ∧ ∃ a, (a = content ∨ a ∈ nestedFiles lib content) ∧
        ((lib.zipFile a = .error e ∧ handledAtOpening e = false) ∨
        (∃ container, lib.zipFile a = .ok container ∧ container.infolist = .error e ∧ handledAtListing e = false) ∨
        ∃ info ∈ (opened lib a).infos, passedOver lib info = false ∧ outcome info.member = .error e ∧
          e ≠ .NotImplementedError ∧ handledAtReading e = false) := by
  unfold analyzeArchive at failed
  split at failed
  · rename_i other
    cases failed
    exact .inl ⟨rfl,other⟩
  · dsimp only at failed
    have settled := (inspect_settled full limits content).2
    cases ended : inspect lib limits content with
    | mk ran s =>
      rw [ended] at failed settled
      cases ran with
      | ok _ => cases failed
      | error raised =>
        cases failed
        obtain ⟨e,rfl,a,member,escapes⟩ := settled raised rfl
        exact .inr ⟨e,rfl,a,member,escapes⟩

/-- A container whose only member is compressed with LZMA, and damaged. -/
def damagedMember : ZipInfo := { filename := lit "a.txt", compressType := 14,
                                 member := { content := [], raises := some (0,.LZMAError) } }
def damagedLibrary : Library := { programLibrary with zipFile := fun _ => .ok ⟨.ok [damagedMember]⟩ }

theorem damaged_escapes : (inspect damagedLibrary {} []).1 = .error (.library .LZMAError) := by decide +kernel

theorem escapes_unhandled_damaged :
    (Failure.escaped (.library .LZMAError) = .ArchiveRoutingError ∧ FileFamily.ZIP ≠ .ZIP ∧
      FileFamily.ZIP ≠ .OOXML_CANDIDATE) ∨
    ∃ e, Failure.escaped (.library .LZMAError) = .escaped (.library e) ∧ ∃ a,
      (a = [] ∨ a ∈ nestedFiles damagedLibrary []) ∧
        ((damagedLibrary.zipFile a = .error e ∧ handledAtOpening e = false) ∨
        (∃ container, damagedLibrary.zipFile a = .ok container ∧ container.infolist = .error e ∧
          handledAtListing e = false) ∨
        ∃ info ∈ (opened damagedLibrary a).infos, passedOver damagedLibrary info = false ∧
          outcome info.member = .error e ∧ e ≠ .NotImplementedError ∧ handledAtReading e = false) := by
  have full : damagedLibrary.Full := by
    intro source info member
    obtain rfl := List.mem_singleton.mp member
    exact show 4 ≤ 64 * 1024 by decide
  have failed : analyzeArchive damagedLibrary {} .ZIP (some []) = .error (.escaped (.library .LZMAError)) :=
    analyzeArchive_escaped (.inl rfl) damaged_escapes
  exact escapes_unhandled damagedLibrary {} .ZIP [] _ full failed

end DocGuard.Archive
