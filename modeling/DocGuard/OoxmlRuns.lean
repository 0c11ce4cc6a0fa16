import DocGuard.Ooxml

/-!
What the commands of the inspection do to its state: reading only counts, and the
relationships of a part are recorded one after the other.
-/
namespace DocGuard.Ooxml
open DocGuard.Commands DocGuard.Domain DocGuard.Ordered DocGuard.Vba
open DocGuard.Archive (Exn Member ZipInfo)
open DocGuard.Json (Value)

variable {lib : Library} {limits : OfficeAnalysisLimits} {s s' t : State}

/-! ### Reading -/

/-- The state without the counters of the reader and the records of relationships. -/
def State.core (s : State) : State :=
  { s with
    bytesRead := 0
    xmlPartsParsed := 0
    xmlBytesParsed := 0
    relationshipCount := 0
    externalRelationshipCount := 0
    externalSummaries := []
    externalSummaryCapped := false
    externalTemplateCount := 0
    externalTemplateSummaries := [] }

/-- Only the counters of the reader have changed. -/
def Reads (s s' : State) : Prop :=
  ∃ bytesRead xmlPartsParsed xmlBytesParsed, s' = { s with
    bytesRead := bytesRead
    xmlPartsParsed := xmlPartsParsed
    xmlBytesParsed := xmlBytesParsed }

theorem Reads.refl (s : State) : Reads s s := ⟨_,_,_,rfl⟩

theorem Reads.trans (first : Reads s s') (second : Reads s' t) : Reads s t := by
  obtain ⟨_,_,_,rfl⟩ := first
  obtain ⟨_,_,_,rfl⟩ := second
  exact ⟨_,_,_,rfl⟩

theorem returns_call {ε α : Type} {wrap : ε → Raised} {result : Except ε α} {post : α → State → Prop}
    (holds : ∀ a, result = .ok a → post a s) : Returns (call wrap result) s post := by
  cases result with
  | ok a => exact returns_pure (holds a rfl)
  | error e => exact returns_bind (returns_update returns_raise)

theorem moves_call {ε α : Type} {R : State → State → Prop} {E : Raised → Prop} {wrap : ε → Raised} {result : Except ε α}
    (refl : ∀ s, R s s) (noted : ∀ s, R s { s with raised := true }) (allowed : ∀ e, result = .error e → E (wrap e)) :
    Moves R E (call wrap result) := by
  cases result with
  | ok a => exact moves_pure refl a
  | error e =>
    intro s
    refine ⟨noted s,fun e' raised => ?_⟩
    cases raised
    exact allowed e rfl

theorem read_content {member : Member} {offset n : Nat} {chunk : Bytes} (read : member.read offset n = .ok chunk) :
    ∃ size, 1 ≤ size ∧ chunk = (member.content.drop offset).take size := by
  have bytes : chunk = (member.content.drop offset).take (max 1 (min n (member.returned offset))) := by
    simp only [Member.read] at read
    split at read
    · split at read
      · cases read
      · exact (Except.ok.inj read).symm
    · exact (Except.ok.inj read).symm
  exact ⟨_,Nat.le_max_left _ _,bytes⟩

theorem readChunks_returns {member : Member} {memberLimit turns : Nat} {data : Bytes}
    (start : data = member.content.take data.length) (enough : member.content.length < data.length + turns) :
    Returns (readChunks limits member memberLimit turns data) s fun read s' => read = member.content ∧ Reads s s' := by
  induction turns generalizing data s with
  | zero =>
    have all : data = member.content := start.trans (List.take_of_length_le (by omega))
    exact returns_pure ⟨all,Reads.refl s⟩
  | succ turns ih =>
    refine returns_bind (returns_call fun chunk read => ?_)
    obtain ⟨size,positive,rfl⟩ := read_content read
    split
    · rename_i empty
      have past : member.content.length ≤ data.length := by
        have none := congrArg List.length empty
        rw [List.length_take, List.length_drop, List.length_nil] at none
        omega
      exact returns_pure ⟨start.trans (List.take_of_length_le past),Reads.refl s⟩
    · rename_i more
      refine returns_bind (returns_update (returns_bind (returns_observe ?_)))
      split
      · exact returns_raise
      split
      · exact returns_raise
      · have grown : data ++ (member.content.drop data.length).take size =
            member.content.take (data.length + size) := by
          rw [List.take_add, ← start]
        have longer : 0 < ((member.content.drop data.length).take size).length := List.length_pos_of_ne_nil more
        refine returns_mono (ih ?_ ?_) fun read s' reached => ⟨reached.1,Reads.trans ⟨_,_,_,rfl⟩ reached.2⟩
        · rw [grown, List.length_take]
          exact (List.take_eq_take_min (i := data.length + size) (l := member.content))
        · rw [List.length_append]
          omega

theorem onRuntimeError_returns {info : ZipInfo} {e : Raised} {post : Bytes → State → Prop} :
    Returns (onRuntimeError info e) s post := by
  unfold onRuntimeError
  split
  · exact returns_bind (returns_update returns_raise)
  · exact returns_raise

theorem readMember_returns {members : Members} {name : Text} {maximumBytes : Nat} :
    Returns (readMember limits members name maximumBytes) s fun data s' =>
      ∃ info, members.get name = some info ∧ data = info.member.content ∧ Reads s s' := by
  unfold readMember
  split
  · exact returns_raise
  · rename_i info found
    refine returns_except ?_ fun _ _ => onRuntimeError_returns
    refine returns_bind (returns_call fun _ _ => ?_)
    refine returns_mono (readChunks_returns ?_ ?_) fun data s' reached => ?_
    · simp
    · simp
    · exact ⟨info,found,reached.1,reached.2⟩

/-- The root of a part, if the part is there and parses. -/
def partRoot (lib : Library) (members : Members) (name : Text) : Option Element :=
  (members.get name).bind fun info => (lib.fromString info.member.content).toOption

theorem readXmlPart_returns {members : Members} {name : Text} :
    Returns (readXmlPart lib limits members name) s fun root s' => partRoot lib members name = some root ∧ Reads s s' := by
  refine returns_bind (returns_observe ?_)
  split
  · exact returns_raise
  split
  · exact returns_raise
  · refine returns_bind (returns_mono readMember_returns fun data t reached => ?_)
    obtain ⟨info,found,rfl,reads⟩ := reached
    refine returns_bind (returns_update (returns_call fun root parsed => ?_))
    refine ⟨?_,reads.trans ⟨_,_,_,rfl⟩⟩
    rw [partRoot, found, Option.bind_some, parsed]
    rfl

/-! ### Relationships -/

/-- The summary of a relationship. -/
def summaryOf (lib : Library) (limits : OfficeAnalysisLimits) (element : Element) : Value :=
  externalSummary lib limits (element.attr (lit "Type")) (element.attr (lit "Target"))

/-- A relationship to a template. -/
def isTemplate (lib : Library) (element : Element) : Bool := typeEndsWith lib (lit "/attachedtemplate") element

/-- These external relationships have been recorded, and nothing else has changed but counters. -/
structure Recorded (lib : Library) (limits : OfficeAnalysisLimits) (elements : List Element) (s s' : State) : Prop where
  core : s'.core = s.core
  externals : s'.externalRelationshipCount = s.externalRelationshipCount + elements.length
  summaries : s'.externalSummaries = s.externalSummaries ++
    (elements.map (summaryOf lib limits)).take (limits.maxMetadataEntries - s.externalSummaries.length)
  templates : s'.externalTemplateCount = s.externalTemplateCount + (elements.filter (isTemplate lib)).length
  templateSummaries : s'.externalTemplateSummaries = s.externalTemplateSummaries ++
    ((elements.filter (isTemplate lib)).map (summaryOf lib limits)).take
      (limits.maxMetadataEntries - s.externalTemplateSummaries.length)

theorem Recorded.field {α : Type} {elements : List Element} (recorded : Recorded lib limits elements s s')
    (field : State → α) (apart : ∀ t, field t.core = field t) : field s' = field s := by
  rw [← apart s', recorded.core, apart]

theorem Reads.recorded (reads : Reads s s') : Recorded lib limits [] s s' := by
  obtain ⟨_,_,_,rfl⟩ := reads
  exact ⟨rfl,rfl,by simp,rfl,by simp⟩

theorem Recorded.refl (s : State) : Recorded lib limits [] s s := (Reads.refl s).recorded

/-- Appending within a maximal length, twice. -/
theorem append_take_append {α : Type} {first second third : List α} {a b : List α} {maximum : Nat}
    (once : second = first ++ a.take (maximum - first.length)) (twice : third = second ++ b.take (maximum - second.length)) :
    third = first ++ (a ++ b).take (maximum - first.length) := by
  have left : maximum - second.length = maximum - first.length - a.length := by
    rw [once, List.length_append, List.length_take]
    omega
  rw [twice, left, once, List.take_append, List.append_assoc]

theorem Recorded.trans {first second : List Element} (once : Recorded lib limits first s s')
    (twice : Recorded lib limits second s' t) : Recorded lib limits (first ++ second) s t where
  core := twice.core.trans once.core
  externals := by rw [twice.externals, once.externals, List.length_append, Nat.add_assoc]
  summaries := by
    rw [List.map_append]
    exact append_take_append once.summaries twice.summaries
  templates := by rw [twice.templates, once.templates, List.filter_append, List.length_append, Nat.add_assoc]
  templateSummaries := by
    rw [List.filter_append, List.map_append]
    exact append_take_append once.templateSummaries twice.templateSummaries

/-- One more at the end, if there is room. -/
theorem append_take_singleton {α : Type} (first : List α) (a : α) (maximum : Nat) :
    (if first.length < maximum then first ++ [a] else first) = first ++ [a].take (maximum - first.length) := by
  split
  · rename_i room
    rw [List.take_of_length_le (by simp; omega)]
  · rename_i full
    rw [Nat.sub_eq_zero_of_le (Nat.le_of_not_lt full), List.take_zero, List.append_nil]

theorem recordExternal_recorded (element : Element) (s : State) :
    Recorded lib limits [element] s (recordExternal lib limits element s) := by
  have summaries := append_take_singleton s.externalSummaries (summaryOf lib limits element) limits.maxMetadataEntries
  have templates := append_take_singleton s.externalTemplateSummaries (summaryOf lib limits element)
    limits.maxMetadataEntries
  have only (template : isTemplate lib element = true) : [element].filter (isTemplate lib) = [element] := by
    simp [template]
  have none (other : ¬ isTemplate lib element = true) : [element].filter (isTemplate lib) = [] := by
    simp [other]
  unfold recordExternal
  dsimp only
  by_cases room : s.externalSummaries.length < limits.maxMetadataEntries
  · rw [if_pos room] at summaries ⊢
    by_cases template : isTemplate lib element = true
    · rw [if_pos (show typeEndsWith lib _ element = true from template)]
      exact ⟨rfl,rfl,summaries,by rw [only template]; rfl,by rw [only template]; exact templates⟩
    · rw [if_neg (show ¬ typeEndsWith lib _ element = true from template)]
      exact ⟨rfl,rfl,summaries,by rw [none template]; rfl,by rw [none template]; simp⟩
  · rw [if_neg room] at summaries ⊢
    by_cases template : isTemplate lib element = true
    · rw [if_pos (show typeEndsWith lib _ element = true from template)]
      exact ⟨rfl,rfl,summaries,by rw [only template]; rfl,by rw [only template]; exact templates⟩
    · rw [if_neg (show ¬ typeEndsWith lib _ element = true from template)]
      exact ⟨rfl,rfl,summaries,by rw [none template]; rfl,by rw [none template]; simp⟩

/-- The external relationships among some elements. -/
def externalsOf (lib : Library) (elements : List Element) : List Element :=
  elements.filter fun element => isRelationship element && isExternal lib element

/-- What a turn of the loop over relationships records. -/
theorem inspectRelationship_returns {collectExternal : Bool} {element : Element} :
    Returns (inspectRelationship lib limits collectExternal element) s fun _ s' =>
      Recorded lib limits (if collectExternal && isExternal lib element then [element] else []) s s' := by
  refine returns_bind (returns_observe ?_)
  split
  · exact returns_raise
  · refine returns_bind (returns_update ?_)
    have counted : Recorded lib limits [] s { s with relationshipCount := s.relationshipCount + 1 } :=
      ⟨rfl,rfl,by simp,rfl,by simp⟩
    dsimp only
    split
    · rename_i skipped
      have none : (collectExternal && isExternal lib element) = false := by
        cases collectExternal <;> simp_all
      rw [none]
      exact returns_pure counted
    · rename_i collected
      have both : (collectExternal && isExternal lib element) = true := by
        cases collectExternal <;> simp_all
      split
      · exact returns_raise
      · refine returns_bind (returns_update (returns_pure ?_))
        exact counted.trans (recordExternal_recorded element _)

theorem externalsOf_cons {collectExternal : Bool} {element : Element} {rest : List Element}
    (relationship : isRelationship element) : (if collectExternal then externalsOf lib (element :: rest) else []) =
      (if collectExternal && isExternal lib element then [element] else []) ++
        (if collectExternal then externalsOf lib rest else []) := by
  cases collectExternal
  · rfl
  · by_cases external : isExternal lib element = true
    · simp [externalsOf, relationship, external]
    · simp [externalsOf, external]

theorem relationshipLoop_returns {collectExternal : Bool} (elements : List Element) :
    Returns (relationshipLoop lib limits collectExternal elements) s fun _ s' =>
      Recorded lib limits (if collectExternal then externalsOf lib elements else []) s s' := by
  induction elements generalizing s with
  | nil =>
    have none : (if collectExternal then externalsOf lib [] else []) = [] := by
      cases collectExternal <;> rfl
    rw [none]
    exact returns_pure (Recorded.refl s)
  | cons element rest ih =>
    unfold relationshipLoop
    split
    · rename_i relationship
      rw [externalsOf_cons relationship]
      refine returns_bind (returns_mono inspectRelationship_returns fun _ t first => ?_)
      refine returns_bind (returns_mono ih fun _ u later => ?_)
      exact returns_pure (first.trans later)
    · rename_i other
      have none : externalsOf lib (element :: rest) = externalsOf lib rest := by
        simp [externalsOf, other]
      rw [none]
      exact ih

theorem relationshipTargets_returns {root : Element} {collectExternal : Bool} :
    Returns (relationshipTargets lib limits root collectExternal) s fun _ s' =>
      root.tag = qualified _RELATIONSHIPS_NAMESPACE (lit "Relationships") ∧
        Recorded lib limits (if collectExternal then externalsOf lib root.children else []) s s' := by
  unfold relationshipTargets
  split
  · exact returns_raise
  · rename_i tag
    exact returns_mono (relationshipLoop_returns root.children) fun _ _ recorded => ⟨not_not.mp tag,recorded⟩

/-- A part whose relationships are recorded: its root, with the tag of relationships. -/
def RelationshipsPart (lib : Library) (members : Members) (name : Text) (root : Element) : Prop :=
  partRoot lib members name = some root ∧ root.tag = qualified _RELATIONSHIPS_NAMESPACE (lit "Relationships")

/-- The external relationships directly below the root of a part. -/
def partExternals (lib : Library) (members : Members) (name : Text) : List Element :=
  externalsOf lib (((partRoot lib members name).map Element.children).getD [])

theorem inspectPart_returns {members : Members} {name : Text} :
    Returns (inspectPart lib limits members name) s fun _ s' =>
      (∃ root, RelationshipsPart lib members name root) ∧ Recorded lib limits (partExternals lib members name) s s' := by
  refine returns_bind (returns_mono readXmlPart_returns fun root t reached => ?_)
  refine returns_bind (returns_mono relationshipTargets_returns fun _ u recorded => returns_pure ?_)
  refine ⟨⟨root,reached.1,recorded.1⟩,?_⟩
  have children : partExternals lib members name = externalsOf lib root.children := by
    rw [partExternals, reached.1]
    rfl
  rw [children]
  exact reached.2.recorded.trans recorded.2

theorem inspectPart_forEach {members : Members} (names : List Text) :
    Returns (Command.forEach (inspectPart lib limits members) names) s fun _ s' =>
      (∀ name ∈ names, ∃ root, RelationshipsPart lib members name root) ∧
        Recorded lib limits (names.flatMap (partExternals lib members)) s s' := by
  apply returns_forEach (I := fun names s' => (∀ name ∈ names, ∃ root, RelationshipsPart lib members name root) ∧
    Recorded lib limits (names.flatMap (partExternals lib members)) s s')
  · intro before name after t _ ⟨parts,recorded⟩
    refine returns_mono inspectPart_returns fun _ u reached => ⟨?_,?_⟩
    · intro name' member
      rcases List.mem_append.mp member with earlier | last
      · exact parts name' earlier
      · cases List.mem_singleton.mp last
        exact reached.1
    · rw [List.flatMap_append, List.flatMap_singleton]
      exact recorded.trans reached.2
  · exact ⟨nofun,Recorded.refl s⟩

/-! ### Runs without a partial reason -/

/-- Nothing was left out so far. -/
def Clean (s : State) : Prop := s.partialReasons = []

theorem markPartial_unclean (reason : Text) (s : State) : ¬ Clean (s.markPartial reason) := by
  intro clean
  have marked : reason ∈ (s.markPartial reason).partialReasons := List.mem_insert_self
  rw [clean] at marked
  cases marked

theorem malformedPart_unclean (reason : Text) (e : Option Text) (s : State) : ¬ Clean (s.malformedPart reason e) :=
  markPartial_unclean reason s

theorem Recorded.clean {elements : List Element} (recorded : Recorded lib limits elements s s') : Clean s' ↔ Clean s := by
  rw [Clean, Clean, recorded.field State.partialReasons fun _ => rfl]

theorem Reads.clean (reads : Reads s s') : Clean s' ↔ Clean s := by
  obtain ⟨_,_,_,rfl⟩ := reads
  rfl

/-- The external relationships that the inspection of a package looks at. -/
def inspectedExternals (lib : Library) (members : Members) : List Element :=
  (relationshipNames members).flatMap (partExternals lib members)

/-- What a clean inspection of the relationships of a package has found. -/
structure RelationshipsFound (lib : Library) (limits : OfficeAnalysisLimits) (members : Members) (s s' : State) : Prop where
  root : ∃ root, RelationshipsPart lib members _ROOT_RELATIONSHIPS_PART root
  parts : ∀ name ∈ relationshipNames members, ∃ root, RelationshipsPart lib members name root
  recorded : Recorded lib limits (inspectedExternals lib members) s s'

theorem inspectParts_returns {members : Members} {root : Element}
    (parsed : partRoot lib members _ROOT_RELATIONSHIPS_PART = some root) :
    Returns (inspectParts lib limits members root) s fun _ s' => Clean s' → RelationshipsFound lib limits members s s' := by
  refine returns_bind (returns_mono relationshipTargets_returns fun targets t first => ?_)
  refine returns_bind (returns_observe ?_)
  dsimp only
  split
  · refine returns_bind (returns_update (returns_mono (inspectPart_forEach _) fun _ v reached clean => ?_))
    exact absurd (reached.2.clean.mp clean) (malformedPart_unclean _ _ _)
  · refine returns_mono (inspectPart_forEach _) fun _ v reached _ => ?_
    exact ⟨⟨root,parsed,first.1⟩,reached.1,first.2.trans reached.2⟩

/-- Only a part that is missing leaves no root, and that is marked. -/
theorem readRequiredXml_returns {members : Members} {name : Text} :
    Returns (readRequiredXml lib limits members name) s fun read s' =>
      match read with
      | some root => partRoot lib members name = some root ∧ Reads s s'
      | none => ¬ Clean s' := by
  unfold readRequiredXml
  split
  · exact returns_bind (returns_mono readXmlPart_returns fun _ _ reached => returns_pure reached)
  · exact returns_bind (returns_update (returns_pure (malformedPart_unclean _ _ _)))

theorem inspectRelationships_returns {members : Members} :
    Returns (inspectRelationships lib limits members) s fun _ s' => Clean s' →
      RelationshipsFound lib limits members s s' := by
  refine returns_bind (returns_mono readRequiredXml_returns fun read t reached => ?_)
  cases read with
  | none => exact returns_pure fun clean => absurd clean reached
  | some root =>
    refine returns_mono (inspectParts_returns reached.1) fun _ _ found clean => ?_
    obtain ⟨package,parts,recorded⟩ := found clean
    exact ⟨package,parts,reached.2.recorded.trans recorded⟩

/-! ### Content types -/

/-- An element that gives a part its type. -/
def isOverride (element : Element) : Bool :=
  decide (element.tag = qualified _CONTENT_TYPES_NAMESPACE (lit "Override"))

/-- The name of the part of an element. -/
def overrideName (element : Element) : Text := (element.attr (lit "PartName")).dropWhile (· = '/')

def overrideType (element : Element) : Text := element.attr (lit "ContentType")

/-- The types of the parts after some elements. -/
def overridesAfter : List Element → List (Text × Text) → List (Text × Text)
  | [],overrides => overrides
  | element :: rest,overrides =>
    if isOverride element then overridesAfter rest (setType (overrideName element) (overrideType element) overrides)
    else overridesAfter rest overrides

theorem mem_setType {name type : Text} {overrides : List (Text × Text)} {entry : Text × Text}
    (member : entry ∈ setType name type overrides) : entry = (name,type) ∨ entry ∈ overrides := by
  induction overrides with
  | nil => exact .inl (List.mem_singleton.mp member)
  | cons first rest ih =>
    unfold setType at member
    split at member
    · rcases List.mem_cons.mp member with same | later
      · exact .inl same
      · exact .inr (List.mem_cons_of_mem _ later)
    · rcases List.mem_cons.mp member with same | later
      · exact .inr (same ▸ List.mem_cons_self)
      · exact (ih later).imp_right (List.mem_cons_of_mem _)

theorem lookup_setType (name type : Text) (overrides : List (Text × Text)) (name' : Text) :
    (setType name type overrides).lookup name' = if name' = name then some type else overrides.lookup name' := by
  have other {key : Text} (differ : name' ≠ key) : (name' == key) = false := beq_eq_false_iff_ne.mpr differ
  induction overrides with
  | nil =>
    by_cases same : name' = name
    · simp [setType, same]
    · simp [setType, List.lookup_cons, same, other same]
  | cons first rest ih =>
    obtain ⟨key,value⟩ := first
    unfold setType
    by_cases found : key = name
    · subst found
      by_cases same : name' = key
      · simp [same]
      · simp [List.lookup_cons, same, other same]
    · rw [if_neg found, List.lookup_cons, List.lookup_cons, ih]
      by_cases same : name' = key
      · simp [same, found]
      · simp [other same]

theorem mem_overridesAfter {elements : List Element} {overrides : List (Text × Text)} {entry : Text × Text}
    (member : entry ∈ overridesAfter elements overrides) :
    entry ∈ overrides ∨ ∃ element ∈ elements, isOverride element ∧ entry = (overrideName element,overrideType element) := by
  induction elements generalizing overrides with
  | nil => exact .inl member
  | cons element rest ih =>
    unfold overridesAfter at member
    split at member
    · rename_i override
      rcases ih member with here | ⟨later,inside,shape⟩
      · rcases mem_setType here with same | old
        · exact .inr ⟨element,List.mem_cons_self,override,same⟩
        · exact .inl old
      · exact .inr ⟨later,List.mem_cons_of_mem _ inside,shape⟩
    · rcases ih member with old | ⟨later,inside,shape⟩
      · exact .inl old
      · exact .inr ⟨later,List.mem_cons_of_mem _ inside,shape⟩

theorem malformedPart_not_clean {reason : Text} {e : Option Text} {p : Prop} (clean : Clean (s.malformedPart reason e)) : p :=
  absurd clean (malformedPart_unclean _ _ _)

/-- Each element has given its part the type that the part has in the end. -/
structure Unambiguous (elements : List Element) (overrides found : List (Text × Text)) : Prop where
  kept : ∀ name type, overrides.lookup name = some type → found.lookup name = some type
  each : ∀ element ∈ elements, isOverride element → found.lookup (overrideName element) = some (overrideType element)

/-- An element that does not change the type of a part. -/
theorem Unambiguous.cons {element : Element} {rest : List Element} {overrides found : List (Text × Text)}
    (same : ∀ type, overrides.lookup (overrideName element) = some type → type = overrideType element)
    (later : Unambiguous rest (setType (overrideName element) (overrideType element) overrides) found) :
    Unambiguous (element :: rest) overrides found where
  kept := by
    intro name type known
    refine later.kept name type ?_
    rw [lookup_setType]
    split
    · rename_i here
      rw [same type (here ▸ known)]
    · exact known
  each := by
    intro element' member override
    rcases List.mem_cons.mp member with rfl | inside
    · refine later.kept _ _ ?_
      rw [lookup_setType, if_pos rfl]
    · exact later.each element' inside override

theorem collectOverrides_returns (elements : List Element) (overrides : List (Text × Text)) :
    Returns (collectOverrides elements overrides) s fun found s' =>
      found = overridesAfter elements overrides ∧ (Clean s' → s' = s ∧ Unambiguous elements overrides found) := by
  induction elements generalizing overrides s with
  | nil => exact returns_pure ⟨rfl,fun _ => ⟨rfl,fun _ _ known => known,nofun⟩⟩
  | cons element rest ih =>
    unfold collectOverrides
    split
    · rename_i other
      have skipped : ¬ isOverride element := by simpa [isOverride] using other
      refine returns_mono (ih overrides) fun found t reached => ?_
      rw [overridesAfter, if_neg skipped]
      refine ⟨reached.1,fun clean => ⟨(reached.2 clean).1,(reached.2 clean).2.kept,?_⟩⟩
      intro element' member override
      rcases List.mem_cons.mp member with rfl | inside
      · exact absurd override skipped
      · exact (reached.2 clean).2.each element' inside override
    · rename_i tag
      have taken : isOverride element := by simpa [isOverride] using tag
      rw [overridesAfter, if_pos taken]
      dsimp only
      split
      · exact returns_raise
      split
      · refine returns_bind (returns_update (returns_mono (ih _) fun _ t reached => ⟨reached.1,fun clean => ?_⟩))
        exact malformedPart_not_clean ((reached.2 clean).1 ▸ clean)
      · rename_i same
        refine returns_mono (ih _) fun found t reached => ⟨reached.1,fun clean => ⟨(reached.2 clean).1,?_⟩⟩
        refine (reached.2 clean).2.cons fun type known => ?_
        have known : overrides.lookup ((element.attr (lit "PartName")).dropWhile (· = '/')) = some type := known
        rw [known] at same
        have equal : type = element.attr (lit "ContentType") := by simpa using same
        exact equal

theorem contentTypeOverrides_returns {root : Element} :
    Returns (contentTypeOverrides root) s fun found s' =>
      found = overridesAfter root.children [] ∧ (Clean s' → s' = s ∧ Unambiguous root.children [] found) := by
  unfold contentTypeOverrides
  split
  · exact returns_raise
  · exact collectOverrides_returns _ _

/-- The application of a package is the only one with a main part. -/
theorem classifyPackage_application {overrides : List (Text × Text)} {members : Members} (fresh : s.application = .UNKNOWN)
    (known : (classifyPackage lib overrides members s).application ≠ .UNKNOWN) :
    [OfficeApplication.WORD,.EXCEL,.POWERPOINT].filter (isCandidate lib overrides members) =
      [(classifyPackage lib overrides members s).application] := by
  unfold classifyPackage at known ⊢
  split
  · rename_i application only
    exact only
  · rename_i other
    split at known
    · rename_i application only
      exact absurd only (other application)
    · exact absurd fresh known

/-! ### Capabilities -/

def Members.content (members : Members) (name : Text) : Bytes :=
  ((members.get name).map fun info => info.member.content).getD []

/-- The state without what the reading of VBA projects changes. -/
def State.outline (s : State) : State :=
  { s with
    bytesRead := 0
    encrypted := false
    partialReasons := []
    vba := {}
    passed := []
    raised := false }

/-- The outline stays. -/
def Outlined (s s' : State) : Prop := s'.outline = s.outline

theorem outlined_refl (s : State) : Outlined s s := rfl

theorem outlined_trans (s t u : State) (first : Outlined s t) (second : Outlined t u) : Outlined s u :=
  Eq.trans second first

theorem Outlined.field {α : Type} (outlined : Outlined s s') (field : State → α) (apart : ∀ t, field t.outline = field t) :
    field s' = field s := by
  rw [← apart s', outlined, apart]

/-- Any exception may be raised. -/
abbrev Any (_ : Raised) : Prop := True

/-- A relation between states that the reading of members keeps. -/
structure KeptByReading (R : State → State → Prop) : Prop where
  refl : ∀ s, R s s
  trans : ∀ s t u, R s t → R t u → R s u
  bytesRead : ∀ s more, R s { s with bytesRead := s.bytesRead + more }
  encrypted : ∀ s, R s { s with encrypted := true }
  raised : ∀ s, R s { s with raised := true }

theorem outlined_kept : KeptByReading Outlined := ⟨outlined_refl,outlined_trans,fun _ _ => rfl,fun _ => rfl,fun _ => rfl⟩

section
variable {R : State → State → Prop} (kept : KeptByReading R)
include kept

theorem moves_readChunks {member : Member} {memberLimit turns : Nat} {data : Bytes} :
    Moves R Any (readChunks limits member memberLimit turns data) := by
  induction turns generalizing data with
  | zero => exact moves_pure kept.refl data
  | succ turns ih =>
    refine moves_bind kept.trans (moves_call kept.refl kept.raised fun _ _ => trivial) fun chunk => ?_
    split
    · exact moves_pure kept.refl data
    · refine moves_bind kept.trans (moves_update fun s => kept.bytesRead s _) fun _ => ?_
      refine moves_bind kept.trans (moves_observe kept.refl _) fun t => ?_
      split
      · exact moves_raise kept.refl trivial
      split
      · exact moves_raise kept.refl trivial
      · exact ih

theorem moves_readMember {members : Members} {name : Text} {maximumBytes : Nat} :
    Moves R Any (readMember limits members name maximumBytes) := by
  unfold readMember
  split
  · exact moves_raise kept.refl trivial
  · rename_i info _
    refine moves_except (E := Any) kept.trans ?_ fun e _ => ?_
    · exact moves_bind kept.trans (moves_call kept.refl kept.raised fun _ _ => trivial) fun _ => moves_readChunks kept
    · unfold onRuntimeError
      split
      · exact moves_bind kept.trans (moves_update kept.encrypted) fun _ => moves_raise kept.refl trivial
      · exact moves_raise kept.refl trivial

end

theorem moves_mergeProject {name : Text} {data : Bytes} : Moves Outlined Any (mergeProject lib limits name data) := by
  refine moves_bind outlined_trans (moves_update fun _ => rfl) fun _ => ?_
  split
  · exact moves_raise outlined_refl trivial
  · exact moves_update fun _ => rfl

theorem moves_inspectVbaMember {members : Members} {name : Text} :
    Moves Outlined Any (inspectVbaMember lib limits members name) := by
  have read : Moves Outlined Any (readMember limits members name limits.maxVbaProjectBytes) :=
    moves_readMember outlined_kept
  refine moves_attempt outlined_trans read fun read _ => ?_
  match read with
  | .ok data => exact moves_mergeProject
  | .error (.limit reason) => exact moves_update fun _ => rfl
  | .error .valueError | .error (.xml _) | .error (.library _) | .error .other => exact moves_raise outlined_refl trivial

theorem clean_of_union {reasons : List Text} (clean : Clean { s with partialReasons := s.partialReasons ∪ reasons }) :
    Clean s := by
  refine List.eq_nil_iff_forall_not_mem.mpr fun reason member => ?_
  have kept : reason ∈ s.partialReasons ∪ reasons := List.mem_union_iff.mpr (.inl member)
  have none : s.partialReasons ∪ reasons = [] := clean
  rw [none] at kept
  cases kept

/-- Unless a reason is marked, the bytes of the member are passed on. -/
theorem inspectVbaMember_returns {members : Members} {name : Text} :
    Returns (inspectVbaMember lib limits members name) s fun _ s' => Clean s' →
      Clean s ∧ s'.passed = s.passed ++ [(name,members.content name)] ∧ s'.raised = s.raised := by
  refine returns_bind (returns_attempt ?_)
  have read : Returns (readMember limits members name limits.maxVbaProjectBytes) s _ := readMember_returns
  revert read
  cases ended : readMember limits members name limits.maxVbaProjectBytes s with
  | mk result t =>
    intro read
    match result with
    | .ok data =>
      have reached := read data (by rw [ended])
      rw [ended] at reached
      obtain ⟨info,found,rfl,reads⟩ := reached
      have content : members.content name = info.member.content := by
        rw [Members.content, found]
        rfl
      have same : t.passed = s.passed ∧ t.raised = s.raised := by
        obtain ⟨_,_,_,rfl⟩ := reads
        exact ⟨rfl,rfl⟩
      refine returns_bind (returns_update ?_)
      split
      · exact returns_raise
      · refine returns_update fun clean => ⟨reads.clean.mp (clean_of_union clean),?_,same.2⟩
        rw [content, ← same.1]
    | .error (.limit reason) => exact returns_update fun clean => absurd clean (markPartial_unclean _ _)
    | .error .valueError | .error (.xml _) | .error (.library _) | .error .other => exact returns_raise

theorem countObjects_clean {members : Members} (clean : Clean (countObjects limits members s)) : Clean s := by
  unfold countObjects at clean
  dsimp only at clean
  split at clean
  · exact absurd clean (markPartial_unclean _ _)
  split at clean
  · exact absurd clean (markPartial_unclean _ _)
  · exact clean

/-- The state without what the counting of objects changes. -/
def State.uncounted (s : State) : State := { s with embeddedObjectCount := 0, activexCount := 0, partialReasons := [] }

/-- The counting of objects does not change these fields. -/
theorem countObjects_field {α : Type} (members : Members) (limits : OfficeAnalysisLimits) (s : State) (field : State → α)
    (apart : ∀ t embedded activex reasons,
      field { t with embeddedObjectCount := embedded, activexCount := activex, partialReasons := reasons } = field t) :
    field (countObjects limits members s) = field s := by
  unfold countObjects
  dsimp only
  split <;> split <;> exact apart s _ _ _

/-- What a clean inspection of the capabilities of a package has found. -/
structure CapabilitiesFound (lib : Library) (members : Members) (overrides : List (Text × Text)) (s s' : State) : Prop where
  clean : Clean s
  application : s'.application = s.application
  externals : s'.externalRelationshipCount = s.externalRelationshipCount
  templates : s'.externalTemplateCount = s.externalTemplateCount
  projects : s'.vbaProjectCount = (vbaMembers lib members overrides s.application).length
  macroEnabled : s'.macroEnabled = (s.macroEnabled || !(vbaMembers lib members overrides s.application).isEmpty)
  passed : s'.passed = s.passed ++
    (vbaMembers lib members overrides s.application).map fun name => (name,members.content name)
  raised : s'.raised = s.raised

theorem inspectVbaMember_forEach {members : Members} (names : List Text) :
    Returns (Command.forEach (inspectVbaMember lib limits members) names) s fun _ s' =>
      Outlined s s' ∧ (Clean s' → Clean s ∧
        s'.passed = s.passed ++ names.map (fun name => (name,members.content name)) ∧ s'.raised = s.raised) := by
  have outlined : Moves Outlined Any (Command.forEach (inspectVbaMember lib limits members) names) :=
    moves_forEach outlined_refl outlined_trans fun _ _ => moves_inspectVbaMember
  have passes : Returns (Command.forEach (inspectVbaMember lib limits members) names) s fun _ s' =>
      Clean s' → Clean s ∧ s'.passed = s.passed ++ names.map (fun name => (name,members.content name)) ∧
        s'.raised = s.raised := by
    apply returns_forEach (I := fun names s' => Clean s' → Clean s ∧
      s'.passed = s.passed ++ names.map (fun name => (name,members.content name)) ∧ s'.raised = s.raised)
    · intro before name after t _ earlier
      refine returns_mono inspectVbaMember_returns fun _ u passed clean => ?_
      obtain ⟨now,last,quiet⟩ := passed clean
      obtain ⟨start,before,before_quiet⟩ := earlier now
      refine ⟨start,?_,quiet.trans before_quiet⟩
      rw [last, before, List.append_assoc, List.map_append, List.map_singleton]
    · exact fun clean => ⟨clean,(List.append_nil _).symm,rfl⟩
  exact fun a returned => ⟨(outlined s).1,passes a returned⟩

theorem countProjects_clean {projects : List Text} (clean : Clean (countProjects limits projects s)) :
    projects.length ≤ limits.maxVbaProjects ∧ countProjects limits projects s =
      { s with vbaProjectCount := projects.length, macroEnabled := s.macroEnabled || !projects.isEmpty } := by
  unfold countProjects at clean ⊢
  dsimp only at clean ⊢
  split
  · rename_i many
    rw [if_pos many] at clean
    exact absurd clean (markPartial_unclean _ _)
  · rename_i few
    exact ⟨Nat.le_of_not_lt few,rfl⟩

theorem inspectCapabilities_returns {members : Members} {overrides : List (Text × Text)} :
    Returns (inspectCapabilities lib limits members overrides) s fun _ s' => Clean s' →
      CapabilitiesFound lib members overrides s s' := by
  refine returns_bind (returns_update (returns_bind (returns_observe ?_)))
  have application : (countObjects limits members s).application = s.application :=
    countObjects_field _ _ _ State.application fun _ _ _ _ => rfl
  dsimp only [id]
  rw [application]
  generalize chosen : vbaMembers lib members overrides s.application = projects
  refine returns_bind (returns_update (returns_mono (inspectVbaMember_forEach _) fun _ t reached clean => ?_))
  obtain ⟨counted,passes,quiet⟩ := reached.2 clean
  obtain ⟨few,after⟩ := countProjects_clean counted
  have outlined := reached.1
  rw [after] at outlined passes quiet counted
  rw [List.take_of_length_le few] at passes
  have externals := countObjects_field members limits s
    State.externalRelationshipCount fun _ _ _ _ => rfl
  have templates := countObjects_field members limits s
    State.externalTemplateCount fun _ _ _ _ => rfl
  have macroEnabled := countObjects_field members limits s
    State.macroEnabled fun _ _ _ _ => rfl
  have passed := countObjects_field members limits s State.passed fun _ _ _ _ => rfl
  have raised := countObjects_field members limits s State.raised fun _ _ _ _ => rfl
  subst chosen
  exact {
    clean := countObjects_clean counted
    application := (outlined.field State.application fun _ => rfl).trans application
    externals := (outlined.field State.externalRelationshipCount fun _ => rfl).trans externals
    templates := (outlined.field State.externalTemplateCount fun _ => rfl).trans templates
    projects := outlined.field State.vbaProjectCount fun _ => rfl
    macroEnabled := (outlined.field State.macroEnabled fun _ => rfl).trans (congrArg (· || _) macroEnabled)
    passed := passes.trans (congrArg (· ++ _) passed)
    raised := quiet.trans raised }

/-! ### The package -/

/-- What an inspection that leaves nothing out has found; `root` is the one of the content types. -/
structure Complete (lib : Library) (members : Members) (root : Element) (s : State) : Prop where
  contentTypes : partRoot lib members _CONTENT_TYPES_PART = some root
  unambiguous : Unambiguous root.children [] (overridesAfter root.children [])
  application : [OfficeApplication.WORD,.EXCEL,.POWERPOINT].filter
    (isCandidate lib (overridesAfter root.children []) members) = [s.application]
  package : ∃ root, RelationshipsPart lib members _ROOT_RELATIONSHIPS_PART root
  parts : ∀ name ∈ relationshipNames members, ∃ root, RelationshipsPart lib members name root
  externals : s.externalRelationshipCount = (inspectedExternals lib members).length
  templates : s.externalTemplateCount = ((inspectedExternals lib members).filter (isTemplate lib)).length
  projects : s.vbaProjectCount = (vbaMembers lib members (overridesAfter root.children []) s.application).length
  macroEnabled : vbaMembers lib members (overridesAfter root.children []) s.application ≠ [] → s.macroEnabled
  passed : s.passed = (vbaMembers lib members (overridesAfter root.children []) s.application).map fun name =>
    (name,members.content name)
  raised : s.raised = false

/-- Nothing has been inspected so far. -/
structure Fresh (s : State) : Prop where
  application : s.application = .UNKNOWN
  externals : s.externalRelationshipCount = 0
  templates : s.externalTemplateCount = 0
  passed : s.passed = []
  raised : s.raised = false

theorem Reads.fresh (reads : Reads s s') (fresh : Fresh s) : Fresh s' := by
  obtain ⟨_,_,_,rfl⟩ := reads
  exact ⟨fresh.application,fresh.externals,fresh.templates,fresh.passed,fresh.raised⟩

/-- The classification of a package changes nothing else. -/
theorem classifyPackage_field {α : Type} (lib : Library) (overrides : List (Text × Text)) (members : Members) (s : State)
    (field : State → α)
    (apart : ∀ t application macroEnabled,
      field { t with application := application, macroEnabled := macroEnabled } = field t) :
    field (classifyPackage lib overrides members s) = field s := by
  unfold classifyPackage
  split
  · exact apart s _ _
  · rfl

/-- The relationships and the capabilities of a package whose application is known. -/
theorem inspectKnown_returns {members : Members} {root : Element} (fresh : Fresh s)
    (contentTypes : partRoot lib members _CONTENT_TYPES_PART = some root)
    (unambiguous : Unambiguous root.children [] (overridesAfter root.children []))
    (known : (classifyPackage lib (overridesAfter root.children []) members s).application ≠ .UNKNOWN) :
    Returns (do
        inspectRelationships lib limits members
        inspectCapabilities lib limits members (overridesAfter root.children []))
      (classifyPackage lib (overridesAfter root.children []) members s) fun _ s' => Clean s' →
        Complete lib members root s' := by
  have application := classifyPackage_application fresh.application known
  have externals := classifyPackage_field lib (overridesAfter root.children []) members s
    State.externalRelationshipCount fun _ _ _ => rfl
  have templates := classifyPackage_field lib (overridesAfter root.children []) members s
    State.externalTemplateCount fun _ _ _ => rfl
  have passed := classifyPackage_field lib (overridesAfter root.children []) members s
    State.passed fun _ _ _ => rfl
  have raised := classifyPackage_field lib (overridesAfter root.children []) members s
    State.raised fun _ _ _ => rfl
  rw [fresh.externals] at externals
  rw [fresh.templates] at templates
  rw [fresh.passed] at passed
  rw [fresh.raised] at raised
  generalize classifyPackage lib (overridesAfter root.children []) members s = c at *
  refine returns_bind (returns_mono inspectRelationships_returns fun _ t related => ?_)
  refine returns_mono inspectCapabilities_returns fun _ u capable clean => ?_
  have found := capable clean
  obtain ⟨package,parts,recorded⟩ := related found.clean
  have same : t.application = c.application := recorded.field State.application fun _ => rfl
  have projects := found.projects
  have macroEnabled := found.macroEnabled
  have passes := found.passed
  rw [same] at projects macroEnabled passes
  refine {
    contentTypes := contentTypes
    unambiguous := unambiguous
    application := ?_
    package := package
    parts := parts
    externals := ?_
    templates := ?_
    projects := ?_
    macroEnabled := ?_
    passed := ?_
    raised := ?_ }
  · rw [found.application, same, application]
  · rw [found.externals, recorded.externals, externals, Nat.zero_add]
  · rw [found.templates, recorded.templates, templates, Nat.zero_add]
  · rw [found.application, same, projects]
  · rw [found.application, same, macroEnabled]
    intro some
    rw [List.isEmpty_eq_false_iff.mpr some]
    exact Bool.or_true _
  · rw [found.application, same, passes, recorded.field State.passed fun _ => rfl, passed, List.nil_append]
  · rw [found.raised, recorded.field State.raised fun _ => rfl, raised]

/-- A reason that is marked stays. -/
theorem inspectRelationships_marks {members : Members} {overrides : List (Text × Text)} (marked : ¬ Clean s) :
    Returns (do
        inspectRelationships lib limits members
        inspectCapabilities lib limits members overrides) s fun _ s' => ¬ Clean s' := by
  refine returns_bind (returns_mono inspectRelationships_returns fun _ t related => ?_)
  refine returns_mono inspectCapabilities_returns fun _ u capable clean => ?_
  have found := capable clean
  exact marked ((related found.clean).recorded.clean.mp found.clean)

theorem inspectContents_returns {members : Members} {root : Element} (fresh : Fresh s)
    (contentTypes : partRoot lib members _CONTENT_TYPES_PART = some root) :
    Returns (inspectContents lib limits members root) s fun _ s' => Clean s' → Complete lib members root s' := by
  refine returns_bind (returns_mono contentTypeOverrides_returns fun found t reached => ?_)
  obtain ⟨rfl,unambiguous⟩ := reached
  refine returns_bind (returns_update (returns_bind (returns_observe ?_)))
  dsimp only [id]
  split
  · refine returns_bind (returns_update (returns_mono (inspectRelationships_marks ?_) fun _ u marked clean => ?_))
    · exact malformedPart_unclean _ _ _
    · exact absurd clean marked
  · rename_i known
    by_cases clean : Clean t
    · obtain ⟨rfl,types⟩ := unambiguous clean
      exact inspectKnown_returns fresh contentTypes types known
    · have same := classifyPackage_field lib (overridesAfter root.children []) members t
        State.partialReasons fun _ _ _ => rfl
      refine returns_mono (inspectRelationships_marks ?_) fun _ u marked clean => absurd clean marked
      rw [Clean, same]
      exact clean

theorem inspectPackage_returns {members : Members} (fresh : Fresh s) :
    Returns (inspectPackage lib limits members) s fun _ s' => Clean s' → ∃ root, Complete lib members root s' := by
  refine returns_bind (returns_mono readRequiredXml_returns fun read t reached => ?_)
  cases read with
  | none => exact returns_pure fun clean => absurd clean reached
  | some root =>
    refine returns_mono (inspectContents_returns (reached.2.fresh fresh) reached.1) fun _ u complete clean => ?_
    exact ⟨root,complete clean⟩

theorem onRaised_returns (e : Raised) (s : State) : Returns (onRaised e) s fun _ s' => ¬ Clean s' := by
  cases e with
  | limit reason => exact returns_update (markPartial_unclean _ _)
  | valueError => exact returns_update (malformedPart_unclean _ _ _)
  | xml name => exact returns_update (malformedPart_unclean _ _ _)
  | other => exact returns_raise
  | library e =>
    cases e
    case UnicodeDecodeError | OSError | EOFError | BadZipFile | ZlibError =>
      exact returns_update (malformedPart_unclean _ _ _)
    all_goals exact returns_raise

theorem checkNames_fresh (infos : List ZipInfo) : Fresh (checkNames limits infos).2 := by
  unfold checkNames
  dsimp only
  split_ifs <;> exact ⟨rfl,rfl,rfl,rfl,rfl⟩

theorem checkNames_stopped {infos : List ZipInfo} (stopped : (checkNames limits infos).1 = false) :
    ¬ Clean (checkNames limits infos).2 := by
  unfold checkNames at stopped ⊢
  dsimp only at stopped ⊢
  split_ifs at stopped ⊢
  · exact markPartial_unclean _ _
  · exact malformedPart_unclean _ _ _
  · exact malformedPart_unclean _ _ _

/-- An inspection that leaves nothing out has found everything. -/
theorem inspect_complete {infos : List ZipInfo} (run : inspect lib limits infos = .ok s) (clean : Clean s) :
    ∃ root, Complete lib infos root s := by
  have fresh : Fresh (checkNames limits infos).2 := checkNames_fresh infos
  have stopped : (checkNames limits infos).1 = false → ¬ Clean (checkNames limits infos).2 := checkNames_stopped
  unfold inspect at run
  revert run fresh stopped
  cases checkNames limits infos with
  | mk goes start =>
    intro run fresh stopped
    cases goes with
    | false =>
      cases run
      exact absurd clean (stopped rfl)
    | true =>
      have returns : Returns (Command.except (inspectPackage lib limits infos) onRaised) start fun _ s' => Clean s' →
          ∃ root, Complete lib infos root s' :=
        returns_except (inspectPackage_returns fresh) fun e s' =>
          returns_mono (onRaised_returns e s') fun _ _ marked clean => absurd clean marked
      dsimp only at run
      split at run
      · rename_i t ended
        cases run
        have reached := returns () (by rw [ended])
        rw [ended] at reached
        exact reached clean
      · cases run

theorem parserStatus_complete : parserStatus s = .COMPLETE ↔ s.malformed = false ∧ Clean s := by
  unfold parserStatus Clean
  split
  · simp [*]
  split
  · simp [*]
  · simp_all

end DocGuard.Ooxml
