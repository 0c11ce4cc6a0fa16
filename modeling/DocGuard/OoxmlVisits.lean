import DocGuard.OoxmlReports

/-!
What the inspection of a package reads, as a function of the package: the parts and
the VBA projects in their order, up to the one that ends the inspection.
-/
namespace DocGuard.Ooxml
open DocGuard.Commands DocGuard.Domain DocGuard.Ordered DocGuard.Vba
open DocGuard.Archive (Exn Member ZipInfo)

/-! ### The visits of an inspection -/

/-- The counters that decide how far the members are read. -/
structure Meter where
  bytesRead : Nat := 0
  xmlPartsParsed : Nat := 0
  xmlBytesParsed : Nat := 0

def State.meter (s : State) : Meter := ⟨s.bytesRead,s.xmlPartsParsed,s.xmlBytesParsed⟩

/-- A state with these counters, in which nothing else has happened. -/
def Meter.state (meter : Meter) : State where
  bytesRead := meter.bytesRead
  xmlPartsParsed := meter.xmlPartsParsed
  xmlBytesParsed := meter.xmlBytesParsed

/-- The relationships among some elements, with the flag of their part. -/
def flagged (collectExternal : Bool) (elements : List Element) : List (Element × Bool) :=
  (elements.filter isRelationship).map fun element => (element,collectExternal)

/-- What is read of a package, and what the reading gives. -/
inductive Visit where
  | contentTypes (read : Except Raised Element)
  | relationships (name : Text) (collectExternal : Bool) (read : Except Raised Element)
  | project (name : Text) (read : Except Raised VbaAnalysis)

namespace Visit

def error : Visit → Option Raised
  | .contentTypes (.error e) | .relationships _ _ (.error e) | .project _ (.error e) => some e
  | _ => none

def analysis : Visit → Option VbaAnalysis
  | .project _ (.ok analysis) => some analysis
  | _ => none

def isProject : Visit → Bool
  | .project _ _ => true
  | _ => false

/-- The relationships directly below the root of a part, each with the flag of the part. -/
def collected : Visit → List (Element × Bool)
  | .relationships _ collectExternal (.ok root) =>
    if root.tag = qualified _RELATIONSHIPS_NAMESPACE (lit "Relationships") then flagged collectExternal root.children else []
  | _ => []

end Visit

variable (lib : Library) (limits : OfficeAnalysisLimits) (members : Members)

/-- A relationship that is recorded as an external one. -/
def countsExternal (entry : Element × Bool) : Bool := entry.2 && isExternal lib entry.1

/-- The relationships and the external ones that have been counted. -/
structure Tally where
  relationships : Nat := 0
  externals : Nat := 0

def Tally.add (tally : Tally) (collected : List (Element × Bool)) : Tally where
  relationships := tally.relationships + collected.length
  externals := tally.externals + collected.countP (countsExternal lib)

def Tally.within (tally : Tally) : Bool :=
  decide (tally.relationships ≤ limits.maxRelationships) && decide (tally.externals ≤ limits.maxExternalRelationships)

/-- A part of relationships that is read with these counts, and the counters after it unless the inspection ends there. -/
def visitPart (name : Text) (collectExternal : Bool) (meter : Meter) (tally : Tally) : Visit × Option Meter :=
  let run := readXmlPart lib limits members name meter.state
  let visit := Visit.relationships name collectExternal run.1
  match run.1 with
  | .error _ => (visit,none)
  | .ok root =>
    if root.tag = qualified _RELATIONSHIPS_NAMESPACE (lit "Relationships") ∧ (tally.add lib visit.collected).within limits then
      (visit,some run.2.meter)
    else (visit,none)

def visitParts : List (Text × Bool) → Meter → Tally → List Visit × Option Meter
  | [],meter,_ => ([],some meter)
  | (name,collectExternal) :: rest,meter,tally =>
    let part := visitPart lib limits members name collectExternal meter tally
    match part.2 with
    | none => ([part.1],none)
    | some meter =>
      let later := visitParts rest meter (tally.add lib part.1.collected)
      (part.1 :: later.1,later.2)

/-- The analysis of what was read as a VBA project. -/
def analyzeRead (read : Except Raised Bytes) : Except Raised VbaAnalysis :=
  read.bind fun data =>
    match analyzeVbaBlob lib.tables limits lib.isSpace lib.vbaParser data with
    | some analysis => .ok analysis
    | none => .error .other

/-- The inspection goes on after a project, and after one that is given up for a limit. -/
def goesOn : Except Raised VbaAnalysis → Bool
  | .ok _ | .error (.limit _) => true
  | _ => false

def visitProjects : List Text → Meter → List Visit
  | [],_ => []
  | name :: rest,meter =>
    let run := readMember limits members name limits.maxVbaProjectBytes meter.state
    let read := analyzeRead lib limits run.1
    .project name read :: if goesOn read then visitProjects rest run.2.meter else []

/-- The relationship parts in their order, and whether their external relationships are collected. -/
def orderedParts : List (Text × Bool) :=
  if _ROOT_RELATIONSHIPS_PART ∈ members.names then
    (_ROOT_RELATIONSHIPS_PART,false) :: (relationshipNames members).map fun name => (name,true)
  else []

/-- Each override has a name and a type. -/
def validOverrides (elements : List Element) : Bool :=
  elements.all fun element =>
    !isOverride element || (decide (overrideName element ≠ []) && decide (overrideType element ≠ []))

/-- Content types that are read on. -/
def validTypes (root : Element) : Bool :=
  decide (root.tag = qualified _CONTENT_TYPES_NAMESPACE (lit "Types")) && validOverrides root.children

/-- The application of a package with these content types. -/
def applicationIn (root : Element) : OfficeApplication :=
  (classifyPackage lib (overridesAfter root.children []) members {}).application

/-- The members that these content types make VBA projects. -/
def declaredProjects (root : Element) : List Text :=
  vbaMembers lib members (overridesAfter root.children []) (applicationIn lib members root)

/-- What the inspection of a package reads, in its order. -/
def visits : List Visit :=
  if (checkNames limits members).1 then
    let run := readXmlPart lib limits members _CONTENT_TYPES_PART ({} : Meter).state
    .contentTypes run.1 ::
      match run.1 with
      | .error _ => []
      | .ok root =>
        if validTypes root then
          let parts := visitParts lib limits members (orderedParts members) run.2.meter {}
          match parts.2 with
          | none => parts.1
          | some meter =>
            parts.1 ++ visitProjects lib limits members ((declaredProjects lib members root).take limits.maxVbaProjects) meter
        else []
  else []

variable {lib limits members} {s t : State}

/-! ### Reading -/

theorem meter_eq_iff (s t : State) : s.meter = t.meter ↔
    s.bytesRead = t.bytesRead ∧ s.xmlPartsParsed = t.xmlPartsParsed ∧ s.xmlBytesParsed = t.xmlBytesParsed := by
  simp only [State.meter, Meter.mk.injEq]

theorem follows_call {ε α : Type} {wrap : ε → Raised} {result : Except ε α} :
    Follows State.meter (call wrap result) := by
  cases result with
  | ok a => exact follows_pure a
  | error e => exact follows_bind (follows_update fun _ _ same => same) fun _ => follows_raise _

theorem follows_readChunks {member : Member} {memberLimit turns : Nat} {data : Bytes} :
    Follows State.meter (readChunks limits member memberLimit turns data) := by
  induction turns generalizing data with
  | zero => exact follows_pure data
  | succ turns ih =>
    refine follows_bind follows_call fun chunk => ?_
    split
    · exact follows_pure data
    · refine follows_bind (follows_update fun s t same => ?_) fun _ => follows_observe (fun s t same => ?_) fun s => ?_
      · obtain ⟨bytes,parts⟩ := (meter_eq_iff s t).mp same
        exact (meter_eq_iff _ _).mpr ⟨congrArg (· + chunk.length) bytes,parts⟩
      · obtain ⟨bytes,_⟩ := (meter_eq_iff s t).mp same
        simp only [id, bytes]
      · split
        · exact follows_raise _
        split
        · exact follows_raise _
        · exact ih

/-- How a member is read only depends on the counters. -/
theorem follows_readMember {name : Text} {maximumBytes : Nat} :
    Follows State.meter (readMember limits members name maximumBytes) := by
  unfold readMember
  split
  · exact follows_raise _
  · refine follows_except (follows_bind follows_call fun _ => follows_readChunks) fun e => ?_
    unfold onRuntimeError
    split
    · exact follows_bind (follows_update fun _ _ same => same) fun _ => follows_raise _
    · exact follows_raise _

variable (lib limits members) in
theorem follows_readXmlPart (name : Text) : Follows State.meter (readXmlPart lib limits members name) := by
  refine follows_observe (fun s t same => ?_) fun s => ?_
  · obtain ⟨_,parts,parsed⟩ := (meter_eq_iff s t).mp same
    simp only [id, parts, parsed]
  · split
    · exact follows_raise _
    split
    · exact follows_raise _
    · refine follows_bind follows_readMember fun data => follows_bind (follows_update fun s t same => ?_) fun _ =>
        follows_call
      obtain ⟨bytes,parts,parsed⟩ := (meter_eq_iff s t).mp same
      exact (meter_eq_iff _ _).mpr ⟨bytes,congrArg (· + 1) parts,congrArg (· + data.length) parsed⟩

/-- What is known of a package, apart from its relationships and the texts that are kept of it. -/
structure Ledger where
  application : OfficeApplication
  projects : Nat
  passed : List (Text × Bytes)

def State.ledger (s : State) : Ledger := ⟨s.application,s.vbaProjectCount,s.passed⟩

def State.tally (s : State) : Tally := ⟨s.relationshipCount,s.externalRelationshipCount⟩

/-- Neither the ledger nor the counts of relationships change. -/
def Idle (s t : State) : Prop := t.ledger = s.ledger ∧ t.tally = s.tally

theorem idle_refl (s : State) : Idle s s := ⟨rfl,rfl⟩

theorem idle_trans (s t u : State) (first : Idle s t) (second : Idle t u) : Idle s u :=
  ⟨second.1.trans first.1,second.2.trans first.2⟩

theorem idle_kept : KeptByReading Idle :=
  ⟨idle_refl,idle_trans,fun _ _ => ⟨rfl,rfl⟩,fun _ => ⟨rfl,rfl⟩,fun _ => ⟨rfl,rfl⟩⟩

theorem idle_readXmlPart {name : Text} : Moves Idle Any (readXmlPart lib limits members name) := by
  refine moves_bind idle_trans (moves_observe idle_refl _) fun s => ?_
  split
  · exact moves_raise idle_refl trivial
  split
  · exact moves_raise idle_refl trivial
  · refine moves_bind idle_trans (moves_readMember idle_kept) fun data => ?_
    refine moves_bind idle_trans (moves_update fun _ => ⟨rfl,rfl⟩) fun _ => ?_
    exact moves_call idle_refl (fun _ => ⟨rfl,rfl⟩) fun _ _ => trivial

/-! ### Relationships -/

/-- How many external relationships are counted after the first of some relationships. -/
def recordedOf (lib : Library) (limits : OfficeAnalysisLimits) (tally : Tally) (collected : List (Element × Bool)) : Nat :=
  min limits.maxExternalRelationships
    (tally.externals + (collected.take (limits.maxRelationships - tally.relationships)).countP (countsExternal lib))

theorem within_iff (tally : Tally) : tally.within limits ↔
    tally.relationships ≤ limits.maxRelationships ∧ tally.externals ≤ limits.maxExternalRelationships := by
  simp only [Tally.within, Bool.and_eq_true, decide_eq_true_eq]

theorem add_append (tally : Tally) (first second : List (Element × Bool)) :
    tally.add lib (first ++ second) = (tally.add lib first).add lib second := by
  simp only [Tally.add, List.length_append, List.countP_append, Nat.add_assoc]

theorem within_of_append {tally : Tally} {first second : List (Element × Bool)}
    (within : (tally.add lib (first ++ second)).within limits) : (tally.add lib first).within limits := by
  rw [within_iff] at within ⊢
  simp only [Tally.add, List.length_append, List.countP_append] at within ⊢
  omega

/-- Some relationships are counted, as far as the limits allow, and nothing else that the ledger holds changes. -/
structure Collects (lib : Library) (limits : OfficeAnalysisLimits) {α : Type} (collected : List (Element × Bool)) (s : State)
    (result : Except Raised α) (t : State) : Prop where
  ledger : t.ledger = s.ledger
  externals : t.externalRelationshipCount = recordedOf lib limits s.tally collected
  counted : ∀ a, result = .ok a → t.tally = s.tally.add lib collected ∧ (s.tally.add lib collected).within limits

/-- The limits still allow all of the first relationships. -/
theorem recordedOf_append {tally : Tally} {first second : List (Element × Bool)}
    (within : (tally.add lib first).within limits) :
    recordedOf lib limits tally (first ++ second) = recordedOf lib limits (tally.add lib first) second := by
  obtain ⟨few,_⟩ := (within_iff _).mp within
  simp only [Tally.add] at few
  have all : first.take (limits.maxRelationships - tally.relationships) = first := List.take_of_length_le (by omega)
  have left : limits.maxRelationships - tally.relationships - first.length =
      limits.maxRelationships - (tally.relationships + first.length) := by omega
  simp only [recordedOf, Tally.add, List.take_append, List.countP_append, all, left, Nat.add_assoc]

/-- The limits are reached with the first relationships. -/
theorem recordedOf_exceeded {tally : Tally} {first second : List (Element × Bool)}
    (exceeded : ¬ (tally.add lib first).within limits) :
    recordedOf lib limits tally (first ++ second) = recordedOf lib limits tally first := by
  by_cases few : tally.relationships + first.length ≤ limits.maxRelationships
  · have many : limits.maxExternalRelationships < tally.externals + first.countP (countsExternal lib) := by
      rw [within_iff] at exceeded
      simp only [Tally.add] at exceeded
      omega
    have all : first.take (limits.maxRelationships - tally.relationships) = first := List.take_of_length_le (by omega)
    simp only [recordedOf, List.take_append, List.countP_append, all]
    omega
  · have past : limits.maxRelationships - tally.relationships - first.length = 0 := by omega
    simp only [recordedOf, List.take_append, past, List.take_zero, List.append_nil]

theorem recordedOf_nil {tally : Tally} (within : tally.within limits) : recordedOf lib limits tally [] = tally.externals := by
  obtain ⟨_,few⟩ := (within_iff _).mp within
  simp only [recordedOf, List.take_nil, List.countP_nil]
  omega

theorem collects_nil {α : Type} {result : Except Raised α} (within : s.tally.within limits) (idle : Idle s t) :
    Collects lib limits [] s result t where
  ledger := idle.1
  externals := by
    rw [recordedOf_nil within, ← idle.2]
    rfl
  counted := fun _ _ => ⟨idle.2,within⟩

theorem Collects.trans {α β : Type} {u : State} {first second : List (Element × Bool)} {a : α} {result : Except Raised β}
    (once : Collects lib limits first s (.ok a) t) (twice : Collects lib limits second t result u) :
    Collects lib limits (first ++ second) s result u := by
  obtain ⟨same,within⟩ := once.counted a rfl
  refine ⟨twice.ledger.trans once.ledger,?_,fun b returned => ?_⟩
  · rw [recordedOf_append within, twice.externals, same]
  · obtain ⟨later,enough⟩ := twice.counted b returned
    rw [add_append, ← same]
    exact ⟨later,enough⟩

/-- A loop over relationships returns unless they exceed the limits. -/
structure LoopRun (lib : Library) (limits : OfficeAnalysisLimits) {α : Type} (collected : List (Element × Bool)) (s : State)
    (result : Except Raised α) (t : State) : Prop extends Collects lib limits collected s result t where
  meter : t.meter = s.meter
  returns : (s.tally.add lib collected).within limits → ∃ a, result = .ok a
  limited : ∀ e, result = .error e → ∃ reason, e = .limit reason

/-- What a turn of the loop does. -/
theorem inspectRelationship_cases (lib : Library) (limits : OfficeAnalysisLimits) (collectExternal : Bool)
    (element : Element) (s : State) :
    (limits.maxRelationships ≤ s.relationshipCount ∧
      ∃ reason, inspectRelationship lib limits collectExternal element s = (.error (.limit reason),s)) ∨
    (s.relationshipCount < limits.maxRelationships ∧ countsExternal lib (element,collectExternal) = false ∧
      ∃ targets, inspectRelationship lib limits collectExternal element s =
        (.ok targets,{ s with relationshipCount := s.relationshipCount + 1 })) ∨
    (s.relationshipCount < limits.maxRelationships ∧ countsExternal lib (element,collectExternal) = true ∧
      limits.maxExternalRelationships ≤ s.externalRelationshipCount ∧
      ∃ reason, inspectRelationship lib limits collectExternal element s =
        (.error (.limit reason),{ s with relationshipCount := s.relationshipCount + 1 })) ∨
    (s.relationshipCount < limits.maxRelationships ∧ countsExternal lib (element,collectExternal) = true ∧
      s.externalRelationshipCount < limits.maxExternalRelationships ∧
      ∃ targets, inspectRelationship lib limits collectExternal element s =
        (.ok targets,recordExternal lib limits element { s with relationshipCount := s.relationshipCount + 1 })) := by
  have observed : (Command.observe id : Inspection State) s = (.ok s,s) := rfl
  unfold inspectRelationship
  rw [bind_returned observed]
  by_cases full : limits.maxRelationships ≤ s.relationshipCount
  · rw [if_pos full]
    exact .inl ⟨full,_,rfl⟩
  · have room := Nat.lt_of_not_le full
    rw [if_neg full, bind_returned (show (Command.update _ : Inspection Unit) s = (.ok (),_) from rfl)]
    cases counts : countsExternal lib (element,collectExternal) with
    | false =>
      have skipped : (!collectExternal || !isExternal lib element) = true := by
        cases collectExternal <;> simp_all [countsExternal]
      rw [if_pos skipped]
      exact .inr (.inl ⟨room,rfl,_,rfl⟩)
    | true =>
      have collected : ¬ (!collectExternal || !isExternal lib element) = true := by
        cases collectExternal <;> simp_all [countsExternal]
      rw [if_neg collected]
      by_cases many : limits.maxExternalRelationships ≤ s.externalRelationshipCount
      · rw [if_pos many]
        exact .inr (.inr (.inl ⟨room,rfl,many,_,rfl⟩))
      · rw [if_neg many]
        exact .inr (.inr (.inr ⟨room,rfl,Nat.lt_of_not_le many,_,rfl⟩))

variable (lib limits) in
theorem recordExternal_counts (element : Element) (s : State) :
    (recordExternal lib limits element s).tally = ⟨s.relationshipCount,s.externalRelationshipCount + 1⟩ ∧
      (recordExternal lib limits element s).ledger = s.ledger ∧ (recordExternal lib limits element s).meter = s.meter := by
  unfold recordExternal
  dsimp only
  split_ifs <;> exact ⟨rfl,rfl,rfl⟩

theorem inspectRelationship_run {collectExternal : Bool} {element : Element} (within : s.tally.within limits) :
    LoopRun lib limits [(element,collectExternal)] s (inspectRelationship lib limits collectExternal element s).1
      (inspectRelationship lib limits collectExternal element s).2 := by
  obtain ⟨few,fewer⟩ := (within_iff _).mp within
  simp only [State.tally] at few fewer
  have one : [(element,collectExternal)].take (limits.maxRelationships - s.relationshipCount) =
      if s.relationshipCount < limits.maxRelationships then [(element,collectExternal)] else [] := by
    split
    · exact List.take_of_length_le (by simp only [List.length_singleton]; omega)
    · rw [Nat.sub_eq_zero_of_le (by omega), List.take_zero]
  have recorded : recordedOf lib limits s.tally [(element,collectExternal)] = min limits.maxExternalRelationships
      (s.externalRelationshipCount + if s.relationshipCount < limits.maxRelationships then
        if countsExternal lib (element,collectExternal) then 1 else 0 else 0) := by
    simp only [recordedOf, State.tally, one]
    split
    · rw [List.countP_singleton]
    · rw [List.countP_nil]
  have enough : (s.tally.add lib [(element,collectExternal)]).within limits ↔
      s.relationshipCount + 1 ≤ limits.maxRelationships ∧ s.externalRelationshipCount +
        (if countsExternal lib (element,collectExternal) then 1 else 0) ≤ limits.maxExternalRelationships := by
    rw [within_iff]
    simp only [Tally.add, State.tally, List.length_singleton, List.countP_singleton]
  rcases inspectRelationship_cases lib limits collectExternal element s with
    ⟨full,reason,run⟩ | ⟨room,skipped,targets,run⟩ | ⟨room,external,many,reason,run⟩ | ⟨room,external,spare,targets,run⟩
  · rw [run]
    refine ⟨⟨rfl,?_,nofun⟩,rfl,fun inside => absurd (enough.mp inside).1 (by omega),fun e raised => ?_⟩
    · rw [recorded, if_neg (Nat.not_lt.mpr full)]
      exact (Nat.min_eq_right fewer).symm
    · exact ⟨reason,(Except.error.inj raised).symm⟩
  · rw [run]
    rw [if_pos room, skipped] at recorded
    rw [skipped] at enough
    refine ⟨⟨rfl,?_,fun _ _ => ⟨?_,enough.mpr ⟨room,fewer⟩⟩⟩,rfl,fun _ => ⟨targets,rfl⟩,nofun⟩
    · rw [recorded]
      exact (Nat.min_eq_right fewer).symm
    · simp only [Tally.add, State.tally, List.length_singleton, List.countP_singleton, skipped, Bool.false_eq_true,
        if_false, Nat.add_zero]
  · rw [run]
    rw [if_pos room, external] at recorded
    rw [external] at enough
    refine ⟨⟨rfl,?_,nofun⟩,rfl,fun inside => absurd (enough.mp inside).2 (by simp only [if_true]; omega),fun e raised => ?_⟩
    · rw [recorded]
      show s.externalRelationshipCount = _
      simp only [if_true]
      omega
    · exact ⟨reason,(Except.error.inj raised).symm⟩
  · rw [run]
    rw [if_pos room, external] at recorded
    rw [external] at enough
    obtain ⟨counts,ledger,meter⟩ := recordExternal_counts lib limits element
      { s with relationshipCount := s.relationshipCount + 1 }
    refine ⟨⟨ledger,?_,fun _ _ => ⟨?_,enough.mpr ⟨room,spare⟩⟩⟩,meter,fun _ => ⟨targets,rfl⟩,nofun⟩
    · rw [recorded]
      refine (congrArg Tally.externals counts).trans ?_
      simp only [if_true]
      omega
    · refine counts.trans ?_
      simp only [Tally.add, State.tally, List.length_singleton, List.countP_singleton, external, if_true]

theorem loopRun_pure {α : Type} (a : α) (within : s.tally.within limits) :
    LoopRun lib limits [] s ((pure a : Inspection α) s).1 ((pure a : Inspection α) s).2 :=
  ⟨collects_nil within (idle_refl s),rfl,fun _ => ⟨a,rfl⟩,nofun⟩

theorem loopRun_bind {α β : Type} {m : Inspection α} {k : α → Inspection β} {first second : List (Element × Bool)}
    (once : LoopRun lib limits first s (m s).1 (m s).2)
    (rest : ∀ a t, t.tally.within limits → LoopRun lib limits second t (k a t).1 (k a t).2) :
    LoopRun lib limits (first ++ second) s ((m >>= k) s).1 ((m >>= k) s).2 := by
  cases ran : m s with
  | mk result t =>
    rw [ran] at once
    cases result with
    | ok a =>
      rw [bind_returned ran]
      obtain ⟨counted,within⟩ := once.counted a rfl
      have later := rest a t (counted ▸ within)
      refine ⟨once.toCollects.trans later.toCollects,later.meter.trans once.meter,fun enough => later.returns ?_,later.limited⟩
      rw [counted, ← add_append]
      exact enough
    | error e =>
      rw [bind_raised ran]
      have exceeded : ¬ (s.tally.add lib first).within limits := by
        intro within
        obtain ⟨a,returned⟩ := once.returns within
        cases returned
      refine ⟨⟨once.ledger,?_,nofun⟩,once.meter,fun enough => absurd (within_of_append enough) exceeded,fun e' raised => ?_⟩
      · rw [recordedOf_exceeded exceeded]
        exact once.externals
      · exact once.limited e' (by rw [Except.error.inj raised])

theorem relationshipLoop_run {collectExternal : Bool} (elements : List Element) (within : s.tally.within limits) :
    LoopRun lib limits (flagged collectExternal elements) s (relationshipLoop lib limits collectExternal elements s).1
      (relationshipLoop lib limits collectExternal elements s).2 := by
  induction elements generalizing s with
  | nil => exact loopRun_pure [] within
  | cons element rest ih =>
    unfold relationshipLoop
    by_cases relationship : isRelationship element = true
    · have first : flagged collectExternal (element :: rest) =
          [(element,collectExternal)] ++ (flagged collectExternal rest ++ []) := by
        rw [flagged, List.filter_cons_of_pos relationship, List.append_nil]
        rfl
      rw [if_pos relationship, first]
      refine loopRun_bind (inspectRelationship_run within) fun targets t inside => ?_
      exact loopRun_bind (ih inside) fun later u enough => loopRun_pure _ enough
    · have none : flagged collectExternal (element :: rest) = flagged collectExternal rest := by
        rw [flagged, List.filter_cons_of_neg relationship]
        rfl
      rw [if_neg relationship, none]
      exact ih within

/-! ### Parts -/

/-- What the handlers of `analyze_ooxml` catch. -/
def Caught : Raised → Prop
  | .limit _ | .valueError | .xml _ => True
  | .library e => e ∈ [Exn.OSError,.EOFError,.BadZipFile,.ZlibError,.UnicodeDecodeError]
  | .other => False

/-- An error that is not caught ends a run exactly if one of the visits gives it. -/
def Ends {α : Type} (visited : List Visit) (result : Except Raised α) : Prop :=
  ∀ e, ¬ Caught e → (result = .error e ↔ ∃ visit ∈ visited, visit.error = some e)

theorem ends_nil {α : Type} (a : α) : Ends [] (.ok a) := fun _ _ => ⟨nofun,nofun⟩

theorem Ends.append {α β : Type} {first second : List Visit} {a : α} {result : Except Raised β} (once : Ends first (.ok a))
    (twice : Ends second result) : Ends (first ++ second) result := by
  intro e uncaught
  rw [twice e uncaught]
  constructor
  · rintro ⟨visit,member,gives⟩
    exact ⟨visit,List.mem_append_right _ member,gives⟩
  · rintro ⟨visit,member,gives⟩
    rcases List.mem_append.mp member with early | late
    · have raised := (once e uncaught).mpr ⟨visit,early,gives⟩
      cases raised
    · exact ⟨visit,late,gives⟩

/-- A visit without an error, in a run that raises nothing but what is caught. -/
theorem ends_quiet {α : Type} {visit : Visit} {result : Except Raised α} (quiet : visit.error = none)
    (caught : ∀ e, result = .error e → Caught e) : Ends [visit] result := by
  intro e uncaught
  constructor
  · exact fun raised => absurd (caught e raised) uncaught
  · rintro ⟨visit',member,gives⟩
    rw [List.mem_singleton.mp member, quiet] at gives
    cases gives

/-- A run over some parts does what the visits tell. -/
structure PartsRun (lib : Library) (limits : OfficeAnalysisLimits) {α : Type} (visited : List Visit × Option Meter) (s : State)
    (result : Except Raised α) (t : State) : Prop where
  ends : Ends visited.1 result
  collects : Collects lib limits (visited.1.flatMap Visit.collected) s result t
  goes : ∀ meter, visited.2 = some meter → t.meter = meter ∧ ∃ a, result = .ok a
  stops : visited.2 = none → ∃ e, result = .error e

/-- Only the ledger and the counts of the start matter. -/
theorem PartsRun.start {α : Type} {visited : List Visit × Option Meter} {u : State} {result : Except Raised α}
    (run : PartsRun lib limits visited t result u) (idle : Idle s t) : PartsRun lib limits visited s result u := by
  refine ⟨run.ends,⟨run.collects.ledger.trans idle.1,?_,?_⟩,run.goes,run.stops⟩
  · rw [← idle.2]
    exact run.collects.externals
  · rw [← idle.2]
    exact run.collects.counted

theorem partsRun_bind {α β : Type} {m : Inspection α} {k : α → Inspection β} {first : List Visit × Option Meter}
    (second : Meter → List Visit × Option Meter) (once : PartsRun lib limits first s (m s).1 (m s).2)
    (rest : ∀ a t, t.tally = s.tally.add lib (first.1.flatMap Visit.collected) → t.tally.within limits →
      PartsRun lib limits (second t.meter) t (k a t).1 (k a t).2) :
    PartsRun lib limits
      (match first.2 with
      | none => (first.1,none)
      | some meter => (first.1 ++ (second meter).1,(second meter).2)) s ((m >>= k) s).1 ((m >>= k) s).2 := by
  obtain ⟨visited,next⟩ := first
  cases ran : m s with
  | mk result t =>
    rw [ran] at once
    cases result with
    | ok a =>
      rw [bind_returned ran]
      obtain ⟨counted,within⟩ := once.collects.counted a rfl
      have later := rest a t counted (counted ▸ within)
      cases next with
      | none =>
        obtain ⟨e,raised⟩ := once.stops rfl
        cases raised
      | some meter =>
        obtain ⟨same,_⟩ := once.goes meter rfl
        rw [same] at later
        refine ⟨once.ends.append later.ends,?_,later.goes,later.stops⟩
        rw [List.flatMap_append]
        exact once.collects.trans later.collects
    | error e =>
      rw [bind_raised ran]
      cases next with
      | some meter =>
        obtain ⟨_,a,returned⟩ := once.goes meter rfl
        cases returned
      | none =>
        refine ⟨fun e' uncaught => ?_,⟨once.collects.ledger,once.collects.externals,nofun⟩,nofun,fun _ => ⟨e,rfl⟩⟩
        rw [← once.ends e' uncaught]
        exact ⟨fun same => by rw [Except.error.inj same],fun same => by rw [Except.error.inj same]⟩

variable (lib limits members) in
/-- Reading a part goes as it goes in the state of the counters. -/
theorem readXmlPart_meter (name : Text) (s : State) : ∃ t,
    readXmlPart lib limits members name s = ((readXmlPart lib limits members name s.meter.state).1,t) ∧
      t.meter = (readXmlPart lib limits members name s.meter.state).2.meter ∧ Idle s t := by
  have same := follows_readXmlPart lib limits members name s s.meter.state rfl
  exact ⟨(readXmlPart lib limits members name s).2,Prod.ext same.1 rfl,same.2,(idle_readXmlPart s).1⟩

theorem visitPart_run {name : Text} {collectExternal : Bool} (within : s.tally.within limits) :
    PartsRun lib limits
      ([(visitPart lib limits members name collectExternal s.meter s.tally).1],
        (visitPart lib limits members name collectExternal s.meter s.tally).2) s
      ((readXmlPart lib limits members name >>= fun root => relationshipTargets lib limits root collectExternal) s).1
      ((readXmlPart lib limits members name >>= fun root => relationshipTargets lib limits root collectExternal) s).2 := by
  obtain ⟨t,ran,meter,idle⟩ := readXmlPart_meter lib limits members name s
  unfold visitPart
  dsimp only
  cases read : (readXmlPart lib limits members name s.meter.state).1 with
  | error e =>
    rw [read] at ran
    rw [bind_raised ran]
    refine ⟨fun e' _ => ?_,collects_nil within idle,nofun,fun _ => ⟨e,rfl⟩⟩
    simp [Visit.error]
  | ok root =>
    rw [read] at ran
    rw [bind_returned ran]
    dsimp only
    unfold relationshipTargets
    by_cases tag : root.tag = qualified _RELATIONSHIPS_NAMESPACE (lit "Relationships")
    · have counted : Visit.collected (.relationships name collectExternal (.ok root)) = flagged collectExternal root.children :=
        if_pos tag
      have loop : LoopRun lib limits (flagged collectExternal root.children) t _ _ :=
        relationshipLoop_run root.children (idle.2 ▸ within)
      rw [if_neg (not_not.mpr tag), counted]
      revert loop
      generalize relationshipLoop lib limits collectExternal root.children t = ended
      obtain ⟨result,u⟩ := ended
      intro loop
      have collects : Collects lib limits (flagged collectExternal root.children) s result u := by
        refine ⟨loop.ledger.trans idle.1,?_,?_⟩
        · rw [← idle.2]
          exact loop.externals
        · rw [← idle.2]
          exact loop.counted
      have returns := loop.returns
      rw [idle.2] at returns
      have ends : Ends [.relationships name collectExternal (.ok root)] result := by
        refine ends_quiet rfl fun e raised => ?_
        obtain ⟨reason,rfl⟩ := loop.limited e raised
        trivial
      by_cases enough : (s.tally.add lib (flagged collectExternal root.children)).within limits
      · rw [if_pos ⟨tag,enough⟩]
        refine ⟨ends,?_,fun meter' same => ⟨?_,returns enough⟩,nofun⟩
        · rw [List.flatMap_singleton, counted]
          exact collects
        · rw [← Option.some.inj same, loop.meter, meter]
      · rw [if_neg fun both => enough both.2]
        refine ⟨ends,?_,nofun,fun _ => ?_⟩
        · rw [List.flatMap_singleton, counted]
          exact collects
        · cases result with
          | error e => exact ⟨e,rfl⟩
          | ok a => exact absurd (collects.counted a rfl).2 enough
    · have none : Visit.collected (.relationships name collectExternal (.ok root)) = [] := if_neg tag
      rw [if_pos tag, if_neg fun both => tag both.1]
      refine ⟨ends_quiet rfl fun e raised => ?_,?_,nofun,fun _ => ⟨.valueError,rfl⟩⟩
      · cases raised
        trivial
      · rw [List.flatMap_singleton, none]
        exact ⟨idle.1,(collects_nil within idle : Collects lib limits [] s (.ok ()) t).externals,nofun⟩

theorem visitParts_cons (name : Text) (collectExternal : Bool) (rest : List (Text × Bool)) (meter : Meter) (tally : Tally) :
    visitParts lib limits members ((name,collectExternal) :: rest) meter tally =
      match (visitPart lib limits members name collectExternal meter tally).2 with
      | none => ([(visitPart lib limits members name collectExternal meter tally).1],none)
      | some later =>
        ([(visitPart lib limits members name collectExternal meter tally).1] ++
            (visitParts lib limits members rest later (tally.add lib
              (visitPart lib limits members name collectExternal meter tally).1.collected)).1,
          (visitParts lib limits members rest later (tally.add lib
            (visitPart lib limits members name collectExternal meter tally).1.collected)).2) :=
  rfl

/-- A part and those after it. -/
theorem visitParts_bind {α : Type} {name : Text} {collectExternal : Bool} {rest : List (Text × Bool)}
    {k : List Text → Inspection α} (within : s.tally.within limits)
    (later : ∀ targets t, t.tally.within limits →
      PartsRun lib limits (visitParts lib limits members rest t.meter t.tally) t (k targets t).1 (k targets t).2) :
    PartsRun lib limits (visitParts lib limits members ((name,collectExternal) :: rest) s.meter s.tally) s
      ((readXmlPart lib limits members name >>= fun root =>
        relationshipTargets lib limits root collectExternal >>= k) s).1
      ((readXmlPart lib limits members name >>= fun root =>
        relationshipTargets lib limits root collectExternal >>= k) s).2 := by
  rw [visitParts_cons, ← bind_bind]
  have once : PartsRun lib limits ([(visitPart lib limits members name collectExternal s.meter s.tally).1],
      (visitPart lib limits members name collectExternal s.meter s.tally).2) s _ _ := visitPart_run within
  refine partsRun_bind (fun meter => visitParts lib limits members rest meter (s.tally.add lib
    (visitPart lib limits members name collectExternal s.meter s.tally).1.collected)) once fun targets t counted inside => ?_
  have run := later targets t inside
  rw [counted, List.flatMap_singleton] at run
  exact run

theorem inspectPart_forEach_run (names : List Text) (within : s.tally.within limits) :
    PartsRun lib limits (visitParts lib limits members (names.map fun name => (name,true)) s.meter s.tally) s
      (Command.forEach (inspectPart lib limits members) names s).1
      (Command.forEach (inspectPart lib limits members) names s).2 := by
  induction names generalizing s with
  | nil => exact ⟨ends_nil (),collects_nil within (idle_refl s),fun _ same => ⟨Option.some.inj same,(),rfl⟩,nofun⟩
  | cons name rest ih =>
    have cut : Command.forEach (inspectPart lib limits members) (name :: rest) =
        readXmlPart lib limits members name >>= fun root => relationshipTargets lib limits root true >>= fun _ =>
          Command.forEach (inspectPart lib limits members) rest := by
      rw [show Command.forEach (inspectPart lib limits members) (name :: rest) = (inspectPart lib limits members name >>=
        fun _ => Command.forEach (inspectPart lib limits members) rest) from rfl]
      unfold inspectPart
      rw [bind_bind]
      refine congrArg _ (funext fun root => ?_)
      rw [bind_bind]
      rfl
    rw [cut]
    exact visitParts_bind within fun _ t inside => ih inside

/-- The relationships of a package. -/
theorem inspectRelationships_run (within : s.tally.within limits) :
    PartsRun lib limits (visitParts lib limits members (orderedParts members) s.meter s.tally) s
      (inspectRelationships lib limits members s).1 (inspectRelationships lib limits members s).2 := by
  unfold inspectRelationships readRequiredXml orderedParts
  by_cases present : _ROOT_RELATIONSHIPS_PART ∈ members.names
  · rw [if_pos present, if_pos present, bind_bind]
    refine visitParts_bind within fun targets t inside => ?_
    have parts (u : State) (idle : Idle t u) (meter : u.meter = t.meter) :
        PartsRun lib limits (visitParts lib limits members ((relationshipNames members).map fun name => (name,true))
          t.meter t.tally) t (Command.forEach (inspectPart lib limits members) (relationshipNames members) u).1
            (Command.forEach (inspectPart lib limits members) (relationshipNames members) u).2 := by
      rw [← meter, ← idle.2]
      exact (inspectPart_forEach_run _ (idle.2 ▸ inside)).start idle
    rw [bind_returned (show (Command.observe id : Inspection State) t = (.ok t,t) from rfl)]
    split
    · exact parts _ ⟨rfl,rfl⟩ rfl
    · exact parts t (idle_refl t) rfl
  · rw [if_neg present, if_neg present]
    exact ⟨ends_nil (),collects_nil within ⟨rfl,rfl⟩,fun _ same => ⟨Option.some.inj same,(),rfl⟩,nofun⟩

/-! ### Content types -/

theorem collectOverrides_run (elements : List Element) (overrides : List (Text × Text)) (s : State) :
    ∃ t, Idle s t ∧ t.meter = s.meter ∧ collectOverrides elements overrides s =
      (if validOverrides elements then .ok (overridesAfter elements overrides) else .error .valueError,t) := by
  induction elements generalizing overrides s with
  | nil => exact ⟨s,idle_refl s,rfl,rfl⟩
  | cons element rest ih =>
    by_cases override : isOverride element = true
    · have tag : element.tag = qualified _CONTENT_TYPES_NAMESPACE (lit "Override") := of_decide_eq_true override
      unfold collectOverrides
      rw [if_neg (not_not.mpr tag)]
      by_cases empty : (element.attr (lit "PartName")).dropWhile (· = '/') = [] ∨ element.attr (lit "ContentType") = []
      · have invalid : validOverrides (element :: rest) = false := by
          rcases empty with name | type
          · have unnamed : overrideName element = [] := name
            simp [validOverrides, override, unnamed]
          · have untyped : overrideType element = [] := type
            simp [validOverrides, override, untyped]
        rw [invalid, if_pos empty]
        exact ⟨s,idle_refl s,rfl,rfl⟩
      · have named : overrideName element ≠ [] := fun unnamed => empty (.inl unnamed)
        have typed : overrideType element ≠ [] := fun untyped => empty (.inr untyped)
        have valid : validOverrides (element :: rest) = validOverrides rest := by
          simp [validOverrides, override, named, typed]
        have after : overridesAfter (element :: rest) overrides =
            overridesAfter rest (setType (overrideName element) (overrideType element) overrides) := by
          rw [overridesAfter, if_pos override]
        rw [valid, after, if_neg empty]
        dsimp only
        split
        · obtain ⟨t,idle,meter,ran⟩ := ih (setType (overrideName element) (overrideType element) overrides)
            (State.malformedPart (lit "ambiguous_content_type") none s)
          exact ⟨t,idle_trans _ _ _ ⟨rfl,rfl⟩ idle,meter,ran⟩
        · exact ih _ s
    · have tag : element.tag ≠ qualified _CONTENT_TYPES_NAMESPACE (lit "Override") := fun same =>
        override (decide_eq_true same)
      have valid : validOverrides (element :: rest) = validOverrides rest := by
        simp [validOverrides, override]
      have after : overridesAfter (element :: rest) overrides = overridesAfter rest overrides := by
        rw [overridesAfter, if_neg override]
      unfold collectOverrides
      rw [valid, after, if_pos tag]
      exact ih overrides s

theorem contentTypeOverrides_run (root : Element) (s : State) :
    ∃ t, Idle s t ∧ t.meter = s.meter ∧ contentTypeOverrides root s =
      (if validTypes root then .ok (overridesAfter root.children []) else .error .valueError,t) := by
  unfold contentTypeOverrides
  by_cases tag : root.tag = qualified _CONTENT_TYPES_NAMESPACE (lit "Types")
  · have valid : validTypes root = validOverrides root.children := by
      rw [validTypes, decide_eq_true tag, Bool.true_and]
    rw [if_neg (not_not.mpr tag), valid]
    exact collectOverrides_run _ _ s
  · have invalid : validTypes root = false := by
      rw [validTypes, decide_eq_false tag, Bool.false_and]
    rw [if_pos tag, invalid]
    exact ⟨s,idle_refl s,rfl,rfl⟩

/-! ### Projects -/

/-- The analyses of the projects that were passed to `analyze_vba_blob`. -/
def projectAnalyses (lib : Library) (limits : OfficeAnalysisLimits) (passed : List (Text × Bytes)) : List VbaAnalysis :=
  passed.filterMap fun project => analyzeVbaBlob lib.tables limits lib.isSpace lib.vbaParser project.2

variable (lib limits) in
theorem projectAnalyses_snoc (passed : List (Text × Bytes)) (name : Text) (data : Bytes) :
    projectAnalyses lib limits (passed ++ [(name,data)]) = projectAnalyses lib limits passed ++
      (analyzeVbaBlob lib.tables limits lib.isSpace lib.vbaParser data).toList := by
  rw [projectAnalyses, List.filterMap_append]
  cases analyzed : analyzeVbaBlob lib.tables limits lib.isSpace lib.vbaParser data with
  | none => simp [analyzed, projectAnalyses]
  | some analysis => simp [analyzed, projectAnalyses]

theorem mergeProject_cases (lib : Library) (limits : OfficeAnalysisLimits) (name : Text) (data : Bytes) (s : State) :
    (analyzeVbaBlob lib.tables limits lib.isSpace lib.vbaParser data = none ∧
      mergeProject lib limits name data s = (.error .other,{ s with passed := s.passed ++ [(name,data)] })) ∨
    ∃ analysis, analyzeVbaBlob lib.tables limits lib.isSpace lib.vbaParser data = some analysis ∧
      mergeProject lib limits name data s = (.ok (),{ s with
        passed := s.passed ++ [(name,data)]
        vba := mergeVba limits s.vba analysis
        partialReasons := s.partialReasons ∪ analysis.partialReasons }) := by
  unfold mergeProject
  rw [bind_returned (show (Command.update _ : Inspection Unit) s = (.ok (),_) from rfl)]
  cases analyzeVbaBlob lib.tables limits lib.isSpace lib.vbaParser data with
  | none => exact .inl ⟨rfl,rfl⟩
  | some analysis => exact .inr ⟨analysis,rfl,rfl⟩

/-- A project is analyzed, or given up for a limit, or ends the inspection. -/
structure ProjectRun (lib : Library) (limits : OfficeAnalysisLimits) (read : Except Raised VbaAnalysis) (s : State)
    (result : Except Raised Unit) (t : State) : Prop where
  analyses : projectAnalyses lib limits t.passed = projectAnalyses lib limits s.passed ++ read.toOption.toList
  goes : goesOn read = true → result = .ok ()
  stops : goesOn read = false → ∃ e, result = .error e ∧ read = .error e

variable (lib limits) in
theorem afterVbaRead_run (name : Text) (read : Except Raised Bytes) (s : State) :
    (afterVbaRead lib limits name read s).2.meter = s.meter ∧
      ProjectRun lib limits (analyzeRead lib limits read) s (afterVbaRead lib limits name read s).1
        (afterVbaRead lib limits name read s).2 := by
  match read with
  | .ok data =>
    have snoc := projectAnalyses_snoc lib limits s.passed name data
    change (mergeProject lib limits name data s).2.meter = s.meter ∧ ProjectRun lib limits (analyzeRead lib limits (.ok data))
      s (mergeProject lib limits name data s).1 (mergeProject lib limits name data s).2
    rcases mergeProject_cases lib limits name data s with ⟨analyzed,ran⟩ | ⟨analysis,analyzed,ran⟩
    · have read : analyzeRead lib limits (.ok data) = .error .other := by
        simp [analyzeRead, Except.bind, analyzed]
      rw [analyzed] at snoc
      rw [read, ran]
      exact ⟨rfl,snoc,nofun,fun _ => ⟨.other,rfl,rfl⟩⟩
    · have read : analyzeRead lib limits (.ok data) = .ok analysis := by
        simp [analyzeRead, Except.bind, analyzed]
      rw [analyzed] at snoc
      rw [read, ran]
      exact ⟨rfl,snoc,fun _ => rfl,nofun⟩
  | .error (.limit reason) => exact ⟨rfl,(List.append_nil _).symm,fun _ => rfl,nofun⟩
  | .error .valueError | .error (.xml _) | .error (.library _) | .error .other =>
    exact ⟨rfl,(List.append_nil _).symm,nofun,fun _ => ⟨_,rfl,rfl⟩⟩

variable (lib limits members) in
theorem inspectVbaMember_run (name : Text) (s : State) :
    (inspectVbaMember lib limits members name s).2.meter =
        (readMember limits members name limits.maxVbaProjectBytes s.meter.state).2.meter ∧
      ProjectRun lib limits
        (analyzeRead lib limits (readMember limits members name limits.maxVbaProjectBytes s.meter.state).1) s
        (inspectVbaMember lib limits members name s).1 (inspectVbaMember lib limits members name s).2 := by
  have follows : Follows State.meter (readMember limits members name limits.maxVbaProjectBytes) := follows_readMember
  have same := follows s s.meter.state rfl
  have idle : Idle s (readMember limits members name limits.maxVbaProjectBytes s).2 := (moves_readMember idle_kept s).1
  have passed : (readMember limits members name limits.maxVbaProjectBytes s).2.passed = s.passed :=
    congrArg Ledger.passed idle.1
  have after := afterVbaRead_run lib limits name
    (readMember limits members name limits.maxVbaProjectBytes s).1
    (readMember limits members name limits.maxVbaProjectBytes s).2
  rw [← same.2, ← same.1]
  refine ⟨after.1,?_,after.2.goes,after.2.stops⟩
  rw [← passed]
  exact after.2.analyses

variable (lib limits members) in
/-- The visits of projects tell what is passed on, and how the loop ends. -/
theorem inspectVbaMember_forEach_run (names : List Text) (s : State) :
    Ends (visitProjects lib limits members names s.meter)
        (Command.forEach (inspectVbaMember lib limits members) names s).1 ∧
      projectAnalyses lib limits (Command.forEach (inspectVbaMember lib limits members) names s).2.passed =
        projectAnalyses lib limits s.passed ++ (visitProjects lib limits members names s.meter).filterMap Visit.analysis := by
  induction names generalizing s with
  | nil => exact ⟨ends_nil (),(List.append_nil _).symm⟩
  | cons name rest ih =>
    obtain ⟨meter,run⟩ := inspectVbaMember_run lib limits members name s
    rw [show Command.forEach (inspectVbaMember lib limits members) (name :: rest) = (inspectVbaMember lib limits members name >>=
      fun _ => Command.forEach (inspectVbaMember lib limits members) rest) from rfl]
    unfold visitProjects
    dsimp only
    rw [← meter]
    generalize analyzeRead lib limits (readMember limits members name limits.maxVbaProjectBytes s.meter.state).1 = read at run ⊢
    have first : (Visit.project name read).analysis.toList = read.toOption.toList := by
      cases read <;> rfl
    cases ran : inspectVbaMember lib limits members name s with
    | mk result t =>
      rw [ran] at run
      cases on : goesOn read with
      | true =>
        cases run.goes on
        obtain ⟨ends,analyses⟩ := ih t
        rw [bind_returned ran, if_pos rfl]
        have quiet : Ends [Visit.project name read] (.ok () : Except Raised Unit) := by
          intro e uncaught
          refine ⟨nofun,?_⟩
          rintro ⟨visit,member,gives⟩
          rw [List.mem_singleton.mp member] at gives
          match read with
          | .ok analysis => cases gives
          | .error (.limit reason) =>
            cases gives
            exact absurd trivial uncaught
        refine ⟨quiet.append ends,?_⟩
        rw [analyses, run.analyses, ← first, List.append_assoc]
        refine congrArg _ ?_
        rw [List.filterMap_cons]
        cases (Visit.project name read).analysis <;> rfl
      | false =>
        obtain ⟨e,raised,gives⟩ := run.stops on
        cases raised
        subst gives
        rw [bind_raised ran, if_neg (by decide)]
        refine ⟨fun e' uncaught => ?_,run.analyses⟩
        simp [Visit.error]

/-! ### The package -/

variable (lib limits members) in
theorem visitPart_relationships (name : Text) (collectExternal : Bool) (meter : Meter) (tally : Tally) :
    (visitPart lib limits members name collectExternal meter tally).1.isProject = false ∧
      (visitPart lib limits members name collectExternal meter tally).1.analysis = none := by
  unfold visitPart
  dsimp only
  split
  · exact ⟨rfl,rfl⟩
  · split <;> exact ⟨rfl,rfl⟩

variable (lib limits members) in
/-- No part is a project. -/
theorem visitParts_relationships (parts : List (Text × Bool)) (meter : Meter) (tally : Tally) :
    (visitParts lib limits members parts meter tally).1.any Visit.isProject = false ∧
      (visitParts lib limits members parts meter tally).1.filterMap Visit.analysis = [] := by
  induction parts generalizing meter tally with
  | nil => exact ⟨rfl,rfl⟩
  | cons part rest ih =>
    obtain ⟨name,collectExternal⟩ := part
    obtain ⟨other,none⟩ := visitPart_relationships lib limits members name collectExternal
      meter tally
    rw [visitParts_cons]
    split
    · exact ⟨by rw [List.any_cons, other]; rfl,by rw [List.filterMap_cons, none]; rfl⟩
    · rename_i later _
      obtain ⟨others,nones⟩ := ih later (tally.add lib (visitPart lib limits members name collectExternal meter tally).1.collected)
      refine ⟨?_,?_⟩
      · rw [List.any_append, List.any_cons, other, others]
        rfl
      · rw [List.filterMap_append, List.filterMap_cons, none, nones]
        rfl

variable (lib limits members) in
theorem visitProjects_project (names : List Text) (meter : Meter) :
    (visitProjects lib limits members names meter).any Visit.isProject = !names.isEmpty ∧
      (visitProjects lib limits members names meter).flatMap Visit.collected = [] := by
  induction names generalizing meter with
  | nil => exact ⟨rfl,rfl⟩
  | cons name rest ih =>
    unfold visitProjects
    dsimp only
    refine ⟨rfl,?_⟩
    rw [List.flatMap_cons]
    split
    · exact (ih _).2
    · rfl

/-- The application that the visits determine. -/
def visitedApplication (lib : Library) (members : Members) : List Visit → OfficeApplication
  | .contentTypes (.ok root) :: _ => if validTypes root then applicationIn lib members root else .UNKNOWN
  | _ => .UNKNOWN

/-- The number of the projects, if the visits reach them. -/
def visitedProjects (lib : Library) (members : Members) : List Visit → Nat
  | .contentTypes (.ok root) :: rest => if rest.any Visit.isProject then (declaredProjects lib members root).length else 0
  | _ => 0

/-- How many external relationships the visits record. -/
def visitedExternals (lib : Library) (limits : OfficeAnalysisLimits) (visited : List Visit) : Nat :=
  recordedOf lib limits {} (visited.flatMap Visit.collected)

/-- A run over a package does what the visits tell. -/
structure Surveyed (lib : Library) (limits : OfficeAnalysisLimits) (members : Members) (visited : List Visit)
    (result : Except Raised Unit) (t : State) : Prop where
  ends : Ends visited result
  application : t.application = visitedApplication lib members visited
  externals : t.externalRelationshipCount = visitedExternals lib limits visited
  projects : t.vbaProjectCount = visitedProjects lib members visited
  analyses : projectAnalyses lib limits t.passed = visited.filterMap Visit.analysis

/-- Nothing is known of the package. -/
structure Blank (s : State) : Prop where
  ledger : s.ledger = ⟨.UNKNOWN,0,[]⟩
  tally : s.tally = {}

theorem Blank.idle (blank : Blank s) (idle : Idle s t) : Blank t :=
  ⟨idle.1.trans blank.ledger,idle.2.trans blank.tally⟩

theorem within_zero : ({} : Tally).within limits := (within_iff _).mpr ⟨Nat.zero_le _,Nat.zero_le _⟩

/-- A run that ends with the content types. -/
theorem Blank.surveyed {visited : List Visit} {result : Except Raised Unit} (blank : Blank t) (ends : Ends visited result)
    (application : visitedApplication lib members visited = .UNKNOWN) (projects : visitedProjects lib members visited = 0)
    (collected : visited.flatMap Visit.collected = []) (analyses : visited.filterMap Visit.analysis = []) :
    Surveyed lib limits members visited result t where
  ends := ends
  application := (congrArg Ledger.application blank.ledger).trans application.symm
  externals := by
    rw [visitedExternals, collected, recordedOf_nil within_zero]
    exact congrArg Tally.externals blank.tally
  projects := (congrArg Ledger.projects blank.ledger).trans projects.symm
  analyses := by
    rw [show t.passed = [] from congrArg Ledger.passed blank.ledger, analyses]
    rfl

theorem applicationIn_classify {root : Element} (unknown : s.application = .UNKNOWN) :
    (classifyPackage lib (overridesAfter root.children []) members s).application = applicationIn lib members root := by
  unfold applicationIn classifyPackage
  split
  · rfl
  · exact unknown

variable (lib members) in
/-- A package that is classified: of what was counted only the application has changed. -/
theorem Blank.classified (blank : Blank s) (root : Element) :
    let classified := classifyPackage lib (overridesAfter root.children []) members s
    classified.tally = {} ∧ classified.meter = s.meter ∧ classified.ledger = ⟨applicationIn lib members root,0,[]⟩ := by
  have kept {α : Type} (field : State → α) (apart : ∀ t application macroEnabled,
      field { t with application := application, macroEnabled := macroEnabled } = field t) :
      field (classifyPackage lib (overridesAfter root.children []) members s) = field s :=
    classifyPackage_field _ _ _ _ field apart
  have unknown : s.application = .UNKNOWN := congrArg Ledger.application blank.ledger
  have projects := (kept State.vbaProjectCount fun _ _ _ => rfl).trans (congrArg Ledger.projects blank.ledger)
  have passed := (kept State.passed fun _ _ _ => rfl).trans (congrArg Ledger.passed blank.ledger)
  refine ⟨(kept State.tally fun _ _ _ => rfl).trans blank.tally,kept State.meter fun _ _ _ => rfl,?_⟩
  exact congr (congr (congrArg Ledger.mk (applicationIn_classify unknown)) projects) passed

/-- The visits of a package whose content types are not read. -/
theorem visits_unread {e : Raised} (goes : (checkNames limits members).1 = true)
    (read : (readXmlPart lib limits members _CONTENT_TYPES_PART ({} : Meter).state).1 = .error e) :
    visits lib limits members = [.contentTypes (.error e)] := by
  unfold visits
  rw [if_pos goes]
  dsimp only
  rw [read]

/-- The visits of a package whose content types are turned away. -/
theorem visits_invalid {root : Element} (goes : (checkNames limits members).1 = true)
    (read : (readXmlPart lib limits members _CONTENT_TYPES_PART ({} : Meter).state).1 = .ok root)
    (invalid : validTypes root = false) : visits lib limits members = [.contentTypes (.ok root)] := by
  unfold visits
  rw [if_pos goes]
  dsimp only
  rw [read]
  dsimp only
  rw [invalid]
  rfl

/-- The visits of a package whose content types are read on. -/
theorem visits_valid {root : Element} (goes : (checkNames limits members).1 = true)
    (read : (readXmlPart lib limits members _CONTENT_TYPES_PART ({} : Meter).state).1 = .ok root)
    (valid : validTypes root = true) :
    visits lib limits members = .contentTypes (.ok root) ::
      match (visitParts lib limits members (orderedParts members)
        (readXmlPart lib limits members _CONTENT_TYPES_PART ({} : Meter).state).2.meter {}).2 with
      | none => (visitParts lib limits members (orderedParts members)
        (readXmlPart lib limits members _CONTENT_TYPES_PART ({} : Meter).state).2.meter {}).1
      | some meter => (visitParts lib limits members (orderedParts members)
          (readXmlPart lib limits members _CONTENT_TYPES_PART ({} : Meter).state).2.meter {}).1 ++
        visitProjects lib limits members ((declaredProjects lib members root).take limits.maxVbaProjects) meter := by
  unfold visits
  rw [if_pos goes]
  dsimp only
  rw [read]
  dsimp only
  rw [if_pos valid]

variable (limits) in
theorem inspectCapabilities_run {overrides : List (Text × Text)} {names : List Text}
    (declared : vbaMembers lib members overrides s.application = names) :
    let run := inspectCapabilities lib limits members overrides s
    Ends (visitProjects lib limits members (names.take limits.maxVbaProjects) s.meter) run.1 ∧
      run.2.application = s.application ∧ run.2.externalRelationshipCount = s.externalRelationshipCount ∧
        run.2.vbaProjectCount = names.length ∧
          projectAnalyses lib limits run.2.passed = projectAnalyses lib limits s.passed ++
            (visitProjects lib limits members (names.take limits.maxVbaProjects) s.meter).filterMap Visit.analysis := by
  have counted {α : Type} (field : State → α) (apart : ∀ t embedded activex reasons,
      field { t with embeddedObjectCount := embedded, activexCount := activex, partialReasons := reasons } = field t) :
      field (countObjects limits members s) = field s := countObjects_field members limits s field apart
  have application := counted State.application fun _ _ _ _ => rfl
  have externals := counted State.externalRelationshipCount fun _ _ _ _ => rfl
  have meter := counted State.meter fun _ _ _ _ => rfl
  have passed := counted State.passed fun _ _ _ _ => rfl
  have projects (t : State) : (countProjects limits names t).application = t.application ∧
      (countProjects limits names t).externalRelationshipCount = t.externalRelationshipCount ∧
        (countProjects limits names t).meter = t.meter ∧ (countProjects limits names t).passed = t.passed ∧
          (countProjects limits names t).vbaProjectCount = names.length := by
    unfold countProjects
    dsimp only
    split <;> exact ⟨rfl,rfl,rfl,rfl,rfl⟩
  obtain ⟨sameApplication,sameExternals,sameMeter,samePassed,count⟩ := projects (countObjects limits members s)
  have ran : inspectCapabilities lib limits members overrides s =
      Command.forEach (inspectVbaMember lib limits members) (names.take limits.maxVbaProjects)
        (countProjects limits names (countObjects limits members s)) := by
    unfold inspectCapabilities
    rw [bind_returned (show (Command.update _ : Inspection Unit) s = (.ok (),countObjects limits members s) from rfl),
      bind_returned (show (Command.observe id : Inspection State) (countObjects limits members s) = (.ok _,_) from rfl)]
    dsimp only [id]
    rw [application, declared]
    rfl
  have moves : Moves Outlined Any (Command.forEach (inspectVbaMember lib limits members)
      (names.take limits.maxVbaProjects)) :=
    moves_forEach outlined_refl outlined_trans fun _ _ => moves_inspectVbaMember
  have outlined := (moves (countProjects limits names (countObjects limits members s))).1
  obtain ⟨ends,analyses⟩ := inspectVbaMember_forEach_run lib limits members
    (names.take limits.maxVbaProjects) (countProjects limits names (countObjects limits members s))
  rw [sameMeter, meter] at ends analyses
  rw [samePassed, passed] at analyses
  dsimp only
  rw [ran]
  refine ⟨ends,?_,?_,?_,analyses⟩
  · rw [outlined.field State.application fun _ => rfl, sameApplication, application]
  · rw [outlined.field State.externalRelationshipCount fun _ => rfl, sameExternals, externals]
  · rw [outlined.field State.vbaProjectCount fun _ => rfl, count]

/-- The relationships and the capabilities of a package. -/
theorem inspectRest_run {root : Element} (goes : (checkNames limits members).1 = true)
    (read : (readXmlPart lib limits members _CONTENT_TYPES_PART ({} : Meter).state).1 = .ok root)
    (valid : validTypes root = true) (ledger : s.ledger = ⟨applicationIn lib members root,0,[]⟩) (tally : s.tally = {})
    (meter : s.meter = (readXmlPart lib limits members _CONTENT_TYPES_PART ({} : Meter).state).2.meter) :
    let run := (inspectRelationships lib limits members >>= fun _ =>
      inspectCapabilities lib limits members (overridesAfter root.children [])) s
    Surveyed lib limits members (visits lib limits members) run.1 run.2 := by
  have parts : PartsRun lib limits (visitParts lib limits members (orderedParts members) s.meter s.tally) s _ _ :=
    inspectRelationships_run (tally ▸ within_zero)
  have listed := visits_valid goes read valid
  rw [tally, meter] at parts
  rw [← meter] at listed parts
  obtain ⟨others,nones⟩ := visitParts_relationships lib limits members
    (orderedParts members) s.meter {}
  dsimp only
  rw [listed]
  generalize visitParts lib limits members (orderedParts members) s.meter {} = visited at parts others nones ⊢
  obtain ⟨visited,next⟩ := visited
  have recorded := parts.collects.externals
  rw [tally] at recorded
  cases ran : inspectRelationships lib limits members s with
  | mk result t =>
    rw [ran] at parts recorded
    have known : t.ledger = ⟨applicationIn lib members root,0,[]⟩ := parts.collects.ledger.trans ledger
    have quiet {α : Type} (a : α) : Ends [.contentTypes (.ok root)] (.ok a) := ends_quiet rfl nofun
    cases next with
    | none =>
      obtain ⟨e,raised⟩ := parts.stops rfl
      cases raised
      rw [bind_raised ran]
      refine ⟨(quiet ()).append parts.ends,?_,recorded,?_,?_⟩
      · exact (congrArg Ledger.application known).trans (if_pos valid).symm
      · refine (congrArg Ledger.projects known).trans ?_
        rw [visitedProjects, others]
        rfl
      · rw [show t.passed = [] from congrArg Ledger.passed known, List.filterMap_cons]
        exact nones.symm
    | some after =>
      obtain ⟨same,a,returned⟩ := parts.goes after rfl
      cases returned
      have declared : vbaMembers lib members (overridesAfter root.children []) t.application =
          declaredProjects lib members root :=
        congrArg (vbaMembers lib members (overridesAfter root.children [])) (congrArg Ledger.application known)
      obtain ⟨ends,application,externals,projects,analyses⟩ := inspectCapabilities_run limits declared
      obtain ⟨some,nothing⟩ := visitProjects_project lib limits members
        ((declaredProjects lib members root).take limits.maxVbaProjects) t.meter
      rw [bind_returned ran]
      rw [← same]
      dsimp only
      refine ⟨(quiet ()).append (parts.ends.append ends),?_,?_,?_,?_⟩
      · rw [application]
        exact (congrArg Ledger.application known).trans (if_pos valid).symm
      · rw [externals, recorded, visitedExternals, List.flatMap_cons, List.flatMap_append, nothing, List.append_nil]
        rfl
      · rw [projects, visitedProjects, List.any_append, others, some]
        cases declaredProjects lib members root with
        | nil =>
          rw [List.take_nil]
          rfl
        | cons name rest =>
          have one : 1 ≤ limits.maxVbaProjects := limits.positive _ (by simp)
          obtain ⟨k,enough⟩ := Nat.exists_eq_succ_of_ne_zero (Nat.one_le_iff_ne_zero.mp one)
          rw [enough, List.take_succ_cons]
          rfl
      · rw [analyses, show t.passed = [] from congrArg Ledger.passed known, List.filterMap_cons, List.filterMap_append, nones]
        rfl

variable (lib) in
/-- The inspection of a package does what the visits tell. -/
theorem inspectPackage_run (goes : (checkNames limits members).1 = true) (present : _CONTENT_TYPES_PART ∈ members.names)
    (blank : Blank s) (meter : s.meter = {}) :
    Surveyed lib limits members (visits lib limits members) (inspectPackage lib limits members s).1
      (inspectPackage lib limits members s).2 := by
  obtain ⟨t,ran,reached,idle⟩ := readXmlPart_meter lib limits members _CONTENT_TYPES_PART s
  have cut : inspectPackage lib limits members = readXmlPart lib limits members _CONTENT_TYPES_PART >>=
      inspectContents lib limits members := by
    unfold inspectPackage readRequiredXml
    rw [if_pos present, bind_bind]
    rfl
  rw [meter] at ran reached
  rw [cut]
  cases read : (readXmlPart lib limits members _CONTENT_TYPES_PART ({} : Meter).state).1 with
  | error e =>
    have listed := visits_unread goes read
    rw [read] at ran
    rw [bind_raised ran, listed]
    refine (blank.idle idle).surveyed (fun e' _ => ?_) rfl rfl rfl rfl
    simp [Visit.error]
  | ok root =>
    rw [read] at ran
    rw [bind_returned ran]
    obtain ⟨u,quiet,same,found⟩ := contentTypeOverrides_run root t
    unfold inspectContents
    cases valid : validTypes root with
    | false =>
      rw [valid] at found
      rw [bind_raised found, visits_invalid goes read valid]
      refine ((blank.idle idle).idle quiet).surveyed (ends_quiet rfl fun e raised => ?_) ?_ rfl rfl rfl
      · cases raised
        trivial
      · rw [visitedApplication, valid]
        rfl
    | true =>
      obtain ⟨tally,counters,ledger⟩ := ((blank.idle idle).idle quiet).classified lib members root
      rw [same, reached] at counters
      rw [valid] at found
      rw [bind_returned found,
        bind_returned (show (Command.update _ : Inspection Unit) u = (.ok (),_) from rfl),
        bind_returned (show (Command.observe id : Inspection State) (classifyPackage lib (overridesAfter root.children [])
          members u) = (.ok _,_) from rfl)]
      generalize classifyPackage lib (overridesAfter root.children []) members u = c at tally counters ledger ⊢
      split
      · have marked := inspectRest_run (s := State.malformedPart (lit "inconsistent_package_structure") none c) goes read valid
          ledger tally counters
        exact marked
      · exact inspectRest_run goes read valid ledger tally counters

end DocGuard.Ooxml
