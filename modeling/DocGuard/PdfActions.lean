import DocGuard.Pdf

/-!
The budgets of the walk over the actions of a PDF file. The walk counts the action
dictionaries and the `/Next` steps, and neither counts the arrays that it follows,
nor remembers them: it stays within its budgets exactly as far as arrays do not
nest in arrays.
-/
namespace DocGuard.Pdf
open DocGuard.Commands

variable (lib : Library) (doc : Document) (limits : PdfAnalysisLimits)

/-! ### Recording an action -/

/-- Recording does not touch what bounds the walk; reasons are only added. -/
structure Recorded (s s' : Inspection) : Prop where
  nodes : s'.actionNodesVisited = s.actionNodesVisited
  visited : s'.visitedActions = s.visitedActions
  reasons : s.partialReasons ⊆ s'.partialReasons

theorem recorded_refl (s : Inspection) : Recorded s s :=
  ⟨rfl,rfl,List.Subset.refl _⟩

theorem recorded_trans (s t u : Inspection) (first : Recorded s t) (second : Recorded t u) : Recorded s u :=
  ⟨second.nodes.trans first.nodes,second.visited.trans first.visited,List.Subset.trans first.reasons second.reasons⟩

/-- The command records, and does not use up the frames. -/
abbrev Records {α : Type} (m : Walk α) : Prop := Moves Recorded (· ≠ .recursion) m

theorem markPartial_records (reason : Text) : Records (markPartial reason) := by
  apply moves_update
  intro s
  exact ⟨rfl,rfl,fun r member => List.mem_insert_of_mem member⟩

theorem asked_records {α : Type} (result : Except LibraryError α) : Records (asked result) := by
  apply moves_lift recorded_refl
  intro e raised
  cases result with
  | ok a => simp [Except.mapError] at raised
  | error error =>
    simp only [Except.mapError, Except.error.injEq] at raised
    subst raised
    exact nofun

theorem unlessParserError_records {α : Type} (result : Except LibraryError α) : Records (unlessParserError result) := by
  cases result with
  | ok a => exact moves_pure recorded_refl _
  | error error =>
    cases error with
    | parser exception => exact moves_pure recorded_refl _
    | dependency => exact moves_raise recorded_refl nofun
    | valueError => exact moves_raise recorded_refl nofun
    | other => exact moves_raise recorded_refl nofun

theorem recordUri_records (uri : Option Obj) : Records (recordUri lib limits uri) := by
  apply moves_bind recorded_trans (moves_observe recorded_refl _)
  intro s
  split
  · exact markPartial_records _
  · split
    · exact moves_update fun s => ⟨rfl,rfl,List.Subset.refl _⟩
    · apply moves_bind recorded_trans (asked_records _)
      intro metadata
      exact moves_update fun s => ⟨rfl,rfl,List.Subset.refl _⟩

theorem recordSubmitFormTarget_records (action : Obj) : Records (recordSubmitFormTarget lib doc limits action) := by
  apply moves_bind recorded_trans (moves_observe recorded_refl _)
  intro s
  split
  · exact moves_update fun s => ⟨rfl,rfl,List.Subset.refl _⟩
  · dsimp only
    split
    · exact moves_pure recorded_refl _
    · apply moves_bind recorded_trans (unlessParserError_records _)
      intro rawValue
      split
      · exact moves_pure recorded_refl _
      · split
        · exact moves_update fun s => ⟨rfl,rfl,List.Subset.refl _⟩
        · exact moves_pure recorded_refl _

theorem readJavascriptSource_records (action : Obj) : Records (readJavascriptSource lib doc limits action) := by
  unfold readJavascriptSource
  split
  · exact moves_pure recorded_refl _
  · exact unlessParserError_records _
  · exact unlessParserError_records _

theorem recordByType_records (action : Obj) (source type : Text) :
    Records (recordByType lib doc limits action source type) := by
  unfold recordByType
  split
  · apply moves_bind recorded_trans
    · exact moves_update fun s => ⟨rfl,rfl,List.Subset.refl _⟩
    · intro _
      apply moves_bind recorded_trans (readJavascriptSource_records lib doc limits action)
      intro script
      exact moves_update fun s => ⟨rfl,rfl,List.Subset.refl _⟩
  · split
    · exact moves_update fun s => ⟨rfl,rfl,List.Subset.refl _⟩
    · split
      · apply moves_bind recorded_trans
        · exact moves_update fun s => ⟨rfl,rfl,List.Subset.refl _⟩
        · intro _
          exact recordUri_records lib limits _
      · split
        · exact recordSubmitFormTarget_records lib doc limits action
        · exact moves_pure recorded_refl _

theorem recordAction_records (action : Obj) (source : Text) : Records (recordAction lib doc limits action source) := by
  apply moves_bind recorded_trans (moves_observe recorded_refl _)
  intro counted
  apply moves_bind recorded_trans (asked_records _)
  intro type
  apply moves_bind recorded_trans
  · exact moves_update fun s => ⟨rfl,rfl,List.Subset.refl _⟩
  · intro _
    exact recordByType_records lib doc limits action source type

/-! ### The counters of the walk -/

/-- The walk adds reasons, counts the actions that it enters, and not past its budget. -/
structure Walked (s s' : Inspection) : Prop where
  reasons : s.partialReasons ⊆ s'.partialReasons
  counted : s.visitedActions.length = s.actionNodesVisited → s'.visitedActions.length = s'.actionNodesVisited
  within : s.actionNodesVisited ≤ limits.maxActionNodes → s'.actionNodesVisited ≤ limits.maxActionNodes

theorem walked_refl (s : Inspection) : Walked limits s s :=
  ⟨List.Subset.refl _,id,id⟩

theorem walked_trans (s t u : Inspection) (first : Walked limits s t) (second : Walked limits t u) : Walked limits s u :=
  ⟨List.Subset.trans first.reasons second.reasons,second.counted ∘ first.counted,second.within ∘ first.within⟩

theorem Recorded.walked {s s' : Inspection} (recorded : Recorded s s') : Walked limits s s' := by
  refine ⟨recorded.reasons,?_,?_⟩
  · intro counted
    rw [recorded.visited, recorded.nodes]
    exact counted
  · intro within
    exact recorded.nodes.trans_le within

variable {E : Raised → Prop}

theorem access_moves {R : Inspection → Inspection → Prop} (trans : ∀ s t u, R s t → R t u → R s u) (refl : ∀ s, R s s)
    (counted : ∀ s n, R s { s with wrappers := n }) (item : Item Obj) (live : List Nat) :
    Moves R E (access lib doc item live) := by
  apply moves_bind trans (moves_observe refl _)
  intro n
  apply moves_bind trans
  · exact moves_update fun s => counted s _
  · intro _
    exact moves_pure refl _

theorem access_value {item : Item Obj} {live : List Nat} {s : Inspection} {child : Wrapper}
    (returned : (access lib doc item live s).1 = .ok child) : child.value = doc.value item := by
  simp only [access, Command.observe, Command.update, bind, pure, Except.ok.injEq] at returned
  subst returned
  rfl

theorem eachItem_moves {R : Inspection → Inspection → Prop} (trans : ∀ s t u, R s t → R t u → R s u)
    (refl : ∀ s, R s s) (counted : ∀ s n, R s { s with wrappers := n }) {body : Wrapper → List Nat → Walk Unit}
    {live previous : List Nat} {items : List (Item Obj)}
    (each : ∀ item ∈ items, ∀ child alive, child.value = doc.value item → Moves R E (body child alive)) :
    Moves R E (eachItem lib doc body live previous items) := by
  induction items generalizing previous with
  | nil => exact moves_pure refl ()
  | cons item rest ih =>
    apply moves_bind_returned trans (access_moves lib doc trans refl counted item _)
    intro s child returned
    have value := access_value lib doc returned
    apply moves_bind trans (each item (by simp) child _ value)
    intro _
    exact ih fun later member => each later (by simp [member])

theorem enterAction_moves (action : Wrapper) : Moves (Walked limits) E (enterAction limits action) := by
  intro s
  unfold enterAction
  split
  · exact ⟨walked_refl limits s,nofun⟩
  · split
    · exact ⟨⟨fun r member => List.mem_insert_of_mem member,id,id⟩,nofun⟩
    · refine ⟨⟨List.Subset.refl _,?_,?_⟩,nofun⟩
      · intro counted
        exact congrArg Nat.succ counted
      · intro _
        show s.actionNodesVisited + 1 ≤ limits.maxActionNodes
        omega

theorem walkAction_moves (frames : Nat) (action : Wrapper) (live : List Nat) (source : Text) (depth : Nat) :
    Moves (Walked limits) (fun _ => True) (walkAction lib doc limits frames action live source depth) := by
  have trans := walked_trans limits
  have refl := walked_refl limits
  have records {α : Type} {m : Walk α} (recorded : Records m) : Moves (Walked limits) (fun _ => True) m :=
    moves_weaken recorded (fun s s' => Recorded.walked limits) fun _ _ => trivial
  have counted (s : Inspection) (n : Nat) : Walked limits s { s with wrappers := n } :=
    ⟨List.Subset.refl _,id,id⟩
  induction frames generalizing action live depth with
  | zero => exact moves_raise refl trivial
  | succ frames ih =>
    unfold walkAction
    split
    · exact records (markPartial_records _)
    · split
      · exact eachItem_moves lib doc trans refl counted fun item _ child alive _ => ih child alive depth
      · split
        · exact moves_pure refl ()
        · apply moves_bind trans (enterAction_moves limits action)
          intro entered
          split
          · apply moves_bind trans (records (recordAction_records lib doc limits _ source))
            intro _
            split
            · exact moves_pure refl ()
            · apply moves_bind trans (access_moves lib doc trans refl counted _ _)
              intro next
              exact ih next _ _
          · exact moves_pure refl ()

/-! ### Frames -/

/-- Arrays that are elements of arrays: no chain of them, from this object on, has more than so many. -/
def NestedWithin (doc : Document) : Nat → Obj → Prop
  | 0,value => ∀ items, value ≠ .array items
  | levels+1,value => ∀ items, value = .array items → ∀ item ∈ items, NestedWithin doc levels (doc.value item)

/-- The objects that the walk follows from an object on: the elements of an array, and what is `/Next` of an action. -/
inductive Reached (doc : Document) (start : Obj) : Obj → Prop where
  | start : Reached doc start start
  | element {items : List (Item Obj)} {item : Item Obj} : Reached doc start (.array items) → item ∈ items →
      Reached doc start (doc.value item)
  | next {value : Obj} {item : Item Obj} : Reached doc start value → isAction doc value = true →
      get doc value (lit "/Next") = some item → Reached doc start (doc.value item)

/-- The frames that are enough when arrays nest so deep. -/
def enoughFrames (levels maxActionDepth : Nat) : Nat := (levels + 1) * (maxActionDepth + 2)

/-- Each `/Next` is one step deeper, and between two of them at most `levels` arrays are entered. -/
theorem walkAction_returns {levels : Nat} {start : Obj}
    (nested : ∀ value, Reached doc start value → NestedWithin doc levels value)
    {frames : Nat} {action : Wrapper} {live : List Nat} {source : Text} {depth left : Nat}
    (reached : Reached doc start action.value) (here : NestedWithin doc left action.value)
    (enough : left + 1 + (levels + 1) * (limits.maxActionDepth + 1 - depth) ≤ frames) :
    Moves (fun _ _ => True) (· ≠ .recursion) (walkAction lib doc limits frames action live source depth) := by
  have trans : ∀ _ _ _ : Inspection, True → True → True := fun _ _ _ _ _ => trivial
  have refl : ∀ _ : Inspection, True := fun _ => trivial
  have counted : ∀ (_ : Inspection) (_ : Nat), True := fun _ _ => trivial
  have records {α : Type} {m : Walk α} (recorded : Records m) : Moves (fun _ _ => True) (· ≠ .recursion) m :=
    moves_weaken recorded (fun _ _ _ => trivial) fun _ allowed => allowed
  induction frames generalizing action live depth left with
  | zero => omega
  | succ frames ih =>
    unfold walkAction
    split
    · exact records (markPartial_records _)
    · rename_i within
      split
      · rename_i items array
        rw [array] at reached here
        apply eachItem_moves lib doc trans refl counted
        intro item member child alive value
        cases left with
        | zero => exact absurd rfl (here items)
        | succ left =>
          refine ih ?_ (?_ : NestedWithin doc left child.value) ?_
          · rw [value]
            exact .element reached member
          · rw [value]
            exact here items rfl item member
          · omega
      · split
        · exact moves_pure refl ()
        · rename_i isAction
          apply moves_bind trans
          · exact moves_weaken (enterAction_moves limits action) (fun _ _ _ => trivial) fun _ allowed => allowed
          · intro entered
            split
            · apply moves_bind trans (records (recordAction_records lib doc limits _ source))
              intro _
              split
              · exact moves_pure refl ()
              · rename_i item got
                apply moves_bind_returned trans (access_moves lib doc trans refl counted _ _)
                intro s next returned
                have value := access_value lib doc returned
                have next_reached : Reached doc start next.value := by
                  rw [value]
                  exact .next reached (by simpa using isAction) got
                have deeper : limits.maxActionDepth + 1 - depth = limits.maxActionDepth + 1 - (depth + 1) + 1 := by omega
                rw [deeper, Nat.mul_succ] at enough
                exact ih next_reached (nested _ next_reached) (by omega)
            · exact moves_pure refl ()

/-! ### Branches that are not followed -/

/-- The same limits, except that so many more steps and actions are allowed. -/
def PdfAnalysisLimits.raise (deeper more : Nat) : PdfAnalysisLimits :=
  { limits with
    maxActionDepth := limits.maxActionDepth + deeper
    maxActionNodes := limits.maxActionNodes + more
    positive := by
      have positive := limits.positive
      simp only [List.mem_cons, List.not_mem_nil, or_false, forall_eq_or_imp, forall_eq] at positive ⊢
      omega }

/-- One of the two limits of the walk left its reason. -/
def Unfollowed (s : Inspection) : Prop :=
  lit "action_depth_limit" ∈ s.partialReasons ∨ lit "action_node_limit" ∈ s.partialReasons

theorem Walked.marks {s s' : Inspection} (walked : Walked limits s s') : Marks Unfollowed s s' :=
  Or.imp (fun member => walked.reasons member) fun member => walked.reasons member

theorem enterAction_agree (deeper more : Nat) (action : Wrapper) :
    Agree (· = .recursion) Unfollowed (enterAction limits action) (enterAction (limits.raise deeper more) action) := by
  intro s _ followed
  unfold enterAction at followed ⊢
  by_cases visited : objectKey action ∈ s.visitedActions
  · simp only [visited, if_true]
  · by_cases reached : limits.maxActionNodes ≤ s.actionNodesVisited
    · simp only [visited, reached, if_true, if_false] at followed
      exact absurd (Or.inr (List.mem_insert_self ..)) followed
    · have before : ¬ (limits.raise deeper more).maxActionNodes ≤ s.actionNodesVisited := by
        show ¬ limits.maxActionNodes + more ≤ s.actionNodesVisited
        omega
      simp only [visited, reached, before, if_false]

theorem eachItem_agree {mark : Inspection → Prop} {F : Raised → Prop} {body body' : Wrapper → List Nat → Walk Unit}
    {live previous : List Nat} {items : List (Item Obj)}
    (counted : ∀ s n, Marks mark s { s with wrappers := n })
    (stays : ∀ child alive, Moves (Marks mark) F (body child alive))
    (each : ∀ child alive, Agree (· = .recursion) mark (body child alive) (body' child alive)) :
    Agree (· = .recursion) mark (eachItem lib doc body live previous items)
      (eachItem lib doc body' live previous items) := by
  have trans : ∀ s t u, Marks mark s t → Marks mark t u → Marks mark s u := fun _ _ _ first second => second ∘ first
  have refl : ∀ s, Marks mark s s := fun _ => id
  induction items generalizing previous with
  | nil => exact agree_refl _
  | cons item rest ih =>
    have later (alive : List Nat) : Moves (Marks mark) F (eachItem lib doc body live alive rest) :=
      eachItem_moves lib doc trans refl counted fun _ _ child alive _ => stays child alive
    apply agree_bind (F := F) (agree_refl _)
    · intro child
      exact moves_bind trans (stays child _) fun _ => later _
    · intro child
      exact agree_bind (each child _) (fun _ => later _) fun _ => ih

/-- With higher limits and more frames the walk does the same, unless one of the limits has left its reason. -/
theorem walkAction_agree (deeper more extra : Nat) {frames : Nat} {action : Wrapper} {live : List Nat} {source : Text}
    {depth : Nat} : Agree (· = .recursion) Unfollowed (walkAction lib doc limits frames action live source depth)
      (walkAction lib doc (limits.raise deeper more) (frames + extra) action live source depth) := by
  have walks (frames : Nat) (action : Wrapper) (live : List Nat) (depth : Nat) :
      Moves (Marks Unfollowed) (fun _ => True) (walkAction lib doc limits frames action live source depth) :=
    moves_weaken (walkAction_moves lib doc limits frames action live source depth)
      (fun _ _ walked => walked.marks) fun _ _ => trivial
  have trans : ∀ s t u, Marks Unfollowed s t → Marks Unfollowed t u → Marks Unfollowed s u :=
    fun _ _ _ first second => second ∘ first
  have refl : ∀ s, Marks Unfollowed s s := fun _ => id
  have records {α : Type} {m : Walk α} (recorded : Records m) : Moves (Marks Unfollowed) (fun _ => True) m :=
    moves_weaken recorded (fun _ _ moved => (moved.walked limits).marks) fun _ _ => trivial
  induction frames generalizing action live depth with
  | zero =>
    intro s raises _
    exact absurd rfl (raises .recursion rfl)
  | succ frames ih =>
    have turned : frames + 1 + extra = frames + extra + 1 := by omega
    rw [turned]
    unfold walkAction
    by_cases beyond : limits.maxActionDepth < depth
    · simp only [beyond, if_true]
      intro s _ followed
      exact absurd (Or.inl (List.mem_insert_self ..)) followed
    · have within : ¬ (limits.raise deeper more).maxActionDepth < depth := by
        show ¬ limits.maxActionDepth + deeper < depth
        omega
      simp only [beyond, within, if_false]
      split
      · exact eachItem_agree lib doc (fun _ _ => id) (fun child alive => walks _ _ _ _) fun child alive => ih
      · split
        · exact agree_refl _
        · have next (item : Item Obj) : Moves (Marks Unfollowed) (fun _ => True) (access lib doc item live >>= fun next =>
              walkAction lib doc limits frames next (next.address :: live) source (depth + 1)) :=
            moves_bind trans (access_moves lib doc trans refl (fun _ _ => id) _ _) fun _ => walks _ _ _ _
          apply agree_bind (F := fun _ => True) (enterAction_agree limits deeper more action)
          · intro entered
            split
            · apply moves_bind trans (records (recordAction_records lib doc limits _ source))
              intro _
              split
              · exact moves_pure refl ()
              · exact next _
            · exact moves_pure refl ()
          · intro entered
            split
            · refine agree_bind (F := fun _ => True) (agree_refl _) ?_ ?_
              · intro _
                split
                · exact moves_pure refl ()
                · exact next _
              intro _
              cases get doc action.value (lit "/Next") with
              | none => exact agree_refl _
              | some item => exact agree_bind (agree_refl _) (fun _ => walks _ _ _ _) fun _ => ih
            · exact agree_refl _

/-! ### Arrays in arrays use up the frames -/

/-- No more action is entered. -/
def Exhausted (s : Inspection) : Prop := limits.maxActionNodes ≤ s.actionNodesVisited

/-- The frames are used up, or the command returns with `fact` and still no action is entered. -/
def Spent (fact : Prop) (result : Except Raised Unit) (s : Inspection) : Prop :=
  result = .error .recursion ∨ result = .ok () ∧ Exhausted limits s ∧ fact

theorem eachItem_spent {frames : Nat} {body : Wrapper → List Nat → Walk Unit} {live previous : List Nat}
    {items : List (Item Obj)} (each : ∀ child alive, Ensures (Exhausted limits) (body child alive)
      (Spent limits (NestedWithin doc frames child.value))) :
    Ensures (Exhausted limits) (eachItem lib doc body live previous items)
      (Spent limits (∀ item ∈ items, NestedWithin doc frames (doc.value item))) := by
  induction items generalizing previous with
  | nil => exact ensures_pure fun s exhausted => Or.inr ⟨rfl,exhausted,nofun⟩
  | cons item rest ih =>
    have accessed : Ensures (Exhausted limits) (access lib doc item (previous ++ live)) fun result s =>
        Exhausted limits s ∧ ∃ child, result = .ok child ∧ child.value = doc.value item :=
      fun s exhausted => ⟨exhausted,_,rfl,rfl⟩
    have body_rest (child : Wrapper) (value : child.value = doc.value item) (alive later : List Nat) :
        Ensures (Exhausted limits) (body child alive >>= fun _ => eachItem lib doc body live later rest)
          (Spent limits (∀ item' ∈ item :: rest, NestedWithin doc frames (doc.value item'))) := by
      refine ensures_bind (each child alive) ?_ ?_
      · rintro ⟨⟩ s (raised | ⟨_,exhausted,nested⟩)
        · cases raised
        · rcases ih s exhausted with raised | ⟨returned,exhausted,others⟩
          · exact Or.inl raised
          · rw [value] at nested
            exact Or.inr ⟨returned,exhausted,List.forall_mem_cons.mpr ⟨nested,others⟩⟩
      · rintro e s (raised | ⟨returned,_⟩)
        · exact Or.inl raised
        · cases returned
    refine ensures_bind accessed ?_ ?_
    · rintro child s ⟨exhausted,_,⟨⟩,value⟩
      exact body_rest child value _ _ s exhausted
    · rintro e s ⟨_,child,returned,_⟩
      cases returned

theorem enterAction_exhausted (action : Wrapper) : Ensures (Exhausted limits) (enterAction limits action)
    fun result s => result = .ok false ∧ Exhausted limits s := by
  intro s exhausted
  have reached : limits.maxActionNodes ≤ s.actionNodesVisited := exhausted
  unfold enterAction
  by_cases visited : objectKey action ∈ s.visitedActions
  · rw [if_pos visited]
    exact ⟨rfl,exhausted⟩
  · rw [if_neg visited, if_pos reached]
    exact ⟨rfl,exhausted⟩

theorem walkAction_spent {frames : Nat} {action : Wrapper} {live : List Nat} {source : Text} {depth : Nat}
    (within : depth ≤ limits.maxActionDepth) :
    Ensures (Exhausted limits) (walkAction lib doc limits frames action live source depth)
      (Spent limits (NestedWithin doc frames action.value)) := by
  induction frames generalizing action live with
  | zero => exact ensures_raise fun _ _ => Or.inl rfl
  | succ frames ih =>
    have followed : ¬ limits.maxActionDepth < depth := by omega
    unfold walkAction
    simp only [followed, if_false]
    split
    · rename_i items array
      rw [array]
      refine ensures_mono (eachItem_spent lib doc limits fun child alive => ih) (fun _ => id) ?_
      rintro result s (raised | ⟨returned,exhausted,nested⟩)
      · exact Or.inl raised
      · refine Or.inr ⟨returned,exhausted,?_⟩
        intro items' same
        cases same
        exact nested
    · rename_i other
      have nested : NestedWithin doc (frames + 1) action.value := fun items array => absurd array (other items)
      split
      · exact ensures_pure fun s exhausted => Or.inr ⟨rfl,exhausted,nested⟩
      · refine ensures_bind (enterAction_exhausted limits action) ?_ ?_
        · rintro entered s ⟨⟨⟩,exhausted⟩
          exact Or.inr ⟨rfl,exhausted,nested⟩
        · rintro e s ⟨⟨⟩,_⟩

/-! ### The files over which the walk keeps its budgets -/

/-- From every object that the walk reaches from the start, and in every state, it returns with the frames that the depth
    limit grants it, counts every action that it enters and enters no more than it may, and, unless one of the two limits
    has left its reason, does what it would do under any higher limits. -/
structure KeepsBudgets (frames : Nat → Nat) (doc : Document) (start : Obj) : Prop where
  returns : ∀ lib limits action live source depth s, Reached doc start action.value →
    (walkAction lib doc limits (frames limits.maxActionDepth) action live source depth s).1 ≠ .error .recursion
  enters : ∀ lib limits action live source depth s, s.visitedActions.length = s.actionNodesVisited →
    s.actionNodesVisited ≤ limits.maxActionNodes →
    let s' := (walkAction lib doc limits (frames limits.maxActionDepth) action live source depth s).2
    s'.visitedActions.length = s'.actionNodesVisited ∧ s'.actionNodesVisited ≤ limits.maxActionNodes
  follows : ∀ lib limits deeper more extra action live source depth s, Reached doc start action.value →
    let walked := walkAction lib doc limits (frames limits.maxActionDepth) action live source depth s
    ¬ Unfollowed walked.2 →
    walkAction lib doc (limits.raise deeper more) (frames limits.maxActionDepth + extra) action live source depth s = walked

theorem nested_keeps {levels : Nat} {start : Obj}
    (nested : ∀ value, Reached doc start value → NestedWithin doc levels value) :
    KeepsBudgets (enoughFrames levels) doc start := by
  have returns (lib : Library) (limits : PdfAnalysisLimits) (action : Wrapper) (live : List Nat) (source : Text)
      (depth : Nat) (s : Inspection) (reached : Reached doc start action.value) :
      (walkAction lib doc limits (enoughFrames levels limits.maxActionDepth) action live source depth s).1 ≠
        .error .recursion := by
    have enough : levels + 1 + (levels + 1) * (limits.maxActionDepth + 1 - depth) ≤
        enoughFrames levels limits.maxActionDepth := by
      have fewer : (levels + 1) * (limits.maxActionDepth + 1 - depth) ≤ (levels + 1) * (limits.maxActionDepth + 1) :=
        Nat.mul_le_mul_left _ (by omega)
      simp only [enoughFrames, Nat.mul_add] at fewer ⊢
      omega
    intro raised
    exact (walkAction_returns lib doc limits nested reached (nested _ reached) enough s).2 _ raised rfl
  refine ⟨returns,?_,?_⟩
  · intro lib limits action live source depth s counted within
    have walked := (walkAction_moves lib doc limits (enoughFrames levels limits.maxActionDepth) action live source depth s).1
    exact ⟨walked.counted counted,walked.within within⟩
  · intro lib limits deeper more extra action live source depth s reached walked followed
    apply walkAction_agree lib doc limits deeper more extra s _ followed
    intro e raised same
    subst same
    exact returns lib limits action live source depth s reached raised

/-- A library that puts each wrapper behind all others and reads nothing. -/
def plainLibrary : Library where
  pick _ live := live.sum + 1
  fresh _ live member := by
    have := List.single_le_sum (l := live) (by simp) _ member
    omega
  str _ := .ok []
  readBytes _ := .ok []
  urlsplit _ := none
  casefold := id
  isOther _ := false

def DEFAULT_PDF_LIMITS : PdfAnalysisLimits := {}

theorem keeps_nested {frames : Nat → Nat} {start value : Obj} (keeps : KeepsBudgets frames doc start)
    (reached : Reached doc start value) : NestedWithin doc (frames DEFAULT_PDF_LIMITS.maxActionDepth) value := by
  have exhausted : Exhausted DEFAULT_PDF_LIMITS { actionNodesVisited := DEFAULT_PDF_LIMITS.maxActionNodes } := le_refl _
  have returned := keeps.returns plainLibrary DEFAULT_PDF_LIMITS ⟨none,value,0⟩ [] [] 0
    { actionNodesVisited := DEFAULT_PDF_LIMITS.maxActionNodes } reached
  rcases walkAction_spent plainLibrary doc DEFAULT_PDF_LIMITS (Nat.zero_le _) _ exhausted with raised | ⟨_,_,nested⟩
  · exact absurd raised returned
  · exact nested

/-- Over a class of files and starting objects the walk keeps its budgets, with frames bounded by the depth limit alone,
    exactly if the arrays that it reaches nest in arrays only so deep in all of them. -/
theorem keeps_budgets_iff (files : Document → Obj → Prop) :
    (∃ frames, ∀ doc start, files doc start → KeepsBudgets frames doc start) ↔
      ∃ levels, ∀ doc start, files doc start → ∀ value, Reached doc start value → NestedWithin doc levels value := by
  constructor
  · rintro ⟨frames,keeps⟩
    exact ⟨frames DEFAULT_PDF_LIMITS.maxActionDepth,fun doc start file value reached =>
      keeps_nested doc (keeps doc start file) reached⟩
  · rintro ⟨levels,nested⟩
    exact ⟨enoughFrames levels,fun doc start file => nested_keeps doc (nested doc start file)⟩

/-- An action that is its own `/Next` is entered once. -/
example : (walkAction plainLibrary ⟨[((4,0),.dictionary [(lit "/S",.direct (.name (lit "/GoTo"))),
    (lit "/Next",.reference 4 0)])]⟩ DEFAULT_PDF_LIMITS 9 ⟨some (4,0),.dictionary [(lit "/S",.direct (.name (lit "/GoTo"))),
      (lit "/Next",.reference 4 0)],1⟩ [1] (lit "OpenAction") 0 {}).2.actionTypes = [(lit "GoTo",1)] := by
  rfl

/-- `5 0 obj [5 0 R] endobj` -/
def selfArray : Document := ⟨[((5,0),.array [.reference 5 0])]⟩

theorem selfArray_recursion {frames : Nat} {action : Wrapper} {live : List Nat}
    (same : action.value = selfArray.object 5 0) :
    Ensures (fun _ => True) (walkAction plainLibrary selfArray DEFAULT_PDF_LIMITS frames action live (lit "Page") 0)
      fun result _ => result = .error .recursion := by
  induction frames generalizing action live with
  | zero => exact ensures_raise fun _ _ => rfl
  | succ frames ih =>
    have array : action.value = .array [.reference 5 0] := same
    have accessed : Ensures (fun _ => True) (access plainLibrary selfArray (.reference 5 0) ([] ++ live))
        fun result _ => ∃ child, result = .ok child ∧ child.value = selfArray.object 5 0 :=
      fun s _ => ⟨_,rfl,rfl⟩
    have element {child : Wrapper} (value : child.value = selfArray.object 5 0) (alive : List Nat)
        (rest : Unit → Walk Unit) : Ensures (fun _ => True)
          (walkAction plainLibrary selfArray DEFAULT_PDF_LIMITS frames child alive (lit "Page") 0 >>= rest)
          fun result _ => result = .error .recursion := by
      refine ensures_bind (ih value) ?_ ?_
      · rintro a s ⟨⟩
      · intro e s raised
        exact raised
    unfold walkAction
    rw [if_neg (by decide), array]
    refine ensures_bind accessed ?_ ?_
    · rintro child s ⟨_,⟨⟩,value⟩
      exact element value _ _ s trivial
    · rintro e s ⟨child,⟨⟩,_⟩

/-- The walk over an array that is its own element uses up any number of frames. -/
theorem selfArray_unending : selfArray.value (.reference 5 0) = .array [.reference 5 0] ∧ ∀ frames,
    (walkAction plainLibrary selfArray DEFAULT_PDF_LIMITS frames ⟨some (5,0),selfArray.object 5 0,1⟩ [1] (lit "Page") 0
      {}).1 = .error .recursion :=
  ⟨rfl,fun _ => selfArray_recursion rfl _ trivial⟩

end DocGuard.Pdf
