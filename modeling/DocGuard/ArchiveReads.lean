import DocGuard.ArchiveSteps

/-!
What the reading of a member yields when no budget stops it: it depends on the
member only, not on the sizes of the chunks, which the budgets decide. A ZIP in
the member is then found by its signature and read as a whole.
-/
namespace DocGuard.Archive
open DocGuard.Commands

variable (lib : Library) (limits : ArchiveAnalysisLimits)

/-- What a member yields without the budgets: its content if it is a ZIP, or the exception of its library. -/
def outcome (member : Member) : Except Exn (Option Bytes) :=
  match member.openRaises with
  | some e => .error e
  | none =>
    match member.raises with
    | some (reached,e) =>
      if reached ≤ member.content.length then .error e
      else .ok (if isZip member.content then some member.content else none)
    | none => .ok (if isZip member.content then some member.content else none)

/-- Only what is counted of bytes, and the history, may differ. -/
structure BytesOnly (s s' : Inspection) : Prop where
  counts : s'.counts = s.counts
  partials : s'.partialReasons = s.partialReasons
  resources : s'.resourceReasons = s.resourceReasons
  malformed : s'.malformedReasons = s.malformedReasons
  digests : s'.seenNestedDigests = s.seenNestedDigests

theorem BytesOnly.refl (s : Inspection) : BytesOnly s s := ⟨rfl,rfl,rfl,rfl,rfl⟩

theorem BytesOnly.trans {s t u : Inspection} (first : BytesOnly s t) (second : BytesOnly t u) : BytesOnly s u :=
  ⟨second.counts.trans first.counts,second.partials.trans first.partials,second.resources.trans first.resources,
    second.malformed.trans first.malformed,second.digests.trans first.digests⟩

/-- A budget has stopped the reading, and the state says so. -/
structure Stopped {α : Type} (s : Inspection) (ended : Except Raised α × Inspection) : Prop where
  raised : ended.1 = .error .stop
  marked : ended.2.resourceReasons ≠ []
  grows : s.resourceReasons ⊆ ended.2.resourceReasons

/-- A part of the reading is stopped, or ends as it says and changes what is counted of bytes only. -/
def Yields {α : Type} (m : Walk α) (s : Inspection) (post : Except Exn α → Prop) : Prop :=
  Stopped s (m s) ∨ ∃ result, (m s).1 = result.mapError .library ∧ post result ∧ BytesOnly s (m s).2

variable {lib limits} {α β : Type} {s : Inspection}

theorem yields_pure {a : α} {post : Except Exn α → Prop} (holds : post (.ok a)) : Yields (pure a) s post :=
  .inr ⟨.ok a,rfl,holds,BytesOnly.refl s⟩

theorem Stopped.weaken {s t : Inspection} {ended : Except Raised α × Inspection} (stopped : Stopped t ended)
    (same : BytesOnly s t) : Stopped s ended :=
  ⟨stopped.raised,stopped.marked,same.resources ▸ stopped.grows⟩

theorem yields_bind {m : Walk α} {k : α → Walk β} {first : Except Exn α → Prop} {post : Except Exn β → Prop}
    (before : Yields m s first)
    (rest : ∀ a, first (.ok a) → ∀ t, (m s) = (.ok a,t) → BytesOnly s t → Yields (k a) t post)
    (raises : ∀ e, first (.error e) → post (.error e)) : Yields (m >>= k) s post := by
  cases ended : m s with
  | mk result t =>
  rcases before with stopped | ⟨reached,same,holds,only⟩
  · rw [ended] at stopped
    have raised : result = .error .stop := stopped.raised
    subst raised
    refine .inl ?_
    rw [bind_raised ended]
    exact ⟨rfl,stopped.marked,stopped.grows⟩
  · rw [ended] at same only
    dsimp only at same only
    cases reached with
    | error e =>
      have raised : result = .error (.library e) := same
      subst raised
      refine .inr ⟨.error e,?_,raises e holds,?_⟩
      · rw [bind_raised ended]
        rfl
      · rw [bind_raised ended]
        exact only
    | ok a =>
      have returned : result = .ok a := same
      subst returned
      rw [Yields,bind_returned ended]
      rcases rest a holds t ended only with stopped | ⟨last,same',holds',only'⟩
      · exact .inl (stopped.weaken only)
      · exact .inr ⟨last,same',holds',only.trans only'⟩

theorem yields_observe {γ : Type} {f : Inspection → γ} {k : γ → Walk β} {post : Except Exn β → Prop}
    (rest : Yields (k (f s)) s post) : Yields (Command.observe f >>= k) s post :=
  rest

theorem stopReading_stops (reason : Reason) (around : List ZipInfo) (s : Inspection) :
    Stopped s (stopReading (α := α) limits reason around s) := by
  have marked (r : Reason) : r ∈ s.resourceReasons.insert reason ↔ r = reason ∨ r ∈ s.resourceReasons :=
    List.mem_insert_iff
  simp only [stopReading,markResource,Command.update,Command.raise,bind]
  split
  all_goals
    refine ⟨rfl,List.ne_nil_of_mem ((marked reason).mpr (.inl rfl)),fun r member => (marked r).mpr (.inr member)⟩

theorem accountActualBytes_yields (around : List ZipInfo) (chunk : Bytes) (memberBytes : Nat) :
    Yields (accountActualBytes limits around chunk memberBytes) s fun result =>
      result = .ok (memberBytes + chunk.length) ∧ memberBytes + chunk.length ≤ limits.maxMemberBytes ∧
        s.actualDecompressedBytes + chunk.length ≤ limits.maxTotalDecompressedBytes := by
  let t : Inspection := { s with
    actualDecompressedBytes := s.actualDecompressedBytes + chunk.length
    history := { s.history with mostYielded := max s.history.mostYielded (memberBytes + chunk.length) } }
  have only : BytesOnly s t := ⟨rfl,rfl,rfl,rfl,rfl⟩
  have run : accountActualBytes limits around chunk memberBytes s =
      if limits.maxMemberBytes < memberBytes + chunk.length then stopReading limits .memberActualByteLimit around t
      else if limits.maxTotalDecompressedBytes < s.actualDecompressedBytes + chunk.length then
        stopReading limits .totalActualByteLimit around t
      else (.ok (memberBytes + chunk.length),t) := by
    simp only [accountActualBytes,Command.update,Command.observe,bind,id]
    split
    · rfl
    · split <;> rfl
  rw [Yields,run]
  split_ifs with long more
  · exact .inl ((stopReading_stops _ around t).weaken only)
  · exact .inl ((stopReading_stops _ around t).weaken only)
  · exact .inr ⟨_,rfl,⟨rfl,Nat.le_of_not_lt long,Nat.le_of_not_lt more⟩,only⟩

theorem appendNested_yields (around : List ZipInfo) (chunk : Bytes) :
    Yields (appendNested limits around chunk) s fun result => result = .ok () := by
  unfold appendNested Yields
  simp only [Command.observe,bind,id]
  split
  · exact .inl (stopReading_stops _ around s)
  · exact .inr ⟨.ok (),rfl,rfl,rfl,rfl,rfl,rfl,rfl⟩

/-- What is left of a member after some of it has been read, with the part of a ZIP that was kept. -/
def ending (member : Member) (nested : Option Bytes) : Except Exn (Option Bytes) :=
  match member.raises with
  | some (reached,e) => if reached ≤ member.content.length then .error e else .ok (nested.map fun _ => member.content)
  | none => .ok (nested.map fun _ => member.content)

/-- The exception that a read raises, if any, is the one of the member, at an offset within it. -/
theorem read_raises {member : Member} {offset n : Nat} {e : Exn} (within : offset ≤ member.content.length)
    (raised : member.read offset n = .error e) :
    ∃ reached, member.raises = some (reached,e) ∧ reached ≤ member.content.length := by
  unfold Member.read at raised
  dsimp only at raised
  split at raised
  · rename_i reached e' raises
    split at raised
    · rename_i early
      cases raised
      rw [List.length_take,List.length_drop] at early
      exact ⟨reached,raises,by omega⟩
    · cases raised
  · cases raised

/-- A read that returns yields the next bytes, and nothing only at the end of a member that raises nothing. -/
theorem read_returns {member : Member} {offset n : Nat} {chunk : Bytes} (returned : member.read offset n = .ok chunk) :
    chunk = (member.content.drop offset).take (max 1 (min n (member.returned offset))) ∧
      ∀ reached e, member.raises = some (reached,e) → offset + chunk.length < reached := by
  unfold Member.read at returned
  dsimp only at returned
  split at returned
  · rename_i reached e raises
    split at returned
    · cases returned
    · rename_i late
      cases returned
      refine ⟨rfl,fun reached' e' same => ?_⟩
      rw [raises] at same
      cases same
      exact Nat.lt_of_not_le late
  · rename_i never
    cases returned
    refine ⟨rfl,fun reached e same => ?_⟩
    rw [never] at same
    cases same

theorem ending_raises {member : Member} {nested : Option Bytes} {reached : Nat} {e : Exn}
    (raises : member.raises = some (reached,e)) (within : reached ≤ member.content.length) :
    ending member nested = .error e := by
  simp only [ending,raises,if_pos within]

theorem ending_returns {member : Member} {nested : Option Bytes}
    (never : ∀ reached e, member.raises = some (reached,e) → member.content.length < reached) :
    ending member nested = .ok (nested.map fun _ => member.content) := by
  unfold ending
  split
  · rename_i reached e raises
    exact if_neg (Nat.not_le_of_lt (never reached e raises))
  · rfl

theorem readChunk_yields {member : Member} {offset n : Nat} :
    Yields (readChunk member offset n) s fun result => result = member.read offset n :=
  .inr ⟨member.read offset n,rfl,rfl,BytesOnly.refl s⟩

/-- The loop reads a member to its end, unless a budget stops it. -/
theorem readRest_yields {around : List ZipInfo} {member : Member} {turns : Nat} {first : Bytes} {memberBytes : Nat}
    {nested : Option Bytes} (within : memberBytes ≤ member.content.length)
    (enough : member.content.length - memberBytes < turns)
    (kept : ∀ target, nested = some target → target = member.content.take memberBytes)
    (ended : first = [] → memberBytes = member.content.length ∧
      ∀ reached e, member.raises = some (reached,e) → member.content.length < reached) :
    Yields (readRest limits around member turns first memberBytes nested) s fun result => result = ending member nested := by
  induction turns generalizing s first memberBytes nested with
  | zero => omega
  | succ turns ih =>
    have complete (target : Bytes) (whole : memberBytes = member.content.length) (same : nested = some target) :
        target = member.content := by
      rw [kept target same,whole,List.take_length]
    have finished (whole : memberBytes = member.content.length)
        (never : ∀ reached e, member.raises = some (reached,e) → member.content.length < reached) :
        .ok nested = ending member nested := by
      rw [ending_returns never]
      cases same : nested with
      | none => rfl
      | some target => rw [complete target whole same]; rfl
    unfold readRest
    split
    · rename_i nothing
      obtain ⟨whole,never⟩ := ended nothing
      exact yields_pure (finished whole never)
    · refine yields_observe (yields_bind readChunk_yields (fun chunk returned t _ _ => ?_) fun e raised => ?_)
      · obtain ⟨taken,late⟩ := read_returns returned.symm
        have length : chunk.length ≤ member.content.length - memberBytes := by
          rw [taken,List.length_take,List.length_drop]
          exact Nat.min_le_right _ _
        split
        · rename_i nothing
          rw [nothing] at taken
          have rest : member.content.drop memberBytes = [] := by
            by_contra some
            have positive := List.length_pos_of_ne_nil some
            have none := congrArg List.length taken
            rw [List.length_take,List.length_nil] at none
            omega
          have whole : memberBytes = member.content.length := Nat.le_antisymm within (List.drop_eq_nil_iff.mp rest)
          refine yields_pure (finished whole fun reached e raises => ?_)
          have reachable := late reached e raises
          rw [nothing,List.length_nil] at reachable
          omega
        · rename_i some
          have positive := List.length_pos_of_ne_nil some
          refine yields_bind (accountActualBytes_yields around chunk memberBytes) (fun total accounted t' _ _ => ?_)
            (fun e impossible => by cases impossible.1)
          obtain rfl := Except.ok.inj accounted.1
          have turn {u : Inspection} {nested' : Option Bytes}
              (kept' : ∀ target, nested' = Option.some target → target = member.content.take (memberBytes + chunk.length))
              (same : ending member nested' = ending member nested) :
              Yields (readRest limits around member turns chunk (memberBytes + chunk.length) nested') u
                fun result => result = ending member nested :=
            same ▸ ih (by omega) (by omega) kept' fun none => absurd none some
          have grown (target : Bytes) (before : target = member.content.take memberBytes) :
              target ++ chunk = member.content.take (memberBytes + chunk.length) := by
            have part : (member.content.drop memberBytes).take chunk.length = chunk := by
              rw [taken,List.length_take,← List.take_eq_take_min]
            rw [before,List.take_add,part]
          cases nested with
          | none => exact turn (fun _ impossible => by cases impossible) rfl
          | some target =>
            refine yields_bind (appendNested_yields around chunk) (fun _ _ _ _ _ => turn ?_ rfl)
              (fun e impossible => by cases impossible)
            intro grownTarget same
            obtain rfl := Option.some.inj same
            exact grown target (kept target rfl)
      · obtain ⟨reached,raises,early⟩ := read_raises within raised.symm
        exact (ending_raises raises early).symm

/-! ### The first read -/

/-- A stream returns the four bytes that are asked for first, unless the member is shorter. -/
def Member.Full (member : Member) : Prop := 4 ≤ member.returned 0

theorem isZip_take (data : Bytes) : isZip (data.take 4) = isZip data := by
  have four {signature : Bytes} (length : signature.length = 4) :
      signature.isPrefixOf (data.take 4) = signature.isPrefixOf data := by
    rw [Bool.eq_iff_iff,List.isPrefixOf_iff_prefix,List.isPrefixOf_iff_prefix]
    exact ⟨fun inside => inside.trans (List.take_prefix 4 data),
      fun inside => List.prefix_take_iff.mpr ⟨inside,Nat.le_of_eq length⟩⟩
  simp only [isZip,List.any_cons,List.any_nil]
  rw [four rfl,four rfl,four rfl]

/-- The first bytes show the signature of the whole member, unless a budget is exceeded by them. -/
theorem isZip_first {member : Member} (full : member.Full) {chunk : Bytes}
    (returned : member.read 0 (nextReadSize limits s.toState 0 4 false) = .ok chunk)
    (fits : chunk.length ≤ limits.maxMemberBytes)
    (together : s.actualDecompressedBytes + chunk.length ≤ limits.maxTotalDecompressedBytes) :
    isZip chunk = isZip member.content := by
  obtain ⟨taken,_⟩ := read_returns returned
  rw [List.drop_zero] at taken
  unfold Member.Full at full
  have size : nextReadSize limits s.toState 0 4 false =
      max 1 (min 4 (min (limits.maxMemberBytes + 1) (limits.maxTotalDecompressedBytes + 1 - s.actualDecompressedBytes))) := by
    simp [nextReadSize]
  have length := congrArg List.length taken
  rw [List.length_take] at length
  by_cases whole : nextReadSize limits s.toState 0 4 false = 4
  · rw [taken,whole,Nat.min_eq_left full]
    exact isZip_take member.content
  · -- The read asks for as many bytes as a budget still allows and one more.
    have all : chunk = member.content := by
      rw [taken]
      exact List.take_of_length_le (by omega)
    rw [all]

theorem first_taken {member : Member} {n : Nat} {chunk : Bytes} (returned : member.read 0 n = .ok chunk) :
    chunk = member.content.take chunk.length ∧ chunk.length ≤ member.content.length := by
  obtain ⟨taken,_⟩ := read_returns returned
  rw [List.drop_zero] at taken
  constructor
  · conv_rhs => rw [taken,List.length_take,← List.take_eq_take_min]
    exact taken
  · rw [taken,List.length_take]
    exact Nat.min_le_right _ _

/-- If nothing is read at first, the member is empty and its reading does not raise. -/
theorem first_nothing {member : Member} {n : Nat} (returned : member.read 0 n = .ok []) :
    member.content = [] ∧ ∀ reached e, member.raises = some (reached,e) → member.content.length < reached := by
  obtain ⟨taken,late⟩ := read_returns returned
  have empty : member.content = [] := by
    rw [List.drop_zero] at taken
    have length := congrArg List.length taken
    rw [List.length_take,List.length_nil] at length
    exact List.eq_nil_of_length_eq_zero (by omega)
  refine ⟨empty,fun reached e raises => ?_⟩
  rw [empty]
  exact late reached e raises

theorem outcome_opened {member : Member} (opened : member.openRaises = none) {nested : Option Bytes}
    (found : nested.isSome = isZip member.content) : outcome member = ending member nested := by
  have same : (if isZip member.content then some member.content else none) = nested.map fun _ => member.content := by
    rw [← found]
    cases nested with
    | none => rfl
    | some _ => rfl
  simp only [outcome,ending,opened,same]

/-- The reading of a member is stopped by a budget, or yields what the member is without the budgets. -/
theorem readMember_yields {member : Member} (full : member.Full) (around : List ZipInfo) :
    Yields (readMember limits around member) s fun result => result = outcome member := by
  cases opened : member.openRaises with
  | some e =>
    have raised : openMember limits member s = (.error (.library e),s) := by simp only [openMember,opened]
    refine .inr ⟨.error e,?_,?_,?_⟩
    · rw [readMember,bind_raised raised]
      rfl
    · simp only [outcome,opened]
    · rw [readMember,bind_raised raised]
      exact BytesOnly.refl s
  | none =>
    have opens : Yields (openMember limits member) s fun result => result = .ok () := by
      refine .inr ⟨.ok (),?_,rfl,?_⟩
      · simp only [openMember,opened]
        rfl
      · simp only [openMember,opened]
        exact ⟨rfl,rfl,rfl,rfl,rfl⟩
    refine yields_bind opens (fun _ _ t _ _ => ?_) (fun e impossible => by cases impossible)
    refine yields_observe (yields_bind readChunk_yields (fun first returned u ran _ => ?_) fun e raised => ?_)
    · have unchanged : u = t := congrArg Prod.snd ran.symm
      subst unchanged
      obtain ⟨taken,within⟩ := first_taken returned.symm
      refine yields_bind (accountActualBytes_yields around first 0) (fun total accounted v _ _ => ?_)
        (fun e impossible => by cases impossible.1)
      obtain ⟨same,fits,together⟩ := accounted
      rw [Nat.zero_add] at same fits
      obtain rfl := Except.ok.inj same
      have shown := isZip_first full returned.symm fits together
      have rest {w : Inspection} {nested : Option Bytes} (found : nested.isSome = isZip first)
          (kept : ∀ target, nested = some target → target = first) :
          Yields (readRest limits around member (member.content.length + 1) first first.length nested) w
            fun result => result = outcome member := by
        rw [outcome_opened opened (found.trans shown)]
        refine readRest_yields within (by omega) (fun target same => (kept target same).trans taken) fun nothing => ?_
        rw [nothing] at returned ⊢
        obtain ⟨empty,never⟩ := first_nothing returned.symm
        exact ⟨by rw [empty],never⟩
      split
      · rename_i zip
        refine yields_bind (appendNested_yields around first) (fun _ _ _ _ _ => rest zip.symm ?_)
          (fun e impossible => by cases impossible)
        exact fun target same => (Option.some.inj same).symm
      · rename_i other
        exact rest (Bool.eq_false_of_not_eq_true other).symm fun _ impossible => by cases impossible
    · obtain ⟨reached,raises,early⟩ := read_raises (Nat.zero_le _) raised.symm
      simp only [outcome,opened,raises,if_pos early]

end DocGuard.Archive
