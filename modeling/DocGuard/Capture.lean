import DocGuard.Orchestrator

/-!
The event loop that captures what the worker writes to its two output streams, with
the writes of the worker between any two of its steps. What is kept of a stream is
what was delivered of it up to its limit; unless the loop is cut short, everything
is delivered.
-/
namespace DocGuard.Capture
open DocGuard.Domain DocGuard.Orchestrator

abbrev Bytes := List UInt8

inductive Stream where
  | stdout
  | stderr
deriving DecidableEq

def Stream.all : List Stream := [.stdout,.stderr]

/-! ### The two sides -/

/-- A pipe on the side of the worker: what was written to it, and whether nobody can write to it any more. -/
structure Pipe where
  written : Bytes := []
  closed : Bool := false

/-- A stream on the side of the loop. -/
structure Captured where
  target : Bytes := []
  /-- What `os.read` has returned; no step reads it. -/
  delivered : Bytes := []
  registered : Bool := true

/-- Where the loop is. -/
inductive Phase where
  /-- At `while selector.get_map()`. -/
  | head
  /-- In the loop over the events; these are left, and there were some or none. -/
  | reading (left : List Stream) (any : Bool)
  | finished
deriving DecidableEq

structure State where
  pipes : Stream → Pipe := fun _ => {}
  captured : Stream → Captured := fun _ => {}
  timedOut : Bool := false
  outputLimitExceeded : Bool := false
  /-- How often the process group was killed. -/
  kills : Nat := 0
  phase : Phase := .head

/-- What `os.read` gives: `BlockingIOError`, or a chunk, which is empty at the end of the stream. -/
inductive Read where
  | blocked
  | chunk (data : Bytes)

def READ_BYTES : Nat := 65536

/-- What the operating system may give: a part of what is in the pipe, and the end of the stream only when the pipe is
    empty and closed. -/
def Possible (pipe : Pipe) (captured : Captured) : Read → Prop
  | .blocked => True
  | .chunk [] => pipe.closed = true ∧ captured.delivered = pipe.written
  | .chunk (b :: rest) => rest.length + 1 ≤ READ_BYTES ∧ captured.delivered ++ b :: rest <+: pipe.written

instance (pipe : Pipe) (captured : Captured) (read : Read) : Decidable (Possible pipe captured read) := by
  unfold Possible; split <;> infer_instance

variable (limits : Stream → Nat)

/-- `_kill_process_group`; the worker may go on writing for a while. -/
def killProcessGroup (s : State) : State := { s with kills := s.kills + 1 }

/-- `if time.monotonic() >= deadline and not timed_out` -/
def checkDeadline (late : Bool) (s : State) : State :=
  if late ∧ ¬ s.timedOut then killProcessGroup { s with timedOut := true } else s

def unregister (stream : Stream) (s : State) : State :=
  { s with captured := Function.update s.captured stream { s.captured stream with registered := false } }

/-- The handling of one event. -/
def handleEvent (stream : Stream) (read : Read) (s : State) : State :=
  match read with
  | .blocked => s
  | .chunk [] => unregister stream s
  | .chunk (b :: rest) =>
    let chunk := b :: rest
    let captured := s.captured stream
    let remaining := limits stream - captured.target.length
    let s := { s with captured := Function.update s.captured stream { captured with
      target := captured.target ++ chunk.take remaining
      delivered := captured.delivered ++ chunk } }
    if remaining < chunk.length ∧ ¬ s.outputLimitExceeded then killProcessGroup { s with outputLimitExceeded := true } else s

/-- The end of a turn; the streams are closed when the process has ended after a kill and nothing was ready. -/
def forceClose (polled any : Bool) (s : State) : State :=
  if (s.timedOut ∨ s.outputLimitExceeded) ∧ polled ∧ ¬ any then
    { s with captured := fun stream => { s.captured stream with registered := false } }
  else s

/-- What happens next, on one of the two sides. -/
inductive Act where
  | write (stream : Stream) (data : Bytes)
  | close (stream : Stream)
  /-- A turn of the loop up to `selector.select`, which reports these streams. -/
  | turn (late : Bool) (events : List Stream)
  /-- The read of the next event. -/
  | read (result : Read)
  /-- The end of the turn, with what `process.poll()` says. -/
  | endTurn (polled : Bool)
  | leave

def step (s : State) : Act → Option State
  | .write stream data =>
    let pipe := s.pipes stream
    if pipe.closed then none
    else some { s with pipes := Function.update s.pipes stream { pipe with written := pipe.written ++ data } }
  | .close stream =>
    some { s with pipes := Function.update s.pipes stream { s.pipes stream with closed := true } }
  | .turn late events =>
    if s.phase = .head ∧ (∃ stream ∈ Stream.all, (s.captured stream).registered) ∧ events.Nodup ∧
        ∀ stream ∈ events, (s.captured stream).registered then
      some { checkDeadline late s with phase := .reading events (!events.isEmpty) }
    else none
  | .read result =>
    match s.phase with
    | .reading (stream :: left) any =>
      if Possible (s.pipes stream) (s.captured stream) result then
        some { handleEvent limits stream result s with phase := .reading left any }
      else none
    | _ => none
  | .endTurn polled =>
    match s.phase with
    | .reading [] any => some { forceClose polled any s with phase := .head }
    | _ => none
  | .leave =>
    if s.phase = .head ∧ ∀ stream ∈ Stream.all, ¬ (s.captured stream).registered then some { s with phase := .finished }
    else none

/-- A run from the start of the loop. -/
def run (acts : List Act) : Option State := acts.foldlM (step limits) {}

/-! ### The result -/

structure WorkerExecution where
  stdout : Text
  stderr : Text
  exitCode : Int
  timedOut : Bool
  outputLimitExceeded : Bool

/-- The end of `_run_bounded_process`: the exit codes of the first wait and of the one after a kill, unless they take too
    long; `decode` is `bytes.decode("utf-8", errors="replace")`. -/
def execution (decode : Bytes → Text) (firstWait secondWait : Option Int) (s : State) : Option WorkerExecution :=
  (firstWait.orElse fun _ => secondWait).map fun exitCode =>
    { stdout := decode (s.captured .stdout).target
      stderr := decode (s.captured .stderr).target
      exitCode
      timedOut := s.timedOut
      outputLimitExceeded := s.outputLimitExceeded }

/-- What the orchestrator gets; `validate` is `AnalysisResult.model_validate_json`. -/
def WorkerExecution.validated (validate : Text → Except ValidationError AnalysisResult) (e : WorkerExecution) :
    Execution AnalysisResult :=
  .ended e.timedOut e.outputLimitExceeded e.exitCode (validate e.stdout)

/-! ### The invariant -/

/-- What holds of each stream; `cut` says that the loop is cut short. -/
structure Keeps (limit : Nat) (cut : Prop) (pipe : Pipe) (captured : Captured) : Prop where
  delivered : captured.delivered <+: pipe.written
  target : captured.target = captured.delivered.take limit
  ended : captured.registered = false → cut ∨ pipe.closed = true ∧ captured.delivered = pipe.written

structure Inv (s : State) : Prop where
  streams : ∀ stream, Keeps (limits stream) (s.timedOut = true ∨ s.outputLimitExceeded = true) (s.pipes stream)
    (s.captured stream)
  exceeded : s.outputLimitExceeded = true ↔ ∃ stream, limits stream < (s.captured stream).delivered.length
  finished : s.phase = .finished → ∀ stream, (s.captured stream).registered = false

variable {limits}

theorem Keeps.mono {limit : Nat} {cut cut' : Prop} {pipe : Pipe} {captured : Captured}
    (keeps : Keeps limit cut pipe captured) (more : cut → cut') : Keeps limit cut' pipe captured :=
  ⟨keeps.delivered,keeps.target,fun ended => (keeps.ended ended).imp more id⟩

theorem inv_init : Inv limits {} := by
  refine ⟨fun _ => ⟨List.prefix_refl _,List.take_nil.symm,nofun⟩,?_,nofun⟩
  simp

/-- The worker writes to a pipe that is open. -/
theorem keeps_write {limit : Nat} {cut : Prop} {pipe : Pipe} {captured : Captured} (keeps : Keeps limit cut pipe captured)
    (open_ : pipe.closed = false) (data : Bytes) :
    Keeps limit cut { pipe with written := pipe.written ++ data } captured := by
  refine ⟨keeps.delivered.trans (List.prefix_append ..),keeps.target,?_⟩
  intro ended
  rcases keeps.ended ended with cut | ⟨closed,_⟩
  · exact Or.inl cut
  · rw [open_] at closed
    cases closed

/-- A chunk is delivered, and kept as far as the limit allows. -/
theorem keeps_chunk {limit : Nat} {cut : Prop} {pipe : Pipe} {captured : Captured} (keeps : Keeps limit cut pipe captured)
    {chunk : Bytes} (some : chunk ≠ []) (possible : captured.delivered ++ chunk <+: pipe.written) :
    Keeps limit cut pipe { captured with
      target := captured.target ++ chunk.take (limit - captured.target.length)
      delivered := captured.delivered ++ chunk } := by
  refine ⟨possible,?_,?_⟩
  · show captured.target ++ chunk.take (limit - captured.target.length) = (captured.delivered ++ chunk).take limit
    rw [keeps.target, List.take_append, List.length_take]
    rcases Nat.le_total captured.delivered.length limit with short | long
    · rw [Nat.min_eq_right short]
    · have none : limit - captured.delivered.length = 0 := by omega
      rw [Nat.min_eq_left long, Nat.sub_self, none]
  · intro ended
    rcases keeps.ended ended with cut | ⟨_,all⟩
    · exact Or.inl cut
    · -- Nothing can be delivered after the end.
      have longer := possible.length_le
      have more := List.length_pos_of_ne_nil some
      rw [all, List.length_append] at longer
      omega

/-- A chunk passes the limit exactly if it does not fit into what remains. -/
theorem remaining_lt {limit : Nat} {cut : Prop} {pipe : Pipe} {captured : Captured} (keeps : Keeps limit cut pipe captured)
    {chunk : Bytes} (some : chunk ≠ []) :
    limit - captured.target.length < chunk.length ↔ limit < (captured.delivered ++ chunk).length := by
  have more := List.length_pos_of_ne_nil some
  rw [keeps.target, List.length_take, List.length_append]
  omega

/-! ### Steps -/

theorem inv_pipe {s : State} (inv : Inv limits s) (stream : Stream) {pipe : Pipe}
    (keeps : Keeps (limits stream) (s.timedOut = true ∨ s.outputLimitExceeded = true) pipe (s.captured stream)) :
    Inv limits { s with pipes := Function.update s.pipes stream pipe } := by
  refine ⟨?_,inv.exceeded,inv.finished⟩
  intro other
  by_cases same : other = stream
  · subst same
    simpa using keeps
  · simpa [same] using inv.streams other

theorem inv_checkDeadline {s : State} (inv : Inv limits s) (late : Bool) : Inv limits (checkDeadline late s) := by
  unfold checkDeadline
  split
  · exact ⟨fun stream => (inv.streams stream).mono fun _ => Or.inl rfl,inv.exceeded,inv.finished⟩
  · exact inv

theorem inv_phase {s : State} (inv : Inv limits s) {phase : Phase} (going : phase ≠ .finished) :
    Inv limits { s with phase := phase } :=
  ⟨inv.streams,inv.exceeded,fun finished => absurd finished going⟩

theorem inv_forceClose {s : State} (inv : Inv limits s) (polled any : Bool) : Inv limits (forceClose polled any s) := by
  unfold forceClose
  split
  · rename_i cut
    refine ⟨?_,inv.exceeded,fun _ _ => rfl⟩
    intro stream
    exact ⟨(inv.streams stream).delivered,(inv.streams stream).target,fun _ => Or.inl cut.1⟩
  · exact inv

theorem inv_unregister {s : State} (inv : Inv limits s) (stream : Stream) (closed : (s.pipes stream).closed = true)
    (all : (s.captured stream).delivered = (s.pipes stream).written) (going : s.phase ≠ .finished) :
    Inv limits (unregister stream s) := by
  refine ⟨?_,?_,fun finished => absurd finished going⟩
  · intro other
    by_cases same : other = stream
    · subst same
      have keeps := inv.streams other
      simp only [unregister, Function.update_self]
      exact ⟨keeps.delivered,keeps.target,fun _ => Or.inr ⟨closed,all⟩⟩
    · simpa [unregister, same] using inv.streams other
  · rw [show (unregister stream s).outputLimitExceeded = s.outputLimitExceeded from rfl, inv.exceeded]
    apply exists_congr
    intro other
    by_cases same : other = stream
    · subst same
      simp [unregister]
    · simp [unregister, same]

/-- The limit is passed on some stream, after a chunk was delivered on one of them. -/
theorem exceeded_chunk {s : State} (inv : Inv limits s) (stream : Stream) (captured : Captured) (chunk : Bytes)
    (delivered : captured.delivered = (s.captured stream).delivered ++ chunk) :
    s.outputLimitExceeded = true ∨ limits stream < captured.delivered.length ↔
      ∃ other, limits other < (Function.update s.captured stream captured other).delivered.length := by
  rw [inv.exceeded]
  constructor
  · rintro (⟨other,more⟩ | more)
    · refine ⟨other,?_⟩
      by_cases same : other = stream
      · subst same
        rw [Function.update_self, delivered, List.length_append]
        omega
      · rwa [Function.update_of_ne same]
    · exact ⟨stream,by rwa [Function.update_self]⟩
  · rintro ⟨other,more⟩
    by_cases same : other = stream
    · subst same
      rw [Function.update_self] at more
      exact Or.inr more
    · rw [Function.update_of_ne same] at more
      exact Or.inl ⟨other,more⟩

theorem inv_handleEvent {s : State} (inv : Inv limits s) {stream : Stream} {read : Read}
    (possible : Possible (s.pipes stream) (s.captured stream) read) (going : s.phase ≠ .finished) :
    Inv limits (handleEvent limits stream read s) := by
  match read with
  | .blocked => exact inv
  | .chunk [] => exact inv_unregister inv stream possible.1 possible.2 going
  | .chunk (b :: rest) =>
    have keeps := inv.streams stream
    have fits := remaining_lt keeps (List.cons_ne_nil b rest)
    have chunk := keeps_chunk keeps (List.cons_ne_nil b rest) possible.2
    have passed := exceeded_chunk inv stream { s.captured stream with
      target := (s.captured stream).target ++ (b :: rest).take (limits stream - (s.captured stream).target.length)
      delivered := (s.captured stream).delivered ++ b :: rest } (b :: rest) rfl
    have streams (cut : Prop) (more : s.timedOut = true ∨ s.outputLimitExceeded = true → cut) (other : Stream) :
        Keeps (limits other) cut (s.pipes other) (Function.update s.captured stream { s.captured stream with
          target := (s.captured stream).target ++ (b :: rest).take (limits stream - (s.captured stream).target.length)
          delivered := (s.captured stream).delivered ++ b :: rest } other) := by
      by_cases same : other = stream
      · subst same
        rw [Function.update_self]
        exact chunk.mono more
      · rw [Function.update_of_ne same]
        exact (inv.streams other).mono more
    simp only [handleEvent]
    split
    · rename_i exceeds
      refine ⟨streams _ fun _ => Or.inr rfl,?_,fun finished => absurd finished going⟩
      refine iff_of_true rfl (passed.mp (Or.inr (fits.mp exceeds.1)))
    · rename_i kept
      refine ⟨streams _ id,?_,fun finished => absurd finished going⟩
      rw [← passed]
      constructor
      · exact Or.inl
      · rintro (before | more)
        · exact before
        · by_contra unmarked
          exact kept ⟨fits.mpr more,unmarked⟩

theorem step_inv {s t : State} {act : Act} (inv : Inv limits s) (stepped : step limits s act = some t) : Inv limits t := by
  cases act with
  | write stream data =>
    simp only [step, Option.ite_none_left_eq_some, Option.some.injEq] at stepped
    obtain ⟨open_,rfl⟩ := stepped
    exact inv_pipe inv stream (keeps_write (inv.streams stream) (by simpa using open_) data)
  | close stream =>
    simp only [step, Option.some.injEq] at stepped
    subst stepped
    have keeps := inv.streams stream
    refine inv_pipe inv stream ⟨keeps.delivered,keeps.target,fun ended => ?_⟩
    exact (keeps.ended ended).imp id fun ⟨_,all⟩ => ⟨rfl,all⟩
  | turn late events =>
    simp only [step, Option.ite_none_right_eq_some, Option.some.injEq] at stepped
    obtain ⟨_,rfl⟩ := stepped
    exact inv_phase (inv_checkDeadline inv late) nofun
  | read result =>
    simp only [step] at stepped
    split at stepped
    · rename_i stream left any reading
      simp only [Option.ite_none_right_eq_some, Option.some.injEq] at stepped
      obtain ⟨possible,rfl⟩ := stepped
      exact inv_phase (inv_handleEvent inv possible (by rw [reading]; exact nofun)) nofun
    · cases stepped
  | endTurn polled =>
    simp only [step] at stepped
    split at stepped
    · cases stepped
      exact inv_phase (inv_forceClose inv polled _) nofun
    · cases stepped
  | leave =>
    simp only [step, Option.ite_none_right_eq_some, Option.some.injEq] at stepped
    obtain ⟨⟨_,none⟩,rfl⟩ := stepped
    refine ⟨inv.streams,inv.exceeded,fun _ stream => ?_⟩
    have listed : stream ∈ Stream.all := by cases stream <;> decide
    simpa using none stream listed

theorem run_inv {acts : List Act} {s : State} (ran : run limits acts = some s) : Inv limits s := by
  have steps : ∀ s t, Inv limits s → acts.foldlM (step limits) s = some t → Inv limits t := by
    clear ran
    induction acts with
    | nil =>
      intro s t inv ran
      cases ran
      exact inv
    | cons act rest ih =>
      intro s t inv ran
      rw [List.foldlM_cons] at ran
      obtain ⟨u,first,later⟩ := Option.bind_eq_some_iff.mp ran
      exact ih u t (step_inv inv first) later
  exact steps {} s inv_init ran

/-! ### What is captured -/

/-- What the capture promises in every state of a run. -/
structure Exact (limits : Stream → Nat) (s : State) : Prop where
  bounded : ∀ stream, (s.captured stream).target.length ≤ limits stream
  start : ∀ stream, (s.captured stream).target <+: (s.pipes stream).written
  flagged : s.outputLimitExceeded = true ↔ ∃ stream, limits stream < (s.captured stream).delivered.length
  complete : s.phase = .finished → s.timedOut = false → s.outputLimitExceeded = false →
    ∀ stream, (s.pipes stream).closed = true ∧ (s.captured stream).target = (s.pipes stream).written
  /-- The outcome is that of everything that the worker has written, or says that the capture was cut short. -/
  analyzed : s.phase = .finished → ∀ decode validate firstWait secondWait, ∀ e ∈ execution decode firstWait secondWait s,
    analyze (e.validated validate) = quarantined .TIMEOUT ∨
    analyze (e.validated validate) = quarantined .OUTPUT_LIMIT_EXCEEDED ∨
    e.stdout = decode (s.pipes .stdout).written

theorem Inv.complete {s : State} (inv : Inv limits s) (finished : s.phase = .finished) (inTime : s.timedOut = false)
    (within : s.outputLimitExceeded = false) (stream : Stream) :
    (s.pipes stream).closed = true ∧ (s.captured stream).target = (s.pipes stream).written := by
  have keeps := inv.streams stream
  obtain ⟨closed,all⟩ := (keeps.ended (inv.finished finished stream)).resolve_left (by simp [inTime, within])
  refine ⟨closed,?_⟩
  rw [keeps.target, all, List.take_of_length_le]
  by_contra more
  have exceeded := inv.exceeded.mpr ⟨stream,by rw [all]; omega⟩
  rw [within] at exceeded
  cases exceeded

theorem capture_exact {acts : List Act} {s : State} (ran : run limits acts = some s) : Exact limits s := by
  have inv := run_inv ran
  refine ⟨?_,?_,inv.exceeded,inv.complete,?_⟩
  · intro stream
    rw [(inv.streams stream).target]
    exact List.length_take_le _ _
  · intro stream
    rw [(inv.streams stream).target]
    exact (List.take_prefix _ _).trans (inv.streams stream).delivered
  · intro finished decode validate firstWait secondWait e ended
    obtain ⟨exitCode,_,rfl⟩ := Option.map_eq_some_iff.mp ended
    simp only [WorkerExecution.validated, analyze]
    by_cases late : s.timedOut = true
    · exact Or.inl (by rw [if_pos late])
    · by_cases exceeded : s.outputLimitExceeded = true
      · exact Or.inr (Or.inl (by rw [if_neg late, if_pos exceeded]))
      · have complete := inv.complete finished (by simpa using late) (by simpa using exceeded) .stdout
        exact Or.inr (Or.inr (by rw [complete.2]))

/-- The worker writes as much as the limit allows, and ends. -/
def sampleActs : List Act :=
  [.write .stdout [79,75],.turn false [.stdout],.read (.chunk [79,75]),.endTurn false,.close .stdout,.close .stderr,
   .turn true [.stdout,.stderr],.read (.chunk []),.read (.chunk []),.endTurn true,.leave]

theorem capture_exact_sample : ∃ s, run (fun _ => 2) sampleActs = some s ∧ s.phase = .finished ∧ Exact (fun _ => 2) s := by
  have ended : (run (fun _ => 2) sampleActs).map State.phase = some .finished := by decide
  obtain ⟨s,ran,finished⟩ := Option.map_eq_some_iff.mp ended
  exact ⟨s,ran,finished,capture_exact ran⟩

end DocGuard.Capture
