import DocGuard.Text

/-!
Programs of atomic steps over a shared state, the interleavings of any number of
them, and a rely-guarantee rule for these. A step sees the state and a choice of
its environment (a fault, a fresh name, the answer of another component), changes
the state, and goes on; between two steps of one program any steps of the others
may happen, and a program may disappear at any point.
-/
namespace DocGuard.Programs

/-- A program with steps labelled by `κ`: its result, or a step with what it does and how it goes on. -/
inductive Prog (σ ι κ ε α : Type) where
  | done (result : Except ε α)
  | act (label : κ) (update : σ → ι → σ) (next : σ → ι → Prog σ ι κ ε α)

variable {σ ι κ ε α β : Type}

namespace Prog

/-- Goes on with the result of a program, whether it is a value or an error. -/
def resume : Prog σ ι κ ε α → (Except ε α → Prog σ ι κ ε β) → Prog σ ι κ ε β
  | done result,k => k result
  | act label update next,k => act label update (fun s i => (next s i).resume k)

/-- What follows a program that returned; an error ends both. -/
def onReturn (k : α → Prog σ ι κ ε β) : Except ε α → Prog σ ι κ ε β
  | .ok a => k a
  | .error e => done (.error e)

def onError (k : ε → Prog σ ι κ ε α) : Except ε α → Prog σ ι κ ε α
  | .ok a => done (.ok a)
  | .error e => k e

instance : Monad (Prog σ ι κ ε) where
  pure a := done (.ok a)
  bind p k := p.resume (onReturn k)

instance : MonadExceptOf ε (Prog σ ι κ ε) where
  throw e := done (.error e)
  tryCatch p k := p.resume (onError k)

/-- `try: ... finally: ...`; an error of the last part replaces the result. -/
def andFinally (p : Prog σ ι κ ε α) (last : Prog σ ι κ ε Unit) : Prog σ ι κ ε α :=
  p.resume fun result => last.resume (onReturn fun _ => done result)

/-- A single step. -/
def atomically (label : κ) (step : σ → ι → Except ε α × σ) : Prog σ ι κ ε α :=
  act label (fun s i => (step s i).2) (fun s i => done (step s i).1)

/-- What is left of a program, and the state, after steps under these choices with no others in between. -/
def exec : List ι → Prog σ ι κ ε α → σ → Prog σ ι κ ε α × σ
  | i :: rest,act _ update next,s => exec rest (next s i) (update s i)
  | _,p,s => (p,s)

/-- Each of these choices passes the check at its step. -/
def follows (check : κ → σ → ι → Bool) : List ι → Prog σ ι κ ε α → σ → Bool
  | i :: rest,act label update next,s => check label s i && follows check rest (next s i) (update s i)
  | _,_,_ => true

/-- The program with another form of its value. -/
def map (f : α → β) (p : Prog σ ι κ ε α) : Prog σ ι κ ε β := p.resume fun result => done (result.map f)

/-- The value of a program that has returned one. -/
def returned : Prog σ ι κ ε α → Option α
  | done (.ok a) => some a
  | _ => none

theorem returned_some {p : Prog σ ι κ ε α} {a : α} (value : p.returned = some a) : p = done (.ok a) := by
  unfold returned at value
  split at value
  · cases value
    rfl
  · cases value

/-! ### What a program does while others run -/

section Safe
variable (allowed : κ → σ → ι → Prop) (inv : σ → Prop) (rely guar : σ → σ → Prop)

/-- Whatever the others do within `rely` before each step, every step keeps the invariant and stays within
    `guar`, and the result satisfies `post` when it is there. -/
def Safe (post : Except ε α → σ → Prop) : Prog σ ι κ ε α → σ → Prop
  | done result,s => post result s
  | act label update next,s => ∀ s', rely s s' → inv s' → ∀ i, allowed label s' i →
      inv (update s' i) ∧ guar s' (update s' i) ∧ Safe post (next s' i) (update s' i)

variable {allowed inv rely guar}

theorem safe_resume {M : Except ε α → σ → Prop} {post : Except ε β → σ → Prop}
    {p : Prog σ ι κ ε α} {k : Except ε α → Prog σ ι κ ε β} {s : σ}
    (safe : Safe allowed inv rely guar M p s)
    (later : ∀ result s', M result s' → Safe allowed inv rely guar post (k result) s') :
    Safe allowed inv rely guar post (p.resume k) s := by
  induction p generalizing s with
  | done result => exact later result s safe
  | act label update next ih =>
    intro s' others holds i may
    obtain ⟨kept,within,rest⟩ := safe s' others holds i may
    exact ⟨kept,within,ih s' i rest⟩

theorem safe_mono {M post : Except ε α → σ → Prop} {p : Prog σ ι κ ε α} {s : σ}
    (safe : Safe allowed inv rely guar M p s) (weaker : ∀ result s', M result s' → post result s') :
    Safe allowed inv rely guar post p s := by
  induction p generalizing s with
  | done result => exact weaker result s safe
  | act label update next ih =>
    intro s' others holds i may
    obtain ⟨kept,within,rest⟩ := safe s' others holds i may
    exact ⟨kept,within,ih s' i rest⟩

theorem safe_bind {M : Except ε α → σ → Prop} {post : Except ε β → σ → Prop} {p : Prog σ ι κ ε α}
    {k : α → Prog σ ι κ ε β} {s : σ} (safe : Safe allowed inv rely guar M p s)
    (returned : ∀ a s', M (.ok a) s' → Safe allowed inv rely guar post (k a) s')
    (failed : ∀ e s', M (.error e) s' → post (.error e) s') :
    Safe allowed inv rely guar post (p >>= k) s := by
  refine safe_resume safe fun result s' reached => ?_
  cases result with
  | ok a => exact returned a s' reached
  | error e => exact failed e s' reached

theorem safe_tryCatch {M post : Except ε α → σ → Prop} {p : Prog σ ι κ ε α} {k : ε → Prog σ ι κ ε α} {s : σ}
    (safe : Safe allowed inv rely guar M p s)
    (returned : ∀ a s', M (.ok a) s' → post (.ok a) s')
    (failed : ∀ e s', M (.error e) s' → Safe allowed inv rely guar post (k e) s') :
    Safe allowed inv rely guar post (tryCatch p k) s := by
  refine safe_resume safe fun result s' reached => ?_
  cases result with
  | ok a => exact returned a s' reached
  | error e => exact failed e s' reached

theorem safe_atomically {label : κ} {step : σ → ι → Except ε α × σ} {post : Except ε α → σ → Prop} {s : σ}
    (each : ∀ s', rely s s' → inv s' → ∀ i, allowed label s' i →
      inv (step s' i).2 ∧ guar s' (step s' i).2 ∧ post (step s' i).1 (step s' i).2) :
    Safe allowed inv rely guar post (atomically label step) s :=
  each

/-- A program that is safe now is safe after the others have acted. -/
theorem safe_rely {post : Except ε α → σ → Prop} {p : Prog σ ι κ ε α} {s s' : σ}
    (trans : ∀ a b c, rely a b → rely b c → rely a c)
    (stable : ∀ result a b, post result a → rely a b → inv b → post result b)
    (safe : Safe allowed inv rely guar post p s) (others : rely s s') (holds : inv s') :
    Safe allowed inv rely guar post p s' := by
  cases p with
  | done result => exact stable result s s' safe others holds
  | act label update next =>
    intro t later at_t i may
    exact safe t (trans s s' t others later) at_t i may

theorem safe_map {M : Except ε α → σ → Prop} {post : Except ε β → σ → Prop} {f : α → β} {p : Prog σ ι κ ε α} {s : σ}
    (safe : Safe allowed inv rely guar M p s) (reports : ∀ result s', M result s' → post (result.map f) s') :
    Safe allowed inv rely guar post (p.map f) s :=
  safe_resume safe reports

/-- Two guarantees that are proved apart hold together; the second proof may use the first invariant before each
    step, and rely on what both are promised. -/
theorem safe_and {inv' : σ → Prop} {rely' guar' : σ → σ → Prop} {post post' : Except ε α → σ → Prop}
    {p : Prog σ ι κ ε α} {s : σ} (first : Safe allowed inv rely guar post p s)
    (second : Safe (fun label s i => allowed label s i ∧ inv s) inv' (fun a b => rely a b ∧ rely' a b) guar' post' p s) :
    Safe allowed (fun s => inv s ∧ inv' s) (fun a b => rely a b ∧ rely' a b) (fun a b => guar a b ∧ guar' a b)
      (fun result s => post result s ∧ post' result s) p s := by
  induction p generalizing s with
  | done result => exact ⟨first,second⟩
  | act label update next ih =>
    intro s' others holds i may
    obtain ⟨kept,within,rest⟩ := first s' others.1 holds.1 i may
    obtain ⟨kept',within',rest'⟩ := second s' others holds.2 i ⟨may,holds.1⟩
    exact ⟨⟨kept,kept'⟩,⟨within,within'⟩,ih s' i rest rest'⟩

theorem safe_weaken {allowed' : κ → σ → ι → Prop} {guar' : σ → σ → Prop} {post : Except ε α → σ → Prop}
    {p : Prog σ ι κ ε α} {s : σ} (safe : Safe allowed inv rely guar post p s)
    (stricter : ∀ label s i, allowed' label s i → allowed label s i) (weaker : ∀ a b, guar a b → guar' a b) :
    Safe allowed' inv rely guar' post p s := by
  induction p generalizing s with
  | done result => exact safe
  | act label update next ih =>
    intro s' others holds i may
    obtain ⟨kept,within,rest⟩ := safe s' others holds i (stricter label s' i may)
    exact ⟨kept,weaker _ _ within,ih s' i rest⟩

end Safe
end Prog

/-! ### Interleavings -/

/-- A shared state and the programs started on it; one that has disappeared leaves its place empty. -/
structure Pool (σ ι κ ε α : Type) where
  state : σ
  jobs : List (Option (Prog σ ι κ ε α))

/-- One step of a pool: a program starts, acts or disappears. -/
inductive Pool.Step (allowed : κ → σ → ι → Prop) (spawned : Nat → Prog σ ι κ ε α → Prop) :
    Pool σ ι κ ε α → Pool σ ι κ ε α → Prop where
  | spawn {s jobs p} (starts : spawned jobs.length p) : Step allowed spawned ⟨s,jobs⟩ ⟨s,jobs ++ [some p]⟩
  | act {s jobs label update next} (j : Nat) (i : ι) (running : jobs[j]? = some (some (.act label update next)))
      (may : allowed label s i) : Step allowed spawned ⟨s,jobs⟩ ⟨update s i,jobs.set j (some (next s i))⟩
  | crash {s jobs} (j : Nat) : Step allowed spawned ⟨s,jobs⟩ ⟨s,jobs.set j none⟩

/-- The pools that some steps from `start` lead to. -/
def Pool.Run (allowed : κ → σ → ι → Prop) (spawned : Nat → Prog σ ι κ ε α → Prop) (start : σ)
    (pool : Pool σ ι κ ε α) : Prop :=
  Relation.ReflTransGen (Pool.Step allowed spawned) ⟨start,[]⟩ pool

/-- A program that goes on without others in between. -/
theorem Pool.steps_exec {allowed : κ → σ → ι → Prop} {spawned : Nat → Prog σ ι κ ε α → Prop}
    {check : κ → σ → ι → Bool} (sound : ∀ label s i, check label s i = true → allowed label s i)
    {choices : List ι} {p : Prog σ ι κ ε α} {s : σ} {jobs : List (Option (Prog σ ι κ ε α))} {j : Nat}
    (running : jobs[j]? = some (some p)) (may : Prog.follows check choices p s = true) :
    Relation.ReflTransGen (Pool.Step allowed spawned) ⟨s,jobs⟩
      ⟨(Prog.exec choices p s).2,jobs.set j (some (Prog.exec choices p s).1)⟩ := by
  have inside : j < jobs.length := (List.getElem?_eq_some_iff.mp running).1
  have unchanged : jobs.set j (some p) = jobs := by
    rw [← (List.getElem?_eq_some_iff.mp running).2,List.set_getElem_self]
  induction choices generalizing p s jobs with
  | nil => simpa [Prog.exec,unchanged] using Relation.ReflTransGen.refl
  | cons i rest ih =>
    cases p with
    | done result => simpa [Prog.exec,unchanged] using Relation.ReflTransGen.refl
    | act label update next =>
      simp only [Prog.follows,Bool.and_eq_true] at may
      have one : Pool.Step allowed spawned ⟨s,jobs⟩ ⟨update s i,jobs.set j (some (next s i))⟩ :=
        .act j i running (sound label s i may.1)
      have running' : (jobs.set j (some (next s i)))[j]? = some (some (next s i)) := List.getElem?_set_self inside
      have later := ih running' may.2
        (by simpa using inside) (List.set_set _)
      rw [List.set_set] at later
      exact later.head one

/-- A program that starts and goes on without others in between. -/
theorem Pool.steps_start {allowed : κ → σ → ι → Prop} {spawned : Nat → Prog σ ι κ ε α → Prop}
    {check : κ → σ → ι → Bool} (sound : ∀ label s i, check label s i = true → allowed label s i) {s : σ}
    {jobs : List (Option (Prog σ ι κ ε α))} {p : Prog σ ι κ ε α} (starts : spawned jobs.length p) {choices : List ι}
    (may : Prog.follows check choices p s = true) :
    Relation.ReflTransGen (Pool.Step allowed spawned) ⟨s,jobs⟩
      ⟨(Prog.exec choices p s).2,jobs ++ [some (Prog.exec choices p s).1]⟩ := by
  have running : (jobs ++ [some p])[jobs.length]? = some (some p) := by simp
  have steps : Relation.ReflTransGen (Pool.Step allowed spawned) _ _ := Pool.steps_exec sound running may
  rw [List.set_append_right _ _ le_rfl,Nat.sub_self,List.set_cons_zero] at steps
  exact steps.head (.spawn starts)

section Rule
variable {allowed : κ → σ → ι → Prop} {spawned : Nat → Prog σ ι κ ε α → Prop} {inv : σ → Prop}
  {rely : Nat → σ → σ → Prop} {unused : Nat → σ → Prop} {post : Nat → Except ε α → σ → Prop}

/-- A step of program `j` keeps to what every other program relies on. -/
def Guarantee (rely : Nat → σ → σ → Prop) (j : Nat) (s s' : σ) : Prop := ∀ k, k ≠ j → rely k s s'

/-- What holds of a pool: the invariant, and each program safe under what it may rely on. -/
structure Pool.Good (allowed : κ → σ → ι → Prop) (inv : σ → Prop) (rely : Nat → σ → σ → Prop)
    (unused : Nat → σ → Prop) (post : Nat → Except ε α → σ → Prop) (pool : Pool σ ι κ ε α) : Prop where
  holds : inv pool.state
  fresh : ∀ j, pool.jobs.length ≤ j → unused j pool.state
  safe : ∀ j p, pool.jobs[j]? = some (some p) →
    Prog.Safe allowed inv (rely j) (Guarantee rely j) (post j) p pool.state

/-- What the rule asks of a family of programs. -/
structure Compatible (allowed : κ → σ → ι → Prop) (spawned : Nat → Prog σ ι κ ε α → Prop) (inv : σ → Prop)
    (rely : Nat → σ → σ → Prop) (unused : Nat → σ → Prop) (post : Nat → Except ε α → σ → Prop) : Prop where
  refl : ∀ j s, rely j s s
  trans : ∀ j a b c, rely j a b → rely j b c → rely j a c
  stable : ∀ j result a b, post j result a → rely j a b → inv b → post j result b
  stays : ∀ j a b, unused j a → rely j a b → unused j b
  start : ∀ j p s, spawned j p → inv s → unused j s →
    Prog.Safe allowed inv (rely j) (Guarantee rely j) (post j) p s

theorem Pool.good_spawn (family : Compatible allowed spawned inv rely unused post) {s : σ}
    {jobs : List (Option (Prog σ ι κ ε α))} {p : Prog σ ι κ ε α} (good : Good allowed inv rely unused post ⟨s,jobs⟩)
    (starts : spawned jobs.length p) : Good allowed inv rely unused post ⟨s,jobs ++ [some p]⟩ := by
  refine ⟨good.holds,fun j beyond => good.fresh j ?_,fun j q running => ?_⟩
  · have longer : jobs.length + 1 ≤ j := by simpa using beyond
    exact Nat.le_of_succ_le longer
  · rw [List.getElem?_append] at running
    split at running
    · exact good.safe j q running
    · rename_i outside
      have last : j = jobs.length := by
        have inside := (List.getElem?_eq_some_iff.mp running).1
        simp only [List.length_cons,List.length_nil] at inside
        omega
      have same : q = p := by simpa [last] using running.symm
      subst last same
      exact family.start _ _ _ starts good.holds (good.fresh _ le_rfl)

theorem Pool.good_act (family : Compatible allowed spawned inv rely unused post) {s : σ}
    {jobs : List (Option (Prog σ ι κ ε α))} {label : κ} {update : σ → ι → σ} {next : σ → ι → Prog σ ι κ ε α}
    {j : Nat} {i : ι} (good : Good allowed inv rely unused post ⟨s,jobs⟩)
    (running : jobs[j]? = some (some (.act label update next))) (may : allowed label s i) :
    Good allowed inv rely unused post ⟨update s i,jobs.set j (some (next s i))⟩ := by
  have inside : j < jobs.length := (List.getElem?_eq_some_iff.mp running).1
  have safe : Prog.Safe allowed inv (rely j) (Guarantee rely j) (post j) (.act label update next) s :=
    good.safe j _ running
  obtain ⟨kept,within,rest⟩ := safe s (family.refl j s) good.holds i may
  refine ⟨kept,fun k beyond => ?_,fun k q other => ?_⟩
  · have longer : jobs.length ≤ k := by simpa using beyond
    exact family.stays k s _ (good.fresh k longer) (within k (by omega))
  · by_cases own : k = j
    · subst own
      rw [List.getElem?_set_self inside] at other
      cases other
      exact rest
    · rw [List.getElem?_set_ne (Ne.symm own)] at other
      exact Prog.safe_rely (family.trans k) (family.stable k) (good.safe k q other) (within k own) kept

theorem Pool.good_crash {s : σ} {jobs : List (Option (Prog σ ι κ ε α))} (j : Nat)
    (good : Good allowed inv rely unused post ⟨s,jobs⟩) :
    Good allowed inv rely unused post ⟨s,jobs.set j none⟩ := by
  refine ⟨good.holds,fun k beyond => good.fresh k (by simpa using beyond),fun k q running => ?_⟩
  rw [List.getElem?_set] at running
  split at running
  · split at running <;> cases running
  · exact good.safe k q running

/-- Every step of a pool of compatible programs keeps it good. -/
theorem Pool.good_step (family : Compatible allowed spawned inv rely unused post) {a b : Pool σ ι κ ε α}
    (good : a.Good allowed inv rely unused post) (step : Pool.Step allowed spawned a b) :
    b.Good allowed inv rely unused post := by
  cases step with
  | spawn starts => exact good_spawn family good starts
  | act j i running may => exact good_act family good running may
  | crash j => exact good_crash j good

/-- The rule: from a state with the invariant, every run of compatible programs stays good. -/
theorem Pool.good_run (family : Compatible allowed spawned inv rely unused post) {start : σ}
    (holds : inv start) (fresh : ∀ j, unused j start) {pool : Pool σ ι κ ε α}
    (run : Pool.Run allowed spawned start pool) : pool.Good allowed inv rely unused post := by
  induction run with
  | refl => exact ⟨holds,fun j _ => fresh j,fun j p running => by simp at running⟩
  | tail _ step ih => exact good_step family ih step

/-- Between two pools of a run every change of the state is a step of one program, within what the others rely on. -/
theorem Pool.good_steps (family : Compatible allowed spawned inv rely unused post) {R : σ → σ → Prop}
    (refl : ∀ s, R s s) (trans : ∀ a b c, R a b → R b c → R a c) (within : ∀ j a b, Guarantee rely j a b → R a b)
    {a b : Pool σ ι κ ε α} (good : a.Good allowed inv rely unused post)
    (steps : Relation.ReflTransGen (Pool.Step allowed spawned) a b) :
    b.Good allowed inv rely unused post ∧ R a.state b.state := by
  induction steps with
  | refl => exact ⟨good,refl _⟩
  | tail _ step ih =>
    obtain ⟨reached,related⟩ := ih
    refine ⟨good_step family reached step,?_⟩
    cases step with
    | spawn starts => exact related
    | crash j => exact related
    | act j i running may =>
      have safe := reached.safe j _ running
      exact trans _ _ _ related (within j _ _ (safe _ (family.refl j _) reached.holds i may).2.1)

/-- A program of a run that has returned left what its postcondition says. -/
theorem Pool.good_returned {pool : Pool σ ι κ ε α} (good : pool.Good allowed inv rely unused post) {j : Nat}
    {result : Except ε α} (returned : pool.jobs[j]? = some (some (.done result))) : post j result pool.state :=
  good.safe j _ returned

end Rule
end DocGuard.Programs
