import DocGuard.Text

/-!
Commands of one thread over a state: each returns or raises, and keeps the state
that it has reached in both cases. `except` and `finally` are those of a language
with exceptions. What holds after a command is derived by one rule for each form.
-/
namespace DocGuard.Commands

/-- A command: what it returns or raises, and the state that it leaves. -/
def Command (σ ε α : Type) : Type := σ → Except ε α × σ

variable {σ ε α β : Type}

namespace Command

instance : Monad (Command σ ε) where
  pure a := fun s => (.ok a,s)
  bind m k := fun s =>
    match m s with
    | (.ok a,s') => k a s'
    | (.error e,s') => (.error e,s')

def raise (e : ε) : Command σ ε α := fun s => (.error e,s)

/-- What a function of the state is. -/
def observe (f : σ → α) : Command σ ε α := fun s => (.ok (f s),s)

def update (f : σ → σ) : Command σ ε Unit := fun s => (.ok (),f s)

/-- A computation that does not touch the state. -/
def lift : Except ε α → Command σ ε α := fun result s => (result,s)

/-- `for a in items: body(a)` -/
def forEach (body : α → Command σ ε Unit) : List α → Command σ ε Unit
  | [] => pure ()
  | a :: rest => do
    body a
    forEach body rest

/-- `try: ... except`: an exception is passed to the handler. -/
def except (m : Command σ ε α) (handler : ε → Command σ ε α) : Command σ ε α := fun s =>
  match m s with
  | (.ok a,s') => (.ok a,s')
  | (.error e,s') => handler e s'

/-- The result as a value, whether it was returned or raised. -/
def attempt {ε' : Type} (m : Command σ ε α) : Command σ ε' (Except ε α) := fun s => (.ok (m s).1,(m s).2)

/-- `try: ... finally: ...`; an exception of the last part replaces the result. -/
def andFinally (m : Command σ ε α) (last : Command σ ε Unit) : Command σ ε α := fun s =>
  match last (m s).2 with
  | (.ok _,s') => ((m s).1,s')
  | (.error e,s') => (.error e,s')

end Command

section
variable {m : Command σ ε α} {k : α → Command σ ε β} {s s' : σ}

theorem bind_returned {a : α} (first : m s = (.ok a,s')) : (m >>= k) s = k a s' := by
  simp only [bind, first]

theorem bind_raised {e : ε} (first : m s = (.error e,s')) : (m >>= k) s = (.error e,s') := by
  simp only [bind, first]

/-- A sequence may be cut anywhere. -/
theorem bind_bind {γ : Type} (m : Command σ ε α) (k : α → Command σ ε β) (h : β → Command σ ε γ) :
    m >>= k >>= h = m >>= fun a => k a >>= h := by
  funext s
  simp only [bind]
  cases m s with
  | mk result s' =>
    cases result with
    | ok a => rfl
    | error e => rfl

theorem forEach_append (body : α → Command σ ε Unit) (first second : List α) :
    Command.forEach body (first ++ second) = Command.forEach body first >>= fun _ => Command.forEach body second := by
  induction first with
  | nil => rfl
  | cons a rest ih =>
    rw [show Command.forEach body (a :: rest ++ second) = (body a >>= fun _ => Command.forEach body (rest ++ second)) from rfl,
      ih, ← bind_bind]
    rfl

end

/-! ### What holds after a command -/

/-- From every state with the precondition, the result and the state that is left satisfy the postcondition. -/
def Ensures (pre : σ → Prop) (m : Command σ ε α) (post : Except ε α → σ → Prop) : Prop :=
  ∀ s, pre s → post (m s).1 (m s).2

variable {P Q : σ → Prop} {M : Except ε α → σ → Prop} {post : Except ε β → σ → Prop}

theorem ensures_pure {a : α} {post : Except ε α → σ → Prop} (holds : ∀ s, P s → post (.ok a) s) :
    Ensures P (pure a) post :=
  holds

theorem ensures_raise {e : ε} {post : Except ε α → σ → Prop} (holds : ∀ s, P s → post (.error e) s) :
    Ensures P (Command.raise e) post :=
  holds

theorem ensures_bind {m : Command σ ε α} {k : α → Command σ ε β} (first : Ensures P m M)
    (returned : ∀ a, Ensures (M (.ok a)) (k a) post) (raised : ∀ e s, M (.error e) s → post (.error e) s) :
    Ensures P (m >>= k) post := by
  intro s holds
  have reached := first s holds
  simp only [bind]
  cases ended : m s with
  | mk result s' =>
    rw [ended] at reached
    cases result with
    | ok a => exact returned a s' reached
    | error e => exact raised e s' reached

theorem ensures_except {m : Command σ ε α} {handler : ε → Command σ ε α} {post : Except ε α → σ → Prop}
    (first : Ensures P m M) (returned : ∀ a s, M (.ok a) s → post (.ok a) s)
    (handled : ∀ e, Ensures (M (.error e)) (handler e) post) : Ensures P (m.except handler) post := by
  intro s holds
  have reached := first s holds
  simp only [Command.except]
  cases ended : m s with
  | mk result s' =>
    rw [ended] at reached
    cases result with
    | ok a => exact returned a s' reached
    | error e => exact handled e s' reached

/-- The last part runs after a result and after an exception. -/
theorem ensures_finally {m : Command σ ε α} {last : Command σ ε Unit} {post : Except ε α → σ → Prop}
    (first : Ensures P m M) (after : ∀ result, Ensures (M result) last (fun ended s =>
      match ended with
      | .ok _ => post result s
      | .error e => post (.error e) s)) :
    Ensures P (m.andFinally last) post := by
  intro s holds
  have reached := after (m s).1 (m s).2 (first s holds)
  simp only [Command.andFinally]
  cases ended : last (m s).2 with
  | mk result s' =>
    rw [ended] at reached
    cases result with
    | ok a => exact reached
    | error e => exact reached

theorem ensures_observe {γ : Type} {f : σ → γ} {k : γ → Command σ ε β}
    (rest : ∀ s, P s → post (k (f s) s).1 (k (f s) s).2) : Ensures P (Command.observe f >>= k) post :=
  rest

theorem ensures_update {f : σ → σ} {k : Unit → Command σ ε β} (moved : ∀ s, P s → Q (f s))
    (rest : Ensures Q (k ()) post) : Ensures P (Command.update f >>= k) post :=
  fun s holds => rest (f s) (moved s holds)

theorem ensures_attempt {ε' : Type} {m : Command σ ε' α} {k : Except ε' α → Command σ ε β}
    {N : Except ε' α → σ → Prop} (first : Ensures P m N) (rest : ∀ result, Ensures (N result) (k result) post) :
    Ensures P (m.attempt >>= k) post :=
  fun s holds => rest _ _ (first s holds)

theorem ensures_mono {m : Command σ ε α} {post : Except ε α → σ → Prop} (holds : Ensures P m M)
    (stronger : ∀ s, Q s → P s) (weaker : ∀ result s, M result s → post result s) : Ensures Q m post :=
  fun s before => weaker _ _ (holds s (stronger s before))

/-! ### What a command returns from a state -/

/-- Unless the command raises from this state, its result and the state that is left satisfy the postcondition. -/
def Returns (m : Command σ ε α) (s : σ) (post : α → σ → Prop) : Prop := ∀ a, (m s).1 = .ok a → post a (m s).2

section
variable {s : σ}

theorem returns_pure {a : α} {post : α → σ → Prop} (holds : post a s) : Returns (pure a : Command σ ε α) s post := by
  intro a' returned
  cases returned
  exact holds

theorem returns_raise {e : ε} {post : α → σ → Prop} : Returns (Command.raise e) s post := nofun

theorem returns_observe {f : σ → α} {post : α → σ → Prop} (holds : post (f s) s) :
    Returns (Command.observe f : Command σ ε α) s post := returns_pure holds

theorem returns_update {f : σ → σ} {post : Unit → σ → Prop} (holds : post () (f s)) :
    Returns (Command.update f : Command σ ε Unit) s post := fun _ _ => holds

theorem returns_bind {m : Command σ ε α} {k : α → Command σ ε β} {post : β → σ → Prop}
    (holds : Returns m s fun a s' => Returns (k a) s' post) : Returns (m >>= k) s post := by
  intro b returned
  simp only [bind] at returned ⊢
  cases ended : m s with
  | mk result s' =>
    cases result with
    | ok a =>
      have first := holds a (by rw [ended])
      simp only [ended] at first returned ⊢
      exact first b returned
    | error e =>
      simp only [ended] at returned
      cases returned

theorem returns_mono {m : Command σ ε α} {first second : α → σ → Prop} (holds : Returns m s first)
    (weaker : ∀ a s', first a s' → second a s') : Returns m s second :=
  fun a returned => weaker a _ (holds a returned)

theorem returns_except {m : Command σ ε α} {handler : ε → Command σ ε α} {post : α → σ → Prop} (holds : Returns m s post)
    (handled : ∀ e s', Returns (handler e) s' post) : Returns (m.except handler) s post := by
  intro a returned
  simp only [Command.except] at returned ⊢
  cases ended : m s with
  | mk result s' =>
    cases result with
    | ok a' =>
      have first := holds a' (by rw [ended])
      simp only [ended] at first returned ⊢
      cases returned
      exact first
    | error e =>
      simp only [ended] at returned ⊢
      exact handled e s' a returned

theorem returns_attempt {ε' : Type} {m : Command σ ε' α} {post : Except ε' α → σ → Prop} (holds : post (m s).1 (m s).2) :
    Returns (m.attempt : Command σ ε (Except ε' α)) s post := returns_pure holds

/-- A relation that each turn of a loop keeps, from the items before it to those up to it. -/
theorem returns_forEach {body : α → Command σ ε Unit} {items : List α} {I : List α → σ → Prop}
    (each : ∀ before a after s', items = before ++ a :: after → I before s' →
      Returns (body a) s' fun _ t => I (before ++ [a]) t) (start : I [] s) :
    Returns (Command.forEach body items) s fun _ t => I items t := by
  suffices loop : ∀ before after s', items = before ++ after → I before s' →
      Returns (Command.forEach body after) s' fun _ t => I items t from loop [] items s rfl start
  intro before after s' split holds
  induction after generalizing before s' with
  | nil =>
    rw [List.append_nil] at split
    exact returns_pure (split ▸ holds)
  | cons a rest ih =>
    refine returns_bind (returns_mono (each before a rest s' split holds) fun _ t reached => ?_)
    exact ih (before ++ [a]) t (by simp [split]) reached

end

/-! ### What every command of a family does to the state -/

/-- From every state, the state that is left stands in the relation `R` to it, and what is raised satisfies `E`. -/
def Moves (R : σ → σ → Prop) (E : ε → Prop) (m : Command σ ε α) : Prop :=
  ∀ s, R s (m s).2 ∧ ∀ e, (m s).1 = .error e → E e

section
variable {R : σ → σ → Prop} {E : ε → Prop}

theorem moves_update {f : σ → σ} (moved : ∀ s, R s (f s)) : Moves R E (Command.update f) := by
  intro s
  exact ⟨moved s,nofun⟩

theorem moves_weaken {R' : σ → σ → Prop} {E' : ε → Prop} {m : Command σ ε α} (moved : Moves R E m)
    (states : ∀ s s', R s s' → R' s s') (errors : ∀ e, E e → E' e) : Moves R' E' m := by
  intro s
  exact ⟨states _ _ (moved s).1,fun e raised => errors e ((moved s).2 e raised)⟩

variable (refl : ∀ s, R s s)
include refl

theorem moves_pure (a : α) : Moves R E (pure a : Command σ ε α) := by
  intro s
  exact ⟨refl s,nofun⟩

theorem moves_raise {e : ε} (allowed : E e) : Moves R E (Command.raise e : Command σ ε α) := by
  intro s
  refine ⟨refl s,?_⟩
  intro e' raised
  cases raised
  exact allowed

theorem moves_observe (f : σ → α) : Moves R E (Command.observe f) := by
  intro s
  exact ⟨refl s,nofun⟩

theorem moves_lift {result : Except ε α} (allowed : ∀ e, result = .error e → E e) : Moves R E (Command.lift result) := by
  intro s
  exact ⟨refl s,allowed⟩

omit refl
variable (trans : ∀ s t u, R s t → R t u → R s u)
include trans

/-- The rest is only run on what the first command returns. -/
theorem moves_bind_returned {m : Command σ ε α} {k : α → Command σ ε β} (first : Moves R E m)
    (rest : ∀ s a, (m s).1 = .ok a → Moves R E (k a)) : Moves R E (m >>= k) := by
  intro s
  have moved := first s
  have next := rest s
  simp only [bind]
  cases ended : m s with
  | mk result s' =>
    rw [ended] at moved next
    cases result with
    | ok a =>
      have continued := next a rfl s'
      exact ⟨trans _ _ _ moved.1 continued.1,continued.2⟩
    | error e =>
      refine ⟨moved.1,?_⟩
      intro e' raised
      cases raised
      exact moved.2 e rfl

theorem moves_bind {m : Command σ ε α} {k : α → Command σ ε β} (first : Moves R E m) (rest : ∀ a, Moves R E (k a)) :
    Moves R E (m >>= k) :=
  moves_bind_returned trans first fun _ a _ => rest a

theorem moves_except {E' : ε → Prop} {m : Command σ ε α} {handler : ε → Command σ ε α} (first : Moves R E m)
    (handled : ∀ e, E e → Moves R E' (handler e)) : Moves R E' (m.except handler) := by
  intro s
  have moved := first s
  simp only [Command.except]
  cases ended : m s with
  | mk result s' =>
    rw [ended] at moved
    cases result with
    | ok a => exact ⟨moved.1,nofun⟩
    | error e =>
      have next := handled e (moved.2 e rfl) s'
      exact ⟨trans _ _ _ moved.1 next.1,next.2⟩

/-- What is attempted raises nothing; what is done with its result may use what it could raise. -/
theorem moves_attempt {ε' : Type} {E' : ε' → Prop} {m : Command σ ε' α} {k : Except ε' α → Command σ ε β}
    (first : Moves R E' m) (rest : ∀ result, (∀ e, result = .error e → E' e) → Moves R E (k result)) :
    Moves R E (m.attempt >>= k) := by
  refine moves_bind_returned trans (fun s => ⟨(first s).1,nofun⟩) fun s result returned => ?_
  cases returned
  exact rest _ (first s).2

include refl

theorem moves_forEach {body : α → Command σ ε Unit} {items : List α} (each : ∀ a ∈ items, Moves R E (body a)) :
    Moves R E (Command.forEach body items) := by
  induction items with
  | nil => exact moves_pure refl ()
  | cons a rest ih =>
    apply moves_bind trans (each a (by simp))
    intro _
    exact ih fun b member => each b (by simp [member])

end

/-! ### Commands that append to what is kept -/

/-- A command that appends some items to those that a state holds, and only the first of them if it raises; `I items s`
    says that the state holds the items. -/
def Appends {γ : Type} (I : List γ → σ → Prop) (E : ε → Prop) (items : List γ) (m : Command σ ε α) : Prop :=
  ∀ before, Ensures (I before) m fun result s =>
    match result with
    | .ok _ => I (before ++ items) s
    | .error e => E e ∧ ∃ first, first <+: items ∧ I (before ++ first) s

/-- A command that appends the first of some items, whether it returns or raises. -/
def AppendsSome {γ : Type} (I : List γ → σ → Prop) (E : ε → Prop) (items : List γ) (m : Command σ ε α) : Prop :=
  ∀ before, Ensures (I before) m fun result s =>
    (∀ e, result = .error e → E e) ∧ ∃ first, first <+: items ∧ I (before ++ first) s

section
variable {γ : Type} {I : List γ → σ → Prop} {E : ε → Prop} {items more : List γ}

theorem appends_pure (a : α) : Appends I E [] (pure a : Command σ ε α) := by
  intro before s holds
  rw [List.append_nil]
  exact holds

theorem appends_raise {e : ε} (allowed : E e) : Appends I E items (Command.raise e : Command σ ε α) := by
  intro before s holds
  exact ⟨allowed,[],List.nil_prefix,by rw [List.append_nil]; exact holds⟩

theorem appends_observe (f : σ → α) : Appends I E [] (Command.observe f) := by
  intro before s holds
  rw [List.append_nil]
  exact holds

theorem appends_update {f : σ → σ} (moved : ∀ before s, I before s → I (before ++ items) (f s)) :
    Appends I E items (Command.update f) := moved

theorem appends_kept {f : σ → σ} (kept : ∀ before s, I before s → I before (f s)) : Appends I E [] (Command.update f) :=
  appends_update fun before s holds => by
    rw [List.append_nil]
    exact kept before s holds

/-- The rest is only run on what the first command returns. -/
theorem appends_bind_returned {m : Command σ ε α} {k : α → Command σ ε β} (first : Appends I E items m)
    (rest : ∀ s a, (m s).1 = .ok a → Appends I E more (k a)) : Appends I E (items ++ more) (m >>= k) := by
  intro before s holds
  have reached := first before s holds
  have next := rest s
  simp only [bind]
  cases ended : m s with
  | mk result s' =>
    rw [ended] at reached next
    cases result with
    | ok a =>
      have later := next a rfl (before ++ items) s' reached
      dsimp only
      cases last : k a s' with
      | mk result' t =>
        rw [last] at later
        cases result' with
        | ok b =>
          rw [← List.append_assoc]
          exact later
        | error e =>
          obtain ⟨allowed,some,inside,held⟩ := later
          refine ⟨allowed,items ++ some,(List.prefix_append_right_inj items).mpr inside,?_⟩
          rw [← List.append_assoc]
          exact held
    | error e =>
      obtain ⟨allowed,some,inside,held⟩ := reached
      exact ⟨allowed,some,inside.trans (List.prefix_append _ _),held⟩

theorem appends_bind {m : Command σ ε α} {k : α → Command σ ε β} (first : Appends I E items m)
    (rest : ∀ a, Appends I E more (k a)) : Appends I E (items ++ more) (m >>= k) :=
  appends_bind_returned first fun _ a _ => rest a

theorem appends_after_returned {m : Command σ ε α} {k : α → Command σ ε β} (first : Appends I E [] m)
    (rest : ∀ s a, (m s).1 = .ok a → Appends I E items (k a)) : Appends I E items (m >>= k) :=
  appends_bind_returned first rest

/-- A first command that appends nothing. -/
theorem appends_after {m : Command σ ε α} {k : α → Command σ ε β} (first : Appends I E [] m)
    (rest : ∀ a, Appends I E items (k a)) : Appends I E items (m >>= k) :=
  appends_bind first rest

/-- A last command that appends nothing. -/
theorem appends_before {m : Command σ ε α} {k : α → Command σ ε β} (first : Appends I E items m)
    (rest : ∀ a, Appends I E [] (k a)) : Appends I E items (m >>= k) := by
  have both := appends_bind first rest
  rw [List.append_nil] at both
  exact both

theorem appends_forEach {body : α → Command σ ε Unit} {as : List α} {f : α → List γ}
    (each : ∀ a ∈ as, Appends I E (f a) (body a)) : Appends I E (as.flatMap f) (Command.forEach body as) := by
  induction as with
  | nil => exact appends_pure ()
  | cons a rest ih =>
    rw [List.flatMap_cons]
    refine appends_bind (each a List.mem_cons_self) fun _ => ?_
    exact ih fun b member => each b (List.mem_cons_of_mem _ member)

theorem appends_forEach_none {body : α → Command σ ε Unit} {as : List α} (each : ∀ a ∈ as, Appends I E [] (body a)) :
    Appends I E [] (Command.forEach body as) := by
  have none : as.flatMap (fun _ => ([] : List γ)) = [] := List.flatMap_eq_nil_iff.mpr fun _ _ => rfl
  rw [← none]
  exact appends_forEach each

theorem appends_except {E' : ε → Prop} {m : Command σ ε α} {handler : ε → Command σ ε α} (first : Appends I E [] m)
    (handled : ∀ e, E e → Appends I E' [] (handler e)) : Appends I E' [] (m.except handler) := by
  intro before s holds
  have reached := first before s holds
  simp only [Command.except]
  cases ended : m s with
  | mk result s' =>
    rw [ended] at reached
    cases result with
    | ok a => exact reached
    | error e =>
      obtain ⟨allowed,some,inside,held⟩ := reached
      rw [List.prefix_nil.mp inside, List.append_nil] at held
      exact handled e allowed before s' held

theorem appends_attempt {ε' : Type} {E' : ε' → Prop} {m : Command σ ε' α} {k : Except ε' α → Command σ ε β}
    (first : Appends I E' [] m) (rest : ∀ result, (∀ e, result = .error e → E' e) → Appends I E items (k result)) :
    Appends I E items (m.attempt >>= k) := by
  intro before s holds
  have reached := first before s holds
  have ran : (m.attempt >>= k : Command σ ε β) s = k (m s).1 (m s).2 := rfl
  rw [ran]
  cases ended : m s with
  | mk result s' =>
    rw [ended] at reached
    cases result with
    | ok a =>
      rw [List.append_nil] at reached
      exact rest (.ok a) nofun before s' reached
    | error e =>
      obtain ⟨allowed,some,inside,held⟩ := reached
      rw [List.prefix_nil.mp inside, List.append_nil] at held
      exact rest (.error e) (fun e' same => Except.error.inj same ▸ allowed) before s' held

theorem Appends.some {m : Command σ ε α} (appends : Appends I E items m) : AppendsSome I E items m := by
  intro before s holds
  have reached := appends before s holds
  revert reached
  cases m s with
  | mk result s' =>
    cases result with
    | ok a => exact fun held => ⟨nofun,items,List.prefix_rfl,held⟩
    | error e => exact fun ⟨allowed,first,inside,held⟩ => ⟨fun e' same => Except.error.inj same ▸ allowed,first,inside,held⟩

theorem appendsSome_none {m : Command σ ε α} (appends : Appends I E [] m) : AppendsSome I E items m := by
  intro before s holds
  obtain ⟨allowed,first,inside,held⟩ := appends.some before s holds
  exact ⟨allowed,first,inside.trans List.nil_prefix,held⟩

/-- A first command that appends nothing. -/
theorem appendsSome_after {m : Command σ ε α} {k : α → Command σ ε β} (first : Appends I E [] m)
    (rest : ∀ s a, (m s).1 = .ok a → AppendsSome I E items (k a)) : AppendsSome I E items (m >>= k) := by
  intro before s holds
  have reached := first before s holds
  have next := rest s
  simp only [bind]
  cases ended : m s with
  | mk result s' =>
    rw [ended] at reached next
    cases result with
    | ok a =>
      rw [List.append_nil] at reached
      exact next a rfl before s' reached
    | error e =>
      obtain ⟨allowed,some,inside,held⟩ := reached
      exact ⟨fun e' same => Except.error.inj same ▸ allowed,some,inside.trans List.nil_prefix,held⟩

/-- A last command that appends nothing. -/
theorem appendsSome_before {m : Command σ ε α} {k : α → Command σ ε β} (first : AppendsSome I E items m)
    (rest : ∀ a, Appends I E [] (k a)) : AppendsSome I E items (m >>= k) := by
  intro before s holds
  obtain ⟨allowed,some,inside,held⟩ := first before s holds
  simp only [bind]
  cases ended : m s with
  | mk result s' =>
    rw [ended] at allowed held
    cases result with
    | ok a =>
      obtain ⟨allowed',none,inside',held'⟩ := (rest a).some (before ++ some) s' held
      rw [List.prefix_nil.mp inside', List.append_nil] at held'
      exact ⟨allowed',some,inside,held'⟩
    | error e => exact ⟨fun e' same => allowed e' (congrArg Except.error (Except.error.inj same)),some,inside,held⟩

end

/-! ### Commands that follow a view of the state -/

/-- From states with the same view, the command does the same and leaves states with the same view. -/
def Follows {ν : Type} (view : σ → ν) (m : Command σ ε α) : Prop :=
  ∀ s t, view s = view t → (m s).1 = (m t).1 ∧ view (m s).2 = view (m t).2

section
variable {ν : Type} {view : σ → ν}

theorem follows_pure (a : α) : Follows view (pure a : Command σ ε α) := fun _ _ same => ⟨rfl,same⟩

theorem follows_raise (e : ε) : Follows view (Command.raise e : Command σ ε α) := fun _ _ same => ⟨rfl,same⟩

theorem follows_update {f : σ → σ} (moved : ∀ s t, view s = view t → view (f s) = view (f t)) :
    Follows view (Command.update f : Command σ ε Unit) :=
  fun s t same => ⟨rfl,moved s t same⟩

/-- What is observed only matters as far as the view tells it. -/
theorem follows_observe {f : σ → α} {k : α → Command σ ε β} (seen : ∀ s t, view s = view t → k (f s) = k (f t))
    (rest : ∀ a, Follows view (k a)) : Follows view (Command.observe f >>= k) := by
  intro s t same
  have later := rest (f s) s t same
  rw [show (Command.observe f >>= k) s = k (f s) s from rfl,
    show (Command.observe f >>= k) t = k (f t) t from rfl, ← seen s t same]
  exact later

theorem follows_bind {m : Command σ ε α} {k : α → Command σ ε β} (first : Follows view m) (rest : ∀ a, Follows view (k a)) :
    Follows view (m >>= k) := by
  intro s t same
  obtain ⟨result,left⟩ := first s t same
  simp only [bind]
  cases here : m s with
  | mk a s' =>
    cases there : m t with
    | mk b t' =>
      rw [here, there] at result left
      cases result
      cases a with
      | ok a => exact rest a s' t' left
      | error e => exact ⟨rfl,left⟩

theorem follows_except {m : Command σ ε α} {handler : ε → Command σ ε α} (first : Follows view m)
    (handled : ∀ e, Follows view (handler e)) : Follows view (m.except handler) := by
  intro s t same
  obtain ⟨result,left⟩ := first s t same
  simp only [Command.except]
  cases here : m s with
  | mk a s' =>
    cases there : m t with
    | mk b t' =>
      rw [here, there] at result left
      cases result
      cases a with
      | ok a => exact ⟨rfl,left⟩
      | error e => exact handled e s' t' left

end

/-! ### Two commands that differ only after a mark -/

/-- From every state, unless the first command raises an exception of `E` or leaves a state with the mark, the second
    command does the same. -/
def Agree (E : ε → Prop) (mark : σ → Prop) (m m' : Command σ ε α) : Prop :=
  ∀ s, (∀ e, (m s).1 = .error e → ¬ E e) → ¬ mark (m s).2 → m' s = m s

/-- The mark stays. -/
def Marks (mark : σ → Prop) (s s' : σ) : Prop := mark s → mark s'

section
variable {E : ε → Prop} {mark : σ → Prop}

theorem agree_refl (m : Command σ ε α) : Agree E mark m m :=
  fun _ _ _ => rfl

theorem agree_bind {F : ε → Prop} {m m' : Command σ ε α} {k k' : α → Command σ ε β} (first : Agree E mark m m')
    (stays : ∀ a, Moves (Marks mark) F (k a)) (rest : ∀ a, Agree E mark (k a) (k' a)) :
    Agree E mark (m >>= k) (m' >>= k') := by
  intro s raises unmarked
  have same := first s
  simp only [bind] at raises unmarked ⊢
  cases ended : m s with
  | mk result s' =>
    simp only [ended] at raises unmarked same
    cases result with
    | ok a =>
      rw [same nofun fun marked => unmarked ((stays a s').1 marked)]
      exact rest a s' raises unmarked
    | error e =>
      rw [same (fun e' raised => raises e' (by cases raised; rfl)) unmarked]

end

end DocGuard.Commands
