import DocGuard.Text

/-!
Computations that may fail, as `Except`: a check that raises unless its condition
holds, and what the success of a sequence of steps says about each of them.
-/
namespace DocGuard.Checks
universe u v w

variable {ε : Type u} {α β : Type v}

/-- Raises `error` unless the condition holds. -/
def require (condition : Prop) [Decidable condition] (error : ε) : Except ε PUnit.{v+1} :=
  if condition then .ok ⟨⟩ else .error error

@[simp] theorem require_ok {condition : Prop} [Decidable condition] {error : ε} :
    (require condition error : Except ε PUnit.{v+1}) = .ok ⟨⟩ ↔ condition := by
  by_cases holds : condition <;> simp [require,holds]

theorem bind_ok {first : Except ε α} {next : α → Except ε β} {b : β} :
    (first >>= next) = .ok b ↔ ∃ a, first = .ok a ∧ next a = .ok b := by
  cases first with
  | error e => simp [bind,Except.bind]
  | ok a => simp [bind,Except.bind]

@[simp] theorem require_bind_ok {condition : Prop} [Decidable condition] {error : ε}
    {next : PUnit.{v+1} → Except ε β} {b : β} :
    (require condition error >>= next) = .ok b ↔ condition ∧ next ⟨⟩ = .ok b := by
  by_cases holds : condition <;> simp [require,holds,bind,Except.bind]

/-- A check over the members of a list, in order. -/
def forAll {γ : Type w} (check : γ → Except ε PUnit.{v+1}) : List γ → Except ε PUnit.{v+1}
  | [] => .ok ⟨⟩
  | x :: rest => check x >>= fun _ => forAll check rest

@[simp] theorem forAll_ok {γ : Type w} {check : γ → Except ε PUnit.{v+1}} {xs : List γ} :
    forAll check xs = .ok ⟨⟩ ↔ ∀ x ∈ xs, check x = .ok ⟨⟩ := by
  induction xs with
  | nil => simp [forAll]
  | cons x rest ih =>
    simp only [forAll,bind_ok,ih,List.forall_mem_cons]
    constructor
    · rintro ⟨⟨⟩,first,later⟩
      exact ⟨first,later⟩
    · rintro ⟨first,later⟩
      exact ⟨⟨⟩,first,later⟩

@[simp] theorem forAll_bind_ok {γ : Type w} {check : γ → Except ε PUnit.{v+1}} {xs : List γ}
    {next : PUnit.{v+1} → Except ε β} {b : β} :
    (forAll check xs >>= next) = .ok b ↔ (∀ x ∈ xs, check x = .ok ⟨⟩) ∧ next ⟨⟩ = .ok b := by
  rw [bind_ok,← forAll_ok]
  constructor
  · rintro ⟨⟨⟩,checked,later⟩
    exact ⟨checked,later⟩
  · rintro ⟨checked,later⟩
    exact ⟨⟨⟩,checked,later⟩

theorem bind_error {first : Except ε α} {next : α → Except ε β} {e : ε} :
    (first >>= next) = .error e ↔ first = .error e ∨ ∃ a, first = .ok a ∧ next a = .error e := by
  cases first with
  | error e' => simp [bind,Except.bind]
  | ok a => simp [bind,Except.bind]

theorem mapM_error_mem {γ δ : Type v} {f : γ → Except ε δ} {xs : List γ} {e : ε} (failed : xs.mapM f = .error e) :
    ∃ x ∈ xs, f x = .error e := by
  induction xs with
  | nil => cases failed
  | cons x rest ih =>
    rw [List.mapM_cons] at failed
    rcases bind_error.mp failed with first | ⟨_,_,more⟩
    · exact ⟨x,List.mem_cons_self,first⟩
    · rcases bind_error.mp more with later | ⟨_,_,impossible⟩
      · obtain ⟨x',listed,given⟩ := ih later
        exact ⟨x',List.mem_cons_of_mem _ listed,given⟩
      · cases impossible

theorem mapM_ok_mem {γ δ : Type v} {f : γ → Except ε δ} {xs : List γ} {ys : List δ} (all : xs.mapM f = .ok ys) :
    ∀ y ∈ ys, ∃ x ∈ xs, f x = .ok y := by
  induction xs generalizing ys with
  | nil =>
    cases all
    simp
  | cons x rest ih =>
    rw [List.mapM_cons] at all
    obtain ⟨z,first,more⟩ := bind_ok.mp all
    obtain ⟨zs,later,same⟩ := bind_ok.mp more
    cases same
    intro y member
    rcases List.mem_cons.mp member with rfl | member
    · exact ⟨x,List.mem_cons_self,first⟩
    · obtain ⟨x',listed,given⟩ := ih later y member
      exact ⟨x',List.mem_cons_of_mem _ listed,given⟩

@[simp] theorem mapError_ok {δ : Type w} {first : Except ε α} {wrap : ε → δ} {a : α} :
    first.mapError wrap = .ok a ↔ first = .ok a := by
  cases first <;> simp [Except.mapError]

end DocGuard.Checks
