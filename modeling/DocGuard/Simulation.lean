import DocGuard.Commands

/-!
Two commands over different states, step by step: from related states they return or
raise the same and leave related states. Steps that only one of them takes are allowed
where they keep the states related.
-/
namespace DocGuard.Commands

variable {σ τ ε α β : Type} {R : σ → τ → Prop}

/-- From these states the commands return or raise the same, and leave related states. -/
def Matches (R : σ → τ → Prop) (m : Command σ ε α) (n : Command τ ε α) (s : σ) (t : τ) : Prop :=
  (m s).1 = (n t).1 ∧ R (m s).2 (n t).2

/-- The commands match from all related states. -/
def Simulates (R : σ → τ → Prop) (m : Command σ ε α) (n : Command τ ε α) : Prop := ∀ s t, R s t → Matches R m n s t

theorem simulates_pure (a : α) : Simulates R (pure a : Command σ ε α) (pure a) := fun _ _ related => ⟨rfl,related⟩

theorem simulates_raise (e : ε) : Simulates R (Command.raise e : Command σ ε α) (Command.raise e) :=
  fun _ _ related => ⟨rfl,related⟩

theorem simulates_update {f : σ → σ} {g : τ → τ} (moved : ∀ s t, R s t → R (f s) (g t)) :
    Simulates R (Command.update f : Command σ ε Unit) (Command.update g) :=
  fun s t related => ⟨rfl,moved s t related⟩

theorem matches_bind {m : Command σ ε α} {n : Command τ ε α} {k : α → Command σ ε β} {l : α → Command τ ε β} {s : σ} {t : τ}
    (first : Matches R m n s t) (rest : ∀ a, Simulates R (k a) (l a)) : Matches R (m >>= k) (n >>= l) s t := by
  obtain ⟨same,related⟩ := first
  unfold Matches
  cases ended : m s with
  | mk result s' =>
    cases ended' : n t with
    | mk result' t' =>
      rw [ended,ended'] at same related
      obtain rfl : result = result' := same
      cases result with
      | ok a =>
        rw [bind_returned ended,bind_returned ended']
        exact rest a s' t' related
      | error e =>
        rw [bind_raised ended,bind_raised ended']
        exact ⟨rfl,related⟩

theorem simulates_bind {m : Command σ ε α} {n : Command τ ε α} {k : α → Command σ ε β} {l : α → Command τ ε β}
    (first : Simulates R m n) (rest : ∀ a, Simulates R (k a) (l a)) : Simulates R (m >>= k) (n >>= l) :=
  fun s t related => matches_bind (first s t related) rest

/-- What both observe may be used from here on. -/
theorem simulates_observe {γ δ : Type} {f : σ → γ} {g : τ → δ} {k : γ → Command σ ε β} {l : δ → Command τ ε β}
    (rest : ∀ s t, R s t → Matches R (k (f s)) (l (g t)) s t) :
    Simulates R (Command.observe f >>= k) (Command.observe g >>= l) :=
  rest

/-- A step of the first command alone. -/
theorem simulates_own {f : σ → σ} {k : Unit → Command σ ε β} {n : Command τ ε β} (kept : ∀ s t, R s t → R (f s) t)
    (rest : Simulates R (k ()) n) : Simulates R (Command.update f >>= k) n :=
  fun s t related => rest (f s) t (kept s t related)

end DocGuard.Commands
