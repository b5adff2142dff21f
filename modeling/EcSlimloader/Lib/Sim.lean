import EcSlimloader.Lib.Exec

/-!
# `EcSlimloader.Lib.Sim`: two programs side by side

`Sim R x y S F` relates two fallible stateful programs that may run on different states.
From related states both return, and then `S` relates the values and the states, or both fail,
and then `F` relates the faults and the states. It is what a refinement between two
implementations of one interface needs: `Sim.pure`, `Sim.bind` and `Sim.conseq` follow the
text that the two programs share, and `Sim.cases` says how two runs end.

`Sim` is stronger than an inclusion of behaviours: one run succeeds exactly when the other one
does. Where two programs are allowed to fail differently, the relation `F` of the faults says how.
-/

set_option autoImplicit false

variable {ε ε' σ τ α α' β β' : Type}

/-- From related states both programs return with `S`, or both fail with `F`. -/
def Sim (R : σ → τ → Prop) (x : EStateM ε σ α) (y : EStateM ε' τ α')
    (S : α → σ → α' → τ → Prop) (F : ε → σ → ε' → τ → Prop) : Prop :=
  ∀ s t, R s t → match x s, y t with
    | .ok a s', .ok a' t' => S a s' a' t'
    | .error e s', .error e' t' => F e s' e' t'
    | _, _ => False

namespace Sim

variable {R R' : σ → τ → Prop} {S S' : α → σ → α' → τ → Prop} {F F' : ε → σ → ε' → τ → Prop}

/-- The two ways in which related programs end. -/
theorem cases {x : EStateM ε σ α} {y : EStateM ε' τ α'} (h : Sim R x y S F) {s : σ} {t : τ}
    (hR : R s t) :
    (∃ a s' a' t', x s = .ok a s' ∧ y t = .ok a' t' ∧ S a s' a' t') ∨
      ∃ e s' e' t', x s = .error e s' ∧ y t = .error e' t' ∧ F e s' e' t' := by
  -- Of the four ways in which the two runs can end, `Sim` leaves the two in which they agree.
  have hs := h s t hR
  cases hx : x s with
  | ok a s' =>
      cases hy : y t with
      | ok a' t' =>
          rw [hx, hy] at hs
          exact .inl ⟨a, s', a', t', rfl, rfl, hs⟩
      | error e' t' =>
          rw [hx, hy] at hs
          exact hs.elim
  | error e s' =>
      cases hy : y t with
      | ok a' t' =>
          rw [hx, hy] at hs
          exact hs.elim
      | error e' t' =>
          rw [hx, hy] at hs
          exact .inr ⟨e, s', e', t', rfl, rfl, hs⟩

/-- Values returned without a step. -/
theorem pure (a : α) (a' : α') (h : ∀ s t, R s t → S a s a' t) :
    Sim R (pure a : EStateM ε σ α) (pure a' : EStateM ε' τ α') S F :=
  fun s t hR => h s t hR

/-- Sequencing. -/
theorem bind {x : EStateM ε σ α} {y : EStateM ε' τ α'} {f : α → EStateM ε σ β}
    {g : α' → EStateM ε' τ β'} {S : α → σ → α' → τ → Prop} {S' : β → σ → β' → τ → Prop}
    (hx : Sim R x y S F)
    (hf : ∀ a a', Sim (fun s t => S a s a' t) (f a) (g a') S' F) :
    Sim R (x >>= f) (y >>= g) S' F := by
  intro s t hR
  show match EStateM.bind x f s, EStateM.bind y g t with
    | .ok a s', .ok a' t' => S' a s' a' t'
    | .error e s', .error e' t' => F e s' e' t'
    | _, _ => False
  rcases hx.cases hR with ⟨a, s', a', t', hxs, hyt, hS⟩ | ⟨e, s', e', t', hxs, hyt, hF⟩
  · simp only [EStateM.bind, hxs, hyt]
    exact hf a a' s' t' hS
  · simp only [EStateM.bind, hxs, hyt]
    exact hF

/-- Strengthen what relates the states before, weaken what relates them afterwards. -/
theorem conseq {x : EStateM ε σ α} {y : EStateM ε' τ α'} (h : Sim R' x y S' F')
    (hR : ∀ s t, R s t → R' s t) (hS : ∀ a s a' t, S' a s a' t → S a s a' t)
    (hF : ∀ e s e' t, F' e s e' t → F e s e' t) : Sim R x y S F := by
  intro s t hs
  rcases h.cases (hR s t hs) with ⟨a, s', a', t', hx, hy, h'⟩ | ⟨e, s', e', t', hx, hy, h'⟩
  · rw [hx, hy]
    exact hS _ _ _ _ h'
  · rw [hx, hy]
    exact hF _ _ _ _ h'

end Sim
