import Mathlib.Algebra.GroupWithZero.Nat
import Mathlib.Tactic.Common

/-!
# `EcSlimloader.Lib.Exec`: fallible stateful programs and their triples

A Rust function that takes `&mut self` and returns a `Result` is a program over
a state that ends with a value, with an error, or with a panic. `Exec ε σ α`
models it: `EStateM` keeps the state of a failed run, which is what a later
reader of the storage sees.

`Triple P x Q C` is the total-correctness triple of such a program with a
second postcondition `C` for the failed runs. `C` speaks about the state the
failure leaves behind, so it is the crash condition of a storage program. The
rules let a proof follow the program text: `Triple.pure`, `Triple.bind` and
`Triple.conseq`, and `Triple.foldlM`, `Triple.forM` and `Triple.mapM` for the loops.

A panic is a `Fault` like an error, but no caller can handle it: `mapError` and `zoom` hand it on as
it is, and `unwrap` makes one out of an error. The state behind a fault is kept in both cases.

A triple is used in one of three ways. `Triple.of_ok` and `Triple.of_error` read off what holds
behind a run that is given. `Triple.returns` says that a run whose crash condition is impossible
comes to its end. `Triple.mono_crash` weakens the crash condition alone, which is the usual step
between the triple of a part and that of the whole.
-/

set_option autoImplicit false

/-- How a run fails: with an error the caller can inspect, or with a panic. -/
inductive Fault (ε : Type) where
  | error (e : ε)
  | panic (msg : String)
  deriving DecidableEq, Repr

namespace Fault

/-- Convert the error (the `From` conversion of the `?` operator). A panic
carries no error. -/
def map {ε ε' : Type} (f : ε → ε') : Fault ε → Fault ε'
  | .error e => .error (f e)
  | .panic msg => .panic msg

/-- A fault whose error is not changed. -/
@[simp] theorem map_id {ε : Type} (e : Fault ε) : e.map id = e := by
  cases e with
  | error e => rfl
  | panic msg => rfl

end Fault

namespace Except

variable {ε α β : Type}

/-- A result is handed on. -/
@[simp] theorem ok_bind (a : α) (f : α → Except ε β) : (Except.ok a >>= f) = f a := rfl

/-- An error skips what follows. -/
@[simp] theorem error_bind (e : ε) (f : α → Except ε β) : (Except.error e >>= f) = .error e := rfl

/-- A computation that returns from `x >>= f` returned from `x` first. -/
theorem bind_eq_ok {x : Except ε α} {f : α → Except ε β} {b : β} :
    (x >>= f) = .ok b ↔ ∃ a, x = .ok a ∧ f a = .ok b := by
  cases x with
  | ok a => simp
  | error e => simp

/-- A loop whose steps return known values. -/
theorem mapM_ok {f : α → Except ε β} {g : α → β} {l : List α} (h : ∀ a ∈ l, f a = .ok (g a)) :
    l.mapM f = .ok (l.map g) := by
  induction l with
  | nil => rfl
  | cons a l ih =>
      rw [List.mapM_cons, h a List.mem_cons_self, ok_bind,
        ih fun a' ha' => h a' (List.mem_cons_of_mem _ ha')]
      rfl

/-- A loop whose steps all return. -/
theorem mapM_returns {f : α → Except ε β} {l : List α} (h : ∀ a ∈ l, ∃ b, f a = .ok b) :
    ∃ bs, l.mapM f = .ok bs ∧ bs.length = l.length := by
  induction l with
  | nil => exact ⟨[], rfl, rfl⟩
  | cons a l ih =>
      obtain ⟨b, hb⟩ := h a List.mem_cons_self
      obtain ⟨bs, hbs, hlen⟩ := ih fun a' ha' => h a' (List.mem_cons_of_mem _ ha')
      refine ⟨b :: bs, ?_, by rw [List.length_cons, List.length_cons, hlen]⟩
      rw [List.mapM_cons, hb, ok_bind, hbs]
      rfl

/-- The first step that fails ends the loop. -/
theorem mapM_error {f : α → Except ε β} {front back : List α} {a : α} {e : ε}
    (hfront : ∀ x ∈ front, ∃ b, f x = .ok b) (ha : f a = .error e) :
    (front ++ a :: back).mapM f = .error e := by
  induction front with
  | nil => rw [List.nil_append, List.mapM_cons, ha, error_bind]
  | cons x front ih =>
      obtain ⟨b, hb⟩ := hfront x List.mem_cons_self
      rw [List.cons_append, List.mapM_cons, hb, ok_bind,
        ih fun x' hx' => hfront x' (List.mem_cons_of_mem _ hx'), error_bind]

end Except

/-- A program over the state `σ` that returns an `α`, fails with an `ε`, or
panics. -/
abbrev Exec (ε σ α : Type) : Type := EStateM (Fault ε) σ α

namespace Exec

variable {ε ε' σ τ α β : Type}

/-- Fail with the error `e`. -/
def fail (e : ε) : Exec ε σ α := throw (.error e)

/-- Panic with the message `msg`. -/
def panic (msg : String) : Exec ε σ α := throw (.panic msg)

/-- `assert!`: panic unless the condition holds. -/
def require (c : Prop) [Decidable c] (msg : String) : Exec ε σ Unit :=
  if c then pure () else panic msg

/-- A computation that does not touch the state. -/
def ofExcept (x : Except (Fault ε) α) : Exec ε σ α :=
  match x with
  | .ok a => pure a
  | .error e => throw e

/-- `unwrap()`: an error becomes a panic. -/
def unwrap (x : Exec ε σ α) : Exec ε' σ α :=
  fun s => match x s with
    | .ok a s' => .ok a s'
    | .error (.error _) s' => .error (.panic "unwrap failed") s'
    | .error (.panic msg) s' => .error (.panic msg) s'

/-- Run a program on a component of the state, and convert its error. -/
def zoom (get : σ → τ) (put : τ → σ → σ) (f : ε → ε') (x : Exec ε τ α) : Exec ε' σ α :=
  fun s => match x (get s) with
    | .ok a t => .ok a (put t s)
    | .error e t => .error (e.map f) (put t s)

/-- Convert the error of a program. -/
def mapError (f : ε → ε') (x : Exec ε σ α) : Exec ε' σ α := zoom id (fun s _ => s) f x

/-- A bind whose first program returns. -/
theorem bind_ok {x : Exec ε σ α} {f : α → Exec ε σ β} {s s' : σ} {a : α}
    (h : x s = .ok a s') : (x >>= f) s = f a s' := by
  show EStateM.bind x f s = f a s'
  rw [EStateM.bind, h]

/-- A bind whose first program fails. -/
theorem bind_error {x : Exec ε σ α} {f : α → Exec ε σ β} {s s' : σ} {e : Fault ε}
    (h : x s = .error e s') : (x >>= f) s = .error e s' := by
  show EStateM.bind x f s = .error e s'
  rw [EStateM.bind, h]

/-- A bind that returns: the first program has returned, and then the second one. -/
theorem bind_eq_ok {x : Exec ε σ α} {f : α → Exec ε σ β} {s s'' : σ} {b : β}
    (h : (x >>= f) s = .ok b s'') : ∃ a s', x s = .ok a s' ∧ f a s' = .ok b s'' := by
  cases hx : x s with
  | ok a s' =>
      rw [bind_ok hx] at h
      exact ⟨a, s', rfl, h⟩
  | error e s' =>
      rw [bind_error hx] at h
      cases h

/-- A bind returns exactly if both of its programs do. -/
theorem bind_eq_ok_iff {x : Exec ε σ α} {f : α → Exec ε σ β} {s s'' : σ} {b : β} :
    (x >>= f) s = .ok b s'' ↔ ∃ a s', x s = .ok a s' ∧ f a s' = .ok b s'' := by
  constructor
  · exact bind_eq_ok
  · intro ⟨a, s', hx, hf⟩
    rw [bind_ok hx, hf]

/-- `pure` returns its value and leaves the state alone. -/
@[simp] theorem pure_run (a : α) (s : σ) :
    (pure a : Exec ε σ α) s = .ok a s := rfl

/-- `fail` is an error that the caller can handle. -/
@[simp] theorem fail_run (e : ε) (s : σ) :
    (fail e : Exec ε σ α) s = .error (.error e) s := rfl

/-- `panic` is a fault that no caller handles. -/
@[simp] theorem panic_run (msg : String) (s : σ) :
    (panic msg : Exec ε σ α) s = .error (.panic msg) s := rfl

/-- A computation without an effect that returns. -/
theorem ofExcept_ok_run (a : α) (s : σ) : (ofExcept (.ok a) : Exec ε σ α) s = .ok a s := rfl

/-- A program that reads the state first. -/
theorem get_bind (f : σ → Exec ε σ α) (s : σ) : ((get : Exec ε σ σ) >>= f) s = f s s := rfl

/-- A program that reads the state first, but does the same in every state. -/
theorem get_bind_eq {f : σ → Exec ε σ α} {x : Exec ε σ α} (h : ∀ s, f s = x) :
    (get >>= f) = x := by
  funext s
  show f s s = x s
  rw [h]

/-- A program on a component that returns. -/
theorem zoom_ok {get : σ → τ} {put : τ → σ → σ} {f : ε → ε'} {x : Exec ε τ α} {s : σ} {t : τ}
    {a : α} (h : x (get s) = .ok a t) : zoom get put f x s = .ok a (put t s) := by
  rw [zoom, h]

/-- A program on a component that fails. -/
theorem zoom_error {get : σ → τ} {put : τ → σ → σ} {f : ε → ε'} {x : Exec ε τ α} {s : σ} {t : τ}
    {e : Fault ε} (h : x (get s) = .error e t) :
    zoom get put f x s = .error (e.map f) (put t s) := by
  rw [zoom, h]

/-- A run that returns is not changed by `mapError`. -/
theorem mapError_ok {f : ε → ε'} {x : Exec ε σ α} {s s' : σ} {a : α} (h : x s = .ok a s') :
    mapError f x s = .ok a s' := zoom_ok h

/-- A run that fails leaves the same state behind. A panic stays a panic. -/
theorem mapError_error {f : ε → ε'} {x : Exec ε σ α} {s s' : σ} {e : Fault ε}
    (h : x s = .error e s') : mapError f x s = .error (e.map f) s' := zoom_error h

/-- A computation without an effect returns its value and leaves the state alone. -/
theorem ofExcept_eq_ok {x : Except (Fault ε) α} {s s' : σ} {a : α} :
    (ofExcept x : Exec ε σ α) s = .ok a s' ↔ x = .ok a ∧ s' = s := by
  cases x with
  | ok b =>
      rw [ofExcept_ok_run, EStateM.Result.ok.injEq, Except.ok.injEq, eq_comm (b := s)]
  | error e =>
      constructor
      · intro h
        cases h
      · intro ⟨h, _⟩
        cases h

/-- A converted error does not matter for a run that returns. -/
theorem mapError_eq_ok {f : ε → ε'} {x : Exec ε σ α} {s s' : σ} {a : α} :
    mapError f x s = .ok a s' ↔ x s = .ok a s' := by
  cases h : x s with
  | ok b t => rw [mapError_ok h, EStateM.Result.ok.injEq, EStateM.Result.ok.injEq]
  | error e t =>
      rw [mapError_error h]
      simp

/-- The unwrapping of a run that returns. -/
theorem unwrap_ok {x : Exec ε σ α} {s s' : σ} {a : α} (h : x s = .ok a s') :
    (unwrap x : Exec ε' σ α) s = .ok a s' := by
  simp only [unwrap, h]

/-- An assertion that holds does nothing. -/
theorem require_of {c : Prop} [Decidable c] (h : c) (msg : String) :
    (require c msg : Exec ε σ Unit) = pure () := if_pos h

end Exec

/-- `Triple P x Q C`: from every state in `P`, the program `x` returns with `Q`
of its value and final state, or fails with `C` of its fault and the state it
leaves behind. -/
def Triple {ε σ α : Type} (P : σ → Prop) (x : EStateM ε σ α) (Q : α → σ → Prop)
    (C : ε → σ → Prop) : Prop :=
  ∀ s, P s → match x s with
    | .ok a s' => Q a s'
    | .error e s' => C e s'

namespace Triple

variable {ε σ α β : Type} {P P' : σ → Prop} {Q Q' : α → σ → Prop} {C C' : ε → σ → Prop}

/-- Read a triple at a run that returned. -/
theorem of_ok {x : EStateM ε σ α} (h : Triple P x Q C) {s s' : σ} {a : α} (hP : P s)
    (hx : x s = .ok a s') : Q a s' := by
  have hs := h s hP
  rw [hx] at hs
  exact hs

/-- Read a triple at a run that failed. -/
theorem of_error {x : EStateM ε σ α} (h : Triple P x Q C) {s s' : σ} {e : ε} (hP : P s)
    (hx : x s = .error e s') : C e s' := by
  have hs := h s hP
  rw [hx] at hs
  exact hs

/-- A program whose crash condition cannot hold returns. -/
theorem returns {x : EStateM ε σ α} (h : Triple P x Q C) (hC : ∀ e s, ¬ C e s) {s : σ}
    (hP : P s) : ∃ a s', x s = .ok a s' ∧ Q a s' := by
  cases hx : x s with
  | ok a s' => exact ⟨a, s', rfl, h.of_ok hP hx⟩
  | error e s' => exact absurd (h.of_error hP hx) (hC e s')

/-- A value returned without a step. -/
theorem pure (a : α) (h : ∀ s, P s → Q a s) : Triple P (pure a : EStateM ε σ α) Q C :=
  fun s hP => h s hP

/-- Sequencing: the first program ends in `R`, the second one starts there. Both
share the crash condition. -/
theorem bind {x : EStateM ε σ α} {f : α → EStateM ε σ β} {R : α → σ → Prop}
    {Q : β → σ → Prop} (hx : Triple P x R C) (hf : ∀ a, Triple (R a) (f a) Q C) :
    Triple P (x >>= f) Q C := by
  intro s hP
  show match EStateM.bind x f s with
    | .ok a s' => Q a s'
    | .error e s' => C e s'
  cases hr : x s with
  | ok a s' =>
      rw [EStateM.bind, hr]
      exact hf a s' (hx.of_ok hP hr)
  | error e s' =>
      rw [EStateM.bind, hr]
      exact hx.of_error hP hr

/-- Strengthen the precondition, weaken both postconditions. -/
theorem conseq {x : EStateM ε σ α} (h : Triple P' x Q' C') (hP : ∀ s, P s → P' s)
    (hQ : ∀ a s, Q' a s → Q a s) (hC : ∀ e s, C' e s → C e s) : Triple P x Q C := by
  intro s hs
  have h' := h s (hP s hs)
  cases hr : x s with
  | ok a s' =>
      rw [hr] at h'
      exact hQ a s' h'
  | error e s' =>
      rw [hr] at h'
      exact hC e s' h'

/-- Weaken the crash condition alone, as for one step among others in a `do` block. -/
theorem mono_crash {x : EStateM ε σ α} (h : Triple P x Q C) (hC : ∀ e s, C e s → C' e s) :
    Triple P x Q C' :=
  h.conseq (fun _ hP => hP) (fun _ _ hQ => hQ) hC

/-- A precondition that names something with a property of its own: one triple for each
choice. -/
theorem exists_pre {ι : Type} {φ : ι → Prop} {P : ι → σ → Prop} {x : EStateM ε σ α}
    (h : ∀ i, φ i → Triple (P i) x Q C) : Triple (fun s => ∃ i, φ i ∧ P i s) x Q C := by
  rintro s ⟨i, hφ, hP⟩
  exact h i hφ s hP

/-- A program that does not fail meets every crash condition. -/
theorem of_no_fault {x : EStateM ε σ α} (h : Triple P x Q fun _ _ => False) : Triple P x Q C :=
  h.mono_crash fun _ _ hC => hC.elim

/-- Loop rule: `I l acc` is the invariant with the items `l` still to come. -/
theorem foldlM {ι : Type} {f : α → ι → EStateM ε σ α} {I : List ι → α → σ → Prop}
    (step : ∀ i l acc, Triple (I (i :: l) acc) (f acc i) (fun acc' => I l acc') C) :
    ∀ (l : List ι) (acc : α),
      Triple (I l acc) (l.foldlM f acc) (fun acc' => I [] acc') C := by
  intro l
  induction l with
  | nil => intro acc; exact Triple.pure acc fun _ h => h
  | cons i l ih =>
      intro acc
      rw [List.foldlM_cons]
      exact Triple.bind (step i l acc) ih

/-- Loop rule without an accumulator: `I l` is the invariant with the items `l`
still to come. -/
theorem forM {ι : Type} {f : ι → EStateM ε σ PUnit} {I : List ι → σ → Prop}
    (step : ∀ i l, Triple (I (i :: l)) (f i) (fun _ => I l) C) :
    ∀ l : List ι, Triple (I l) (l.forM f) (fun _ => I []) C := by
  intro l
  induction l with
  | nil => exact Triple.pure _ fun _ h => h
  | cons i l ih => exact Triple.bind (step i l) fun _ => ih

/-- Loop rule for collected values, with an invariant of the state alone. -/
theorem mapM {ι : Type} {f : ι → EStateM ε σ α} {I : σ → Prop}
    (step : ∀ i, Triple I (f i) (fun _ => I) C) (l : List ι) :
    Triple I (l.mapM f) (fun _ => I) C := by
  induction l with
  | nil => exact Triple.pure _ fun _ h => h
  | cons i l ih =>
      rw [List.mapM_cons]
      apply Triple.bind (step i)
      intro a
      apply Triple.bind ih
      intro as
      exact Triple.pure _ fun _ h => h

/-- A program on a component of the state, whose crash condition does not look at the fault. -/
theorem zoom {ε ε' τ : Type} {get : σ → τ} {put : τ → σ → σ} {f : ε → ε'} {x : Exec ε τ α}
    {D : σ → Prop} {P' : τ → Prop} {Q' : α → τ → Prop} {D' : τ → Prop}
    (h : Triple P' x Q' fun _ => D') (hP : ∀ s, P s → P' (get s))
    (hQ : ∀ s a t, P s → Q' a t → Q a (put t s)) (hD : ∀ s t, P s → D' t → D (put t s)) :
    Triple P (Exec.zoom get put f x) Q fun _ => D := by
  intro s hs
  have h' := h (get s) (hP s hs)
  cases hr : x (get s) with
  | ok a t =>
      rw [hr] at h'
      rw [Exec.zoom_ok hr]
      exact hQ s a t hs h'
  | error e t =>
      rw [hr] at h'
      rw [Exec.zoom_error hr]
      exact hD s t hs h'

/-- A converted error: the crash condition has to hold of the error behind the conversion. -/
theorem mapError_of {ε ε' : Type} {f : ε → ε'} {x : Exec ε σ α} {C : Fault ε → σ → Prop}
    {C' : Fault ε' → σ → Prop} (h : Triple P x Q C) (hC : ∀ e s, C e s → C' (e.map f) s) :
    Triple P (Exec.mapError f x) Q C' := by
  intro s hs
  have h' := h s hs
  cases hr : x s with
  | ok a t =>
      rw [hr] at h'
      rw [Exec.mapError_ok hr]
      exact h'
  | error e t =>
      rw [hr] at h'
      rw [Exec.mapError_error hr]
      exact hC e t h'

/-- A converted error, with a crash condition that does not look at the fault. -/
theorem mapError {ε ε' : Type} {f : ε → ε'} {x : Exec ε σ α} {D : σ → Prop}
    (h : Triple P x Q fun _ => D) : Triple P (Exec.mapError f x) Q fun _ => D :=
  mapError_of h fun _ _ hD => hD

/-- An unwrapped program, with such a crash condition. -/
theorem unwrap {ε ε' : Type} {x : Exec ε σ α} {D : σ → Prop} (h : Triple P x Q fun _ => D) :
    Triple P (Exec.unwrap x : Exec ε' σ α) Q fun _ => D := by
  intro s hs
  have h' := h s hs
  unfold Exec.unwrap
  cases hr : x s with
  | ok a t =>
      rw [hr] at h'
      exact h'
  | error e t =>
      rw [hr] at h'
      cases e with
      | error _ => exact h'
      | panic _ => exact h'

/-- Loop rule for collected values that are known, with an invariant of the state alone. -/
theorem mapM_eq {ι : Type} {f : ι → EStateM ε σ α} {g : ι → α} {I : σ → Prop}
    (step : ∀ i, Triple I (f i) (fun a s => a = g i ∧ I s) C) (l : List ι) :
    Triple I (l.mapM f) (fun as s => as = l.map g ∧ I s) C := by
  induction l with
  | nil => exact Triple.pure _ fun _ h => ⟨rfl, h⟩
  | cons i l ih =>
      rw [List.mapM_cons]
      refine Triple.bind (step i) fun a => ?_
      rintro s ⟨rfl, hs⟩
      refine Triple.bind ih (fun as => ?_) s hs
      rintro s' ⟨rfl, hs'⟩
      exact ⟨rfl, hs'⟩

end Triple
