import EcSlimloader.Proofs.Journal.Faulty

/-!
# `EcSlimloader.Proofs.Journal.Durability`: when a successful `set` is durable

Every `?` of `set` leaves the cache of the handle as it was, while the storage can
have moved on. This module follows one handle through a sequence of `set` calls,
on a flash whose operations fail as they like, and asks when a call that returns
has stored its state.

`set_cases` has the two ways to return. A `set` that writes ends with a readback,
so the state is stored, whatever the cache was. A `set` of the cached state
returns at once and trusts the cache. `durable_calls_iff` is the exact condition:
each call with the cached state must find that state on the flash. It also says what
that asks for: the cache goes stale only when a call fails with an error of the flash,
which is `cacheCurrent_of_noFlashError`. The run of `staleHandle_not_durable` does so,
and its last call returns without storing its state.

The condition is a predicate on the state before each call, which is why the sequence is followed
with `Along`: the predicate is about the handle that a call starts with. The handle in front of the
sequence may have any cache, on a flash with any content and any plan of interruptions.

Neither direction looks at how the cache got stale. The calls that leave it behind are found by
`inSync_afterSet`, which is about one call.
-/

set_option autoImplicit false

namespace EcSlimloader

open FlashJournal

section Cases

variable {T E : Type} [NorFlash T E] {pages pageWords : Nat} [PagedFlash T E pages pageWords]

/-- A `set` on any handle, in sync or not. It returns because the state is the
cached one, or after a readback that found the state. It fails with an error of
the flash and the cache as it was, or after a readback that found another
state. -/
theorem set_cases {n : Nat} (hn : BlockSize n) (s : State) (j : FlashJournal T) :
    match (set n s : Exec (Error E) (FlashJournal T) Unit) j with
    | .ok _ j' => (j.get = some s ∧ j' = j) ∨
        (j.get ≠ some s ∧ InSync j' ∧ persisted pages pageWords j'.inner = some s)
    | .error e j' => ((∃ e', e = Fault.map .Other e') ∧ j'.cache = j.cache) ∨
        (e = .error .ReadbackFailed ∧ InSync j') := by
  -- The early return looks at the cache alone.
  by_cases h : j.get = some s
  · rw [set_run_of_eq h]
    exact .inl ⟨h, rfl⟩
  · rw [set_run_of_ne h]
    cases hw : (writeState j.cache s : Exec E T Unit) j.inner with
    | error e t => exact .inl ⟨⟨e, rfl⟩, rfl⟩
    | ok _ t =>
        have hcompute := computeCache_spec (T := T) (ReadableFlash.content t) False hn t
          ⟨rfl, False.elim⟩
        simp only
        cases hc : (computeCache n : Exec E T Cache) t with
        | error e t' => exact .inl ⟨⟨e, rfl⟩, rfl⟩
        | ok cache t' =>
            rw [hc] at hcompute
            obtain ⟨hcache, hcontent, -⟩ := hcompute
            have hsync : InSync (FlashJournal.mk t' cache) := by
              rw [InSync, hcontent]
              exact hcache
            simp only
            -- The readback was complete, so the cache is in sync whether it has found the state or
            -- not.
            by_cases hget : (FlashJournal.mk t' cache).get = some s
            · rw [if_pos hget]
              exact .inr ⟨h, hsync, by rw [← hget, hsync.get_eq]⟩
            · rw [if_neg hget]
              exact .inr ⟨rfl, hsync⟩

/-- The handle after a `set`, whether it returned or failed. -/
def afterSet (j : FlashJournal T) (n : Nat) (s : State) : FlashJournal T :=
  match (set n s : Exec (Error E) (FlashJournal T) Unit) j with
  | .ok _ j' => j'
  | .error _ j' => j'

/-- `P` holds at each call of a sequence of `set` calls on one handle. A call is a
block size and a state, and the handle is kept when a call fails. -/
def Along (P : FlashJournal T → Nat → State → Prop) :
    List (Nat × State) → FlashJournal T → Prop
  | [], _ => True
  | (n, s) :: calls, j => P j n s ∧ Along P calls (afterSet j n s)

/-- Two predicates that agree at each call agree along a sequence of calls. -/
theorem along_congr {P Q : FlashJournal T → Nat → State → Prop}
    (h : ∀ j n s, BlockSize n → (P j n s ↔ Q j n s)) {calls : List (Nat × State)}
    (hcalls : ∀ c ∈ calls, BlockSize c.1) (j : FlashJournal T) :
    Along P calls j ↔ Along Q calls j := by
  induction calls generalizing j with
  | nil => exact Iff.rfl
  | cons c calls ih =>
      obtain ⟨n, s⟩ := c
      have hrest := ih (fun c hc => hcalls c (List.mem_cons_of_mem _ hc)) (afterSet j n s)
      exact and_congr (h j n s (hcalls _ List.mem_cons_self)) hrest

/-- The condition on a call: when the state is the one the handle has cached, it
is the last valid one on the storage. -/
def CacheCurrent (j : FlashJournal T) (_ : Nat) (s : State) : Prop :=
  j.get = some s → persisted pages pageWords j.inner = some s

/-- The call does not fail with an error of the flash: it returns, or its readback
finds another state. -/
def NoFlashError (j : FlashJournal T) (n : Nat) (s : State) : Prop :=
  match (set n s : Exec (Error E) (FlashJournal T) Unit) j with
  | .ok _ _ => True
  | .error e _ => e = .error .ReadbackFailed

/-- A call without an error of the flash keeps the handle in sync. -/
theorem inSync_afterSet {n : Nat} (hn : BlockSize n) (s : State) {j : FlashJournal T}
    (hsync : InSync j) (hrun : NoFlashError j n s) : InSync (afterSet j n s) := by
  have hcases := set_cases (T := T) hn s j
  unfold afterSet
  unfold NoFlashError at hrun
  cases hset : (set n s : Exec (Error E) (FlashJournal T) Unit) j with
  | ok u j' =>
      rw [hset] at hcases
      rcases hcases with ⟨-, rfl⟩ | ⟨-, hsync', -⟩
      · exact hsync
      · exact hsync'
  | error e j' =>
      rw [hset] at hcases hrun
      rcases hcases with ⟨⟨e', rfl⟩, -⟩ | ⟨-, hsync'⟩
      · cases e' <;> cases hrun
      · exact hsync'

/-- From a handle in sync, the cache is current at each call as long as no call
fails with an error of the flash. -/
theorem cacheCurrent_of_noFlashError {calls : List (Nat × State)}
    (hcalls : ∀ c ∈ calls, BlockSize c.1) {j : FlashJournal T} (hsync : InSync j)
    (hrun : Along NoFlashError calls j) : Along CacheCurrent calls j := by
  induction calls generalizing j with
  | nil => trivial
  | cons c calls ih =>
      obtain ⟨n, s⟩ := c
      refine ⟨fun hget => by rw [← hsync.get_eq, hget], ?_⟩
      exact ih (fun c hc => hcalls c (List.mem_cons_of_mem _ hc))
        (inSync_afterSet (hcalls _ List.mem_cons_self) s hsync hrun.1) hrun.2

end Cases

/-! ### The faulty flash -/

namespace FaultyFlash

variable {order : EraseOrder} {pages pageWords : Nat}

/-- Every journal that is opened on the flash reads `s`. -/
def Durable (s : State) (t : FaultyFlash order pages pageWords) : Prop :=
  OpensTo (· = some s) t

/-- The property of one call: when it returns, its state is durable. -/
def DurableCall (j : FlashJournal (FaultyFlash order pages pageWords)) (n : Nat) (s : State) :
    Prop :=
  match set n s j with
  | .ok _ j' => Durable s j'.inner
  | .error _ _ => True

/-- A call is durable exactly when the cache is current for it. -/
theorem durableCall_iff [Geometry pages pageWords]
    (j : FlashJournal (FaultyFlash order pages pageWords)) {n : Nat} (hn : BlockSize n)
    (s : State) : DurableCall j n s ↔ CacheCurrent j n s := by
  have hcases := set_cases hn s j
  unfold DurableCall CacheCurrent
  cases hset : set n s j with
  | error e j' =>
      -- A call with the cached state does not fail.
      refine ⟨fun _ hget => ?_, fun _ => trivial⟩
      rw [set_run_of_eq hget] at hset
      cases hset
  | ok u j' =>
      rw [hset] at hcases
      show Durable s j'.inner ↔ _
      rw [Durable, opensTo_iff]
      rcases hcases with ⟨hget, rfl⟩ | ⟨hne, -, hpers⟩
      · exact ⟨fun h _ => h, fun h => h hget⟩
      · exact ⟨fun _ hget => absurd hget hne, fun _ => hpers⟩

end FaultyFlash

/-- Durability over every sequence of `set` calls on one handle, whatever the flash
does: every call that returns is durable exactly when the cache is current at every
call. For a handle that was opened, that is so as long as no call fails with an error
of the flash. -/
theorem durable_calls_iff {order : EraseOrder} {pages pageWords : Nat}
    [Geometry pages pageWords] (j : FlashJournal (FaultyFlash order pages pageWords))
    (calls : List (Nat × State)) (hcalls : ∀ c ∈ calls, BlockSize c.1) :
    (Along FaultyFlash.DurableCall calls j ↔ Along CacheCurrent calls j) ∧
      ∀ n f t, BlockSize n → new n f = .ok j t → Along NoFlashError calls j →
        Along CacheCurrent calls j ∧ Along FaultyFlash.DurableCall calls j := by
  have hiff : Along FaultyFlash.DurableCall calls j ↔ Along CacheCurrent calls j :=
    along_congr (fun j _ s hn => FaultyFlash.durableCall_iff j hn s) hcalls j
  refine ⟨hiff, ?_⟩
  intro n f t hn hnew hrun
  obtain ⟨-, hsync, -⟩ := (new_spec _ False hn).of_ok ⟨rfl, False.elim⟩ hnew
  have hcurrent := cacheCurrent_of_noFlashError hcalls hsync hrun
  exact ⟨hcurrent, hiff.mpr hcurrent⟩

/-- An erased flash whose fifth operation is interrupted. -/
def staleFlash : FaultyFlash .ascending 2 2 :=
  { flash := .new none, plan := [none, none, none, none, some ⟨0, fun _ => false⟩] }

/-- The handle that is opened on it. -/
def staleHandle : FlashJournal (FaultyFlash .ascending 2 2) :=
  { inner := { staleFlash with plan := staleFlash.plan.tail }
    cache := { lastValidState := none, firstEmptySlot := some 0 } }

/-- The calls: two states, and the first one again. The fifth operation is the
readback of the second call. -/
def staleCalls : List (Nat × State) :=
  [(8, State.new .Initial .S1 .S0), (8, State.new .Attempting .S1 .S0),
    (8, State.new .Initial .S1 .S0)]

/-- On these calls both sides are the same question. The first of them on its own, which does not
fail, is durable. -/
theorem durable_calls_iff_stale :
    (Along FaultyFlash.DurableCall staleCalls staleHandle ↔
      Along CacheCurrent staleCalls staleHandle) ∧
    Along FaultyFlash.DurableCall (staleCalls.take 1) staleHandle := by
  have hsize : ∀ c ∈ staleCalls, BlockSize c.1 := by
    intro c hc
    have h8 : c.1 = 8 := by
      simp only [staleCalls, List.mem_cons, List.not_mem_nil, or_false] at hc
      rcases hc with rfl | rfl | rfl <;> rfl
    rw [h8]
    exact ⟨by decide, by decide⟩
  obtain ⟨hiff, -⟩ := durable_calls_iff staleHandle staleCalls hsize
  obtain ⟨-, hdurable⟩ := durable_calls_iff staleHandle (staleCalls.take 1)
    fun c hc => hsize c (List.mem_of_mem_take hc)
  have hrun : Along NoFlashError (staleCalls.take 1) staleHandle := ⟨trivial, trivial⟩
  exact ⟨hiff, (hdurable 8 staleFlash _ ⟨by decide, by decide⟩ rfl hrun).2⟩

/-- The third call returns without storing its state: the second one has stored
its own, and has failed before the cache could follow. -/
theorem staleHandle_not_durable :
    (∃ t, new 8 staleFlash = .ok staleHandle t) ∧
      ¬ Along FaultyFlash.DurableCall staleCalls staleHandle := by
  refine ⟨⟨_, rfl⟩, fun h => ?_⟩
  have h3 := h.2.2.1
  rw [FaultyFlash.durableCall_iff _ ⟨by decide, by decide⟩] at h3
  have h4 := h3 rfl
  revert h4
  decide +kernel

end EcSlimloader
