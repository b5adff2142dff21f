import EcSlimloader.Proofs.Boot.Start

/-!
# `EcSlimloader.Proofs.Boot.Outcome`: which slot gets control on a good flash

Two properties of one uninterrupted run of `start`, for every content of the
journal, every policy and every set of bad slots.

`start_no_brick`: the run hands over control when the backup of the selected state
is good. It never panics. When it gives up, the backup was tried once, and no slot
twice.

`handOver_agrees_iff`: the application finds out from the journal which slot it runs
from. It is right about that exactly when `start` does not run an unrecorded default
(`RunsUnrecorded`): a default state that is `Confirmed` or `Failed` is never stored.

Both are case analyses over `Boots`. `Boots.good_cases` leaves the runs that a good flash has, in
which no status update is interrupted, and gives for each of them the record in the end. `Decodes`
is what the application does with that record, and `Agrees` says that the slot it finds is the one
that has control.

The exception is not made up: `foreignFlash` is a flash whose record the policy does not accept, and
whose default is used without being stored.
-/

set_option autoImplicit false

namespace EcSlimloader

open FlashJournal

/-- The verdicts of a board on which the bad slots fail with an error, and the
others are good. -/
def verdictOf (bad : Slot → Option BootError) (slot : Slot) : Verdict :=
  match bad slot with
  | none => .accept
  | some e => .reject e

/-- The accepted slots are those that are not bad. -/
theorem verdictOf_eq_accept_iff {bad : Slot → Option BootError} {slot : Slot} :
    verdictOf bad slot = .accept ↔ bad slot = none := by
  unfold verdictOf
  cases bad slot with
  | none => exact ⟨fun _ => rfl, fun _ => rfl⟩
  | some e => exact ⟨fun h => (nomatch h), fun h => (nomatch h)⟩

/-- No check is cut by a power loss: these boards keep their power. -/
theorem verdictOf_ne_cut (bad : Slot → Option BootError) (slot : Slot) :
    verdictOf bad slot ≠ .cut := by
  unfold verdictOf
  cases bad slot with
  | none => exact fun h => nomatch h
  | some e => exact fun h => nomatch h

/-- A rejected slot is a bad one. -/
theorem bad_of_reject {bad : Slot → Option BootError} {slot : Slot} {e : BootError}
    (h : verdictOf bad slot = .reject e) : bad slot ≠ none := by
  intro hnone
  rw [verdictOf_eq_accept_iff.mpr hnone] at h
  cases h

/-- The first status update keeps the backup. -/
theorem backup_attemptedState (state : State) :
    (attemptedState state).backup = state.backup := by
  unfold attemptedState
  cases state.status with
  | Initial => exact State.backup_withStatus state _
  | Attempting => exact State.backup_withStatus state _
  | Failed => rfl
  | Confirmed => rfl

/-! ### No brick

On a good flash every status update returns, so what is left are the verdicts of at most two slots.
The abort is the run in which the last slot to be tried is bad. -/

section NoBrick

variable {state : State} {bad : Slot → Option BootError} {G : Prop}
  {record record' : Option State} {halt : Fault Halt} {tried : List Slot}

/-- The end of a run on a good flash: a hand-over, or the end of all attempts. -/
theorem Boots.good_cases (hG : G)
    (h : Boots state (verdictOf bad) G record halt tried record') :
    (∃ s, halt = .error (.handOver s)) ∨
      (halt = .error .abort ∧ bad state.backup ≠ none ∧ tried.count state.backup = 1 ∧
        tried.Nodup) := by
  -- On a good flash no status update is cut, so three ways to end are left.
  cases h with
  | statusCut _ hG' => exact absurd hG hG'
  | attempt _ _ _ h =>
      cases h with
      | handOver hv => exact .inl ⟨_, rfl⟩
      | cut hv => exact absurd hv (verdictOf_ne_cut bad _)
      | statusCut _ _ _ hG' => exact absurd hG hG'
      | noBackup e hv hb =>
          rw [backup_attemptedState] at hb
          rw [hb] at hv ⊢
          exact .inr ⟨rfl, bad_of_reject hv, by simp, by simp⟩
      | backup e hv hb =>
          rw [backup_attemptedState] at hb ⊢
          cases hv' : verdictOf bad state.backup with
          | accept => exact .inl ⟨_, rfl⟩
          | cut => exact absurd hv' (verdictOf_ne_cut bad _)
          | reject e' =>
              exact .inr ⟨rfl, bad_of_reject hv', by simp [hb], by simp [hb]⟩

end NoBrick

section Outcome

variable {pages pageWords : Nat} [Geometry pages pageWords] {n : Nat}

/-- No brick while the backup verifies: an uninterrupted run on a flash that does
not fail. -/
theorem start_no_brick (hn : BlockSize n) (policy : BootStatePolicy)
    (bad : Slot → Option BootError) (flash : MockFlashBase pages 2 pageWords)
    (hcut : flash.bytesUntilShutoff = none) (hflags : flash.Consistent) (record : Option State)
    (hrecord : flash.Reads record) :
    (bad (selectState policy record).backup = none →
      ∃ s, (boot n policy (verdictOf bad) flash).halt = .error (.handOver s)) ∧
    ((boot n policy (verdictOf bad) flash).halt = .error .abort →
      bad (selectState policy record).backup ≠ none ∧
      (boot n policy (verdictOf bad) flash).tried.count (selectState policy record).backup = 1 ∧
      (boot n policy (verdictOf bad) flash).tried.Nodup) ∧
    ∀ msg, (boot n policy (verdictOf bad) flash).halt ≠ .panic msg := by
  have hspec := boot_spec hn policy (verdictOf bad) flash
  rw [MockFlashBase.reads_iff.mp hrecord] at hspec
  -- On a good flash a run hands over, or it aborts with a bad backup that was tried once.
  rcases hspec.good_cases ⟨hcut, hflags⟩ with ⟨s, hs⟩ | ⟨habort, hbad, hcount, hnodup⟩
  · rw [hs]
    exact ⟨fun _ => ⟨s, rfl⟩, fun h => (nomatch h), fun msg h => (nomatch h)⟩
  · refine ⟨fun h => absurd h hbad, fun _ => ⟨hbad, hcount, hnodup⟩, fun msg h => ?_⟩
    rw [habort] at h
    cases h

end Outcome

/-- A flash of garbage: no word is erased and none holds a record. -/
def garbageFlash : MockFlashBase 2 2 2 :=
  { writable := Vector.replicate _ .N, data := Vector.replicate _ 0xaa, bytesUntilShutoff := none }

/-- On garbage the default state is attempted, and its backup is good. -/
theorem start_no_brick_garbage :
    (∃ s, (boot 2 {} (verdictOf fun _ => none) garbageFlash).halt = .error (.handOver s)) ∧
      ∀ msg, (boot 2 {} (verdictOf fun _ => none) garbageFlash).halt ≠ .panic msg := by
  have hflags : garbageFlash.Consistent := by
    unfold MockFlashBase.Consistent
    decide +kernel
  have h := start_no_brick (n := 2) ⟨by decide, by decide⟩ {} (fun _ => none) garbageFlash rfl
    hflags none (MockFlashBase.reads_iff.mpr (by decide +kernel))
  exact ⟨h.1 rfl, h.2.2⟩

/-! ### Agreement with the application

`Decodes` is the application's view of a record, which needs no policy. `agrees_iff` takes the run
of the application away, and the rest is a comparison of records: the one in the journal, and the
state that the bootloader has selected. -/

/-- The application's decoding of the record is the slot `s`. -/
def Decodes (s : Slot) (record : Option State) : Prop :=
  ∃ st, record = some st ∧ st.status ≠ .Initial ∧ (runningSlot st).1 = s

/-- The journal that the application opens has a state, and the application decodes
it to the slot `s`. -/
def Agrees {pages pageWords : Nat} (s : Slot) (flash : MockFlashBase pages 2 pageWords) : Prop :=
  ∃ st, flash.Reads (some st) ∧ st.status ≠ .Initial ∧ (runningSlot st).1 = s

/-- The application reads the persisted record, so it agrees exactly when that record decodes to
the slot. -/
theorem agrees_iff {pages pageWords : Nat} [Geometry pages pageWords] {s : Slot}
    {flash : MockFlashBase pages 2 pageWords} :
    Agrees s flash ↔ Decodes s (persisted pages pageWords flash) := by
  constructor
  · rintro ⟨st, hreads, h⟩
    exact ⟨st, MockFlashBase.reads_iff.mp hreads, h⟩
  · rintro ⟨st, hrec, h⟩
    exact ⟨st, MockFlashBase.reads_iff.mpr hrec, h⟩

/-- The run uses the default state, and the default is `Confirmed` or `Failed`, so it
is not stored. Its slot is good, and the record of the journal decodes to something
else. -/
structure RunsUnrecorded (policy : BootStatePolicy) (bad : Slot → Option BootError)
    (record : Option State) : Prop where
  fromDefault : ∀ st, record = some st → policy.isValidState st = false
  notStored : policy.defaultState.status = .Confirmed ∨ policy.defaultState.status = .Failed
  good : bad (attemptedSlot policy.defaultState) = none
  disagrees : ¬ Decodes (attemptedSlot policy.defaultState) record

/-- The application decodes a status that it can run with to the slot that `start`
tries for it. -/
theorem runningSlot_eq {st : State} (h : st.status = .Confirmed ∨ st.status = .Failed) :
    (runningSlot st).1 = attemptedSlot st := by
  unfold runningSlot attemptedSlot
  rcases h with h | h
  · rw [h]
  · rw [h]

/-- The selected state is the record of the journal, or the default. -/
theorem selectState_cases (policy : BootStatePolicy) (record : Option State) :
    record = some (selectState policy record) ∨
      (selectState policy record = policy.defaultState ∧
        ∀ st, record = some st → policy.isValidState st = false) := by
  cases record with
  | none => exact .inr ⟨rfl, fun st h => nomatch h⟩
  | some st =>
      cases h : policy.isValidState st with
      | true => exact .inl (by rw [selectState, if_pos h])
      | false =>
          refine .inr ⟨by rw [selectState, if_neg (by rw [h]; decide)], fun st' hst => ?_⟩
          cases hst
          exact h

section Agreement

variable {policy : BootStatePolicy} {bad : Slot → Option BootError} {G : Prop}
  {record record' : Option State} {halt : Fault Halt} {tried : List Slot}

/-- The first attempt succeeds: the record decodes to its slot, unless an unrecorded
default runs. -/
theorem decodes_attemptedRecord (hrun : ¬ RunsUnrecorded policy bad record)
    (hgood : bad (attemptedSlot (selectState policy record)) = none) :
    Decodes (attemptedSlot (selectState policy record))
      (attemptedRecord (selectState policy record) record) := by
  -- A status that is not stored: the record decides.
  have hkept : (selectState policy record).status = .Confirmed ∨
      (selectState policy record).status = .Failed →
      Decodes (attemptedSlot (selectState policy record)) record := by
    intro hst
    rcases selectState_cases policy record with hrec | ⟨hdefault, hinvalid⟩
    · refine ⟨_, hrec, ?_, runningSlot_eq hst⟩
      rcases hst with h | h <;> rw [h] <;> decide
    · rw [hdefault] at hst hgood ⊢
      exact Classical.byContradiction fun h => hrun ⟨hinvalid, hst, hgood, h⟩
  unfold attemptedRecord
  cases hst : (selectState policy record).status with
  | Initial =>
      refine ⟨_, rfl, ?_, ?_⟩
      · simp [attemptedState, hst]
      · simp [attemptedState, attemptedSlot, runningSlot, hst]
  | Attempting =>
      refine ⟨_, rfl, ?_, ?_⟩
      · simp [attemptedState, hst]
      · simp [attemptedState, attemptedSlot, runningSlot, hst]
  | Failed => exact hkept (.inr hst)
  | Confirmed => exact hkept (.inl hst)

/-- A first attempt at another slot than the backup: the state is not `Failed`
yet. -/
theorem attemptedState_ne_failed {state : State} (h : attemptedSlot state ≠ state.backup) :
    (attemptedState state).status ≠ .Failed := by
  unfold attemptedState
  unfold attemptedSlot at h
  cases hst : state.status with
  | Initial => simp
  | Attempting =>
      rw [hst] at h
      exact absurd rfl h
  | Failed =>
      rw [hst] at h
      exact absurd rfl h
  | Confirmed => simp [hst]

/-- Whoever gets control on a good flash, the record decodes to its slot. -/
theorem Boots.decodes (hG : G) (hrun : ¬ RunsUnrecorded policy bad record) {s : Slot}
    (h : Boots (selectState policy record) (verdictOf bad) G record halt tried record')
    (hs : halt = .error (.handOver s)) : Decodes s record' := by
  cases h with
  | statusCut _ hG' => exact absurd hG hG'
  | attempt _ _ _ h =>
      cases h with
      | handOver hv =>
          cases hs
          exact decodes_attemptedRecord hrun (verdictOf_eq_accept_iff.mp hv)
      | cut hv => cases hs
      | statusCut => cases hs
      | noBackup => cases hs
      | backup e hv hb =>
          -- The backup runs after the failure was stored.
          rw [Verdict.eq_of_halt (Fault.error.inj hs)]
          rw [backup_attemptedState] at hb
          rw [failedRecord, if_pos (attemptedState_ne_failed hb)]
          refine ⟨_, rfl, ?_, ?_⟩
          · rw [State.status_withStatus]
            decide
          · simp [runningSlot]

/-- An unrecorded default gets control, and the record stays as it was. -/
theorem Boots.unrecorded (hrun : RunsUnrecorded policy bad record)
    (h : Boots (selectState policy record) (verdictOf bad) G record halt tried record') :
    halt = .error (.handOver (attemptedSlot policy.defaultState)) ∧ record' = record := by
  -- A record that the policy refuses counts as no record.
  have hselect : selectState policy record = policy.defaultState := by
    cases hr : record with
    | none => rfl
    | some st => rw [selectState, if_neg (by rw [hrun.fromDefault st hr]; decide)]
  rw [hselect] at h
  have haccept : verdictOf bad (attemptedSlot policy.defaultState) = .accept :=
    verdictOf_eq_accept_iff.mpr hrun.good
  -- A default with this status is not stored in the first update, and the slot that it names is
  -- good, so there is no second one.
  cases h with
  | statusCut hst =>
      rcases hrun.notStored with h | h <;> rw [h] at hst <;> rcases hst with h | h <;> cases h
  | attempt _ _ _ h =>
      cases h with
      | handOver hv =>
          refine ⟨rfl, ?_⟩
          unfold attemptedRecord
          rcases hrun.notStored with h | h <;> rw [h]
      | cut hv => rw [haccept] at hv; cases hv
      | statusCut e hv => rw [haccept] at hv; cases hv
      | noBackup e hv => rw [haccept] at hv; cases hv
      | backup e hv => rw [haccept] at hv; cases hv

end Agreement

/-- The application is wrong about the slot of an unrecorded default. -/
theorem not_agrees_of_unrecorded {pages pageWords : Nat} [Geometry pages pageWords] {n : Nat}
    (hn : BlockSize n) {policy : BootStatePolicy} {bad : Slot → Option BootError}
    {flash : MockFlashBase pages 2 pageWords} {record : Option State}
    (hrecord : flash.Reads record) (hrun : RunsUnrecorded policy bad record) :
    ¬ ∀ s, (boot n policy (verdictOf bad) flash).halt = .error (.handOver s) →
        Agrees s (boot n policy (verdictOf bad) flash).flash := by
  have hspec := boot_spec hn policy (verdictOf bad) flash
  rw [MockFlashBase.reads_iff.mp hrecord] at hspec
  obtain ⟨hhalt, hrec⟩ := hspec.unrecorded hrun
  intro h
  have hagrees := agrees_iff.mp (h _ hhalt)
  rw [hrec] at hagrees
  exact hrun.disagrees hagrees

/-- The bootloader and the application agree on the running slot exactly when no
unrecorded default runs. -/
theorem handOver_agrees_iff {pages pageWords : Nat} [Geometry pages pageWords] {n : Nat}
    (hn : BlockSize n) (policy : BootStatePolicy) (bad : Slot → Option BootError)
    (flash : MockFlashBase pages 2 pageWords) (hcut : flash.bytesUntilShutoff = none)
    (hflags : flash.Consistent) (record : Option State) (hrecord : flash.Reads record) :
    (∀ s, (boot n policy (verdictOf bad) flash).halt = .error (.handOver s) →
        Agrees s (boot n policy (verdictOf bad) flash).flash) ↔
      ¬ RunsUnrecorded policy bad record := by
  constructor
  · exact fun h hrun => not_agrees_of_unrecorded hn hrecord hrun h
  · intro hrun s hs
    have hspec := boot_spec hn policy (verdictOf bad) flash
    rw [MockFlashBase.reads_iff.mp hrecord] at hspec
    exact agrees_iff.mpr (hspec.decodes ⟨hcut, hflags⟩ hrun hs)

/-- A policy for two slots, which falls back to a confirmed first slot. -/
def twoSlotPolicy : BootStatePolicy where
  defaultState := State.new .Confirmed .S0 .S1
  isValidState st := st.target == .S0 || st.target == .S1

/-- A flash with the record `(Initial, S2, S1)`, which the policy does not accept. -/
def foreignFlash : MockFlashBase 2 2 2 :=
  match set 2 (State.new .Initial .S2 .S1) erasedHandle with
  | .ok _ j => j.inner
  | .error _ j => j.inner

/-- An open of this flash reads the record. -/
theorem foreignFlash_reads : foreignFlash.Reads (some (State.new .Initial .S2 .S1)) :=
  MockFlashBase.reads_iff.mpr (by decide +kernel)

/-- The words of this flash that read `0xffff` are writable. -/
theorem foreignFlash_consistent : foreignFlash.Consistent := by
  unfold MockFlashBase.Consistent
  decide +kernel

/-- The equivalence on this flash. -/
theorem handOver_agrees_iff_foreign :
    (∀ s, (boot 2 twoSlotPolicy (verdictOf fun _ => none) foreignFlash).halt
          = .error (.handOver s) →
        Agrees s (boot 2 twoSlotPolicy (verdictOf fun _ => none) foreignFlash).flash) ↔
      ¬ RunsUnrecorded twoSlotPolicy (fun _ => none) (some (State.new .Initial .S2 .S1)) :=
  handOver_agrees_iff ⟨by decide, by decide⟩ twoSlotPolicy (fun _ => none) foreignFlash
    (by decide +kernel) foreignFlash_consistent _ foreignFlash_reads

/-- With every slot good, `start` hands over to `S0`, and the application reads
`Initial`. -/
theorem foreignFlash_not_agrees :
    ¬ ∀ s, (boot 2 twoSlotPolicy (verdictOf fun _ => none) foreignFlash).halt
          = .error (.handOver s) →
        Agrees s (boot 2 twoSlotPolicy (verdictOf fun _ => none) foreignFlash).flash := by
  -- The record is not accepted, and the default is not stored because it is `Confirmed`.
  have hrun : RunsUnrecorded twoSlotPolicy (fun _ => none)
      (some (State.new .Initial .S2 .S1)) := by
    refine ⟨fun st h => ?_, .inl ?_, rfl, ?_⟩
    · cases h
      decide +kernel
    · exact State.status_new _ _ _
    · rintro ⟨st, h, hne, -⟩
      cases h
      exact hne (State.status_new _ _ _)
  exact not_agrees_of_unrecorded ⟨by decide, by decide⟩ foreignFlash_reads hrun

end EcSlimloader
