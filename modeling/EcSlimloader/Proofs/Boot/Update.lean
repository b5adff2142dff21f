import EcSlimloader.Boot.Application
import EcSlimloader.Proofs.Boot.Unconfirmed

/-!
# `EcSlimloader.Proofs.Boot.Update`: the update protocol over power cycles

The bootloader and the application share one record. `BootMove` and `AppMove` are the moves
that each of them makes with it, and `PowerCycle` is the abstract power cycle: moves of the
bootloader, and then at most one of the application, if it was given control.
`powerCycle_spec` says that a power cycle on the mock flash refines it, for every content of
the flash, every verdict, every number of presses and every power cut in either program.

The results are about any sequence of such cycles (`CycleRun`):

- `CycleRun.followsProtocol`: every cycle is a `PowerCycle`, whoever gets control knows its slot,
  and a device with two slots never names a third one;
- `CycleRun.fallback_of_empty`: the bootloader falls back to a slot only after that slot has run
  as a confirmed one;
- `CycleRun.request_between`: between two trials of an unconfirmed image USER1 was pressed in a
  confirmed image or in a backup.

`EcSlimloader.Proofs.Boot.Board` states them for the i.MX RT.

The bootloader's part is read off `Boots`. `BootStep` has the moves that a run makes, and says of a
hand-over that the status is not `Initial` and which slot it stands for. The application's part is
`finishCycle`: it looks up its slot in the record and makes at most one move, when USER1 was
pressed.

A trial is a hand-over with the status `Attempting`, and a request a move of the application that
makes the record pending again. That between two trials there is a request follows by going through
the cycles with "no trial is pending" as the invariant.
-/

set_option autoImplicit false

namespace EcSlimloader

open FlashJournal
open Application (newState otherSlot)
open Relation (ReflTransGen)

/-! ### The abstract protocol

The record of the journal is an `Option State`, as an empty journal has none. The moves name no
program counter and no flash: who moves is decided by who has control. -/

/-- A move of the record by the bootloader. -/
inductive BootMove : Option State → Option State → Prop where
  /-- An empty journal stands for the default state, which is attempted. -/
  | first : BootMove none (some (State.new .Attempting .S0 .S0))
  | attempt (t b : Slot) :
      BootMove (some (State.new .Initial t b)) (some (State.new .Attempting t b))
  /-- The image did not confirm, or could not be booted. -/
  | fail (t b : Slot) :
      BootMove (some (State.new .Attempting t b)) (some (State.new .Failed t b))
  /-- An image that was confirmed once cannot be booted any more. -/
  | reject (t b : Slot) :
      BootMove (some (State.new .Confirmed t b)) (some (State.new .Failed t b))

/-- A move of the record by the application. -/
inductive AppMove : Option State → Option State → Prop where
  | confirm (t b : Slot) :
      AppMove (some (State.new .Attempting t b)) (some (State.new .Confirmed t b))
  | retry (t b : Slot) : AppMove (some (State.new .Failed t b)) (some (State.new .Initial t b))
  | swap (t b : Slot) :
      AppMove (some (State.new .Confirmed t b)) (some (State.new .Initial (otherSlot t) t))

/-- A move of either of them. -/
def Move (record record' : Option State) : Prop := BootMove record record' ∨ AppMove record record'

/-- The bootloader has an attempt to make: the journal is empty, or asks for one. -/
def Pending (record : Option State) : Prop := ∀ st, record = some st → st.status = .Initial

/-- A power cycle with the journal's record `record`. The indices are the end of the
bootloader, the state that the application loads, the number of presses it sees, and the
record in the end. -/
inductive PowerCycle (record : Option State) :
    Fault Halt → Option State → Nat → Option State → Prop where
  /-- Nobody gets control. -/
  | dark (halt : Fault Halt) (record' : Option State)
      (hhalt : ∀ s, halt ≠ .error (.handOver s)) (hmoves : ReflTransGen BootMove record record') :
      PowerCycle record halt none 0 record'
  /-- The application in `slot` gets control with the record `st`. -/
  | ran (slot : Slot) (st : State) (presses : Nat) (record' : Option State)
      (hmoves : ReflTransGen BootMove record (some st)) (hst : st.status ≠ .Initial)
      (hslot : (runningSlot st).1 = slot) (htrial : st.status = .Attempting → Pending record)
      (hpress : record' = some st ∨ (0 < presses ∧ record' = some (newState st))) :
      PowerCycle record (.error (.handOver slot)) (some st) presses record'

/-- The state that a press asks for. -/
theorem newState_new (st : Status) (t b : Slot) :
    newState (State.new st t b) = match st with
      | .Initial => State.new .Confirmed t b
      | .Attempting => State.new .Confirmed t b
      | .Failed => State.new .Initial t b
      | .Confirmed => State.new .Initial (otherSlot t) t := by
  unfold newState runningSlot
  rw [State.status_new]
  cases st with
  | Initial => exact State.withStatus_new _ _ _ _
  | Attempting => exact State.withStatus_new _ _ _ _
  | Failed => exact State.withStatus_new _ _ _ _
  | Confirmed =>
      simp only [if_true]
      rw [State.target_new]

/-- A press moves the record as the protocol says. -/
theorem appMove_newState {st : State} (h : st.status ≠ .Initial) :
    AppMove (some st) (some (newState st)) := by
  rw [← State.new_fields st, newState_new]
  cases hst : st.status with
  | Initial => exact absurd hst h
  | Attempting => exact .confirm _ _
  | Failed => exact .retry _ _
  | Confirmed => exact .swap _ _

/-- The record of a power cycle only makes moves of the protocol. -/
theorem PowerCycle.moves {record record' loaded : Option State} {halt : Fault Halt} {presses : Nat}
    (h : PowerCycle record halt loaded presses record') : ReflTransGen Move record record' := by
  have hboot : ∀ {r r' : Option State}, ReflTransGen BootMove r r' → ReflTransGen Move r r' :=
    fun hmoves => ReflTransGen.mono (fun _ _ hmove => .inl hmove) _ _ hmoves
  cases h with
  | dark _ _ _ hmoves => exact hboot hmoves
  | ran _ st _ _ hmoves hst _ _ hpress =>
      rcases hpress with rfl | ⟨-, rfl⟩
      · exact hboot hmoves
      · exact (hboot hmoves).tail (.inr (appMove_newState hst))

/-- A cycle in which `slot` gets control. -/
theorem PowerCycle.of_handOver {record record' loaded : Option State} {halt : Fault Halt}
    {slot : Slot} {presses : Nat} (h : PowerCycle record halt loaded presses record')
    (hhalt : halt = .error (.handOver slot)) :
    ∃ st, loaded = some st ∧ st.status ≠ .Initial ∧ (runningSlot st).1 = slot := by
  cases h with
  | dark _ _ hdark => exact absurd hhalt (hdark slot)
  | ran _ st _ _ _ hst hslot =>
      cases hhalt
      exact ⟨st, rfl, hst, hslot⟩

/-- A cycle in which the application loads `st`. -/
theorem PowerCycle.of_loaded {record record' loaded : Option State} {halt : Fault Halt}
    {presses : Nat} {st : State} (h : PowerCycle record halt loaded presses record')
    (hloaded : loaded = some st) :
    halt = .error (.handOver (runningSlot st).1) ∧ ReflTransGen BootMove record (some st) ∧
      st.status ≠ .Initial ∧ (st.status = .Attempting → Pending record) ∧
      (record' = some st ∨ (0 < presses ∧ record' = some (newState st))) := by
  cases h with
  | dark => cases hloaded
  | ran _ _ _ _ hmoves hst hslot htrial hpress =>
      cases hloaded
      exact ⟨by rw [hslot], hmoves, hst, htrial, hpress⟩

/-! ### The bootloader's part -/

section Bootloader

variable {t b : Slot} {verdict : Slot → Verdict} {G : Prop} {st : Status}
  {halt : Fault Halt} {tried : List Slot} {record record' : Option State}

/-- An attempt at the target of a state that has not failed. The record stays when the target
gets control, and it has failed when the backup does. -/
theorem Attempt.of_target (hst : st ≠ .Failed)
    (h : Attempt (State.new st t b) t verdict G (some (State.new st t b)) halt tried record') :
    (record' = some (State.new st t b) ∧ ∀ s, halt = .error (.handOver s) → s = t) ∨
      (record' = some (State.new .Failed t b) ∧ ∀ s, halt = .error (.handOver s) → s = b) := by
  have hfailed : failedRecord (State.new st t b) (some (State.new st t b))
      = some (State.new .Failed t b) := by
    rw [failedRecord, State.status_new, if_pos hst, State.withStatus_new]
  -- Slot `t` gets control with the record as it is, or the record fails and slot `b` gets control.
  cases h with
  | handOver hv =>
      refine .inl ⟨rfl, fun s hs => ?_⟩
      cases hs
      rfl
  | cut hv => exact .inl ⟨rfl, fun s hs => by cases hs⟩
  | statusCut e hv hne hG msg _ hr =>
      rw [State.withStatus_new] at hr
      rcases hr with rfl | rfl
      · exact .inl ⟨rfl, fun s hs => by cases hs⟩
      · exact .inr ⟨rfl, fun s hs => by cases hs⟩
  | noBackup e hv hb => exact .inr ⟨hfailed, fun s hs => by cases hs⟩
  | backup e hv hb =>
      refine .inr ⟨hfailed, fun s hs => ?_⟩
      rw [Verdict.eq_of_halt (Fault.error.inj hs), State.backup_new]

/-- What the bootloader does to the record, and who gets control with which record. -/
structure BootStep (record : Option State) (halt : Fault Halt) (record' : Option State) :
    Prop where
  moves : ReflTransGen BootMove record record'
  handOver : ∀ s, halt = .error (.handOver s) →
    ∃ st, record' = some st ∧ st.status ≠ .Initial ∧ (runningSlot st).1 = s ∧
      (st.status = .Attempting → Pending record)

/-- The slot that a state stands for, when it is not `Initial`. -/
theorem runningSlot_new (st : Status) (t b : Slot) :
    (runningSlot (State.new st t b)).1 = if st = .Failed then b else t := by
  unfold runningSlot
  rw [State.status_new]
  cases st with
  | Initial => exact State.target_new _ _ _
  | Attempting => exact State.target_new _ _ _
  | Failed => exact State.backup_new _ _ _
  | Confirmed => exact State.target_new _ _ _

/-- The part of a run behind the first status update, for a state that is tried at its
target. -/
theorem BootStep.of_target (hst : st ≠ .Failed) (hinit : st ≠ .Initial)
    (hmoves : ReflTransGen BootMove record (some (State.new st t b)))
    (hfail : BootMove (some (State.new st t b)) (some (State.new .Failed t b)))
    (htrial : st = .Attempting → Pending record)
    (h : Attempt (State.new st t b) t verdict G (some (State.new st t b)) halt tried record') :
    BootStep record halt record' := by
  rcases h.of_target hst with ⟨rfl, hover⟩ | ⟨rfl, hover⟩
  · refine ⟨hmoves, fun s hs => ⟨_, rfl, ?_, ?_, ?_⟩⟩
    · rw [State.status_new]
      exact hinit
    · rw [runningSlot_new, if_neg hst, hover s hs]
    · rw [State.status_new]
      exact htrial
  · refine ⟨hmoves.tail hfail, fun s hs => ⟨_, rfl, ?_, ?_, ?_⟩⟩
    · rw [State.status_new]
      decide
    · rw [runningSlot_new, if_pos rfl, hover s hs]
    · intro h
      rw [State.status_new] at h
      cases h

/-- The part of a run behind the first status update, for a failed state. -/
theorem BootStep.of_failed (hmoves : ReflTransGen BootMove record (some (State.new .Failed t b)))
    (h : Attempt (State.new .Failed t b) b verdict G (some (State.new .Failed t b)) halt tried
      record') : BootStep record halt record' := by
  obtain ⟨rfl, hover⟩ := h.of_failed
  refine ⟨hmoves, fun s hs => ⟨_, rfl, ?_, ?_, ?_⟩⟩
  · rw [State.status_new]
    decide
  · rw [runningSlot_new, if_pos rfl, hover s hs]
  · intro h
    rw [State.status_new] at h
    cases h

/-- A run whose status update was cut: nobody gets control. -/
theorem BootStep.of_cut {msg : String} (hmoves : ReflTransGen BootMove record record') :
    BootStep record (.panic msg) record' :=
  ⟨hmoves, fun s hs => by cases hs⟩

/-- A run of the bootloader on a journal that asks for the state `(st, t, b)`. -/
theorem Boots.bootStep
    (h : Boots (State.new st t b) verdict G (some (State.new st t b)) halt tried record') :
    BootStep (some (State.new st t b)) halt record' := by
  have hstate : ∀ st', attemptedState (State.new st t b) = (State.new st t b).withStatus st' →
      attemptedState (State.new st t b) = State.new st' t b := by
    intro st' h
    rw [h, State.withStatus_new]
  cases st with
  -- Up to two moves: the attempt, and the failure of an image that cannot be booted.
  | Initial =>
      have hattempting := hstate .Attempting (by rw [attemptedState, State.status_new])
      have hpending : Pending (some (State.new .Initial t b)) := by
        intro st h
        cases h
        exact State.status_new _ _ _
      cases h with
      | statusCut _ hG msg _ hr =>
          rw [hattempting] at hr
          rcases hr with rfl | rfl
          · exact .of_cut .refl
          · exact .of_cut (.single (.attempt t b))
      | attempt _ _ _ h =>
          rw [attemptedRecord, attemptedSlot, State.status_new, hattempting, State.target_new] at h
          exact .of_target (by decide) (by decide) (.single (.attempt t b)) (.fail t b)
            (fun _ => hpending) h
  -- One move: the image did not confirm.
  | Attempting =>
      have hfailed := hstate .Failed (by rw [attemptedState, State.status_new])
      cases h with
      | statusCut _ hG msg _ hr =>
          rw [hfailed] at hr
          rcases hr with rfl | rfl
          · exact .of_cut .refl
          · exact .of_cut (.single (.fail t b))
      | attempt _ _ _ h =>
          rw [attemptedRecord, attemptedSlot, State.status_new, hfailed, State.backup_new] at h
          exact .of_failed (.single (.fail t b)) h
  -- No move, and slot `b`.
  | Failed =>
      cases h with
      | statusCut h =>
          rw [State.status_new] at h
          rcases h with h | h <;> cases h
      | attempt _ _ _ h =>
          rw [attemptedRecord, attemptedSlot, attemptedState, State.status_new,
            State.backup_new] at h
          exact .of_failed .refl h
  -- No move if the image boots, and the failure of a confirmed image if it does not.
  | Confirmed =>
      cases h with
      | statusCut h =>
          rw [State.status_new] at h
          rcases h with h | h <;> cases h
      | attempt _ _ _ h =>
          rw [attemptedRecord, attemptedSlot, attemptedState, State.status_new,
            State.target_new] at h
          exact .of_target (by decide) (by decide) .refl (.reject t b) (fun h => by cases h) h

/-- A run of the bootloader on an empty journal attempts the default state. -/
theorem Boots.bootStep_none
    (h : Boots (State.new .Initial .S0 .S0) verdict G none halt tried record') :
    BootStep none halt record' := by
  have hattempting : attemptedState (State.new .Initial .S0 .S0)
      = State.new .Attempting .S0 .S0 := by
    rw [attemptedState, State.status_new]
    exact State.withStatus_new _ _ _ _
  cases h with
  | statusCut _ hG msg _ hr =>
      rw [hattempting] at hr
      rcases hr with rfl | rfl
      · exact .of_cut .refl
      · exact .of_cut (.single .first)
  | attempt _ _ _ h =>
      rw [attemptedRecord, attemptedSlot, State.status_new, hattempting, State.target_new] at h
      exact .of_target (by decide) (by decide) (.single .first) (.fail _ _)
        (fun _ st h => by cases h) h

end Bootloader

/-! ### The refinement -/

section Cycles

variable {T E : Type} [NorFlash T E] {arm : Option Nat → T → T} {m presses : Nat}
  {appCut : Option Nat} {halt : Fault Halt} {flash : T}

/-- A cycle in which nobody gets control. -/
theorem finishCycle_of_dark (h : ∀ s, halt ≠ .error (.handOver s)) :
    finishCycle arm m presses appCut halt flash
      = { halt, loaded := none, panicked := false, presses := 0, flash } := by
  unfold finishCycle
  cases halt with
  | panic msg => rfl
  | error halt =>
      cases halt with
      | handOver slot => exact absurd rfl (h slot)
      | abort => rfl
      | powerLoss => rfl

end Cycles

section Refinement

variable {pages pageWords : Nat} [Geometry pages pageWords] {n m : Nat}

/-- Any number of presses stores the state once. When a press fails, the record is the old
one or the new one. -/
theorem button1_record (hm : BlockSize m) (s : State) (presses : Nat)
    {j : FlashJournal (MockFlashBase pages 2 pageWords)} (hsync : InSync j) :
    match (Application.button1 m s presses :
        Exec Empty (FlashJournal (MockFlashBase pages 2 pageWords)) Unit) j with
    | .ok _ j' => InSync j' ∧ persisted pages pageWords j'.inner
        = if presses = 0 then persisted pages pageWords j.inner else some s
    | .error _ j' => presses ≠ 0 ∧
        (persisted pages pageWords j'.inner = persisted pages pageWords j.inner ∨
          persisted pages pageWords j'.inner = some s) := by
  induction presses generalizing j with
  | zero => exact ⟨hsync, rfl⟩
  | succ presses ih =>
      unfold Application.button1
      cases hset : set m s j with
      | ok u j₁ =>
          obtain ⟨hsync₁, hrec⟩ := MockFlashBase.persisted_of_set_ok hsync hm hset
          rw [Exec.bind_ok (Exec.unwrap_ok hset)]
          -- From the second press on, the record is the state that is stored.
          have hrest := ih hsync₁
          rw [hrec] at hrest
          cases hrun : (Application.button1 m s presses :
              Exec Empty (FlashJournal (MockFlashBase pages 2 pageWords)) Unit) j₁ with
          | ok u j' =>
              rw [hrun] at hrest
              exact ⟨hrest.1, by rw [hrest.2, ite_self, if_neg (Nat.succ_ne_zero _)]⟩
          | error e j' =>
              rw [hrun] at hrest
              exact ⟨Nat.succ_ne_zero _, .inr (hrest.2.elim id id)⟩
      | error e j₁ =>
          have hrec := MockFlashBase.persisted_of_set_error hsync hm hset
          have hunwrap : ∃ e', (Exec.unwrap (set m s) :
              Exec Empty (FlashJournal (MockFlashBase pages 2 pageWords)) Unit) j
              = .error e' j₁ := by
            unfold Exec.unwrap
            rw [hset]
            cases e with
            | error e => exact ⟨_, rfl⟩
            | panic msg => exact ⟨_, rfl⟩
          obtain ⟨e', hunwrap⟩ := hunwrap
          rw [Exec.bind_error hunwrap]
          exact ⟨Nat.succ_ne_zero _, hrec⟩

/-- A run of the application: it loads the record, and a press stores `newState` of it. -/
theorem main_record (hm : BlockSize m) (presses : Nat) (flash : MockFlashBase pages 2 pageWords) :
    (Application.main m presses flash).loaded
        = some (Application.loadedState (persisted pages pageWords flash)) ∧
      (persisted pages pageWords (Application.main m presses flash).flash
          = persisted pages pageWords flash ∨
        (0 < presses ∧ persisted pages pageWords (Application.main m presses flash).flash
          = some (newState (Application.loadedState (persisted pages pageWords flash))))) := by
  obtain ⟨j, f', hnew, rfl, hsync, -, hget⟩ := MockFlashBase.new_ok hm flash
  have hpress := button1_record hm (newState (Application.loadedState j.get)) presses hsync
  rw [← hsync.get_eq, hget] at hpress
  unfold Application.main
  rw [hnew]
  simp only [hget]
  -- The presses all store the same state. A cut in one of them leaves the old record or that state.
  cases hrun : (Application.button1 m
      (newState (Application.loadedState (persisted pages pageWords flash))) presses :
      Exec Empty (FlashJournal (MockFlashBase pages 2 pageWords)) Unit) j with
  | ok u j' =>
      rw [hrun] at hpress
      refine ⟨rfl, ?_⟩
      by_cases hp : presses = 0
      · exact .inl (by rw [hpress.2, if_pos hp])
      · exact .inr ⟨Nat.pos_of_ne_zero hp, by rw [hpress.2, if_neg hp]⟩
  | error e j' =>
      rw [hrun] at hpress
      exact ⟨rfl, hpress.2.imp_right fun h => ⟨Nat.pos_of_ne_zero hpress.1, h⟩⟩

/-- A run of the bootloader with the default policy. -/
theorem boot_step (hn : BlockSize n) (verdict : Slot → Verdict)
    (flash : MockFlashBase pages 2 pageWords) :
    BootStep (persisted pages pageWords flash) (boot n {} verdict flash).halt
      (persisted pages pageWords (boot n {} verdict flash).flash) := by
  have hspec := boot_spec hn {} verdict flash
  cases hrec : persisted pages pageWords flash with
  | none =>
      rw [hrec] at hspec
      exact Boots.bootStep_none hspec
  | some st =>
      rw [hrec] at hspec
      have hselect : selectState {} (some st) = st := rfl
      rw [hselect, ← State.new_fields st] at hspec
      rw [← State.new_fields st]
      exact hspec.bootStep

/-- A power cycle on the mock flash refines the abstract one. -/
theorem powerCycle_spec (hn : BlockSize n) (hm : BlockSize m) (cycle : Cycle)
    (flash : MockFlashBase pages 2 pageWords) :
    PowerCycle (persisted pages pageWords flash)
      (powerCycle MockFlashBase.withCut n m {} cycle flash).halt
      (powerCycle MockFlashBase.withCut n m {} cycle flash).loaded
      (powerCycle MockFlashBase.withCut n m {} cycle flash).presses
      (persisted pages pageWords
        (powerCycle MockFlashBase.withCut n m {} cycle flash).flash) := by
  have hboot := boot_step hn cycle.verdict (flash.withCut cycle.bootCut)
  have hflash : persisted pages pageWords (flash.withCut cycle.bootCut)
      = persisted pages pageWords flash := rfl
  rw [hflash] at hboot
  obtain ⟨hmoves, hover⟩ := hboot
  unfold powerCycle
  simp only
  by_cases hdark : ∀ s, (boot n {} cycle.verdict (flash.withCut cycle.bootCut)).halt
      ≠ .error (.handOver s)
  · rw [finishCycle_of_dark hdark]
    exact .dark _ _ hdark hmoves
  · obtain ⟨slot, hhalt⟩ := not_forall_not.mp hdark
    obtain ⟨st, hrec, hst, hslot, htrial⟩ := hover slot hhalt
    -- The plan for the cut does not change what the flash holds.
    have hloaded : persisted pages pageWords
        ((boot n {} cycle.verdict (flash.withCut cycle.bootCut)).flash.withCut cycle.appCut)
        = some st := hrec
    obtain ⟨happ, hpress⟩ := main_record hm cycle.presses
      ((boot n {} cycle.verdict (flash.withCut cycle.bootCut)).flash.withCut cycle.appCut)
    rw [hloaded] at happ hpress
    rw [hrec] at hmoves
    rw [hhalt, finishCycle]
    simp only [happ]
    exact .ran slot st cycle.presses _ hmoves hst hslot htrial hpress

end Refinement

/-! ### Sequences of power cycles -/

/-- A sequence of power cycles on the mock flash, each of which refines the abstract one. -/
inductive CycleRun {pages pageWords : Nat} [Geometry pages pageWords] :
    MockFlashBase pages 2 pageWords → List (CycleResult (MockFlashBase pages 2 pageWords)) →
    Prop where
  | nil (flash : MockFlashBase pages 2 pageWords) : CycleRun flash []
  | cons (flash : MockFlashBase pages 2 pageWords)
      (r : CycleResult (MockFlashBase pages 2 pageWords))
      (results : List (CycleResult (MockFlashBase pages 2 pageWords)))
      (hcycle : PowerCycle (persisted pages pageWords flash) r.halt r.loaded r.presses
        (persisted pages pageWords r.flash))
      (hrest : CycleRun r.flash results) : CycleRun flash (r :: results)

/-- The slots of a device with two of them. -/
def Slot.IsFirstTwo (slot : Slot) : Prop := slot = .S0 ∨ slot = .S1

/-- A record that names only the first two slots. -/
def TwoSlots (record : Option State) : Prop :=
  ∀ st, record = some st → st.target.IsFirstTwo ∧ st.backup.IsFirstTwo

/-- The application updates into one of the two slots. -/
theorem otherSlot_isFirstTwo (slot : Slot) : (otherSlot slot).IsFirstTwo := by
  unfold otherSlot
  split
  · exact .inr rfl
  · exact .inl rfl

/-- A move keeps to the two slots. -/
theorem TwoSlots.move {record record' : Option State} (h : TwoSlots record)
    (hmove : Move record record') : TwoSlots record' := by
  -- All moves but the swap keep both slots, and the swap keeps the running one.
  have hkeep : ∀ {st st' : Status} {t b : Slot}, TwoSlots (some (State.new st t b)) →
      TwoSlots (some (State.new st' t b)) := by
    intro st st' t b h s hs
    cases hs
    have hslots := h _ rfl
    rw [State.target_new, State.backup_new] at hslots ⊢
    exact hslots
  rcases hmove with hmove | hmove
  · cases hmove with
    | first =>
        intro st hst
        cases hst
        rw [State.target_new, State.backup_new]
        exact ⟨.inl rfl, .inl rfl⟩
    | attempt t b => exact hkeep h
    | fail t b => exact hkeep h
    | reject t b => exact hkeep h
  · cases hmove with
    | confirm t b => exact hkeep h
    | retry t b => exact hkeep h
    | swap t b =>
        intro st hst
        cases hst
        have hslots := h _ rfl
        rw [State.target_new, State.backup_new] at hslots ⊢
        exact ⟨otherSlot_isFirstTwo t, hslots.1⟩

/-- So does any number of moves. -/
theorem TwoSlots.moves {record record' : Option State} (h : TwoSlots record)
    (hmoves : ReflTransGen Move record record') : TwoSlots record' := by
  induction hmoves with
  | refl => exact h
  | tail _ hmove ih => exact ih.move hmove

/-- What holds of a sequence of power cycles on `flash`. The first field is the refinement
itself, cycle by cycle; the other two are what a user of the device sees of it. -/
structure FollowsProtocol {pages pageWords : Nat} [Geometry pages pageWords]
    (flash : MockFlashBase pages 2 pageWords)
    (results : List (CycleResult (MockFlashBase pages 2 pageWords))) : Prop where
  /-- Every cycle is a `PowerCycle` between the records that the flash holds before and after it:
  first the bootloader moves the record, and then at most once the application that it has given
  control to, on a press. -/
  cycles : CycleRun flash results
  /-- Whoever gets control finds its own slot in the journal, and never `Initial`. -/
  agree : ∀ r ∈ results, ∀ s, r.halt = .error (.handOver s) →
    ∃ st, r.loaded = some st ∧ st.status ≠ .Initial ∧ (runningSlot st).1 = s
  /-- A journal that names only the first two slots goes on to do so. -/
  slots : ∀ record, flash.Reads record → TwoSlots record →
    ∀ r ∈ results, ∀ record', r.flash.Reads record' → TwoSlots record'

section Runs

variable {pages pageWords : Nat} [Geometry pages pageWords]
  {flash : MockFlashBase pages 2 pageWords}
  {results : List (CycleResult (MockFlashBase pages 2 pageWords))}

/-- Whoever gets control in a run finds its own slot in the journal. -/
theorem CycleRun.agree (h : CycleRun flash results)
    {r : CycleResult (MockFlashBase pages 2 pageWords)} (hr : r ∈ results) {s : Slot}
    (hs : r.halt = .error (.handOver s)) :
    ∃ st, r.loaded = some st ∧ st.status ≠ .Initial ∧ (runningSlot st).1 = s := by
  induction h with
  | nil => exact absurd hr List.not_mem_nil
  | cons _ _ _ hcycle _ ih =>
      rcases List.mem_cons.mp hr with rfl | hr
      · exact hcycle.of_handOver hs
      · exact ih hr

/-- The two slots of the record are kept from cycle to cycle, since all moves of a cycle do so. -/
theorem CycleRun.twoSlots (h : CycleRun flash results)
    (htwo : TwoSlots (persisted pages pageWords flash))
    {r : CycleResult (MockFlashBase pages 2 pageWords)} (hr : r ∈ results) :
    TwoSlots (persisted pages pageWords r.flash) := by
  induction h with
  | nil => exact absurd hr List.not_mem_nil
  | cons _ _ _ hcycle _ ih =>
      have hnext := htwo.moves hcycle.moves
      rcases List.mem_cons.mp hr with rfl | hr
      · exact hnext
      · exact ih hnext hr

/-- Every sequence of power cycles follows the protocol. -/
theorem CycleRun.followsProtocol (h : CycleRun flash results) : FollowsProtocol flash results where
  cycles := h
  agree _ hr _ hs := h.agree hr hs
  slots record hrec htwo r hr record' hrec' := by
    rw [← MockFlashBase.reads_iff.mp hrec']
    rw [← MockFlashBase.reads_iff.mp hrec] at htwo
    exact h.twoSlots htwo hr

end Runs

/-! ### Where the bootloader falls back to

`RanConfirmed` is about the cycles so far, and grows with each of them. A slot becomes a backup by a
request of the application that runs from it, and the application makes one only in a confirmed
image or in a backup. -/

/-- A separate backup is one of the trusted slots. -/
def Backed (trusted : Slot → Prop) (record : Option State) : Prop :=
  ∀ st, record = some st → st.target ≠ st.backup → trusted st.backup

/-- The application in `slot` was given control, and found itself confirmed. -/
def RanConfirmed {T : Type} (slot : Slot) (r : CycleResult T) : Prop :=
  r.halt = .error (.handOver slot) ∧ ∃ st, r.loaded = some st ∧ st.status = .Confirmed

section Fallback

variable {trusted : Slot → Prop} {record record' loaded : Option State} {halt : Fault Halt}
  {presses : Nat}

/-- Only the slots matter. -/
theorem Backed.of_slots {st st' : Status} {t b : Slot}
    (h : Backed trusted (some (State.new st t b))) :
    Backed trusted (some (State.new st' t b)) := by
  intro s hs
  cases hs
  have hbacked := h _ rfl
  rw [State.target_new, State.backup_new] at hbacked ⊢
  exact hbacked

/-- The bootloader keeps the slots. -/
theorem Backed.bootMoves (h : Backed trusted record)
    (hmoves : ReflTransGen BootMove record record') : Backed trusted record' := by
  induction hmoves with
  | refl => exact h
  | tail _ hmove ih =>
      cases hmove with
      | first =>
          intro st hst hne
          cases hst
          rw [State.target_new, State.backup_new] at hne
          exact absurd rfl hne
      | attempt t b => exact ih.of_slots
      | fail t b => exact ih.of_slots
      | reject t b => exact ih.of_slots

/-- The application keeps the slots, or makes its own slot the backup, if it is confirmed. -/
theorem Backed.newState {st : State} (h : Backed trusted (some st)) (hst : st.status ≠ .Initial)
    (hconfirmed : st.status = .Confirmed → trusted (runningSlot st).1) :
    Backed trusted (some (newState st)) := by
  rw [← State.new_fields st] at h ⊢
  rw [newState_new]
  cases hstatus : st.status with
  | Initial => exact absurd hstatus hst
  | Attempting => exact h.of_slots
  | Failed => exact h.of_slots
  | Confirmed =>
      intro s hs _
      cases hs
      rw [State.backup_new]
      have htrusted := hconfirmed hstatus
      rw [runningSlot, hstatus] at htrusted
      exact htrusted

/-- One cycle: the new backup is trusted, or ran confirmed in this cycle. -/
theorem PowerCycle.backed (h : PowerCycle record halt loaded presses record')
    (hbacked : Backed trusted record) :
    Backed (fun s => trusted s ∨ (halt = .error (.handOver s) ∧
      ∃ st, loaded = some st ∧ st.status = .Confirmed)) record' := by
  have hweaken : ∀ {r : Option State} (p : Slot → Prop), Backed trusted r →
      Backed (fun s => trusted s ∨ p s) r :=
    fun _ hr st hst hne => .inl (hr st hst hne)
  cases h with
  | dark _ _ _ hmoves => exact hweaken _ (hbacked.bootMoves hmoves)
  | ran slot st _ _ hmoves hst hslot _ hpress =>
      rcases hpress with rfl | ⟨-, rfl⟩
      · exact hweaken _ (hbacked.bootMoves hmoves)
      · refine (hweaken _ (hbacked.bootMoves hmoves)).newState hst
          fun hconf => .inr ⟨?_, st, rfl, hconf⟩
        rw [hslot]

variable {pages pageWords : Nat} [Geometry pages pageWords]
  {flash : MockFlashBase pages 2 pageWords}
  {before after : List (CycleResult (MockFlashBase pages 2 pageWords))}
  {r : CycleResult (MockFlashBase pages 2 pageWords)} {st : State}

/-- The slots that ran confirmed so far are carried along the cycles. -/
theorem CycleRun.fallback (h : CycleRun flash (before ++ r :: after))
    (hbacked : Backed trusted (persisted pages pageWords flash)) (hloaded : r.loaded = some st)
    (hne : st.target ≠ st.backup) :
    trusted st.backup ∨ ∃ r' ∈ before, RanConfirmed st.backup r' := by
  induction before generalizing flash trusted with
  | nil =>
      -- The cycle itself: the bootloader has kept the slots of the record.
      cases h with
      | cons _ _ _ hcycle _ =>
          obtain ⟨-, hmoves, -⟩ := hcycle.of_loaded hloaded
          exact .inl (hbacked.bootMoves hmoves st rfl hne)
  | cons r₀ before ih =>
      cases h with
      | cons _ _ _ hcycle hrest =>
          rcases ih hrest (hcycle.backed hbacked) with (htrusted | hran) | ⟨r', hr', hran⟩
          · exact .inl htrusted
          · exact .inr ⟨r₀, List.mem_cons_self, hran⟩
          · exact .inr ⟨r', List.mem_cons_of_mem _ hr', hran⟩

/-- From an empty journal on, a failed state with a separate backup gives control to a slot
that has run as a confirmed one. -/
theorem CycleRun.fallback_of_empty (h : CycleRun flash (before ++ r :: after))
    (hempty : flash.Reads none) {slot : Slot} (hslot : r.halt = .error (.handOver slot))
    (hloaded : r.loaded = some st) (hfailed : st.status = .Failed)
    (hne : st.target ≠ st.backup) : ∃ r' ∈ before, RanConfirmed slot r' := by
  have hbacked : Backed (fun _ => False) (persisted pages pageWords flash) := by
    rw [MockFlashBase.reads_iff.mp hempty]
    intro st hst
    cases hst
  obtain ⟨st', hloaded', -, hrunning⟩ :=
    h.agree (List.mem_append_right _ List.mem_cons_self) hslot
  rw [hloaded] at hloaded'
  cases hloaded'
  rw [runningSlot, hfailed] at hrunning
  rcases h.fallback hbacked hloaded hne with hfalse | hran
  · exact hfalse.elim
  · rw [← hrunning]
    exact hran

end Fallback

/-! ### Trials -/

/-- The application was given control for a trial. -/
def IsTrial {T : Type} (r : CycleResult T) : Prop :=
  ∃ st, r.loaded = some st ∧ st.status = .Attempting

/-- USER1 was pressed in a confirmed image, or in the backup of a failed one. -/
def IsRequest {T : Type} (r : CycleResult T) : Prop :=
  (∃ st, r.loaded = some st ∧ (st.status = .Confirmed ∨ st.status = .Failed)) ∧ 0 < r.presses

section Trials

variable {record record' loaded : Option State} {halt : Fault Halt} {presses : Nat}

/-- The bootloader makes no attempt pending. -/
theorem not_pending_of_bootMoves (h : ¬ Pending record)
    (hmoves : ReflTransGen BootMove record record') : ¬ Pending record' := by
  have hnot : ∀ {st : Status} {t b : Slot}, st ≠ .Initial →
      ¬ Pending (some (State.new st t b)) := by
    intro st t b hst hpending
    exact hst (by rw [← State.status_new st t b]; exact hpending _ rfl)
  -- The last move alone says it: no move of the bootloader ends in `Initial`.
  rcases hmoves.cases_tail with rfl | ⟨record₁, -, hmove⟩
  · exact h
  · cases hmove with
    | first => exact hnot (by decide)
    | attempt t b => exact hnot (by decide)
    | fail t b => exact hnot (by decide)
    | reject t b => exact hnot (by decide)

/-- With no attempt pending, a cycle is no trial, and an attempt gets pending by a request
only. -/
theorem PowerCycle.not_pending (h : PowerCycle record halt loaded presses record')
    (hnot : ¬ Pending record) :
    (∀ st, loaded = some st → st.status = .Confirmed ∨ st.status = .Failed) ∧
      (¬ Pending record' ∨ ((∃ st, loaded = some st) ∧ 0 < presses)) := by
  cases h with
  | dark _ _ _ hmoves =>
      exact ⟨fun st hst => (by cases hst), .inl (not_pending_of_bootMoves hnot hmoves)⟩
  | ran slot st _ _ hmoves hst hslot htrial hpress =>
      refine ⟨fun st' hst' => ?_, ?_⟩
      · cases hst'
        cases hstatus : st.status with
        | Initial => exact absurd hstatus hst
        | Attempting => exact absurd (htrial hstatus) hnot
        | Failed => exact .inr rfl
        | Confirmed => exact .inl rfl
      · rcases hpress with rfl | ⟨hpos, -⟩
        · exact .inl (not_pending_of_bootMoves hnot hmoves)
        · exact .inr ⟨⟨st, rfl⟩, hpos⟩

/-- After a trial no attempt is pending: the image is confirmed, or it is not. -/
theorem PowerCycle.not_pending_of_trial (h : PowerCycle record halt loaded presses record')
    {st : State} (hloaded : loaded = some st) (htrial : st.status = .Attempting) :
    ¬ Pending record' := by
  obtain ⟨-, -, -, -, hpress⟩ := h.of_loaded hloaded
  intro hpending
  rcases hpress with rfl | ⟨-, rfl⟩
  · have hinit := hpending st rfl
    rw [htrial] at hinit
    cases hinit
  · have hinit := hpending _ rfl
    rw [← State.new_fields st, newState_new, htrial, State.status_new] at hinit
    cases hinit

variable {pages pageWords : Nat} [Geometry pages pageWords]
  {flash : MockFlashBase pages 2 pageWords}
  {before between after : List (CycleResult (MockFlashBase pages 2 pageWords))}
  {r r' : CycleResult (MockFlashBase pages 2 pageWords)}

/-- With no attempt pending, a trial comes after a request. -/
theorem CycleRun.request_of_not_pending (h : CycleRun flash (between ++ r :: after))
    (hnot : ¬ Pending (persisted pages pageWords flash)) (htrial : IsTrial r) :
    ∃ q ∈ between, IsRequest q := by
  induction between generalizing flash with
  | nil =>
      cases h with
      | cons _ _ _ hcycle _ =>
          obtain ⟨st, hloaded, hattempting⟩ := htrial
          rcases (hcycle.not_pending hnot).1 st hloaded with h | h <;> rw [hattempting] at h <;>
            cases h
  | cons q between ih =>
      cases h with
      | cons _ _ _ hcycle hrest =>
          obtain ⟨hstatus, hnext⟩ := hcycle.not_pending hnot
          rcases hnext with hnot' | ⟨⟨st, hloaded⟩, hpos⟩
          · obtain ⟨q', hq', hrequest⟩ := ih hrest hnot'
            exact ⟨q', List.mem_cons_of_mem _ hq', hrequest⟩
          · exact ⟨q, List.mem_cons_self, ⟨st, hloaded, hstatus st hloaded⟩, hpos⟩

/-- Between two trials there is a request. -/
theorem CycleRun.request_between (h : CycleRun flash (before ++ r :: (between ++ r' :: after)))
    (htrial : IsTrial r) (htrial' : IsTrial r') : ∃ q ∈ between, IsRequest q := by
  induction before generalizing flash with
  | nil =>
      cases h with
      | cons _ _ _ hcycle hrest =>
          obtain ⟨st, hloaded, hattempting⟩ := htrial
          exact hrest.request_of_not_pending (hcycle.not_pending_of_trial hloaded hattempting)
            htrial'
  | cons r₀ before ih =>
      cases h with
      | cons _ _ _ _ hrest => exact ih hrest

end Trials

end EcSlimloader
