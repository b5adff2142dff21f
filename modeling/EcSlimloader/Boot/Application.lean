import EcSlimloader.Boot.Bench

/-!
# `EcSlimloader.Boot.Application`: the example application and its power cycles

The journal logic of `examples/rt685s/application/src/main.rs`. The application opens the
journal, finds out which slot it runs from, and fixes the state that a press of USER1 asks
for: confirm this slot, try the other slot, or try the target again. Each short press stores
this state. A long press burns fuses, and is in `EcSlimloader.Boot.Provision`.

`powerCycle` is what happens between two resets: a run of the bootloader and, if it hands
over control, a run of the application. USER2 and a power cut end the cycle. A cut inside a
flash operation is planned by `arm`, which says how the storage is told about it.

The example bootloader has the default policy, and journal buffers of 4096 bytes against the
1024 of the application. Both sizes are parameters here.

A failed `set` is a panic in the application: `button1_fut` unwraps its result. So is a journal
that cannot be opened. After a panic the device waits for a reset, which is the end of the cycle.
The state that a press stores is computed once, in `main`, from the state that was loaded. A second
press stores the same state again, and the journal returns early on it.

The number of short presses is the only thing about the buttons that the journal can tell, so it is
what a cycle is given. The timing of the presses and the LEDs are left out.
-/

set_option autoImplicit false

namespace EcSlimloader

namespace Application

/-- The state that the application works with. An empty journal is taken for a confirmed
first slot. -/
def loadedState : Option State → State
  | some state => state
  | none => State.new .Confirmed .S0 .S1

/-- `other_slot`. -/
def otherSlot (slot : Slot) : Slot := if slot = .S0 then .S1 else .S0

/-- `new_state`, which is computed once, before the first press. -/
def newState (state : State) : State :=
  let (slot, isConfirmed, isBackup) := runningSlot state
  if isConfirmed then
    -- Swap around.
    State.new .Initial (otherSlot slot) slot
  else if isBackup then
    -- Try main again.
    state.withStatus .Initial
  else
    -- We were attempting so confirm.
    state.withStatus .Confirmed

section Run

variable {T E : Type} [NorFlash T E]

/-- The loop of `button1_fut` for a number of short presses. A failed `set` is a panic. -/
def button1 (n : Nat) (newState : State) : Nat → Exec Empty (FlashJournal T) Unit
  | 0 => pure ()
  | presses + 1 => do
      Exec.unwrap (FlashJournal.set n newState)
      button1 n newState presses

/-- The end of a run of the application. -/
structure Result (T : Type) where
  /-- The state it has loaded, if the journal could be opened. -/
  loaded : Option State
  panicked : Bool
  flash : T

/-- `main`, until the cycle ends after a number of short presses. -/
def main (n presses : Nat) (flash : T) : Result T :=
  match (FlashJournal.new n : Exec (FlashJournal.Error E) T (FlashJournal T)) flash with
  | .error _ t => { loaded := none, panicked := true, flash := t }
  | .ok journal _ =>
      let state := loadedState journal.get
      match button1 n (newState state) presses journal with
      | .ok _ journal => { loaded := some state, panicked := false, flash := journal.inner }
      | .error _ journal => { loaded := some state, panicked := true, flash := journal.inner }

end Run

end Application

/-- The conditions of one power cycle. A cut is planned for the bootloader, for the
application, or for neither. -/
structure Cycle where
  bootCut : Option Nat
  verdict : Slot → Verdict
  /-- The number of short presses of USER1. -/
  presses : Nat
  appCut : Option Nat

/-- The end of a power cycle. -/
structure CycleResult (T : Type) where
  /-- How the bootloader has ended. -/
  halt : Fault Halt
  /-- The state that the application has loaded, if it was given control. -/
  loaded : Option State
  /-- Whether the application has panicked. -/
  panicked : Bool
  /-- The number of short presses that the application has seen. -/
  presses : Nat
  flash : T

section Cycles

variable {T E : Type} [NorFlash T E]

/-- The cycle behind the end of the bootloader: the application runs if it is given control. -/
def finishCycle (arm : Option Nat → T → T) (m presses : Nat) (appCut : Option Nat)
    (halt : Fault Halt) (flash : T) : CycleResult T :=
  match halt with
  | .error (.handOver slot) =>
      let app := Application.main m presses (arm appCut flash)
      { halt := .error (.handOver slot), loaded := app.loaded, panicked := app.panicked, presses
        flash := app.flash }
  | halt => { halt, loaded := none, panicked := false, presses := 0, flash }

/-- One power cycle on a flash. -/
def powerCycle (arm : Option Nat → T → T) (n m : Nat) (policy : BootStatePolicy) (cycle : Cycle)
    (flash : T) : CycleResult T :=
  let result := boot n policy cycle.verdict (arm cycle.bootCut flash)
  finishCycle arm m cycle.presses cycle.appCut result.halt result.flash

/-- Power cycles one after the other. -/
def powerCycles (arm : Option Nat → T → T) (n m : Nat) (policy : BootStatePolicy) :
    List Cycle → T → List (CycleResult T)
  | [], _ => []
  | cycle :: cycles, flash =>
      let result := powerCycle arm n m policy cycle flash
      result :: powerCycles arm n m policy cycles result.flash

end Cycles

/-- The mock flash with a planned cut. -/
def MockFlashBase.withCut {pages bytesPerWord pageWords : Nat} (cut : Option Nat)
    (flash : MockFlashBase pages bytesPerWord pageWords) :
    MockFlashBase pages bytesPerWord pageWords :=
  { flash with bytesUntilShutoff := cut }

end EcSlimloader
