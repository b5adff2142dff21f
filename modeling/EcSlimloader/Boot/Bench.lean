import EcSlimloader.Boot.Start
import EcSlimloader.State.Mock

/-!
# `EcSlimloader.Boot.Bench`: a board with a given outcome for each slot

`BenchBoard` is a board whose `check_and_boot` does what the environment says: it
hands over control, it returns an error, or the power is cut. It records the slots
that were tried. A power cut inside a flash operation is an error of the mock flash.
The bootloader panics on it at once, so the run ends with the flash as the cut left
it. `boot` is one run of the bootloader on a flash, from `init` to its end. `bootEach` is a
sequence of such runs on the same flash, and `bootAll` one on the mock flash with power cuts.

`runningSlot` is how the application in `examples/rt685s` finds out which slot it
runs from.

A verdict is a function of the slot. No run of `start` tries a slot twice, so nothing is lost by
that, and each run has a verdict of its own. A power cut outside of a flash operation is the verdict
`cut`: between its operations the journal does not change, so it does not matter where exactly the
power goes.
-/

set_option autoImplicit false

namespace EcSlimloader

/-- What `check_and_boot` does for a slot. -/
inductive Verdict where
  /-- The image is good, and gets control. -/
  | accept
  /-- The boot fails. -/
  | reject (e : BootError)
  /-- The power is cut before the hand-over. -/
  | cut
  deriving DecidableEq, Repr

/-- A board whose `check_and_boot` follows `verdict`. -/
structure BenchBoard (T : Type) where
  journal : FlashJournal T
  verdict : Slot → Verdict
  /-- The slots that `check_and_boot` was called with. -/
  tried : List Slot

namespace BenchBoard

variable {T E : Type} [NorFlash T E]

/-- `check_and_boot` of the bench board. -/
def checkAndBoot (slot : Slot) : Exec Halt (BenchBoard T) BootError := do
  modify fun board => { board with tried := board.tried ++ [slot] }
  match (← get).verdict slot with
  | .accept => Exec.fail (.handOver slot)
  | .reject e => pure e
  | .cut => Exec.fail .powerLoss

instance : Board (BenchBoard T) T E where
  journal := journal
  withJournal j board := { board with journal := j }
  checkAndBoot := checkAndBoot
  abort := Exec.fail .abort

end BenchBoard

/-- The end of a run of the bootloader. -/
structure BootResult (T : Type) where
  halt : Fault Halt
  flash : T
  tried : List Slot

section Boot

variable {T E : Type} [NorFlash T E]

/-- One run of the bootloader on a flash: open the journal as `init` does, then
`start`. -/
def boot (n : Nat) (policy : BootStatePolicy) (verdict : Slot → Verdict) (flash : T) :
    BootResult T :=
  match (FlashJournal.new n : Exec (FlashJournal.Error E) T (FlashJournal T)) flash with
  | .error (.panic msg) t => { halt := .panic msg, flash := t, tried := [] }
  | .error (.error _) t =>
      { halt := .panic "Failed to initialize the flash state journal", flash := t, tried := [] }
  | .ok journal _ =>
      match start n policy ({ journal, verdict, tried := [] } : BenchBoard T) with
      | .ok never _ => nomatch never
      | .error halt board => { halt, flash := board.journal.inner, tried := board.tried }

/-- Runs of the bootloader one after the other on the same flash, each with verdicts of its
own. The application does not write to the journal. -/
def bootEach (n : Nat) (policy : BootStatePolicy) :
    List (Slot → Verdict) → T → List (BootResult T)
  | [], _ => []
  | verdict :: verdicts, flash =>
      let result := boot n policy verdict flash
      result :: bootEach n policy verdicts result.flash

end Boot

/-- The conditions of one run: the number of bytes until the power is cut inside a
flash operation, and what `check_and_boot` does. -/
structure BootEnv where
  cut : Option Nat
  verdict : Slot → Verdict

/-- Runs of the bootloader on the mock flash one after the other. The application
does not write to the journal. -/
def bootAll {pages bytesPerWord pageWords : Nat} (n : Nat) (policy : BootStatePolicy) :
    List BootEnv → MockFlashBase pages bytesPerWord pageWords →
    List (BootResult (MockFlashBase pages bytesPerWord pageWords))
  | [], _ => []
  | env :: envs, flash =>
      let result := boot n policy env.verdict { flash with bytesUntilShutoff := env.cut }
      result :: bootAll n policy envs result.flash

/-- How the application decodes the journal's state: the slot it runs from, whether
it is confirmed, and whether it is the backup. `Initial` comes with the warning
that it "should not be possible if the bootloader is flashed". -/
def runningSlot (state : State) : Slot × Bool × Bool :=
  match state.status with
  | .Initial => (state.target, false, false)
  | .Attempting => (state.target, false, false)
  | .Failed => (state.backup, false, true)
  | .Confirmed => (state.target, true, false)

end EcSlimloader
