import EcSlimloader.Boot.Application
import EcSlimloader.Imxrt.CheckAndBoot

/-!
# `EcSlimloader.Imxrt.Boot`: the bootloader on the i.MX RT

`start` on the board of `ec-slimloader-imxrt`, from `init` on. `init` opens the journal on the
state partition and panics if that fails. The other things that it sets up are what the power
cycle finds, so they are an input: `Hardware` holds the slots with their content, the memory
and the chip. Each cycle may find other ones.

`powerCycle` and `powerCycles` are the ones of `EcSlimloader.Boot.Application` with this board in
the place of the bench. Both finish a cycle with the same `finishCycle`, so the application is the
same program on either board, and what differs is how a slot is checked.
-/

set_option autoImplicit false

namespace EcSlimloader

namespace Imxrt

/-- What the board is besides its journal. -/
structure Hardware (H : Type) where
  slots : List SlotPartition
  config : ImxrtConfig
  checkImage : Ivt → List UInt8 → Exec BootError H Unit
  hw : H
  ram : Nat → UInt8

variable {T E H : Type} [NorFlash T E]

/-- The board that `init` returns. -/
def ofHardware (hardware : Hardware H) (journal : FlashJournal T) : Imxrt T H where
  journal
  slots := hardware.slots
  config := hardware.config
  checkImage := hardware.checkImage
  hw := hardware.hw
  ram := hardware.ram
  reads := 0
  written := []
  transfers := []

/-- `init`, and then `start`: how the run ends, and the flash of the journal behind it. -/
def boot (n : Nat) (policy : BootStatePolicy) (hardware : Hardware H) (flash : T) :
    Fault Halt × T :=
  match (FlashJournal.new n : Exec (FlashJournal.Error E) T (FlashJournal T)) flash with
  | .error (.panic msg) t => (.panic msg, t)
  | .error (.error _) t => (.panic "Failed to initialize the flash state journal", t)
  | .ok journal _ =>
      match start n policy (ofHardware hardware journal) with
      | .ok never _ => nomatch never
      | .error halt board => (halt, board.journal.inner)

/-- The conditions of a power cycle on the board. -/
structure PowerUp (H : Type) where
  bootCut : Option Nat
  hardware : Hardware H
  presses : Nat
  appCut : Option Nat

/-- One power cycle on the board, with the example application in its slots. -/
def powerCycle (arm : Option Nat → T → T) (n m : Nat) (policy : BootStatePolicy)
    (cycle : PowerUp H) (flash : T) : CycleResult T :=
  let result := boot n policy cycle.hardware (arm cycle.bootCut flash)
  finishCycle arm m cycle.presses cycle.appCut result.1 result.2

/-- Power cycles one after the other. -/
def powerCycles (arm : Option Nat → T → T) (n m : Nat) (policy : BootStatePolicy) :
    List (PowerUp H) → T → List (CycleResult T)
  | [], _ => []
  | cycle :: cycles, flash =>
      let result := powerCycle arm n m policy cycle flash
      result :: powerCycles arm n m policy cycles result.flash

end Imxrt

end EcSlimloader
