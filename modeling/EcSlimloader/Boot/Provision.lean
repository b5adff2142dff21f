import EcSlimloader.Imxrt.Verification
import EcSlimloader.Rom.Fuses

/-!
# `EcSlimloader.Boot.Provision`: the application burns the fuses

A press of USER1 that is longer than `FUSE_DELAY` makes the example application in
`examples/rt685s/application/src/main.rs` burn the root key hash from the shadow registers,
and then the boot configuration that enables secure boot. The two errors that it logs are
branches without an effect here.

`keyCycle` is a power cycle as far as the fuses are concerned: the bootloader checks the image
that it boots, and the application runs with the shadow registers that the check has left. The
application is a program of its own, so its flag of the fuse driver starts cleared.

What a long press reads and writes goes through the register access of `imxrt-rom`, so the order of
the words and the unlocked state of the fuses are those of the source. Every access may fail. The
application unwraps it, and the press ends there. The fuses that were burnt by then stay burnt,
which is why the result of a cycle is taken from both ends of a run.

`enabled` is the code that the `device_driver` crate gives to `SecureBoot::Enabled`. The theorems
hold for each of the codes that the bootloader decodes as enabled.
-/

set_option autoImplicit false

namespace EcSlimloader

open Bytes (u32At toLe)

/-- `Rkth::new_zero`. -/
def Rkth.newZero : Rkth := ⟨List.replicate Register.rkth.size 0, List.length_replicate⟩

/-- The value of `BOOT_CFG0` that the application writes. The `device_driver` crate chooses
the code of `SecureBoot::Enabled`. -/
def provisionedBootCfg0 (enabled : Fin 4) : UInt32 :=
  -- `primary_boot_src` is `QspiBBoot`.
  let w := setBitField 0 0 4 5
  -- `default_isp_mode` is `DisableIsp`.
  let w := setBitField w 4 7 7
  -- `tzm_image_type` is `TzmEnable`.
  let w := setBitField w 13 15 2
  let w := setBitField w 20 22 enabled
  -- `dice_skip`.
  let w := setBitField w 23 24 1
  -- `boot_fail_pin_port` and `boot_fail_pin_num`.
  let w := setBitField w 24 27 5
  setBitField w 27 32 7

namespace Application

/-- The root key hash, unless the fuses hold it already or it "is not set to something
useful". -/
def burnRkth (otp : OtpRom) : Exec Empty Chip Unit := do
  let rkthShadow ← Exec.unwrap (onRom (ShadowRegisters.read .rkth))
  let rkthOtp ← Exec.unwrap (OtpInterface.read otp .rkth)
  if rkthOtp ≠ rkthShadow then
    if rkthShadow = Rkth.newZero.val then pure ()
    else Exec.unwrap (OtpInterface.write otp (.writable false) .rkth rkthShadow)

/-- The boot configuration, unless it "seems to already be set". -/
def burnBootCfg0 (otp : OtpRom) (enabled : Fin 4) : Exec Empty Chip Unit := do
  let boot0Otp ← Exec.unwrap (OtpInterface.read otp .bootCfg0)
  if u32At boot0Otp 0 ≠ 0 then pure ()
  else
    Exec.unwrap (OtpInterface.write otp (.writable false) .bootCfg0
      (toLe (provisionedBootCfg0 enabled)))

/-- A long press of USER1. -/
def longPress (otp : OtpRom) (enabled : Fin 4) : Exec Empty Chip Unit := do
  onRom Otp.init
  burnRkth otp
  burnBootCfg0 otp enabled
  onRom Otp.drop

/-- A number of long presses. -/
def longPresses (otp : OtpRom) (enabled : Fin 4) : Nat → Exec Empty Chip Unit
  | 0 => pure ()
  | presses + 1 => do
      longPress otp enabled
      longPresses otp enabled presses

end Application

/-- The conditions of one power cycle: the chip, the image that the bootloader checks last, and
the number of long presses. -/
structure KeyCycle where
  otp : OtpRom
  sha256 : List UInt8 → Option Rkth
  build : Build
  ramIvt : Ivt
  image : List UInt8
  /-- The chip before the check. -/
  st : RomState
  longPresses : Nat

/-- The chip with the given fuses. -/
def KeyCycle.soc (cycle : KeyCycle) (fuses : Fuses) : Soc where
  rom := cycle.otp.rom fuses
  sha256 := cycle.sha256
  build := cycle.build

/-- The end of a power cycle. -/
structure KeyCycleResult where
  /-- The fuses at the start. -/
  before : Fuses
  /-- The calls of `skboot_authenticate` in the check. -/
  authentications : List AuthenticateCall
  /-- Whether the application has run. -/
  accepted : Bool
  fuses : Fuses

/-- The fuses behind a run of the application, whether it has panicked or not. -/
def fusesBehind {ε α : Type} : EStateM.Result ε Chip α → Fuses
  | .ok _ chip => chip.fuses
  | .error _ chip => chip.fuses

/-- One power cycle. -/
def keyCycle (enabled : Fin 4) (cycle : KeyCycle) (fuses : Fuses) : KeyCycleResult :=
  match checkImage (cycle.soc fuses) cycle.ramIvt cycle.image cycle.st with
  | .ok () st =>
      { before := fuses
        authentications := st.authentications.drop cycle.st.authentications.length
        accepted := true
        fuses := fusesBehind (Application.longPresses cycle.otp enabled cycle.longPresses
          { fuses, rom := { st with otpInitialized := false } }) }
  | .error _ st =>
      { before := fuses
        authentications := st.authentications.drop cycle.st.authentications.length
        accepted := false
        fuses }

/-- Power cycles one after the other. -/
def keyCycles (enabled : Fin 4) : List KeyCycle → Fuses → List KeyCycleResult
  | [], _ => []
  | cycle :: cycles, fuses =>
      let result := keyCycle enabled cycle fuses
      result :: keyCycles enabled cycles result.fuses

end EcSlimloader
