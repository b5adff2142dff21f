import EcSlimloader.Boot.Start
import EcSlimloader.Imxrt.Mbi
import EcSlimloader.Rom.Api

/-!
# `EcSlimloader.Imxrt.Verification`: the secure `check_image`

`check_image` from `ec-slimloader-imxrt/src/verification.rs`. It hashes the root key
hashes that the image carries, reloads the shadow registers from the fuses, and has
the boot ROM authenticate the image. In development mode, that is with the
`secure_boot_en` fuses unset, it puts the hash of the image in the place of the one
from the fuses first.

`imageRkth` is the part in front, which reads the image only. A slice index out of
range is a panic there, and so is an addition that overflows in a build with overflow
checks. The registers that `check_image` reads for the log are read here too, since
their `unwrap!` can panic.

`checkImages` is a power cycle in which `start` checks several images, one after the other. The
state of the ROM goes from one check to the next. The shadow registers that a check has written are
what the next one finds, unless it reloads them.
-/

set_option autoImplicit false

namespace EcSlimloader

open Bytes (u32At toLe sliceFrom addU32)

/-- How the bootloader was built. -/
structure Build where
  /-- Whether arithmetic overflow panics. -/
  overflowChecks : Bool
  /-- The cargo feature `mimxrt685s-evk`. -/
  evk : Bool
  deriving DecidableEq, Repr

/-- The chip that the bootloader runs on: the ROM, the SHA-256 of the `HASHCRYPT`
peripheral (`none` is an error), and the build. -/
structure Soc where
  rom : Rom
  sha256 : List UInt8 → Option Rkth
  build : Build

namespace Rkh

/-- `size_of::<[Rkh; 4]>()`. -/
def allSize : Nat := 128

/-- `Rkh::read_all_from_slice`: the four hashes, of 32 bytes each. -/
def readAllFromSlice (data : List UInt8) : Option (List (List UInt8)) :=
  if data.length < allSize then none
  else some ((List.range 4).map fun i => (data.drop (32 * i)).take 32)

/-- `Rkh::to_rkth`. -/
def toRkth (sha256 : List UInt8 → Option Rkth) (rkhs : List (List UInt8)) :
    Except (Fault BootError) Rkth :=
  match sha256 rkhs.flatten with
  | some rkth => .ok rkth
  | none => .error (.error .Hash)

end Rkh

/-- The root key hashes behind a certificate block header. -/
def rkhsBehind (build : Build) (certBlockHeaderOffset : UInt32)
    (certBlockHeader : CertificateBlockHeader) (image : List UInt8) :
    Except (Fault BootError) (List (List UInt8)) := do
  let offset ← addU32 build.overflowChecks certBlockHeaderOffset certBlockHeader.headerLength
  let rkhsOffset ← addU32 build.overflowChecks offset certBlockHeader.certificateTableLength
  match Rkh.readAllFromSlice (← sliceFrom image rkhsOffset.toNat) with
  | none => .error (.error .TooLarge)
  | some rkhs => .ok rkhs

/-- The root key hashes of an image, as `check_image` looks them up. -/
def imageRkhs (build : Build) (ramIvt : Ivt) (image : List UInt8) :
    Except (Fault BootError) (List (List UInt8)) := do
  match CertificateBlockHeader.readFromSlice (← sliceFrom image ramIvt.headerOffset.toNat) with
  | none => .error (.error .TooLarge)
  | some certBlockHeader => rkhsBehind build ramIvt.headerOffset certBlockHeader image

/-- "Compute RKTH from image." -/
def imageRkth (soc : Soc) (ramIvt : Ivt) (image : List UInt8) :
    Except (Fault BootError) Rkth := do
  Rkh.toRkth soc.sha256 (← imageRkhs soc.build ramIvt image)

/-- Read the registers that `check_image` logs. -/
def logShadow : Exec BootError RomState Unit := do
  let _bootCfg0 ← Exec.unwrap (ShadowRegisters.read .bootCfg0)
  let _bootCfg1 ← Exec.unwrap (ShadowRegisters.read .bootCfg1)
  let _rkth ← Exec.unwrap (ShadowRegisters.read .rkth)

/-- "Reload shadow registers." -/
def reloadShadowRegisters (rom : Rom) : Exec BootError RomState Unit := do
  Otp.init
  let _bootCfg0 ← Exec.unwrap (OtpFuses.read rom .bootCfg0)
  let _bootCfg1 ← Exec.unwrap (OtpFuses.read rom .bootCfg1)
  let _rkth ← Exec.unwrap (OtpFuses.read rom .rkth)
  Exec.unwrap (Otp.reloadShadow rom)
  Otp.drop

/-- "Fix for EVK without fuses." -/
def fixEvk (build : Build) : Exec BootError RomState Unit :=
  if build.evk then
    Exec.unwrap (ShadowRegisters.modify .bootCfg1 fun data => toLe (evkBootCfg1 (u32At data 0)))
  else pure ()

/-- Put the hash of the image in the shadow register, in development mode. -/
def selectRkth (imageRkth : Rkth) : Exec BootError RomState Unit := do
  let bootCfg0 ← Exec.unwrap (ShadowRegisters.read .bootCfg0)
  let shadowRkth ← Exec.unwrap (ShadowRegisters.read .rkth)
  if imageRkth.val ≠ shadowRkth then
    if secureBootEn (u32At bootCfg0 0) = .Disabled then
      Exec.unwrap (ShadowRegisters.write .rkth imageRkth.val)

/-- `check_image` for the image in memory at `ram_ivt.target_ptr`. -/
def checkImage (soc : Soc) (ramIvt : Ivt) (image : List UInt8) : Exec BootError RomState Unit := do
  let rkth ← Exec.ofExcept (imageRkth soc ramIvt image)
  logShadow
  reloadShadowRegisters soc.rom
  fixEvk soc.build
  logShadow
  selectRkth rkth
  Exec.mapError (fun _ => .Authenticate)
    (skbootAuthenticate soc.rom ramIvt.targetPtr ramIvt.imageLen none image)

/-- A call of `check_image` in a sequence of them. -/
structure Check where
  ramIvt : Ivt
  image : List UInt8
  /-- The calls of `skboot_authenticate` that it made. -/
  authentications : List AuthenticateCall

/-- The calls of `check_image` in one power cycle. An error is handed to the caller,
who may check another image. A panic ends the cycle. -/
def checkImages (soc : Soc) : List (Ivt × List UInt8) → RomState → List Check
  | [], _ => []
  | (ramIvt, image) :: rest, st =>
      let check (st' : RomState) : Check :=
        { ramIvt, image
          authentications := st'.authentications.drop st.authentications.length }
      match checkImage soc ramIvt image st with
      | .ok () st' => check st' :: checkImages soc rest st'
      | .error (.error _) st' => check st' :: checkImages soc rest st'
      | .error (.panic _) st' => [check st']

end EcSlimloader
