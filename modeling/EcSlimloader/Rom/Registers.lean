import EcSlimloader.Lib.Bytes
import EcSlimloader.Lib.Exec

/-!
# `EcSlimloader.Rom.Registers`: fuses and shadow registers

The registers of `imxrt-rom/src/registers.rs`. A register spans one or more words.
Each word has an index, under which it exists as a fuse, and some indices are mapped
to a shadow register in memory. `dataToOtpWords` and `otpWordsToData` convert between
the bytes of a register and its words.

The register accessors `read`, `write` and `modify` come from the `device_driver`
crate. As documented there, `read` fills a buffer of the register's size, `write`
stores a new value, and `modify` reads, changes and stores.

Bytes and words do not always fit: a register whose size is no multiple of four ends in a partial
word. Its missing bytes are zeros when the word is written, and are dropped when it is read.
-/

set_option autoImplicit false

namespace EcSlimloader

open Bytes (fromLe toLe)

/-- The error for an index that is not mapped. -/
inductive NotShadowRegister where
  | mk
  deriving DecidableEq, Repr

/-- The words of the memory-mapped shadow registers, by address. -/
abbrev Shadow : Type := Nat → UInt32

/-- `otp_to_shadow_offset`. -/
def otpToShadowOffset (otpWordI : Nat) : Except NotShadowRegister Nat :=
  if 8 ≤ otpWordI ∧ otpWordI ≤ 9 then .ok ((otpWordI - 8) * 4 + 0x020)
  else if 95 ≤ otpWordI ∧ otpWordI ≤ 104 then .ok ((otpWordI - 95) * 4 + 0x17C)
  else if 106 ≤ otpWordI ∧ otpWordI ≤ 127 then .ok ((otpWordI - 106) * 4 + 0x1A8)
  else if 492 ≤ otpWordI ∧ otpWordI ≤ 495 then .ok ((otpWordI - 492) * 4 + 0x7B0)
  else .error .mk

/-- `OTP_SHADOW_BASE_ADDR`. -/
def otpShadowBaseAddr : Nat := 0x40130000

/-- `otp_to_shadow_addr`. -/
def otpToShadowAddr (otpWordI : Nat) : Except NotShadowRegister Nat :=
  (otpToShadowOffset otpWordI).map (otpShadowBaseAddr + ·)

/-- `data.chunks(4)` as words. A short last chunk is padded with zeros. -/
def chunksToWords : List UInt8 → List UInt32
  | [] => []
  | [b0] => [fromLe b0 0 0 0]
  | [b0, b1] => [fromLe b0 b1 0 0]
  | [b0, b1, b2] => [fromLe b0 b1 b2 0]
  | b0 :: b1 :: b2 :: b3 :: rest => fromLe b0 b1 b2 b3 :: chunksToWords rest

/-- `data_to_otp_words`. -/
def dataToOtpWords (otpWordI : Nat) (data : List UInt8) : List (Nat × UInt32) :=
  (chunksToWords data).zipIdx.map fun (word, chunkI) => (otpWordI + chunkI, word)

/-- `otp_words_to_data` into a buffer of the given length, with `f` for the words. A
short last chunk takes the low bytes of its word. -/
def otpWordsToData {m : Type → Type} [Monad m] (f : Nat → m UInt32) :
    Nat → Nat → m (List UInt8)
  | _, 0 => pure []
  | otpWordI, 1 => do pure ((toLe (← f otpWordI)).take 1)
  | otpWordI, 2 => do pure ((toLe (← f otpWordI)).take 2)
  | otpWordI, 3 => do pure ((toLe (← f otpWordI)).take 3)
  | otpWordI, length + 4 => do
      let word ← f otpWordI
      let rest ← otpWordsToData f (otpWordI + 1) length
      pure (toLe word ++ rest)

namespace Shadow

/-- The word of an index: `read_volatile` at its address. -/
def word (shadow : Shadow) (otpWordI : Nat) : Except NotShadowRegister UInt32 :=
  (otpToShadowAddr otpWordI).map shadow

/-- `write_volatile` of one word. -/
def store (shadow : Shadow) (addr : Nat) (word : UInt32) : Shadow :=
  fun a => if a = addr then word else shadow a

/-- `ShadowInterface::read_register`. -/
def readRegister (shadow : Shadow) (otpWordI length : Nat) :
    Except NotShadowRegister (List UInt8) :=
  otpWordsToData shadow.word otpWordI length

/-- The body of the loop in `write_register`. -/
def storeWord (otpWordI : Nat) (word : UInt32) : Exec NotShadowRegister Shadow Unit :=
  match otpToShadowAddr otpWordI with
  | .error e => Exec.fail e
  | .ok addr => modify fun shadow => shadow.store addr word

/-- `ShadowInterface::write_register`. The words before one that is not mapped stay
written. -/
def writeRegister (otpWordI : Nat) (data : List UInt8) : Exec NotShadowRegister Shadow Unit :=
  (dataToOtpWords otpWordI data).forM fun (otpWordI, word) => storeWord otpWordI word

end Shadow

/-! ### The registers

Only the registers that the programs use. A bit field is read and replaced in the word of its
register, and leaves the other bits alone. -/

/-- A register: the index of its first word, and its size in bytes. -/
structure Register where
  address : Nat
  size : Nat
  deriving DecidableEq, Repr

namespace Register

/-- `BOOT_CFG0`. -/
def bootCfg0 : Register := { address := 96, size := 4 }

/-- `BOOT_CFG1`. -/
def bootCfg1 : Register := { address := 97, size := 4 }

/-- `RKTH`, the hash of the root key hashes. -/
def rkth : Register := { address := 120, size := 32 }

end Register

/-- The field set of `RKTH`: the bytes of the register. -/
abbrev Rkth : Type := { bytes : List UInt8 // bytes.length = Register.rkth.size }

/-- The bits `start ≤ i < stop` of a word. -/
def bitField (word : UInt32) (start stop : Nat) : Nat := word.toNat / 2 ^ start % 2 ^ (stop - start)

/-- The word with a value in the bits `start ≤ i < stop`. -/
def setBitField (word : UInt32) (start stop value : Nat) : UInt32 :=
  UInt32.ofNat (word.toNat - bitField word start stop * 2 ^ start
    + value % 2 ^ (stop - start) * 2 ^ start)

/-- The conversion of the field `secure_boot_en`: `disabled` is `0`, everything else is
`enabled`. -/
inductive SecureBoot where
  | Disabled
  | Enabled
  deriving DecidableEq, Repr

/-- `BootCfg0::secure_boot_en`, the bits 20 and 21. -/
def secureBootEn (bootCfg0 : UInt32) : SecureBoot :=
  if bitField bootCfg0 20 22 = 0 then .Disabled else .Enabled

/-- The fix for the evaluation kit in `BOOT_CFG1`: reset the NOR flash at port 2, pin
12, on a system reset. -/
def evkBootCfg1 (bootCfg1 : UInt32) : UInt32 :=
  let w := setBitField bootCfg1 14 15 1
  let w := setBitField w 15 18 2
  setBitField w 18 23 12

end EcSlimloader
