import Mathlib.Algebra.GroupWithZero.Nat
import Mathlib.Logic.Function.Iterate
import Mathlib.Tactic.Common

/-!
# `EcSlimloader.State.State`: the boot state record

The record the journal stores, from `ec-slimloader-state/src/state.rs`: two image
slots and a boot status in one byte, and the CRC of that byte in a second one.

A `State` value carries its own validity, so a state that exists decodes: the
source's `unwrap_unchecked` calls in `status`, `target` and `backup` are total
functions here.

The three fields are computed from the byte each time, as in the source. `new_fields` says that a
record is determined by them, so a statement about records can be a statement about the fields.
`read?` is how a word of the journal is read: as a record, or as none. The lemmas in the end say
which half-written words are none, which is what a torn write relies on.
-/

set_option autoImplicit false

namespace EcSlimloader

/-- Image slot ID: 0 to 6 in three bits. `0b111` is not a slot, so a record is
never all ones. -/
inductive Slot where
  | S0 | S1 | S2 | S3 | S4 | S5 | S6
  deriving DecidableEq, Repr

/-- The error of `Slot::try_from`. -/
inductive TooManyBits where
  | mk
  deriving DecidableEq, Repr

namespace Slot

/-- `Slot::try_from(u8)`. -/
def tryFrom (val : UInt8) : Except TooManyBits Slot :=
  match val with
  | 0x00 => .ok .S0
  | 0x01 => .ok .S1
  | 0x02 => .ok .S2
  | 0x03 => .ok .S3
  | 0x04 => .ok .S4
  | 0x05 => .ok .S5
  | 0x06 => .ok .S6
  | _ => .error .mk

/-- `u8::from(Slot)`. -/
def toU8 : Slot → UInt8
  | .S0 => 0x00
  | .S1 => 0x01
  | .S2 => 0x02
  | .S3 => 0x03
  | .S4 => 0x04
  | .S5 => 0x05
  | .S6 => 0x06

end Slot

/-- Boot process status, a 2-bit field of the record. -/
inductive Status where
  /-- Initial attempt at booting the target image. -/
  | Initial
  /-- The bootloader has started the first attempt. -/
  | Attempting
  /-- The application did not confirm, or the image did not verify. -/
  | Failed
  /-- The application has marked the boot as successful. -/
  | Confirmed
  deriving DecidableEq, Repr

namespace Status

/-- `status as u8`. -/
def toU8 : Status → UInt8
  | .Initial => 3
  | .Attempting => 2
  | .Failed => 1
  | .Confirmed => 0

/-- `Status::try_from_primitive`. -/
def tryFromPrimitive (val : UInt8) : Option Status :=
  match val with
  | 3 => some .Initial
  | 2 => some .Attempting
  | 1 => some .Failed
  | 0 => some .Confirmed
  | _ => none

end Status

/-! ### The checksum -/

/-- One bit of CRC-8/OPENSAFETY: polynomial `0x2f`, not reflected. -/
def crcBit (crc : UInt8) : UInt8 :=
  if crc &&& 0x80 = 0 then crc <<< 1 else (crc <<< 1) ^^^ 0x2f

/-- `CRC.checksum` with `CRC_8_OPENSAFETY`: initial value 0, no final xor. -/
def checksum (bytes : List UInt8) : UInt8 :=
  bytes.foldl (fun crc byte => crcBit^[8] (crc ^^^ byte)) 0

/-! ### The record -/

/-- Why `State::try_new` gives no state. -/
inductive ParseResult where
  /-- NOR flash entry yet to be written. -/
  | Unset
  /-- State is an invalid value. -/
  | Invalid
  deriving DecidableEq, Repr

namespace State

/-- `State::try_target`. -/
def tryTarget (val : UInt8) : Option Slot := (Slot.tryFrom (val &&& 0b111)).toOption

/-- `State::try_backup`. -/
def tryBackup (val : UInt8) : Option Slot := (Slot.tryFrom ((val >>> 3) &&& 0b111)).toOption

/-- `State::check_crc`. -/
def checkCrc (crc data : UInt8) : Bool := crc == checksum [data]

end State

/-- State record as stored in the journal: the data byte and its CRC. The fields
after the bytes are what `State::new` and `State::try_new` establish. -/
structure State where
  bytes : UInt8 × UInt8
  hasTarget : (State.tryTarget bytes.1).isSome
  hasBackup : (State.tryBackup bytes.1).isSome
  crcOk : State.checkCrc bytes.2 bytes.1
  deriving DecidableEq

instance Slot.decidableForall {p : Slot → Prop} [DecidablePred p] : Decidable (∀ s, p s) :=
  decidable_of_iff (p .S0 ∧ p .S1 ∧ p .S2 ∧ p .S3 ∧ p .S4 ∧ p .S5 ∧ p .S6)
    ⟨fun ⟨h0, h1, h2, h3, h4, h5, h6⟩ s => by cases s <;> assumption,
      fun h => ⟨h _, h _, h _, h _, h _, h _, h _⟩⟩

instance Status.decidableForall {p : Status → Prop} [DecidablePred p] :
    Decidable (∀ s, p s) :=
  decidable_of_iff (p .Initial ∧ p .Attempting ∧ p .Failed ∧ p .Confirmed)
    ⟨fun ⟨h0, h1, h2, h3⟩ s => by cases s <;> assumption, fun h => ⟨h _, h _, h _, h _⟩⟩

/-- A statement about every byte is decidable: the bytes are `Fin 256`. -/
instance decidableForallUInt8 {p : UInt8 → Prop} [DecidablePred p] : Decidable (∀ b, p b) :=
  decidable_of_iff (∀ i : Fin 256, p (UInt8.ofNat i.val))
    ⟨fun h b => by simpa using h ⟨b.toNat, b.toNat_lt⟩, fun h _ => h _⟩

namespace State

/-- The data byte of `State::new`. -/
def dataByte (status : Status) (target backup : Slot) : UInt8 :=
  (status.toU8 <<< 6) ||| (backup.toU8 <<< 3) ||| target.toU8

/-- The data byte decodes to its own fields. -/
theorem dataByte_fields : ∀ (status : Status) (target backup : Slot),
    tryTarget (dataByte status target backup) = some target ∧
    tryBackup (dataByte status target backup) = some backup ∧
    Status.tryFromPrimitive (dataByte status target backup >>> 6) = some status := by
  decide +kernel

/-- Any two bits are a status. -/
theorem isSome_tryFromPrimitive :
    ∀ b : UInt8, (Status.tryFromPrimitive (b >>> 6)).isSome := by
  decide +kernel

/-- `State::new`. -/
def new (status : Status) (target backup : Slot) : State where
  bytes := (dataByte status target backup, checksum [dataByte status target backup])
  hasTarget := by rw [(dataByte_fields status target backup).1]; rfl
  hasBackup := by rw [(dataByte_fields status target backup).2.1]; rfl
  crcOk := beq_self_eq_true _

/-- The checksums of the source's own test `state_validity_crc`. -/
example : [Status.Initial, .Attempting, .Confirmed, .Failed].map
    (fun status => (new status .S2 .S1).bytes.2) = [12, 234, 9, 239] := by decide +kernel

/-- `State::try_new`. -/
def tryNew (data : UInt8 × UInt8) : Except ParseResult State :=
  if data = (0xff, 0xff) then
    .error .Unset
  else if hslots : (tryTarget data.1).isNone ∨ (tryBackup data.1).isNone then
    .error .Invalid
  else if hcrc : ¬ checkCrc data.2 data.1 then
    .error .Invalid
  else
    .ok {
      bytes := data
      hasTarget := by
        rw [not_or] at hslots
        exact Option.isSome_iff_ne_none.mpr fun h => hslots.1 (by rw [h]; rfl)
      hasBackup := by
        rw [not_or] at hslots
        exact Option.isSome_iff_ne_none.mpr fun h => hslots.2 (by rw [h]; rfl)
      crcOk := Classical.not_not.mp hcrc }

/-- `State::as_bytes`. -/
def asBytes (s : State) : UInt8 × UInt8 := s.bytes

/-- `State::status`. -/
def status (s : State) : Status :=
  (Status.tryFromPrimitive (s.bytes.1 >>> 6)).get (isSome_tryFromPrimitive _)

/-- `State::target`. -/
def target (s : State) : Slot := (tryTarget s.bytes.1).get s.hasTarget

/-- `State::backup`. -/
def backup (s : State) : Slot := (tryBackup s.bytes.1).get s.hasBackup

/-- `State::with_status`. -/
def withStatus (s : State) (status : Status) : State := new status s.target s.backup

/-! ### Fields of a record

A record is its data byte, so its fields decide it. The lemmas read each field of a new record, and
of one whose status was replaced. -/

/-- Two records with the same bytes are equal. -/
theorem ext_bytes {s s' : State} (h : s.bytes = s'.bytes) : s = s' := by
  cases s; cases s'; cases h; rfl

/-- The status of a new record. With the next two lemmas, `simp` reads every field that `new`
writes. -/
@[simp] theorem status_new (st : Status) (t b : Slot) : (new st t b).status = st := by
  simp [status, new, (dataByte_fields st t b).2.2]

/-- The target of a new record. -/
@[simp] theorem target_new (st : Status) (t b : Slot) : (new st t b).target = t := by
  simp [target, new, (dataByte_fields st t b).1]

/-- The backup of a new record. -/
@[simp] theorem backup_new (st : Status) (t b : Slot) : (new st t b).backup = b := by
  simp [backup, new, (dataByte_fields st t b).2.1]

/-- A byte with two slots is the data byte of its fields. -/
theorem dataByte_of_fields : ∀ (d : UInt8), ∀ st ∈ Status.tryFromPrimitive (d >>> 6),
    ∀ t ∈ tryTarget d, ∀ b ∈ tryBackup d, dataByte st t b = d := by
  decide +kernel

/-- A record is determined by its three fields. -/
theorem new_fields (s : State) : new s.status s.target s.backup = s := by
  have hd : dataByte s.status s.target s.backup = s.bytes.1 :=
    dataByte_of_fields s.bytes.1 s.status (Option.some_get _).symm s.target
      (Option.some_get _).symm s.backup (Option.some_get _).symm
  refine ext_bytes (Prod.ext hd ?_)
  show checksum [dataByte s.status s.target s.backup] = s.bytes.2
  rw [hd]
  exact (eq_of_beq s.crcOk).symm

/-- `with_status` sets the status. -/
@[simp] theorem status_withStatus (s : State) (st : Status) : (s.withStatus st).status = st :=
  status_new st _ _

/-- `with_status` keeps the target. -/
@[simp] theorem target_withStatus (s : State) (st : Status) :
    (s.withStatus st).target = s.target := target_new st _ _

/-- `with_status` keeps the backup. -/
@[simp] theorem backup_withStatus (s : State) (st : Status) :
    (s.withStatus st).backup = s.backup := backup_new st _ _

/-! ### Reading a word

`read?` is what the journal takes a word for. It has one record for each word that is one, and an
erased word and a word with the data byte alone are none. -/

/-- A byte of all ones has no target slot, so no record starts with it. -/
theorem bytes_fst_ne (s : State) : s.bytes.1 ≠ 0xff := by
  intro h
  have ht := s.hasTarget
  rw [h] at ht
  exact absurd ht (by decide)

/-- A record read back from its own bytes. -/
theorem tryNew_asBytes (s : State) : tryNew s.asBytes = .ok s := by
  have hne : s.asBytes ≠ (0xff, 0xff) := fun h => s.bytes_fst_ne (congrArg Prod.fst h)
  have hslots : ¬ ((tryTarget s.asBytes.1).isNone ∨ (tryBackup s.asBytes.1).isNone) := by
    have h1 := s.hasTarget
    have h2 := s.hasBackup
    simp only [asBytes, Option.isSome_iff_ne_none, Option.isNone_iff_eq_none] at *
    exact fun h => h.elim h1 h2
  have hcrc : ¬ ¬ checkCrc s.asBytes.2 s.asBytes.1 = true := not_not.mpr s.crcOk
  rw [tryNew, if_neg hne, dif_neg hslots, dif_neg hcrc]
  rfl

/-- The bytes of a record that was read are the bytes that were read. -/
theorem bytes_of_tryNew {data : UInt8 × UInt8} {s : State} (h : tryNew data = .ok s) :
    s.bytes = data := by
  unfold tryNew at h
  split at h
  · cases h
  · split at h
    · cases h
    · split at h
      · cases h
      · cases h; rfl

/-- Two reads of the same word give the same record. -/
theorem tryNew_eq_ok_iff {data : UInt8 × UInt8} {s : State} :
    tryNew data = .ok s ↔ s.bytes = data := by
  refine ⟨bytes_of_tryNew, fun h => ?_⟩
  rw [← h]
  exact tryNew_asBytes s

/-- Only the blank word reads as unset. -/
theorem tryNew_eq_unset_iff {data : UInt8 × UInt8} :
    tryNew data = .error .Unset ↔ data = (0xff, 0xff) := by
  constructor
  · intro h
    unfold tryNew at h
    split at h
    · assumption
    · split at h
      · cases h
      · split at h <;> cases h
  · intro h
    rw [tryNew, if_pos h]

/-- The record of a word, if it holds one. -/
def read? (data : UInt8 × UInt8) : Option State := (tryNew data).toOption

/-- A word reads as a record exactly when it is the bytes of that record. So a word is never
two records. -/
theorem read?_eq_some_iff {data : UInt8 × UInt8} {s : State} :
    read? data = some s ↔ s.bytes = data := by
  rw [← tryNew_eq_ok_iff, read?]
  cases tryNew data <;> simp [Except.toOption]

/-- A record that was written is read back. -/
@[simp] theorem read?_asBytes (s : State) : read? s.asBytes = some s :=
  read?_eq_some_iff.mpr rfl

/-- A word that starts with an erased byte holds no record. -/
theorem read?_erased (crc : UInt8) : read? (0xff, crc) = none := by
  cases h : read? (0xff, crc) with
  | none => rfl
  | some s => exact absurd (congrArg Prod.fst (read?_eq_some_iff.mp h)) s.bytes_fst_ne

/-- A word of which only the data byte was programmed holds no record, unless
the CRC byte happens to be the erased byte. Then it already is the record. -/
theorem read?_dataOnly (s : State) :
    read? (s.bytes.1, 0xff) = none ∨ read? (s.bytes.1, 0xff) = read? s.asBytes := by
  cases h : read? (s.bytes.1, 0xff) with
  | none => exact .inl rfl
  | some s' =>
      refine .inr ?_
      have hb : s'.bytes = (s.bytes.1, 0xff) := read?_eq_some_iff.mp h
      have hdata : s'.bytes.1 = s.bytes.1 := by rw [hb]
      have hcrc : s'.bytes.2 = s.bytes.2 := by
        have h1 := eq_of_beq s'.crcOk
        have h2 := eq_of_beq s.crcOk
        rw [h1, h2, hdata]
      have hs : s' = s := ext_bytes (Prod.ext hdata hcrc)
      rw [hs, read?_asBytes]

end State

end EcSlimloader
