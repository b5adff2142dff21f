import EcSlimloader.Proofs.Journal.Mock
import Mathlib.InformationTheory.Hamming

/-!
# `EcSlimloader.Proofs.Journal.BitErrors`: bit errors in the stored records

A record is a data byte and its checksum. The checksum is linear, so the distance of two records is
the weight of a third word of this kind, and `four_le_of_data` looks at all of these. Two records
differ in at least four bits. So does a record and an erased word, which is not a record itself.

`bitErrors_reads` says what this is good for. Take a flash on which up to three bits of each erased
word and each record have changed, in as many words as you like. No such error makes a record, or
turns one into another. A journal reads the last of the records that were not hit.

The distance is a fact about 256 words. It is decided by the kernel, after `crcBit_xor` has reduced
pairs of words to single ones. Without the linearity there would be 65536 pairs, and the erased word
on top.

That no error makes a record needs the distance to the erased word too: three bits are not enough to
get from `0xffff` to a record.
-/

set_option autoImplicit false

namespace EcSlimloader

/-! ### The code

Words are compared bit by bit. `wordBit_xor` and `crcBit_xor` are the two facts that make the code
linear: the checksum of a sum is the sum of the checksums. -/

/-- A bit of a word: the data byte comes first. -/
def wordBit (w : UInt8 × UInt8) (i : Fin 16) : Bool :=
  if i.val < 8 then w.1.toNat.testBit i.val else w.2.toNat.testBit (i.val - 8)

/-- The number of bits in which two words differ. -/
def bitErrors (w w' : UInt8 × UInt8) : Nat := hammingDist (wordBit w) (wordBit w')

/-- The bits of a difference. -/
theorem wordBit_xor (w w' : UInt8 × UInt8) (i : Fin 16) :
    wordBit (w.1 ^^^ w'.1, w.2 ^^^ w'.2) i = (wordBit w i ^^ wordBit w' i) := by
  unfold wordBit
  by_cases h : i.val < 8
  · simp only [if_pos h, UInt8.toNat_xor, Nat.testBit_xor]
  · simp only [if_neg h, UInt8.toNat_xor, Nat.testBit_xor]

/-- A word of zeros has no bit. -/
theorem wordBit_zero (i : Fin 16) : wordBit (0, 0) i = false := by
  simp [wordBit]

/-- The distance of two words is the weight of their difference. -/
theorem bitErrors_eq_xor (w w' : UInt8 × UInt8) :
    bitErrors w w' = bitErrors (0, 0) (w.1 ^^^ w'.1, w.2 ^^^ w'.2) := by
  unfold bitErrors hammingDist
  congr 1
  apply Finset.filter_congr
  intro i _
  rw [wordBit_xor, wordBit_zero]
  cases wordBit w i with
  | false => cases wordBit w' i <;> simp
  | true => cases wordBit w' i <;> simp

/-- Masking is linear. -/
theorem xor_and_mask (a b mask : UInt8) : (a ^^^ b) &&& mask = (a &&& mask) ^^^ (b &&& mask) := by
  apply UInt8.toNat_inj.mp
  simp only [UInt8.toNat_and, UInt8.toNat_xor]
  exact Nat.and_xor_distrib_right

/-- A term on both sides of a difference cancels. -/
theorem xor_cancel (a b p : UInt8) : (a ^^^ p) ^^^ (b ^^^ p) = a ^^^ b := by
  rw [UInt8.xor_assoc, UInt8.xor_comm p, UInt8.xor_assoc b, UInt8.xor_self, UInt8.xor_zero]

/-- A step of the checksum is linear. -/
theorem crcBit_xor (a b : UInt8) : crcBit (a ^^^ b) = crcBit a ^^^ crcBit b := by
  have htop : ∀ c : UInt8, c &&& 0x80 = 0 ∨ c &&& 0x80 = 0x80 := by decide +kernel
  unfold crcBit
  rw [xor_and_mask, UInt8.shiftLeft_xor]
  obtain ha | ha := htop a
  · obtain hb | hb := htop b
    · simp [ha, hb]
    · simp [ha, hb, UInt8.xor_assoc]
  · obtain hb | hb := htop b
    · simp [ha, hb, UInt8.xor_assoc, UInt8.xor_comm (b <<< 1)]
    · simp [ha, hb, xor_cancel]

/-- So are any number of steps. -/
theorem iterate_crcBit_xor (n : Nat) (a b : UInt8) :
    crcBit^[n] (a ^^^ b) = crcBit^[n] a ^^^ crcBit^[n] b := by
  induction n generalizing a b with
  | zero => rfl
  | succ n ih => simp only [Function.iterate_succ_apply, crcBit_xor, ih]

/-- The checksum of a byte is linear. -/
theorem checksum_xor (a b : UInt8) : checksum [a ^^^ b] = checksum [a] ^^^ checksum [b] := by
  have hone : ∀ c : UInt8, checksum [c] = crcBit^[8] c := by
    intro c
    show crcBit^[8] (0 ^^^ c) = crcBit^[8] c
    rw [UInt8.zero_xor]
  rw [hone, hone, hone, iterate_crcBit_xor]

/-- Every data byte but 0 makes a word with four bits. -/
theorem four_le_of_data : ∀ d : UInt8, d ≠ 0 → 4 ≤ bitErrors (0, 0) (d, checksum [d]) := by
  decide +kernel

/-- Every record differs from an erased word in four bits. -/
theorem four_le_of_blank : ∀ d : UInt8, (State.tryTarget d).isSome → (State.tryBackup d).isSome →
    4 ≤ bitErrors blank (d, checksum [d]) := by
  decide +kernel

namespace State

/-- The second byte of a record is the checksum of the first one. -/
theorem bytes_eq (s : State) : s.bytes = (s.bytes.1, checksum [s.bytes.1]) :=
  Prod.ext rfl (eq_of_beq s.crcOk)

/-- Two different records differ in at least four bits. -/
theorem four_le_bitErrors {s s' : State} (h : s ≠ s') : 4 ≤ bitErrors s.bytes s'.bytes := by
  have hdata : s.bytes.1 ^^^ s'.bytes.1 ≠ 0 := by
    -- Records with the same data byte have the same checksum.
    intro hzero
    apply h
    apply ext_bytes
    rw [bytes_eq s, bytes_eq s', UInt8.xor_eq_zero_iff.mp hzero]
  rw [bitErrors_eq_xor, bytes_eq s, bytes_eq s', ← checksum_xor]
  exact four_le_of_data _ hdata

/-- Up to three bit errors in an erased word or in a record leave no record behind. -/
theorem read?_of_bitErrors {w w' : UInt8 × UInt8} (hw : w = blank ∨ (read? w).isSome)
    (hfew : bitErrors w w' ≤ 3) (hne : w' ≠ w) : read? w' = none := by
  by_contra hsome
  obtain ⟨s', hs'⟩ := Option.ne_none_iff_exists'.mp hsome
  have hw' : s'.bytes = w' := read?_eq_some_iff.mp hs'
  obtain rfl | hw := hw
  · have hfour := four_le_of_blank s'.bytes.1 s'.hasTarget s'.hasBackup
    rw [← bytes_eq s', hw'] at hfour
    omega
  · obtain ⟨s, hs⟩ := Option.isSome_iff_exists.mp hw
    have hbytes : s.bytes = w := read?_eq_some_iff.mp hs
    have hstate : s ≠ s' := by
      intro heq
      exact hne (by rw [← hw', ← hbytes, heq])
    have hfour := four_le_bitErrors hstate
    rw [hbytes, hw'] at hfour
    omega

end State

/-! ### The journal

`FewBitErrors` allows any number of hit words, with up to three bits in each. `IntactAt` names the
words that were not hit, and only these can be read as a record. -/

namespace MockFlashBase

variable {pages pageWords : Nat} {f f' : MockFlashBase pages 2 pageWords}

/-- What is stored at a word. -/
abbrev wordAt (f : MockFlashBase pages 2 pageWords) (k : Nat) : UInt8 × UInt8 :=
  word f.data.toList k

/-- `f'` is `f` with up to three bit errors in each erased word and each record. Other words,
such as torn ones, are the same. -/
def FewBitErrors (f f' : MockFlashBase pages 2 pageWords) : Prop :=
  ∀ k, k < pages * pageWords → f'.wordAt k = f.wordAt k ∨
    ((f.wordAt k = blank ∨ (State.read? (f.wordAt k)).isSome) ∧
      bitErrors (f.wordAt k) (f'.wordAt k) ≤ 3)

/-- A record that no bit error has hit. -/
def IntactAt (f f' : MockFlashBase pages 2 pageWords) (k : Nat) (s : State) : Prop :=
  k < pages * pageWords ∧ State.read? (f.wordAt k) = some s ∧ f'.wordAt k = f.wordAt k

/-- The records behind the errors are the intact ones. -/
theorem FewBitErrors.read?_iff (h : FewBitErrors f f') {k : Nat} (hk : k < pages * pageWords)
    {s : State} : State.read? (f'.wordAt k) = some s ↔ IntactAt f f' k s := by
  constructor
  · intro hread
    have hsame : f'.wordAt k = f.wordAt k := by
      obtain hsame | ⟨hw, hfew⟩ := h k hk
      · exact hsame
      · by_contra hne
        rw [State.read?_of_bitErrors hw hfew hne] at hread
        cases hread
    rw [hsame] at hread
    exact ⟨hk, hread, hsame⟩
  · rintro ⟨-, hread, hsame⟩
    rw [hsame]
    exact hread

/-- Up to three bit errors in each erased word and each record, in any number of words, never make
a record and never turn one into another. A journal that is opened then reads the last of the
records that no error has hit, with any buffer size, and nothing if all were hit. -/
theorem bitErrors_reads [Geometry pages pageWords] (h : FewBitErrors f f') :
    (∀ s, f'.Reads (some s) ↔ ∃ k, IntactAt f f' k s ∧ ∀ j s', k < j → ¬IntactAt f f' j s') ∧
    (f'.Reads none ↔ ∀ k s, ¬IntactAt f f' k s) := by
  -- An opened journal has the last record of the words. `read?_iff` says which words are records,
  -- so both directions go cell by cell.
  have hreads (o : Option State) : f'.Reads o ↔
      RecordLog.current State.read? f'.wordAt (pages * pageWords) = o := reads_iff
  constructor
  · intro s
    rw [hreads, RecordLog.current, Option.map_eq_some_iff]
    constructor
    · rintro ⟨⟨s, k⟩, hlast, rfl⟩
      obtain ⟨hk, hread, hbehind⟩ := RecordLog.last_eq_some_iff.mp hlast
      refine ⟨k, (h.read?_iff hk).mp hread, ?_⟩
      intro j s' hkj hintact
      have hread' := (h.read?_iff hintact.1).mpr hintact
      rw [hbehind j hkj hintact.1] at hread'
      cases hread'
    · rintro ⟨k, hintact, hbehind⟩
      refine ⟨(s, k), RecordLog.last_eq_some_iff.mpr ⟨hintact.1,
        (h.read?_iff hintact.1).mpr hintact, ?_⟩, rfl⟩
      intro j hkj hj
      by_contra hne
      obtain ⟨s', hs'⟩ := Option.ne_none_iff_exists'.mp hne
      exact hbehind j s' hkj ((h.read?_iff hj).mp hs')
  · rw [hreads, RecordLog.current, Option.map_eq_none_iff, RecordLog.last_eq_none_iff]
    constructor
    · intro hnone k s hintact
      have hread := (h.read?_iff hintact.1).mpr hintact
      rw [hnone k hintact.1] at hread
      cases hread
    · intro hnone k hk
      by_contra hne
      obtain ⟨s, hs⟩ := Option.ne_none_iff_exists'.mp hne
      exact hnone k s ((h.read?_iff hk).mp hs)

/-- Two records and two erased words, with the given bit errors. -/
def errorMock (errors : List UInt8) : MockFlashBase 2 2 2 where
  writable := Vector.replicate _ .O
  data := Vector.ofFn fun i =>
    (FlashJournal.recordBytes (State.new .Confirmed .S0 .S0) ++
      FlashJournal.recordBytes (State.new .Initial .S1 .S0)).getD i 0xff ^^^ errors.getD i 0
  bytesUntilShutoff := none

/-- Three bit errors in the second record and one in an erased word: the first record is read. -/
theorem bitErrors_reads_sample :
    (errorMock [0, 0, 0x81, 0x01, 0x10]).Reads (some (State.new .Confirmed .S0 .S0)) := by
  have hfew : FewBitErrors (errorMock []) (errorMock [0, 0, 0x81, 0x01, 0x10]) := by
    unfold FewBitErrors
    decide +kernel
  have hbehind : ∀ j, j < 2 * 2 → 0 < j →
      ¬((State.read? ((errorMock []).wordAt j)).isSome ∧
        (errorMock [0, 0, 0x81, 0x01, 0x10]).wordAt j = (errorMock []).wordAt j) := by
    decide +kernel
  refine ((bitErrors_reads hfew).1 _).mpr ⟨0, ⟨by decide, ?_, by decide +kernel⟩, ?_⟩
  · rw [State.read?_eq_some_iff]
    decide +kernel
  · intro j s' hj hintact
    exact hbehind j hintact.1 hj ⟨Option.isSome_of_mem hintact.2.1, hintact.2.2⟩

end MockFlashBase

end EcSlimloader
