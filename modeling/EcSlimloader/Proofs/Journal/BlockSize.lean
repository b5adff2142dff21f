import EcSlimloader.Proofs.Journal.Scan
import EcSlimloader.State.Mock
import Mathlib.Data.Set.Basic
import Mathlib.Order.Bounds.Defs

/-!
# `EcSlimloader.Proofs.Journal.BlockSize`: the cache as a property of the content

`computeCache` is a loop over blocks with a cache that is reset at each record. Here its result
is stated without a loop. `validSlots` are the addresses that hold a state and `freeSlots` the
erased addresses behind all of them. `IsCacheOf` says that the cache holds the greatest valid
slot and the least free one.

No block size occurs in `IsCacheOf`, so the bootloader and the application see the same journal,
although they read it with buffers of different sizes (`computeCache_blockSize`).

A `usize` is a `Nat` here. The largest number in the loop of `computeCache` is the end of a
block, which is less than the capacity plus the block size.

The two sides of `IsCacheOf` are bounds over sets, so `isGreatest_of_last` and `mem_freeSlots_iff`
go from the scan to them. That the scan does not depend on the block size is `computeCache_triple`.
What is left here is to say what the scan of one block finds, on the bytes of the content.

The capacity may be odd. The last byte belongs to no word then, and no slot is there.
-/

set_option autoImplicit false

namespace EcSlimloader

namespace FlashJournal

/-! ### Slots of a content -/

/-- The two bytes at an address. -/
def bytesAt (content : List UInt8) (address : Nat) : UInt8 × UInt8 :=
  (content.getD address 0xff, content.getD (address + 1) 0xff)

/-- The addresses for a record: the even ones with two bytes inside the content. -/
def slots (content : List UInt8) : Set Nat := {a | a % 2 = 0 ∧ a + 2 ≤ content.length}

/-- The slots that hold a state. -/
def validSlots (content : List UInt8) : Set Nat :=
  {a | a ∈ slots content ∧ ∃ state, State.tryNew (bytesAt content a) = .ok state}

/-- The erased slots behind every valid one. -/
def freeSlots (content : List UInt8) : Set Nat :=
  {a | a ∈ slots content ∧ (∀ v ∈ validSlots content, v < a) ∧
    bytesAt content a = (0xff, 0xff)}

/-- The cache holds the greatest valid slot with its state, and the least free slot. -/
structure IsCacheOf (content : List UInt8) (cache : Cache) : Prop where
  last_some : ∀ state address, cache.lastValidState = some { state, address } →
    IsGreatest (validSlots content) address ∧
      State.tryNew (bytesAt content address) = .ok state
  last_none : cache.lastValidState = none → validSlots content = ∅
  empty_some : ∀ address, cache.firstEmptySlot = some address →
    IsLeast (freeSlots content) address
  empty_none : cache.firstEmptySlot = none → freeSlots content = ∅

section Slots

variable {content : List UInt8}

/-- The slots are the addresses of the full words. -/
theorem mem_slots_iff {a : Nat} : a ∈ slots content ↔ ∃ k, k < content.length / 2 ∧ a = 2 * k := by
  constructor
  · rintro ⟨heven, hlen⟩
    exact ⟨a / 2, by omega, by omega⟩
  · rintro ⟨k, hk, rfl⟩
    exact ⟨by omega, by omega⟩

/-- The slot of a word. -/
theorem two_mul_mem_slots {k : Nat} (hk : k < content.length / 2) : 2 * k ∈ slots content :=
  mem_slots_iff.mpr ⟨k, hk, rfl⟩

/-- A record is what `tryNew` accepts. -/
theorem read?_word_eq_some_iff {k : Nat} {s : State} :
    State.read? (word content k) = some s ↔ State.tryNew (bytesAt content (2 * k)) = .ok s := by
  rw [State.read?_eq_some_iff, State.tryNew_eq_ok_iff]
  rfl

/-- The valid slots are the addresses of the words with a record. -/
theorem mem_validSlots_iff {a : Nat} :
    a ∈ validSlots content ↔
      ∃ k s, k < content.length / 2 ∧ State.read? (word content k) = some s ∧ a = 2 * k := by
  constructor
  · rintro ⟨hslot, s, hs⟩
    obtain ⟨k, hk, rfl⟩ := mem_slots_iff.mp hslot
    exact ⟨k, s, hk, read?_word_eq_some_iff.mpr hs, rfl⟩
  · rintro ⟨k, s, hk, hs, rfl⟩
    exact ⟨two_mul_mem_slots hk, s, read?_word_eq_some_iff.mp hs⟩

/-- A word is behind the last record exactly when its slot is behind every valid slot. -/
theorem behind_last_iff {j : Nat} :
    RecordLog.Behind (RecordLog.last State.read? (word content) (content.length / 2)) j ↔
      ∀ v ∈ validSlots content, v < 2 * j := by
  constructor
  · intro hbehind v hv
    obtain ⟨k, s, hk, hs, rfl⟩ := mem_validSlots_iff.mp hv
    cases hl : RecordLog.last State.read? (word content) (content.length / 2) with
    | none =>
        rw [RecordLog.last_eq_none_iff.mp hl k hk] at hs
        cases hs
    | some p =>
        obtain ⟨b, i⟩ := p
        have hij := hbehind b i hl
        obtain ⟨-, -, hafter⟩ := RecordLog.last_eq_some_iff.mp hl
        -- No word behind the last record has one.
        by_contra hlt
        rw [hafter k (by omega) hk] at hs
        cases hs
  · intro hslots b i hl
    obtain ⟨hi, hb, -⟩ := RecordLog.last_eq_some_iff.mp hl
    have hlt := hslots (2 * i) (mem_validSlots_iff.mpr ⟨i, b, hi, hb, rfl⟩)
    omega

/-- The free slots are the addresses of the erased words behind the last record. -/
theorem mem_freeSlots_iff {a : Nat} :
    a ∈ freeSlots content ↔ ∃ k, k < content.length / 2 ∧
      RecordLog.Behind (RecordLog.last State.read? (word content) (content.length / 2)) k ∧
      isBlank (word content k) = true ∧ a = 2 * k := by
  constructor
  · rintro ⟨hslot, hbehind, hblank⟩
    obtain ⟨k, hk, rfl⟩ := mem_slots_iff.mp hslot
    exact ⟨k, hk, behind_last_iff.mpr hbehind, isBlank_iff.mpr hblank, rfl⟩
  · rintro ⟨k, hk, hbehind, hblank, rfl⟩
    exact ⟨two_mul_mem_slots hk, behind_last_iff.mp hbehind, isBlank_iff.mp hblank⟩

/-- The last record is in the greatest valid slot. -/
theorem isGreatest_of_last {s : State} {i : Nat}
    (hl : RecordLog.last State.read? (word content) (content.length / 2) = some (s, i)) :
    IsGreatest (validSlots content) (2 * i) := by
  obtain ⟨hi, hs, hafter⟩ := RecordLog.last_eq_some_iff.mp hl
  refine ⟨mem_validSlots_iff.mpr ⟨i, s, hi, hs, rfl⟩, ?_⟩
  intro v hv
  obtain ⟨k, s', hk, hs', rfl⟩ := mem_validSlots_iff.mp hv
  by_contra hlt
  rw [hafter k (by omega) hk] at hs'
  cases hs'

/-- Without a last record there is no valid slot. -/
theorem validSlots_eq_empty_of_last
    (hl : RecordLog.last State.read? (word content) (content.length / 2) = none) :
    validSlots content = ∅ := by
  refine Set.eq_empty_of_forall_notMem ?_
  intro v hv
  obtain ⟨k, s, hk, hs, rfl⟩ := mem_validSlots_iff.mp hv
  rw [RecordLog.last_eq_none_iff.mp hl k hk] at hs
  cases hs

end Slots

/-! ### The scan -/

/-- The plain scan finds the greatest valid slot and the least free one. -/
theorem isCacheOf_scanCache (content : List UInt8) : IsCacheOf content (scanCache content) := by
  -- What the plain scan finds, as the library states it, is translated field by field.
  have hscan : RecordLog.IsScan State.read? isBlank (word content) (content.length / 2) _ :=
    RecordLog.isScan_scan (word content) (content.length / 2)
  rw [scanCache_eq]
  generalize RecordLog.scan State.read? isBlank (word content) (content.length / 2) = scan at hscan
  obtain ⟨hlast, hsome, hnone⟩ := hscan
  rw [hlast] at hsome hnone
  constructor
  case last_some =>
    intro s a h
    simp only [cacheOfScan, hlast, Option.map_eq_some_iff, StateWithAddr.mk.injEq] at h
    obtain ⟨⟨s', i⟩, hl, rfl, rfl⟩ := h
    obtain ⟨-, hs, -⟩ := RecordLog.last_eq_some_iff.mp hl
    exact ⟨isGreatest_of_last hl, read?_word_eq_some_iff.mp hs⟩
  case last_none =>
    intro h
    simp only [cacheOfScan, hlast, Option.map_eq_none_iff] at h
    exact validSlots_eq_empty_of_last h
  case empty_some =>
    intro a h
    simp only [cacheOfScan, Option.map_eq_some_iff] at h
    obtain ⟨k, he, rfl⟩ := h
    obtain ⟨hk, hblank, hbehind, hfirst⟩ := hsome k he
    refine ⟨mem_freeSlots_iff.mpr ⟨k, hk, hbehind, hblank, rfl⟩, ?_⟩
    intro b hb
    obtain ⟨j, hj, hbehind', hblank', rfl⟩ := mem_freeSlots_iff.mp hb
    -- An earlier free slot would have been the first empty cell of the scan.
    by_contra hlt
    exact hfirst j (by omega) hbehind' hblank'
  case empty_none =>
    intro h
    simp only [cacheOfScan, Option.map_eq_none_iff] at h
    refine Set.eq_empty_of_forall_notMem ?_
    intro b hb
    obtain ⟨j, hj, hbehind, hblank, rfl⟩ := mem_freeSlots_iff.mp hb
    exact hnone h j hj hbehind hblank

section Storage

variable {T E : Type} [NorFlash T E]

/-- On a storage whose reads succeed, `computeCache` finds the greatest valid slot and the least
free slot of the content. The cache is the same for every block size, and so is the journal that
is opened with it. -/
theorem computeCache_blockSize (content : List UInt8) (I : T → Prop)
    (hreads : ReadsContent content I fun (_ : Fault E) _ => False) (t : T) (ht : I t) :
    ∃ cache, IsCacheOf content cache ∧
      ∀ n, 2 ≤ n → n % 2 = 0 → ∃ t', I t' ∧
        (computeCache n : Exec E T Cache) t = .ok cache t' ∧
        (2 ≤ pageCount t →
          (new n : Exec (Error E) T (FlashJournal T)) t = .ok { inner := t', cache } t') := by
  refine ⟨scanCache content, isCacheOf_scanCache content, ?_⟩
  intro n hpos heven
  obtain ⟨cache, t', hr, rfl, ht'⟩ :=
    (computeCache_triple hreads ⟨hpos, heven⟩).returns (fun _ _ hfalse => hfalse) ht
  refine ⟨t', ht', hr, ?_⟩
  intro hpages
  rw [new_of_pages hpages, hr]

end Storage

end FlashJournal

/-! ### A flash of odd capacity -/

namespace MockFlashBase

variable {pages pageWords : Nat}

/-- A mock flash with words of one byte can have any capacity, also an odd one. Its reads
succeed. -/
theorem readsContent (f : MockFlashBase pages 1 pageWords)
    (hcap : capacityBytes pages 1 pageWords < 2 ^ 32) :
    FlashJournal.ReadsContent f.data.toList (· = f)
      (fun (_ : Fault MockFlashError) _ => False) where
  capacity_eq t _ := by
    rw [Vector.length_toList]
    rfl
  read address length _ hlen _ := by
    rw [Vector.length_toList] at hlen
    unfold capacityBytes at hcap
    -- The address is a `u32` in the storage trait, and the capacity is small enough for that.
    have hlt : address < 2 ^ 32 := by omega
    have hoff : (UInt32.ofNat address).toNat = address := UInt32.toNat_ofNat_of_lt' hlt
    have hvalid : validateOperation pages 1 pageWords (UInt32.ofNat address) length
        = .ok address := by
      rw [validateOperation, hoff, if_neg (by omega), if_neg (by rw [capacityBytes]; omega)]
    have hmul : length % 1 = 0 := Nat.mod_one length
    have hread : NorFlash.read (UInt32.ofNat address) length f
        = .ok ((f.data.toList.drop address).take length) f := by
      show read (UInt32.ofNat address) length f = _
      unfold read
      rw [hvalid, Exec.require_of hmul]
      rfl
    intro t ht
    subst ht
    rw [hread]
    exact ⟨rfl, rfl⟩

/-- A flash of three pages with three bytes each: a state, a broken word, two erased words and
an odd byte. -/
def oddFlash : MockFlashBase 3 1 3 where
  writable := Vector.replicate _ .O
  data := #v[0xc1, 0x2a, 0x12, 0x34, 0xff, 0xff, 0xff, 0xff, 0x05]
  bytesUntilShutoff := none

/-- The journal on it is the same for every block size. -/
theorem computeCache_blockSize_odd :
    NorFlash.capacity oddFlash = 9 ∧
    ∃ cache, FlashJournal.IsCacheOf oddFlash.data.toList cache ∧
      ∀ n, 2 ≤ n → n % 2 = 0 → ∃ f', f' = oddFlash ∧
        (FlashJournal.computeCache n : Exec MockFlashError _ _) oddFlash = .ok cache f' ∧
        (2 ≤ FlashJournal.pageCount oddFlash →
          FlashJournal.new n oddFlash = .ok { inner := f', cache } f') :=
  ⟨rfl, FlashJournal.computeCache_blockSize oddFlash.data.toList (· = oddFlash)
    (readsContent oddFlash (by decide)) oddFlash rfl⟩

example : FlashJournal.scanCache oddFlash.data.toList
    = { lastValidState := some ⟨State.new .Initial .S1 .S0, 0⟩, firstEmptySlot := some 4 } := by
  decide +kernel

end MockFlashBase

end EcSlimloader
