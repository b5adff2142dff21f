import EcSlimloader.Proofs.Journal.Set
import EcSlimloader.State.Mock

/-!
# `EcSlimloader.Proofs.Journal.Mock`: the mock flash satisfies the storage laws

`MockFlashBase` with two-byte words is a `PagedFlash`. A failed write has
programmed none or the first of its two bytes. A failed erase has erased a
prefix of its bytes, so on words it is an `AscendingErase`: the word at the cut
has lost its data byte first and holds no record.

A mock state is good when no power cut is scheduled and every word that reads
`0xffff` is still writable. `Consistent` is the second half. It holds on a new
flash and on every content whose words are all writable.

The byte loops of the source are followed with an invariant each. `EraseLoop` has the addresses that
are still to come, and `eraseLoop_step` says what one of them does: it erases its byte, or the power
is cut in front of it. A write has two bytes, so its run is written out (`write_run`).

`word_programData` and `word_programRecord` are the bridge to the words: what one and two bytes of a
record make of an erased word. With them the laws do not mention bytes any more.
-/

set_option autoImplicit false

namespace EcSlimloader

/-- The geometry of a journal storage: at least two pages of at least one word,
and byte addresses that fit the `u32` of the storage trait. -/
class Geometry (pages pageWords : Nat) : Prop where
  two_le_pages : 2 ≤ pages
  pageWords_pos : 0 < pageWords
  addressable : pages * pageWords * 2 < 2 ^ 32

/-- The byte address of a page does not wrap. -/
theorem Geometry.toNat_page {pages pageWords : Nat} [hg : Geometry pages pageWords] {n : Nat}
    (hn : n ≤ pages) :
    (UInt32.ofNat (n * (2 * pageWords))).toNat = 2 * (n * pageWords) := by
  have hlt : n * (2 * pageWords) < 2 ^ 32 := by
    have haddr := hg.addressable
    have h := Nat.mul_le_mul_right (pageWords * 2) hn
    rw [← Nat.mul_assoc pages] at h
    rw [Nat.mul_comm 2 pageWords]
    omega
  rw [UInt32.toNat_ofNat_of_lt' hlt, Nat.mul_left_comm]

/-- Two pages of two words. -/
instance geometryTwoTwo : Geometry 2 2 where
  two_le_pages := by decide
  pageWords_pos := by decide
  addressable := by decide

namespace MockFlashBase

variable {pages pageWords : Nat}

/-- The size of a page, for words of two bytes. -/
theorem pageBytes_two (pageWords : Nat) : pageBytes 2 pageWords = 2 * pageWords :=
  Nat.mul_comm pageWords 2

/-- The capacity, for words of two bytes. -/
theorem capacityBytes_two (pages pageWords : Nat) :
    capacityBytes pages 2 pageWords = 2 * (pages * pageWords) :=
  Nat.mul_comm (pages * pageWords) 2

/-- The byte at an address, erased behind the content. -/
def byteAt (f : MockFlashBase pages 2 pageWords) (i : Nat) : UInt8 :=
  f.data.toList.getD i 0xff

/-- The write-once flag of a word. -/
def flagAt (f : MockFlashBase pages 2 pageWords) (k : Nat) : Writable :=
  f.writable[k]?.getD .O

/-- Every word that reads `0xffff` is still writable. -/
def Consistent (f : MockFlashBase pages 2 pageWords) : Prop :=
  ∀ k, k < pages * pageWords → word f.data.toList k = blank → f.flagAt k = .O

/-- A word of the content is a pair of bytes. -/
theorem word_toList (f : MockFlashBase pages 2 pageWords) (k : Nat) :
    word f.data.toList k = (f.byteAt (2 * k), f.byteAt (2 * k + 1)) := rfl

/-! ### One byte

The flag of a word is looked at when its first byte is written, and freed when its first byte is
erased. These lemmas say what one access does to the byte and to the flag, and to no other. -/

/-- A byte of a flash in which one byte was changed. -/
theorem byteAt_modifyByte {f : MockFlashBase pages 2 pageWords} {index : Nat}
    {g : UInt8 → UInt8} (h : index < pages * pageWords * 2) (i : Nat) :
    (f.modifyByte index g).byteAt i
      = if i = index then g (f.byteAt index) else f.byteAt i := by
  unfold byteAt modifyByte
  rw [Vector.toList_setIfInBounds, List.getD_eq_getElem?_getD, List.getD_eq_getElem?_getD,
    List.getD_eq_getElem?_getD, List.getElem?_set, Vector.length_toList,
    Vector.getElem?_toList]
  by_cases hi : i = index
  · subst hi
    simp [h]
  · simp [Ne.symm hi, hi]

/-- The write-once flags are apart from the bytes. -/
@[simp] theorem byteAt_setWritable (f : MockFlashBase pages 2 pageWords) (k : Nat)
    (flag : Writable) (i : Nat) : (f.setWritable k flag).byteAt i = f.byteAt i := rfl

/-- The bytes are apart from the write-once flags. -/
@[simp] theorem flagAt_modifyByte (f : MockFlashBase pages 2 pageWords) (index : Nat)
    (g : UInt8 → UInt8) (k : Nat) : (f.modifyByte index g).flagAt k = f.flagAt k := rfl

/-- A flag of a flash in which one flag was set. -/
theorem flagAt_setWritable {f : MockFlashBase pages 2 pageWords} {j : Nat} {flag : Writable}
    (h : j < pages * pageWords) (k : Nat) :
    (f.setWritable j flag).flagAt k = if k = j then flag else f.flagAt k := by
  unfold flagAt setWritable
  simp only
  rw [Vector.getElem?_setIfInBounds]
  by_cases hk : k = j
  · subst hk
    simp [h]
  · simp [Ne.symm hk, hk]

/-- The power check: count down, or lose power. -/
theorem checkShutoff_run (address : Nat) (operation : Operation)
    (f : MockFlashBase pages 2 pageWords) :
    checkShutoff address operation f = match f.bytesUntilShutoff with
      | some (next + 1) => .ok () { f with bytesUntilShutoff := some next }
      | some 0 => .error (.error (.EarlyShutoff (UInt32.ofNat address) operation))
          { f with bytesUntilShutoff := none }
      | none => .ok () f := by
  show (match f.bytesUntilShutoff with | some (_ + 1) => _ | some 0 => _ | none => _ :
    Exec MockFlashError (MockFlashBase pages 2 pageWords) Unit) f = _
  rcases hs : f.bytesUntilShutoff with _ | _ | next <;> rfl

/-! ### The erase loop -/

/-- The flash `f` is `f₀` with the bytes `a ≤ i < b` erased. A word is writable
again when its first byte has been erased. -/
structure ErasedTo (f₀ : MockFlashBase pages 2 pageWords) (a b : Nat)
    (f : MockFlashBase pages 2 pageWords) : Prop where
  bytes : ∀ i, f.byteAt i = if a ≤ i ∧ i < b then 0xff else f₀.byteAt i
  flags : ∀ k, f.flagAt k = if a ≤ 2 * k ∧ 2 * k < b then .O else f₀.flagAt k

/-- What an erase has done to the words: below the word at `b` they are erased,
above it they are kept. -/
theorem ErasedTo.ascending {f₀ f : MockFlashBase pages 2 pageWords} {lo hi b : Nat}
    (h : ErasedTo f₀ (2 * lo) b f) (hb : b ≤ 2 * hi) :
    RecordLog.AscendingErase State.read? lo hi (word f₀.data.toList) (word f.data.toList) := by
  refine ⟨(b + 1) / 2, fun i hlo hhi hm => ?_, fun i hi' => ?_⟩
  · -- The data byte of a word below the cut has been erased.
    have hdata : f.byteAt (2 * i) = 0xff := by rw [h.bytes, if_pos (by omega)]
    rw [word_toList, hdata]
    exact State.read?_erased _
  · rw [word_toList, word_toList, h.bytes, h.bytes, if_neg (by omega), if_neg (by omega)]

/-- A complete erase on words. -/
theorem ErasedTo.words {f₀ f : MockFlashBase pages 2 pageWords} {lo hi : Nat}
    (h : ErasedTo f₀ (2 * lo) (2 * hi) f) :
    word f.data.toList = RecordLog.erase blank lo hi (word f₀.data.toList) := by
  funext k
  rw [word_toList, h.bytes, h.bytes]
  by_cases hk : lo ≤ k ∧ k < hi
  · rw [RecordLog.erase_of_mem hk.1 hk.2, if_pos (by omega), if_pos (by omega)]
    rfl
  · rw [RecordLog.erase_of_not_mem hk, if_neg (by omega), if_neg (by omega)]
    rfl

/-- An erase that starts at a word keeps `Consistent`, also when it stops half
way: the first erased byte of a word makes the word writable. -/
theorem ErasedTo.consistent {f₀ f : MockFlashBase pages 2 pageWords} {lo b : Nat}
    (h : ErasedTo f₀ (2 * lo) b f) (hc : Consistent f₀) : Consistent f := by
  intro k hk hblank
  rw [h.flags]
  by_cases hin : 2 * lo ≤ 2 * k ∧ 2 * k < b
  · rw [if_pos hin]
  · -- The word was not touched, so it has been erased and writable before.
    rw [if_neg hin]
    refine hc k hk ?_
    rw [← hblank, word_toList, word_toList, h.bytes, h.bytes, if_neg (by omega),
      if_neg (by omega)]

/-- The flash with one more byte erased: the body of the erase loop behind its
power check. -/
def eraseAt (index : Nat) (f : MockFlashBase pages 2 pageWords) :
    MockFlashBase pages 2 pageWords :=
  if index % 2 = 0 then (f.modifyByte index fun _ => 0xff).setWritable (index / 2) .O
  else f.modifyByte index fun _ => 0xff

/-- Erasing the next byte extends the erased range. The countdown does not
matter. -/
theorem ErasedTo.succ {f₀ f f' : MockFlashBase pages 2 pageWords} {a index : Nat}
    (h : ErasedTo f₀ a index f) (ha : a ≤ index) (hi : index < pages * pageWords * 2)
    (hd : f'.data = f.data) (hw : f'.writable = f.writable) :
    ErasedTo f₀ a (index + 1) (eraseAt index f') := by
  have hb' : ∀ i, f'.byteAt i = f.byteAt i := fun i => by rw [byteAt, byteAt, hd]
  have hf' : ∀ k, f'.flagAt k = f.flagAt k := fun k => by rw [flagAt, flagAt, hw]
  constructor
  · intro i
    -- The flags do not show in the bytes, so both parities are the same here.
    have hbyte : (f'.modifyByte index fun _ => 0xff).byteAt i
        = if a ≤ i ∧ i < index + 1 then 0xff else f₀.byteAt i := by
      rw [byteAt_modifyByte hi, hb', h.bytes]
      by_cases hii : i = index
      · rw [if_pos hii, if_pos (by omega)]
      · rw [if_neg hii]
        by_cases hin : a ≤ i ∧ i < index
        · rw [if_pos hin, if_pos (by omega)]
        · rw [if_neg hin, if_neg (by omega)]
    unfold eraseAt
    split
    · exact hbyte
    · exact hbyte
  · intro k
    unfold eraseAt
    split <;> rename_i hpar
    · rw [flagAt_setWritable (by omega), flagAt_modifyByte, hf', h.flags]
      by_cases hk : k = index / 2
      · rw [if_pos hk, if_pos (by omega)]
      · rw [if_neg hk]
        by_cases hin : a ≤ 2 * k ∧ 2 * k < index
        · rw [if_pos hin, if_pos (by omega)]
        · rw [if_neg hin, if_neg (by omega)]
    · rw [flagAt_modifyByte, hf', h.flags]
      by_cases hin : a ≤ 2 * k ∧ 2 * k < index
      · rw [if_pos hin, if_pos (by omega)]
      · rw [if_neg hin, if_neg (by omega)]

/-- The run of one iteration of the erase loop. -/
theorem eraseByte_run (index : Nat) (f : MockFlashBase pages 2 pageWords) :
    eraseByte index f = match f.bytesUntilShutoff with
      | some (next + 1) => .ok () (eraseAt index { f with bytesUntilShutoff := some next })
      | some 0 => .error (.error (.EarlyShutoff (UInt32.ofNat index) .Erase))
          { f with bytesUntilShutoff := none }
      | none => .ok () (eraseAt index f) := by
  have hc := checkShutoff_run index .Erase f
  unfold eraseByte eraseAt
  rcases hs : f.bytesUntilShutoff with _ | _ | next
  · rw [hs] at hc
    rw [Exec.bind_ok hc]
    by_cases hpar : index % 2 = 0 <;> simp only [hpar, if_true, if_false] <;> rfl
  · rw [hs] at hc
    rw [Exec.bind_error hc]
  · rw [hs] at hc
    rw [Exec.bind_ok hc]
    by_cases hpar : index % 2 = 0 <;> simp only [hpar, if_true, if_false] <;> rfl

/-- The invariant of the erase loop from `a` to `b`, with the addresses `l` still
to come. -/
structure EraseLoop (f₀ : MockFlashBase pages 2 pageWords) (a b : Nat) (l : List Nat)
    (f : MockFlashBase pages 2 pageWords) : Prop where
  todo : ∃ m, a ≤ m ∧ m ≤ b ∧ l = List.range' m (b - m) ∧ ErasedTo f₀ a m f
  shutoff : f₀.bytesUntilShutoff = none → f.bytesUntilShutoff = none

/-- One byte of the erase loop: the byte is erased, or the power is cut before
it. -/
theorem eraseLoop_step (f₀ : MockFlashBase pages 2 pageWords) {a b : Nat}
    (hb : b ≤ pages * pageWords * 2) (index : Nat) (l : List Nat) :
    Triple (EraseLoop f₀ a b (index :: l)) (eraseByte index)
      (fun _ => EraseLoop f₀ a b l)
      (fun e f => (∃ m, m ≤ b ∧ ErasedTo f₀ a m f) ∧ f₀.bytesUntilShutoff ≠ none ∧
        ∃ address, e = .error (.EarlyShutoff address .Erase)) := by
  rintro f ⟨⟨m, ham, hmb, hl, herased⟩, hshut⟩
  -- The next address is the first one that is still to come.
  obtain ⟨rfl, hlt, hl'⟩ : index = m ∧ m < b ∧ l = List.range' (m + 1) (b - (m + 1)) := by
    rcases Nat.lt_or_ge m b with h | h
    · rw [show b - m = b - (m + 1) + 1 by omega, List.range'_succ] at hl
      exact ⟨(List.cons.inj hl).1, h, (List.cons.inj hl).2⟩
    · rw [Nat.sub_eq_zero_of_le h] at hl
      exact nomatch hl
  rw [eraseByte_run]
  rcases hs : f.bytesUntilShutoff with _ | _ | next
  · refine ⟨⟨index + 1, by omega, hlt, hl', herased.succ ham (by omega) rfl rfl⟩, fun _ => ?_⟩
    unfold eraseAt
    split <;> exact hs
  · -- The cut comes before the byte.
    exact ⟨⟨index, hmb, herased.bytes, herased.flags⟩,
      fun h => (nomatch hs.symm.trans (hshut h)), _, rfl⟩
  · exact ⟨⟨index + 1, by omega, hlt, hl', herased.succ ham (by omega) rfl rfl⟩,
      fun h => nomatch hs.symm.trans (hshut h)⟩

/-- An erase of whole pages runs its loop: it erases the range, or the power is
cut after a prefix of it. -/
theorem erase_spec [hg : Geometry pages pageWords] (f : MockFlashBase pages 2 pageWords)
    {lo hi : Nat} (hle : lo ≤ hi) (hhi : hi ≤ pages) :
    match erase (UInt32.ofNat (lo * (2 * pageWords))) (UInt32.ofNat (hi * (2 * pageWords))) f with
    | .ok _ f' => ErasedTo f (lo * (2 * pageWords)) (hi * (2 * pageWords)) f' ∧
        (f.bytesUntilShutoff = none → f'.bytesUntilShutoff = none)
    | .error e f' => (∃ m, m ≤ hi * (2 * pageWords) ∧
        ErasedTo f (lo * (2 * pageWords)) m f') ∧ f.bytesUntilShutoff ≠ none ∧
        ∃ address, e = .error (.EarlyShutoff address .Erase) := by
  have hle' : lo * (2 * pageWords) ≤ hi * (2 * pageWords) := Nat.mul_le_mul_right _ hle
  have hcap : hi * (2 * pageWords) ≤ pages * pageWords * 2 := by
    have h := Nat.mul_le_mul_right (2 * pageWords) hhi
    rw [Nat.mul_comm 2 pageWords, ← Nat.mul_assoc pages] at h
    rw [Nat.mul_comm 2 pageWords]
    exact h
  have hstart : (UInt32.ofNat (lo * (2 * pageWords))).toNat = lo * (2 * pageWords) := by
    rw [Geometry.toNat_page (by omega : lo ≤ pages), Nat.mul_left_comm]
  have hstop : (UInt32.ofNat (hi * (2 * pageWords))).toNat = hi * (2 * pageWords) := by
    rw [Geometry.toNat_page hhi, Nat.mul_left_comm]
  have hpage : ∀ n, n * (2 * pageWords) % pageBytes 2 pageWords = 0 := by
    intro n
    rw [pageBytes_two]
    exact Nat.mul_mod_left n _
  have hrun : erase (UInt32.ofNat (lo * (2 * pageWords))) (UInt32.ofNat (hi * (2 * pageWords))) f
      = (List.range' (lo * (2 * pageWords))
          (hi * (2 * pageWords) - lo * (2 * pageWords))).forM eraseByte f := by
    unfold erase
    rw [hstart, hstop, Exec.require_of hle', if_neg (by rw [capacityBytes]; omega),
      if_neg (by rw [hpage, hpage]; simp)]
    rfl
  rw [hrun]
  have hloop := Triple.forM (eraseLoop_step f hcap)
    (List.range' (lo * (2 * pageWords)) (hi * (2 * pageWords) - lo * (2 * pageWords))) f
    ⟨⟨_, Nat.le_refl _, hle', rfl, ⟨fun i => by rw [if_neg (by omega)],
      fun k => by rw [if_neg (by omega)]⟩⟩, fun h => h⟩
  split at hloop
  · rename_i u f' heq
    rw [heq]
    obtain ⟨⟨m, ham, hmb, hl, herased⟩, hshut⟩ := hloop
    -- No address is left, so the loop has reached the end of the range.
    have hm : m = hi * (2 * pageWords) := by
      have := congrArg List.length hl
      rw [List.length_range', List.length_nil] at this
      omega
    subst hm
    exact ⟨herased, hshut⟩
  · rename_i e f' heq
    rw [heq]
    exact hloop

/-- Without a power cut an erase of whole pages erases them. -/
theorem erase_ok [Geometry pages pageWords] (f : MockFlashBase pages 2 pageWords)
    (hcut : f.bytesUntilShutoff = none) {lo hi : Nat} (hle : lo ≤ hi) (hhi : hi ≤ pages) :
    ∃ f', (NorFlash.erase (UInt32.ofNat (lo * (2 * pageWords)))
        (UInt32.ofNat (hi * (2 * pageWords))) : Exec MockFlashError _ Unit) f = .ok () f' ∧
      ErasedTo f (2 * (lo * pageWords)) (2 * (hi * pageWords)) f' := by
  have h := erase_spec f hle hhi
  cases hr : erase (UInt32.ofNat (lo * (2 * pageWords)))
      (UInt32.ofNat (hi * (2 * pageWords))) f with
  | ok _ f' =>
      rw [hr, Nat.mul_left_comm lo, Nat.mul_left_comm hi] at h
      exact ⟨f', hr, h.1⟩
  | error e f' =>
      rw [hr] at h
      exact absurd hcut h.2.1

/-! ### The write of one word

Two bytes, and the power may be cut in front of either of them. A cut in front of the second leaves
a word with a data byte and no checksum, which is no record. -/

/-- The run of one iteration of the write loop. -/
theorem writeByte_run (address : Nat) (byte : UInt8) (byteIndex : Nat)
    (f : MockFlashBase pages 2 pageWords) :
    writeByte address byte byteIndex f
      = match checkShutoff (address + byteIndex) .Write f with
        | .error e f' => .error e f'
        | .ok _ f' =>
            if byteIndex = 0 then
              match f'.flagAt (address / 2) with
              | .O => .ok () ((f'.setWritable (address / 2) .N).modifyByte (address + byteIndex)
                  (· &&& byte))
              | .N => .error (.error (.NotWritable (UInt32.ofNat address))) f'
            else .ok () (f'.modifyByte (address + byteIndex) (· &&& byte)) := by
  unfold writeByte
  cases hc : (checkShutoff (address + byteIndex) .Write :
      Exec _ (MockFlashBase pages 2 pageWords) Unit) f with
  | error e f' => rw [Exec.bind_error hc]
  | ok _ f' =>
      rw [Exec.bind_ok hc]
      -- Only the first byte of a word looks at the flag.
      by_cases hz : byteIndex = 0
      · simp only [hz, if_true]
        show (match f'.flagAt (address / 2) with | .O => _ | .N => _ :
          Exec MockFlashError (MockFlashBase pages 2 pageWords) Unit) f' = _
        cases f'.flagAt (address / 2) <;> rfl
      · simp only [hz, if_false]
        rfl

/-- A write of one record is the write of its two bytes. -/
theorem write_run [hg : Geometry pages pageWords] (f : MockFlashBase pages 2 pageWords)
    {k : Nat} (s : State) (hk : k < pages * pageWords) :
    write (UInt32.ofNat (2 * k)) (FlashJournal.recordBytes s) f
      = (do
        writeByte (2 * k) s.asBytes.1 0
        writeByte (2 * k) s.asBytes.2 1 :
          Exec MockFlashError (MockFlashBase pages 2 pageWords) Unit) f := by
  have haddr := hg.addressable
  have hlt : 2 * k < 2 ^ 32 := by omega
  have hoff : (UInt32.ofNat (2 * k)).toNat = 2 * k := UInt32.toNat_ofNat_of_lt' hlt
  have hvalid : validateOperation pages 2 pageWords (UInt32.ofNat (2 * k))
      (FlashJournal.recordBytes s).length = .ok (2 * k) := by
    have hlen : (FlashJournal.recordBytes s).length = 2 := rfl
    rw [validateOperation, hoff, hlen, if_neg (by omega),
      if_neg (by rw [capacityBytes]; omega)]
  -- A record is one word, so the outer loop runs once.
  have hwords : (wordsOf 2 (FlashJournal.recordBytes s)).zipIdx
      = [([s.asBytes.1, s.asBytes.2], 0)] := by
    simp [wordsOf, FlashJournal.recordBytes]
  have hmul : (FlashJournal.recordBytes s).length % 2 = 0 := by
    simp [FlashJournal.recordBytes]
  unfold write
  rw [hvalid, hwords, Exec.require_of hmul]
  simp only [liftCheck, pure_bind, List.forM_eq_forM, List.forM_cons, List.forM_nil,
    List.zipIdx_cons, List.zipIdx_nil, bind_pure_unit, Nat.zero_mul, Nat.add_zero,
    Nat.zero_add]

/-- The flash after the data byte of a record has been programmed. -/
def programData (k : Nat) (s : State) (f : MockFlashBase pages 2 pageWords) :
    MockFlashBase pages 2 pageWords :=
  (f.setWritable k .N).modifyByte (2 * k) (· &&& s.asBytes.1)

/-- The flash after both bytes of a record have been programmed. -/
def programRecord (k : Nat) (s : State) (f : MockFlashBase pages 2 pageWords) :
    MockFlashBase pages 2 pageWords :=
  (f.programData k s).modifyByte (2 * k + 1) (· &&& s.asBytes.2)

/-- What a write of a record into an erased word does: nothing, or the data byte,
or the whole record. A failure is a power cut, or a word whose flag is taken. -/
theorem write_cases [Geometry pages pageWords] (f : MockFlashBase pages 2 pageWords)
    {k : Nat} (s : State) (hk : k < pages * pageWords) :
    match write (UInt32.ofNat (2 * k)) (FlashJournal.recordBytes s) f with
    | .ok _ f' => ∃ c, f' = programRecord k s { f with bytesUntilShutoff := c } ∧
        (f.bytesUntilShutoff = none → c = none)
    | .error e f' => (∃ c, f' = { f with bytesUntilShutoff := c } ∨
          f' = programData k s { f with bytesUntilShutoff := c }) ∧
        ((f.bytesUntilShutoff ≠ none ∧ ∃ address, e = .error (.EarlyShutoff address .Write)) ∨
          f.flagAt k = .N) := by
  have hdiv : 2 * k / 2 = k := by omega
  rw [write_run f s hk]
  have h0 := writeByte_run (2 * k) s.asBytes.1 0 f
  have hc0 := checkShutoff_run (2 * k + 0) .Write f
  rw [hdiv] at h0
  rcases hs : f.bytesUntilShutoff with _ | _ | next
  · -- No cut: only the flag can refuse the write.
    rw [hs] at hc0
    simp only [hc0, if_true] at h0
    cases hflag : f.flagAt k with
    | N =>
        simp only [hflag] at h0
        rw [Exec.bind_error h0]
        exact ⟨⟨none, .inl (by rw [← hs])⟩, .inr rfl⟩
    | O =>
        simp only [hflag] at h0
        rw [Exec.bind_ok h0, writeByte_run, checkShutoff_run]
        have hs' : (modifyByte (2 * k + 0) (· &&& s.asBytes.1)
            (f.setWritable k .N)).bytesUntilShutoff = none := hs
        rw [hs']
        simp only [Nat.one_ne_zero, if_false]
        exact ⟨none, by rw [← hs]; rfl, fun _ => rfl⟩
  · rw [hs] at hc0
    simp only [hc0] at h0
    rw [Exec.bind_error h0]
    exact ⟨⟨none, .inl rfl⟩, .inl ⟨by simp, _, rfl⟩⟩
  · rw [hs] at hc0
    simp only [hc0, if_true] at h0
    cases hflag : f.flagAt k with
    | N =>
        have hflag' : ({ f with bytesUntilShutoff := some next } :
            MockFlashBase pages 2 pageWords).flagAt k = .N := hflag
        simp only [hflag'] at h0
        rw [Exec.bind_error h0]
        exact ⟨⟨some next, .inl rfl⟩, .inr rfl⟩
    | O =>
        have hflag' : ({ f with bytesUntilShutoff := some next } :
            MockFlashBase pages 2 pageWords).flagAt k = .O := hflag
        simp only [hflag'] at h0
        rw [Exec.bind_ok h0, writeByte_run, checkShutoff_run]
        cases next with
        -- The cut comes between the two bytes.
        | zero => exact ⟨⟨none, .inr rfl⟩, .inl ⟨by simp, _, rfl⟩⟩
        | succ next =>
            simp only [Nat.one_ne_zero, if_false]
            exact ⟨some next, rfl, fun h => nomatch h⟩

/-- Programming an erased byte stores the byte. -/
theorem ff_and : ∀ b : UInt8, 0xff &&& b = b := by decide +kernel

section Program

variable {f : MockFlashBase pages 2 pageWords} {k : Nat} (s : State)
  (hk : k < pages * pageWords) (hblank : word f.data.toList k = blank)
include hk hblank

/-- The words after the data byte: only word `k` changes. -/
theorem word_programData (i : Nat) :
    word (f.programData k s).data.toList i
      = if i = k then (s.asBytes.1, 0xff) else word f.data.toList i := by
  have h0 : f.byteAt (2 * k) = 0xff := congrArg Prod.fst hblank
  have h1 : f.byteAt (2 * k + 1) = 0xff := congrArg Prod.snd hblank
  rw [word_toList, word_toList, programData, byteAt_modifyByte (by omega),
    byteAt_modifyByte (by omega)]
  by_cases hi : i = k
  · subst hi
    rw [if_pos rfl, if_neg (by omega), if_pos rfl, byteAt_setWritable, byteAt_setWritable, h0,
      h1, ff_and]
  · rw [if_neg (by omega), if_neg (by omega), if_neg hi, byteAt_setWritable,
      byteAt_setWritable]

/-- The words after both bytes: word `k` holds the record. -/
theorem word_programRecord :
    word (f.programRecord k s).data.toList
      = RecordLog.program k s.asBytes (word f.data.toList) := by
  funext i
  have hd : ∀ j, word (f.programData k s).data.toList j
      = if j = k then (s.asBytes.1, 0xff) else word f.data.toList j :=
    word_programData s hk hblank
  have hk' := hd k
  rw [if_pos rfl, word_toList] at hk'
  -- Behind the first step the word holds the data byte and an erased byte.
  have h0 : (f.programData k s).byteAt (2 * k) = s.asBytes.1 := congrArg Prod.fst hk'
  have h1 : (f.programData k s).byteAt (2 * k + 1) = 0xff := congrArg Prod.snd hk'
  rw [word_toList, programRecord, byteAt_modifyByte (by omega), byteAt_modifyByte (by omega)]
  by_cases hi : i = k
  · subst hi
    rw [RecordLog.program_self, if_neg (by omega), if_pos rfl, h0, h1,
      ff_and]
  · rw [RecordLog.program_of_ne hi, if_neg (by omega), if_neg (by omega), ← word_toList, hd,
      if_neg hi]

/-- Programming the data byte keeps `Consistent`: the data byte of a record is not
erased. -/
theorem consistent_programData (hc : Consistent f) : Consistent (f.programData k s) := by
  intro i hi hb
  rw [word_programData s hk hblank] at hb
  by_cases hik : i = k
  · rw [if_pos hik] at hb
    exact absurd (congrArg Prod.fst hb) s.bytes_fst_ne
  · rw [if_neg hik] at hb
    have hflag := hc i hi hb
    rw [programData, flagAt_modifyByte, flagAt_setWritable hk, if_neg hik]
    exact hflag

/-- Programming a record keeps `Consistent`: the programmed word is not erased. -/
theorem consistent_programRecord (hc : Consistent f) : Consistent (f.programRecord k s) := by
  intro i hi hb
  rw [word_programRecord s hk hblank] at hb
  by_cases hik : i = k
  · rw [hik, RecordLog.program_self] at hb
    exact absurd (congrArg Prod.fst hb) s.bytes_fst_ne
  · rw [RecordLog.program_of_ne hik] at hb
    have hflag := hc i hi hb
    rw [programRecord, programData, flagAt_modifyByte, flagAt_modifyByte,
      flagAt_setWritable hk, if_neg hik]
    exact hflag

end Program

/-! ### The laws -/

/-- An aligned read inside the flash returns its bytes. -/
theorem read_run (f : MockFlashBase pages 2 pageWords) {offset : UInt32} {length : Nat}
    (heven : offset.toNat % 2 = 0) (hlen : offset.toNat + length ≤ pages * pageWords * 2)
    (hodd : length % 2 = 0 ∨ offset.toNat + length = pages * pageWords * 2) :
    NorFlash.read offset length f
      = .ok ((f.data.toList.drop offset.toNat).take length) f := by
  have hvalid : validateOperation pages 2 pageWords offset length = .ok offset.toNat := by
    rw [validateOperation, if_neg (by omega), if_neg (by rw [capacityBytes]; omega)]
  have hmul : length % 2 = 0 := by omega
  show read offset length f = _
  unfold read
  rw [hvalid, Exec.require_of hmul]
  rfl

/-- The mock flash satisfies the storage laws, with ascending erases. -/
instance [hg : Geometry pages pageWords] :
    PagedFlash (MockFlashBase pages 2 pageWords) MockFlashError pages pageWords where
  content f := f.data.toList
  Good f := f.bytesUntilShutoff = none ∧ Consistent f
  length_content f := Vector.length_toList
  capacity_lt _ := hg.addressable
  read_law f offset length heven hlen hodd := by
    rw [read_run f heven hlen hodd]
    exact ⟨rfl, rfl, fun h => h⟩
  tornErase := RecordLog.AscendingErase State.read?
  two_le_pages := hg.two_le_pages
  pageWords_pos := hg.pageWords_pos
  eraseSize_eq := pageBytes_two pageWords
  capacity_eq _ := capacityBytes_two pages pageWords
  write_law f k s hk hblank := by
    have h := write_cases f s hk
    have hwrite : NorFlash.write (UInt32.ofNat (2 * k)) (FlashJournal.recordBytes s) f
        = write (UInt32.ofNat (2 * k)) (FlashJournal.recordBytes s) f := rfl
    rw [hwrite]
    cases hr : write (UInt32.ofNat (2 * k)) (FlashJournal.recordBytes s) f with
    | ok _ f' =>
        rw [hr] at h
        obtain ⟨c, rfl, hc⟩ := h
        exact ⟨word_programRecord s hk hblank, fun hgood =>
          ⟨hc hgood.1, consistent_programRecord s hk hblank hgood.2⟩⟩
    | error e f' =>
        rw [hr] at h
        obtain ⟨⟨c, hf'⟩, hbad⟩ := h
        refine ⟨?_, fun hgood => ?_⟩
        · rcases hf' with rfl | rfl
          · refine ⟨fun _ _ => rfl, .inl ?_⟩
            show State.read? (word f.data.toList k) = none
            rw [hblank]
            exact read?_blank
          · have hword := word_programData (f := { f with bytesUntilShutoff := c }) s hk hblank
            refine ⟨fun i hi => by rw [hword, if_neg hi], ?_⟩
            rw [hword, if_pos rfl]
            exact State.read?_dataOnly s
        · rcases hbad with ⟨h1, -⟩ | h1
          · exact h1 hgood.1
          · exact nomatch h1.symm.trans (hgood.2 k hk hblank)
  erase_law f lo hi hle hhi := by
    have h := erase_spec f hle hhi
    have hlo : lo * (2 * pageWords) = 2 * (lo * pageWords) := Nat.mul_left_comm _ _ _
    have hhi' : hi * (2 * pageWords) = 2 * (hi * pageWords) := Nat.mul_left_comm _ _ _
    have herase : NorFlash.erase (UInt32.ofNat (lo * (2 * pageWords)))
        (UInt32.ofNat (hi * (2 * pageWords))) f
        = erase (UInt32.ofNat (lo * (2 * pageWords))) (UInt32.ofNat (hi * (2 * pageWords))) f :=
      rfl
    rw [herase]
    cases hr : erase (UInt32.ofNat (lo * (2 * pageWords)))
        (UInt32.ofNat (hi * (2 * pageWords))) f with
    | ok _ f' =>
        rw [hr, hlo, hhi'] at h
        exact ⟨h.1.words, fun hgood => ⟨h.2 hgood.1, h.1.consistent hgood.2⟩⟩
    | error e f' =>
        rw [hr, hlo, hhi'] at h
        obtain ⟨⟨m, hm, herased⟩, hcut, -⟩ := h
        exact ⟨herased.ascending hm, fun hgood => hcut hgood.1⟩

/-- For a reader the mock flash is always good: no read fails. -/
@[reducible] def readable [hg : Geometry pages pageWords] :
    ReadableFlash (MockFlashBase pages 2 pageWords) MockFlashError where
  content f := f.data.toList
  Good _ := True
  length_content f := Vector.length_toList
  capacity_lt _ := hg.addressable
  read_law f offset length heven hlen hodd := by
    rw [read_run f heven hlen hodd]
    exact ⟨rfl, rfl, fun h => h⟩

/-- Opening a journal on a mock flash succeeds, whatever the flash holds and
whatever power cut is scheduled. The handle reads the persisted record. -/
theorem new_ok [Geometry pages pageWords] {n : Nat} (hn : FlashJournal.BlockSize n)
    (f : MockFlashBase pages 2 pageWords) :
    ∃ j f', FlashJournal.new n f = .ok j f' ∧ j.inner = f' ∧ FlashJournal.InSync j ∧
      f'.data.toList = f.data.toList ∧
      j.get = FlashJournal.persisted pages pageWords f :=
  FlashJournal.new_of_readable readable (fun _ => rfl) hn trivial

/-- A journal that is opened on the flash reads `o`, with any buffer size. -/
def Reads (f : MockFlashBase pages 2 pageWords) (o : Option State) : Prop :=
  ∀ m, FlashJournal.BlockSize m → ∃ j f', FlashJournal.new m f = .ok j f' ∧ j.get = o

/-- A journal reads the last valid record of the flash. -/
theorem reads_iff [Geometry pages pageWords] {f : MockFlashBase pages 2 pageWords}
    {o : Option State} : f.Reads o ↔ FlashJournal.persisted pages pageWords f = o := by
  constructor
  · intro h
    have hsize : FlashJournal.BlockSize 2 := ⟨Nat.le_refl 2, rfl⟩
    obtain ⟨j, f', hnew, hget⟩ := h 2 hsize
    obtain ⟨j', f'', hnew', -, -, -, hget'⟩ := new_ok hsize f
    rw [hnew] at hnew'
    cases hnew'
    exact hget'.symm.trans hget
  · rintro rfl m hm
    obtain ⟨j, f', hnew, -, -, -, hget⟩ := new_ok hm f
    exact ⟨j, f', hnew, hget⟩

end MockFlashBase

end EcSlimloader
