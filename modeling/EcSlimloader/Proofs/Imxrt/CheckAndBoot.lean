import EcSlimloader.Imxrt.CheckAndBoot

/-!
# `EcSlimloader.Proofs.Imxrt.CheckAndBoot`: loading an image from a hostile flash

`Confined` says what a part of `check_and_boot` may do to the board: write RAM bytes of
the load range, and read no more than a slot holds. `loadImage_spec` proves it for every
run of the part that copies the image, and `Loaded` says what a run that succeeds has
put into RAM. `checkAndBoot_confined` lifts both to `check_and_boot`.

The header is read twice. The copy goes to where the first header says, and the
comparison of the two headers makes the second one the same. So what was checked about
the first header holds for the one in RAM.

`Confined` is a relation between two boards, reflexive and transitive, so the parts of
`check_and_boot` are put together by transitivity. `copyImage_run` says which bytes the copy writes.
A read that fails may have filled a part of its buffer, and `filled` says how much.

Nothing is assumed about the flash. It may answer the two reads of the same header differently, and
it may answer the copy with whatever it likes. The confinement holds for a run that panics as well.
-/

set_option autoImplicit false

namespace EcSlimloader

/-! ### The header -/

/-- What the checks of the header ensure, without wrap-around. -/
structure HeaderOk (config : ImxrtConfig) (slotSize : UInt32) (ivt : Ivt) : Prop where
  imageType : ivt.imageType = imageTypeTzXipSigned
  le_slotSize : ivt.imageLen.toNat ≤ slotSize.toNat
  start_le : config.slotSizeRange.start.toNat ≤ ivt.imageLen.toNat
  load_start : config.loadRange.start.toNat ≤ ivt.targetPtr.toNat
  load_stop : ivt.targetPtr.toNat + ivt.imageLen.toNat < config.loadRange.stop.toNat

/-- A range contains its start and not its end, as a Rust range does. -/
theorem Range.contains_iff {range : Range} {x : UInt32} :
    range.contains x = true ↔ range.start.toNat ≤ x.toNat ∧ x.toNat < range.stop.toNat := by
  rw [Range.contains, Bool.and_eq_true, decide_eq_true_iff, decide_eq_true_iff,
    UInt32.le_iff_toNat_le, UInt32.lt_iff_toNat_lt]

/-- The end of the image, if the sum fits in 32 bits. -/
theorem targetEndPtr_eq_some {ivt : Ivt} {p : UInt32} :
    ivt.targetEndPtr = some p ↔ ivt.targetPtr.toNat + ivt.imageLen.toNat = p.toNat := by
  have hp := p.toNat_lt
  rw [Ivt.targetEndPtr]
  split
  next h =>
    rw [Option.some.injEq, ← UInt32.toNat_inj, UInt32.toNat_add, Nat.mod_eq_of_lt h]
  next h =>
    constructor
    · intro h'
      cases h'
    · intro h'
      omega

/-- The checks accept a header exactly if it is fine. -/
theorem checkHeader_eq_ok {config : ImxrtConfig} {slotSize : UInt32} {ivt : Ivt} :
    checkHeader config slotSize ivt = .ok () ↔ HeaderOk config slotSize ivt := by
  have hstop := config.loadRange.stop.toNat_lt
  refine ⟨fun h => ?_, fun h => ?_⟩
  · simp only [checkHeader] at h
    split at h
    · cases h
    next htype =>
    split at h
    · cases h
    next hsize =>
    split at h
    · cases h
    next hstart =>
    split at h
    · cases h
    next p hp =>
    split at h
    · cases h
    next hload =>
    -- Every check was passed. What they say about 32-bit numbers is turned into natural numbers.
    rw [Bool.or_eq_true, not_or, Bool.not_eq_true', Bool.not_eq_true', Bool.not_eq_false,
      Bool.not_eq_false, Range.contains_iff, Range.contains_iff] at hload
    rw [gt_iff_lt, UInt32.lt_iff_toNat_lt] at hsize
    rw [UInt32.lt_iff_toNat_lt] at hstart
    have hend := targetEndPtr_eq_some.mp hp
    exact ⟨not_not.mp htype, by omega, by omega, hload.1.1, by omega⟩
  · -- The image ends inside the load range, so its end is a pointer and the addition is exact.
    have hend : ivt.targetEndPtr = some (ivt.targetPtr + ivt.imageLen) := by
      rw [targetEndPtr_eq_some, UInt32.toNat_add, Nat.mod_eq_of_lt]
      have := h.load_stop
      omega
    have hendNat := targetEndPtr_eq_some.mp hend
    have hsize : ¬ivt.imageLen > slotSize := by
      rw [gt_iff_lt, UInt32.lt_iff_toNat_lt]
      have := h.le_slotSize
      omega
    have hstart : ¬ivt.imageLen < config.slotSizeRange.start := by
      rw [UInt32.lt_iff_toNat_lt]
      have := h.start_le
      omega
    have htarget : config.loadRange.contains ivt.targetPtr = true := by
      have := h.load_stop
      exact Range.contains_iff.mpr ⟨h.load_start, by omega⟩
    have hstop : config.loadRange.contains (ivt.targetPtr + ivt.imageLen) = true := by
      have := h.load_start
      have := h.load_stop
      exact Range.contains_iff.mpr ⟨by omega, by omega⟩
    simp only [checkHeader, h.imageType, ne_eq, not_true_eq_false, if_false, hsize, hstart, hend,
      htarget, hstop, Bool.not_true, Bool.or_self, Bool.false_eq_true]

/-! ### Loading

The part of `check_and_boot` that touches the RAM. Its ends are an error in front of the copy, an
error of the copy, two headers that differ, and a loaded image. -/

namespace Imxrt

variable {T H : Type}

/-- A part of a run has written the RAM bytes `w`, all of them in the load range. It has
left the rest of the RAM alone, and each of its reads was of at most `capacity` bytes. -/
structure Confined (capacity : UInt32) (before after : Imxrt T H) (w : List Nat) : Prop where
  config : after.config = before.config
  checkImage : after.checkImage = before.checkImage
  hw : after.hw = before.hw
  written : after.written = before.written ++ w
  load_range : ∀ a ∈ w,
    before.config.loadRange.start.toNat ≤ a ∧ a < before.config.loadRange.stop.toNat
  ram : ∀ a, a ∉ w → after.ram a = before.ram a
  transfers : ∃ counts, after.transfers = before.transfers ++ counts ∧
    ∀ count ∈ counts, count ≤ capacity.toNat

namespace Confined

variable {capacity : UInt32} {before middle after : Imxrt T H} {w w' : List Nat}

/-- A part of a run that does nothing writes no byte. -/
theorem refl (before : Imxrt T H) : Confined capacity before before [] where
  config := rfl
  checkImage := rfl
  hw := rfl
  written := (List.append_nil _).symm
  load_range _ ha := absurd ha List.not_mem_nil
  ram _ _ := rfl
  transfers := ⟨[], (List.append_nil _).symm, fun _ h => absurd h List.not_mem_nil⟩

/-- Two parts of a run, one after the other. The load range is the same for both, because the
configuration is. -/
theorem trans (h : Confined capacity before middle w) (h' : Confined capacity middle after w') :
    Confined capacity before after (w ++ w') where
  config := h'.config.trans h.config
  checkImage := h'.checkImage.trans h.checkImage
  hw := h'.hw.trans h.hw
  written := by rw [h'.written, h.written, List.append_assoc]
  load_range a ha := by
    rcases List.mem_append.mp ha with ha | ha
    · exact h.load_range a ha
    · rw [← h.config]
      exact h'.load_range a ha
  ram a ha := by
    rw [List.mem_append, not_or] at ha
    rw [h'.ram a ha.2, h.ram a ha.1]
  -- The reads of the second part come behind those of the first one.
  transfers := by
    obtain ⟨counts, hcounts, hle⟩ := h.transfers
    obtain ⟨counts', hcounts', hle'⟩ := h'.transfers
    refine ⟨counts ++ counts', by rw [hcounts', hcounts, List.append_assoc], ?_⟩
    intro count hcount
    rcases List.mem_append.mp hcount with hcount | hcount
    · exact hle count hcount
    · exact hle' count hcount

end Confined

/-- A read takes at most what the slot holds, whatever the flash answers. -/
theorem readSlot_run (ε : Type) (slotPartition : SlotPartition) (len : Nat)
    (board : Imxrt T H) :
    ∃ after, (readSlot slotPartition len : Exec ε (Imxrt T H) ReadAnswer) board
        = .ok (slotPartition.read board.reads len) after ∧
      Confined slotPartition.capacity board after [] ∧ after.ram = board.ram ∧
      after.reads = board.reads + 1 := by
  refine ⟨_, rfl, ?_, rfl, rfl⟩
  refine ⟨rfl, rfl, rfl, (List.append_nil _).symm, fun _ ha => absurd ha List.not_mem_nil,
    fun _ _ => rfl, [_], rfl, ?_⟩
  intro count hcount
  rw [List.mem_singleton] at hcount
  subst hcount
  by_cases hlen : slotPartition.capacity.toNat < len
  · obtain ⟨bytes, hbytes⟩ := slotPartition.outOfBounds board.reads len hlen
    rw [hbytes]
    simp
  · cases slotPartition.read board.reads len with
    | done bytes => exact Nat.le_of_not_lt hlen
    | failed count bytes => exact Nat.le_trans (Nat.min_le_right _ _) (Nat.le_of_not_lt hlen)

/-- Writing bytes of the load range. -/
theorem writeRam_run (ε : Type) (capacity : UInt32) {target : Nat} (count : Nat)
    {board : Imxrt T H} (hstart : board.config.loadRange.start.toNat ≤ target)
    (hstop : target + count ≤ board.config.loadRange.stop.toNat) (bytes : Nat → UInt8) :
    ∃ after, (writeRam target count bytes : Exec ε (Imxrt T H) Unit) board = .ok () after ∧
      Confined capacity board after (List.range' target count) ∧
      ramSlice after.ram target count = (List.range count).map bytes ∧
      after.reads = board.reads := by
  refine ⟨_, rfl, ?_, ?_, rfl⟩
  · refine ⟨rfl, rfl, rfl, rfl, ?_, ?_, [], (List.append_nil _).symm,
      fun _ h => absurd h List.not_mem_nil⟩
    · intro a ha
      rw [List.mem_range'_1] at ha
      omega
    · intro a ha
      rw [List.mem_range'_1] at ha
      exact if_neg ha
  · apply List.map_congr_left
    intro i hi
    rw [List.mem_range] at hi
    show (if target ≤ target + i ∧ target + i < target + count then _ else _) = _
    rw [if_pos ⟨by omega, by omega⟩, Nat.add_sub_cancel_left]

/-- `Ivt::read` leaves the RAM alone. -/
theorem readIvt_run (slotPartition : SlotPartition) (board : Imxrt T H) :
    ∃ after, Confined slotPartition.capacity board after [] ∧ after.ram = board.ram ∧
      after.reads = board.reads + 1 ∧
      readIvt slotPartition board = match slotPartition.read board.reads Ivt.readSize with
        | .failed _ _ => .error (.error .Io) after
        | .done bytes => .ok (Ivt.parse ((List.range Ivt.readSize).map bytes)) after := by
  obtain ⟨after, hrun, hconf, hram, hreads⟩ :=
    readSlot_run BootError slotPartition Ivt.readSize board
  refine ⟨after, hconf, hram, hreads, ?_⟩
  unfold readIvt
  rw [Exec.bind_ok hrun]
  cases slotPartition.read board.reads Ivt.readSize with
  | failed count bytes => rfl
  | done bytes => rfl

/-- How many bytes of a buffer of length `len` a read has filled. -/
def filled (len : Nat) : ReadAnswer → Nat
  | .done _ => len
  | .failed count _ => min count len

/-- The copy of an image with a good header writes the bytes that the slot gives, also when
it fails. All of them are in the load range. -/
theorem copyImage_run {slotPartition : SlotPartition} {ivt : Ivt} {board : Imxrt T H}
    (hheader : HeaderOk board.config slotPartition.capacity ivt) :
    ∃ after, Confined slotPartition.capacity board after
        (List.range' ivt.targetPtr.toNat (filled ivt.imageLen.toNat
          (slotPartition.read board.reads ivt.imageLen.toNat))) ∧
      after.reads = board.reads + 1 ∧
      match slotPartition.read board.reads ivt.imageLen.toNat with
      | .failed _ _ => copyImage slotPartition ivt board = .error (.error .Io) after
      | .done bytes => copyImage slotPartition ivt board = .ok () after ∧
          ramSlice after.ram ivt.targetPtr.toNat ivt.imageLen.toNat
            = (List.range ivt.imageLen.toNat).map bytes := by
  have hstart := hheader.load_start
  have hstop := hheader.load_stop
  obtain ⟨middle, hrun, hconf, -, hreads⟩ :=
    readSlot_run BootError slotPartition ivt.imageLen.toNat board
  rw [← hconf.config] at hstart hstop
  unfold copyImage
  rw [Exec.bind_ok hrun]
  cases slotPartition.read board.reads ivt.imageLen.toNat with
  -- A read that fails has written the front of the buffer, which is RAM.
  | failed count bytes =>
      obtain ⟨after, hwrite, hconf', -, hreads'⟩ := writeRam_run BootError slotPartition.capacity
        (min count ivt.imageLen.toNat) hstart (by omega) bytes
      refine ⟨after, hconf.trans hconf', hreads'.trans hreads, ?_⟩
      exact Exec.bind_ok hwrite
  | done bytes =>
      obtain ⟨after, hwrite, hconf', hslice, hreads'⟩ :=
        writeRam_run BootError slotPartition.capacity ivt.imageLen.toNat hstart (by omega) bytes
      exact ⟨after, hconf.trans hconf', hreads'.trans hreads, hwrite, hslice⟩

/-- The header `ivt` is read and accepted, so the copy begins. -/
structure Accepted (slotPartition : SlotPartition) (before : Imxrt T H) (ivt : Ivt) : Prop where
  capacity : slotPartition.capacity < before.config.slotSizeRange.stop
  read : ∃ bytes, slotPartition.read before.reads Ivt.readSize = .done bytes ∧
    Ivt.parse ((List.range Ivt.readSize).map bytes) = ivt
  header : HeaderOk before.config slotPartition.capacity ivt

/-- The image of the header `ramIvt` has been copied to RAM. -/
structure Loaded (slotPartition : SlotPartition) (before : Imxrt T H) (ramIvt : Ivt)
    (after : Imxrt T H) : Prop where
  confined : Confined slotPartition.capacity before after
    (List.range' ramIvt.targetPtr.toNat ramIvt.imageLen.toNat)
  header : HeaderOk before.config slotPartition.capacity ramIvt
  parsed : Ivt.readFromSlice
    (ramSlice after.ram ramIvt.targetPtr.toNat ramIvt.imageLen.toNat) = .ok ramIvt

/-- A slot without an accepted header: there is an error after at most one read, and the
RAM stays as it is. -/
theorem loadImage_rejected {slotPartition : SlotPartition} {before : Imxrt T H}
    (h : ∀ ivt, ¬Accepted slotPartition before ivt) :
    ∃ e after, loadImage slotPartition before = .error (.error e) after ∧
      Confined slotPartition.capacity before after [] ∧ after.reads ≤ before.reads + 1 ∧
      ∀ bytes, slotPartition.read before.reads Ivt.readSize = .done bytes →
        e = .TooLarge ∨ checkHeader before.config slotPartition.capacity
          (Ivt.parse ((List.range Ivt.readSize).map bytes)) = .error e := by
  unfold loadImage
  rw [Exec.get_bind]
  split
  · exact ⟨.TooLarge, before, rfl, Confined.refl before, Nat.le_succ _, fun _ _ => .inl rfl⟩
  -- Only the header was read, and nothing is written to RAM.
  next hcapacity =>
  obtain ⟨middle, hconf, -, hreads, hread⟩ := readIvt_run slotPartition before
  cases hanswer : slotPartition.read before.reads Ivt.readSize with
  | failed count bytes =>
      rw [hanswer] at hread
      exact ⟨_, middle, Exec.bind_error hread, hconf, Nat.le_of_eq hreads, fun _ h => nomatch h⟩
  | done bytes =>
      rw [hanswer] at hread
      rw [Exec.bind_ok hread]
      cases hcheck : checkHeader before.config slotPartition.capacity
          (Ivt.parse ((List.range Ivt.readSize).map bytes)) with
      | error e =>
          refine ⟨e, middle, rfl, hconf, Nat.le_of_eq hreads, ?_⟩
          rintro bytes' ⟨rfl⟩
          exact .inr hcheck
      | ok u =>
          exact absurd ⟨UInt32.not_le.mp hcapacity, ⟨bytes, hanswer, rfl⟩,
            checkHeader_eq_ok.mp hcheck⟩ (h _)

/-- A slot with an accepted header: the copy takes the second read. -/
theorem loadImage_accepted {slotPartition : SlotPartition} {before : Imxrt T H} {ivt : Ivt}
    (h : Accepted slotPartition before ivt) :
    ∃ after, Confined slotPartition.capacity before after
        (List.range' ivt.targetPtr.toNat (filled ivt.imageLen.toNat
          (slotPartition.read (before.reads + 1) ivt.imageLen.toNat))) ∧
      after.reads = before.reads + 2 ∧
      ((loadImage slotPartition before = .ok ivt after ∧ Loaded slotPartition before ivt after) ∨
        ∃ e, loadImage slotPartition before = .error (.error e) after) := by
  obtain ⟨hcapacity, ⟨bytes, hanswer, hivt⟩, hheader⟩ := h
  obtain ⟨middle, hconf, -, hreads, hread⟩ := readIvt_run slotPartition before
  -- The first read answers with the accepted header.
  have hread : readIvt slotPartition before = .ok ivt middle := by
    rw [hread, hanswer, ← hivt]
  obtain ⟨after, hconf', hreads', hcopy⟩ := copyImage_run (hconf.config ▸ hheader)
  have hconf := hconf.trans hconf'
  rw [hreads] at hconf hcopy
  refine ⟨after, hconf, by rw [hreads', hreads], ?_⟩
  unfold loadImage
  rw [Exec.get_bind]
  simp only [ge_iff_le, UInt32.not_le.mpr hcapacity, if_false]
  rw [Exec.bind_ok hread, checkHeader_eq_ok.mpr hheader, Except.mapError,
    Exec.bind_ok (Exec.ofExcept_ok_run () middle)]
  -- The second read may answer anything. The image is loaded only if the header in RAM is the one
  -- that was checked.
  cases hanswer' : slotPartition.read (before.reads + 1) ivt.imageLen.toNat with
  | failed count bytes' =>
      rw [hanswer'] at hcopy
      exact .inr ⟨_, Exec.bind_error hcopy⟩
  | done bytes' =>
      rw [hanswer'] at hcopy hconf
      obtain ⟨hcopy, -⟩ := hcopy
      rw [Exec.bind_ok hcopy, Exec.get_bind]
      cases hparse : Ivt.readFromSlice
          (ramSlice after.ram ivt.targetPtr.toNat ivt.imageLen.toNat) with
      | error e => exact .inr ⟨_, rfl⟩
      | ok ramIvt =>
          by_cases hsame : ivt = ramIvt
          · subst hsame
            refine .inl ⟨?_, hconf, hheader, hparse⟩
            simp only [ne_eq, not_true_eq_false, if_false]
            rfl
          · refine .inr ⟨.ChangeAfterRead, ?_⟩
            simp only [ne_eq, hsame, not_false_eq_true, if_true]
            rfl

/-- Loading an image ends with the image in RAM, or with an error. -/
theorem loadImage_spec (slotPartition : SlotPartition) (before : Imxrt T H) :
    (∃ ramIvt after, loadImage slotPartition before = .ok ramIvt after ∧
      Loaded slotPartition before ramIvt after) ∨
    (∃ e after w, loadImage slotPartition before = .error (.error e) after ∧
      Confined slotPartition.capacity before after w) := by
  by_cases haccepted : ∃ ivt, Accepted slotPartition before ivt
  · obtain ⟨ivt, hivt⟩ := haccepted
    obtain ⟨after, hconf, -, ⟨hload, hloaded⟩ | ⟨e, hload⟩⟩ := loadImage_accepted hivt
    · exact .inl ⟨ivt, after, hload, hloaded⟩
    · exact .inr ⟨e, after, _, hload, hconf⟩
  · obtain ⟨e, after, hload, hconf, -⟩ := loadImage_rejected (not_exists.mp haccepted)
    exact .inr ⟨e, after, [], hload, hconf⟩

section Run

variable {slot : Slot} {slotPartition : SlotPartition} {before : Imxrt T H}

/-- `check_and_boot` for a slot whose image cannot be loaded. -/
theorem checkAndBoot_of_load_error (hslot : before.slots[slot.toU8.toNat]? = some slotPartition)
    {e : BootError} {after : Imxrt T H}
    (hload : loadImage slotPartition before = .error (.error e) after) :
    checkAndBoot slot before = .error (.error (.bootError e)) after := by
  have hload' : Exec.mapError Exit.bootError (loadImage slotPartition) before
      = .error (.error (.bootError e)) after := Exec.mapError_error hload
  unfold checkAndBoot
  rw [Exec.get_bind, hslot]
  exact Exec.bind_error hload'

/-- `check_and_boot` for a slot whose image can be loaded: `check_image` decides. -/
theorem checkAndBoot_of_load (hslot : before.slots[slot.toU8.toNat]? = some slotPartition)
    {ramIvt : Ivt} {loaded : Imxrt T H}
    (hload : loadImage slotPartition before = .ok ramIvt loaded) :
    checkAndBoot slot before =
      match loaded.checkImage ramIvt
        (ramSlice loaded.ram ramIvt.targetPtr.toNat ramIvt.imageLen.toNat) loaded.hw with
      | .ok _ hw => .error (.error (.bootApplication ramIvt.targetPtr)) { loaded with hw }
      | .error e hw => .error (e.map .bootError) { loaded with hw } := by
  have hload' : Exec.mapError Exit.bootError (loadImage slotPartition) before
      = .ok ramIvt loaded := Exec.mapError_ok hload
  unfold checkAndBoot
  rw [Exec.get_bind, hslot]
  simp only [Exec.bind_ok hload']
  -- `check_image` works on the hardware only. The jump is what follows when it returns.
  cases hcheck : loaded.checkImage ramIvt
      (ramSlice loaded.ram ramIvt.targetPtr.toNat ramIvt.imageLen.toNat) loaded.hw with
  | ok u hw =>
      have hrun : runCheckImage ramIvt loaded = .ok u { loaded with hw } := by
        rw [runCheckImage, Exec.get_bind]
        exact Exec.zoom_ok hcheck
      rw [Exec.bind_ok (Exec.mapError_ok hrun)]
      rfl
  | error e hw =>
      have hrun : runCheckImage ramIvt loaded = .error e { loaded with hw } := by
        rw [runCheckImage, Exec.get_bind, Exec.zoom_error hcheck, Fault.map_id]
      exact Exec.bind_error (Exec.mapError_error hrun)

/-- A run that has loaded an image jumps to its target only if `check_image` accepts it. -/
theorem checkAndBoot_jumps (hslot : before.slots[slot.toU8.toNat]? = some slotPartition)
    {ramIvt : Ivt} {loaded : Imxrt T H}
    (hload : loadImage slotPartition before = .ok ramIvt loaded) :
    ∃ e hw, checkAndBoot slot before = .error e { loaded with hw } ∧
      ∀ p, e = .error (.bootApplication p) → ramIvt.targetPtr = p ∧
        loaded.checkImage ramIvt
          (ramSlice loaded.ram ramIvt.targetPtr.toNat ramIvt.imageLen.toNat) loaded.hw
            = .ok () hw := by
  rw [checkAndBoot_of_load hslot hload]
  cases loaded.checkImage ramIvt
      (ramSlice loaded.ram ramIvt.targetPtr.toNat ramIvt.imageLen.toNat) loaded.hw with
  | ok u hw =>
      refine ⟨_, hw, rfl, ?_⟩
      intro p hp
      cases hp
      exact ⟨rfl, rfl⟩
  | error e hw =>
      -- An error of `check_image` is a `BootError`, and a panic stays a panic.
      refine ⟨_, hw, rfl, ?_⟩
      intro p hp
      cases e with
      | error e => cases hp
      | panic msg => cases hp

end Run

/-- Against a flash that answers each read as it likes, a run of `check_and_boot` writes
to RAM in the load range only, and no read takes more than the slot holds.

If the run jumps to an address, then the address is in the load range, and the bytes of
RAM from there on that it has written are an image: its header has the right type, the
address as its target and the number of bytes as its length, within the bounds for a slot,
and `check_image` has accepted this header with these bytes. -/
theorem checkAndBoot_confined (slot : Slot) (before : Imxrt T H) :
    ∃ e after w counts, checkAndBoot slot before = .error e after ∧
      after.written = before.written ++ w ∧
      (∀ a ∈ w, before.config.loadRange.start.toNat ≤ a ∧
        a < before.config.loadRange.stop.toNat) ∧
      (∀ a, a ∉ w → after.ram a = before.ram a) ∧
      after.transfers = before.transfers ++ counts ∧
      (∀ count ∈ counts, ∃ slotPartition, before.slots[slot.toU8.toNat]? = some slotPartition ∧
        count ≤ slotPartition.capacity.toNat) ∧
      ∀ p, e = .error (.bootApplication p) →
        before.config.loadRange.contains p = true ∧
        ∃ slotPartition ivt, before.slots[slot.toU8.toNat]? = some slotPartition ∧
          Ivt.readFromSlice (ramSlice after.ram p.toNat ivt.imageLen.toNat) = .ok ivt ∧
          ivt.imageType = 4 ∧ ivt.targetPtr = p ∧
          w = List.range' p.toNat ivt.imageLen.toNat ∧
          before.config.slotSizeRange.start.toNat ≤ ivt.imageLen.toNat ∧
          ivt.imageLen.toNat ≤ slotPartition.capacity.toNat ∧
          before.checkImage ivt (ramSlice after.ram p.toNat ivt.imageLen.toNat) before.hw
            = .ok () after.hw := by
  cases hslot : before.slots[slot.toU8.toNat]? with
  | none =>
      refine ⟨.error (.bootError .SlotUnknown), before, [], [], ?_, by simp, by simp, by simp,
        by simp, by simp, ?_⟩
      · unfold checkAndBoot
        rw [Exec.get_bind, hslot]
        rfl
      · intro p hp
        cases hp
  | some slotPartition =>
      rcases loadImage_spec slotPartition before with
        ⟨ramIvt, loaded, hload, hloaded⟩ | ⟨e, after, w, hload, hconf⟩
      · have hconf := hloaded.confined
        obtain ⟨e, hw, hrun, hjump⟩ := checkAndBoot_jumps hslot hload
        rw [hconf.checkImage, hconf.hw] at hjump
        obtain ⟨counts, hcounts, hle⟩ := hconf.transfers
        refine ⟨e, _, _, counts, hrun, hconf.written, hconf.load_range, hconf.ram, hcounts,
          fun count hcount => ⟨_, rfl, hle count hcount⟩, ?_⟩
        intro p hp
        obtain ⟨rfl, hcheck⟩ := hjump p hp
        have hheader := hloaded.header
        have hstop := hheader.load_stop
        have hin : before.config.loadRange.contains ramIvt.targetPtr = true :=
          Range.contains_iff.mpr ⟨hheader.load_start, by omega⟩
        exact ⟨hin, slotPartition, ramIvt, rfl, hloaded.parsed, hheader.imageType, rfl, rfl,
          hheader.start_le, hheader.le_slotSize, hcheck⟩
      · -- A failed copy has written a part of the image, but never jumps.
        obtain ⟨counts, hcounts, hle⟩ := hconf.transfers
        refine ⟨_, after, w, counts, checkAndBoot_of_load_error hslot hload, hconf.written,
          hconf.load_range, hconf.ram, hcounts, fun count hcount => ⟨_, rfl, hle count hcount⟩, ?_⟩
        intro p hp
        cases hp

end Imxrt

end EcSlimloader
