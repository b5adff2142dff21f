import EcSlimloader.Proofs.Journal.Mock
import EcSlimloader.Proofs.Journal.Runs
import EcSlimloader.State.Faulty

/-!
# `EcSlimloader.Proofs.Journal.Faulty`: the faulty flash satisfies the storage laws

Each operation of a `FaultyFlash` is the operation of the mock flash, with or
without a power cut, so the laws of the mock flash carry over. Only the erase
without an order is new: `word_clearWords` gives its words.

The plan of a `FaultyFlash` says for each operation to come whether it is interrupted, and how.
`Uninterrupted` says that no operation is, and `Quiet` also that every erased word is writable. A
read takes its part off the plan as every operation does, and an interrupted read changes no word.
-/

set_option autoImplicit false

namespace EcSlimloader

/-- What an interrupted erase can leave behind. -/
def EraseOrder.torn : EraseOrder → Nat → Nat → (Nat → Word) → (Nat → Word) → Prop
  | .ascending => RecordLog.AscendingErase State.read?
  | .unordered => RecordLog.TornErase State.read?

namespace FaultyFlash

variable {order : EraseOrder} {pages pageWords : Nat}

/-- The mock flash of a faulty flash, with a power cut after `cut` bytes. -/
def armedFlash (cut : Option Nat) (t : FaultyFlash order pages pageWords) :
    MockFlashBase pages 2 pageWords :=
  { t.flash with bytesUntilShutoff := cut }

/-- The faulty flash after an operation: the plan is one entry shorter. -/
def after (t : FaultyFlash order pages pageWords) (f : MockFlashBase pages 2 pageWords) :
    FaultyFlash order pages pageWords :=
  { flash := f.removeShutoff, plan := t.plan.tail }

/-- No operation is interrupted. -/
def Uninterrupted (t : FaultyFlash order pages pageWords) : Prop := ∀ i ∈ t.plan, i = none

/-- No operation is interrupted, and every erased word is writable. -/
def Quiet (t : FaultyFlash order pages pageWords) : Prop :=
  t.Uninterrupted ∧ t.flash.Consistent

/-- The plan of the next operation is taken off the list. Behind the end of the list nothing goes
wrong. -/
theorem next_run (t : FaultyFlash order pages pageWords) :
    next t = .ok t.plan.head?.join { t with plan := t.plan.tail } := by
  obtain ⟨f, plan⟩ := t
  cases plan <;> rfl

/-- The next operation is not interrupted. -/
theorem Uninterrupted.head {t : FaultyFlash order pages pageWords} (h : t.Uninterrupted) :
    t.plan.head?.join = none := by
  cases hp : t.plan with
  | nil => rfl
  | cons i rest => exact h i (by rw [hp]; exact List.mem_cons_self)

/-- The operations behind the next one are not interrupted. -/
theorem Uninterrupted.after {t : FaultyFlash order pages pageWords} (h : t.Uninterrupted)
    (f : MockFlashBase pages 2 pageWords) : (t.after f).Uninterrupted :=
  fun i hi => h i (List.mem_of_mem_tail hi)

/-- A quiet flash stays quiet when the operation keeps the words consistent. -/
theorem Quiet.after {t : FaultyFlash order pages pageWords} (h : t.Quiet)
    {f : MockFlashBase pages 2 pageWords} (hf : f.Consistent) : (t.after f).Quiet :=
  ⟨h.1.after f, hf⟩

section Onflash

variable {α : Type} {cut : Option Nat} {t : FaultyFlash order pages pageWords}
  {x : Exec MockFlashError (MockFlashBase pages 2 pageWords) α}
  {f : MockFlashBase pages 2 pageWords}

/-- An operation of the mock flash that returns, behind `next`. -/
theorem onFlash_ok {a : α} (h : x (t.armedFlash cut) = .ok a f) :
    onFlash cut x { t with plan := t.plan.tail } = .ok a (t.after f) :=
  Exec.zoom_ok h

/-- An operation of the mock flash that fails, behind `next`. -/
theorem onFlash_error {e : Fault MockFlashError} (h : x (t.armedFlash cut) = .error e f) :
    onFlash cut x { t with plan := t.plan.tail } = .error (e.map .Mock) (t.after f) :=
  Exec.zoom_error h

end Onflash

/-- The words after an erase of the selected words. -/
theorem word_clearWords (words : Nat → Bool) (lo hi : Nat) (f : MockFlashBase pages 2 pageWords)
    (k : Nat) :
    word (clearWords words (2 * lo) (2 * hi) f).data.toList k
      = if lo ≤ k ∧ k < hi ∧ words k then blank else word f.data.toList k := by
  have hbyte : ∀ i, (clearWords words (2 * lo) (2 * hi) f).data.toList.getD i 0xff
      = if 2 * lo ≤ i ∧ i < 2 * hi ∧ words (i / 2) then 0xff
        else f.data.toList.getD i 0xff := by
    intro i
    by_cases hi' : i < pages * pageWords * 2
    · simp [clearWords, List.getD_eq_getElem?_getD, hi']
    · simp [clearWords, List.getD_eq_getElem?_getD, hi']
  unfold word
  rw [hbyte, hbyte, show 2 * k / 2 = k by omega, show (2 * k + 1) / 2 = k by omega]
  by_cases h : lo ≤ k ∧ k < hi ∧ words k
  · rw [if_pos h, if_pos ⟨by omega, by omega, h.2.2⟩, if_pos ⟨by omega, by omega, h.2.2⟩]
    rfl
  · rw [if_neg h, if_neg (by rintro ⟨h1, h2, h3⟩; exact h ⟨by omega, by omega, h3⟩),
      if_neg (by rintro ⟨h1, h2, h3⟩; exact h ⟨by omega, by omega, h3⟩)]

/-! ### The runs of the operations -/

section Runs

variable (t : FaultyFlash order pages pageWords)

/-- `read` of the flash is the one of its instance. -/
theorem norFlash_read (offset : UInt32) (length : Nat) :
    NorFlash.read offset length t = read offset length t := rfl

/-- `write` of the flash is the one of its instance. -/
theorem norFlash_write (offset : UInt32) (bytes : List UInt8) :
    NorFlash.write offset bytes t = write offset bytes t := rfl

/-- `erase` of the flash is the one of its instance. -/
theorem norFlash_erase (start stop : UInt32) :
    NorFlash.erase start stop t = erase start stop t := rfl

/-- A read that is not interrupted. -/
theorem read_quiet (offset : UInt32) (length : Nat) (h : t.plan.head?.join = none) :
    read offset length t
      = onFlash none (NorFlash.read offset length) { t with plan := t.plan.tail } := by
  unfold read
  rw [Exec.bind_ok (next_run t), h]

/-- A read that is interrupted. -/
theorem read_interrupted (offset : UInt32) (length : Nat) {i : Interruption}
    (h : t.plan.head?.join = some i) :
    read offset length t = .error (.error .Interrupted) { t with plan := t.plan.tail } := by
  unfold read
  rw [Exec.bind_ok (next_run t), h]
  rfl

/-- A write that is not interrupted. -/
theorem write_quiet (offset : UInt32) (bytes : List UInt8) (h : t.plan.head?.join = none) :
    write offset bytes t
      = onFlash none (NorFlash.write offset bytes) { t with plan := t.plan.tail } := by
  unfold write
  rw [Exec.bind_ok (next_run t), h]

/-- A write that is interrupted fails, and leaves what the mock flash leaves with
a power cut at this byte. -/
theorem write_interrupted (offset : UInt32) (bytes : List UInt8) {i : Interruption}
    (h : t.plan.head?.join = some i) :
    ∃ e, write offset bytes t = .error e (t.after
      (match NorFlash.write offset bytes (t.armedFlash (some i.bytes)) with
        | .ok _ f => f
        | .error _ f => f)) := by
  unfold write
  rw [Exec.bind_ok (next_run t), h]
  simp only
  cases hr : (NorFlash.write offset bytes : Exec MockFlashError _ Unit)
      (t.armedFlash (some i.bytes)) with
  | ok a f => exact ⟨_, by rw [Exec.bind_ok (onFlash_ok hr)]; rfl⟩
  | error e f => exact ⟨_, by rw [Exec.bind_error (onFlash_error hr)]⟩

/-- An erase that is not interrupted. -/
theorem erase_quiet (start stop : UInt32) (h : t.plan.head?.join = none) :
    erase start stop t
      = onFlash none (NorFlash.erase start stop) { t with plan := t.plan.tail } := by
  unfold erase
  rw [Exec.bind_ok (next_run t), h]

end Runs

/-- An ascending erase that is interrupted fails, and leaves what the mock flash
leaves with a power cut at this byte. -/
theorem erase_interrupted_ascending (t : FaultyFlash .ascending pages pageWords)
    (start stop : UInt32) {i : Interruption} (h : t.plan.head?.join = some i) :
    ∃ e, erase start stop t = .error e (t.after
      (match NorFlash.erase start stop (t.armedFlash (some i.bytes)) with
        | .ok _ f => f
        | .error _ f => f)) := by
  unfold erase
  rw [Exec.bind_ok (next_run t), h]
  simp only
  cases hr : (NorFlash.erase start stop : Exec MockFlashError _ Unit)
      (t.armedFlash (some i.bytes)) with
  | ok a f => exact ⟨_, by rw [Exec.bind_ok (onFlash_ok hr)]; rfl⟩
  | error e f => exact ⟨_, by rw [Exec.bind_error (onFlash_error hr)]⟩

/-- An erase without an order that is interrupted fails, and has erased the
selected words. -/
theorem erase_interrupted_unordered (t : FaultyFlash .unordered pages pageWords)
    (start stop : UInt32) {i : Interruption} (h : t.plan.head?.join = some i)
    {f : MockFlashBase pages 2 pageWords}
    (hr : (NorFlash.erase start stop : Exec MockFlashError _ Unit) (t.armedFlash none)
      = .ok () f) :
    erase start stop t = .error (.error .Interrupted)
      { flash := clearWords i.words start.toNat stop.toNat t.flash, plan := t.plan.tail } := by
  unfold erase
  rw [Exec.bind_ok (next_run t), h]
  show ((onFlash none (NorFlash.erase start stop) >>= fun _ => _ :
    Exec FaultyFlashError (FaultyFlash .unordered pages pageWords) Unit)
      { t with plan := t.plan.tail }) = _
  rw [Exec.bind_ok (onFlash_ok hr)]
  rfl

/-- An aligned read inside the flash returns its bytes and leaves the mock flash as
it is, unless it is interrupted. -/
theorem read_words (t : FaultyFlash order pages pageWords) {offset : UInt32} {length : Nat}
    (heven : offset.toNat % 2 = 0) (hlen : offset.toNat + length ≤ pages * pageWords * 2)
    (hodd : length % 2 = 0 ∨ offset.toNat + length = pages * pageWords * 2) :
    (∃ i, t.plan.head?.join = some i ∧ NorFlash.read offset length t
      = .error (.error .Interrupted) { t with plan := t.plan.tail }) ∨
    NorFlash.read offset length t
      = .ok ((t.flash.data.toList.drop offset.toNat).take length) (t.after t.flash) := by
  rw [norFlash_read]
  cases hhead : t.plan.head?.join with
  | some i => exact .inl ⟨i, rfl, read_interrupted t _ _ hhead⟩
  | none =>
      refine .inr ?_
      rw [read_quiet t _ _ hhead,
        onFlash_ok (MockFlashBase.read_run (t.armedFlash none) heven hlen hodd)]
      rfl

/-! ### The laws -/

section Laws

variable [hg : Geometry pages pageWords]

/-- What an erase of whole pages does to the words, for each order. -/
theorem erase_words (t : FaultyFlash order pages pageWords) {lo hi : Nat} (hle : lo ≤ hi)
    (hhi : hi ≤ pages) :
    match NorFlash.erase (UInt32.ofNat (lo * (2 * pageWords)))
      (UInt32.ofNat (hi * (2 * pageWords))) t with
    | .ok _ t' => word t'.flash.data.toList
          = RecordLog.erase blank (lo * pageWords) (hi * pageWords) (word t.flash.data.toList) ∧
        (t.Quiet → t'.Quiet)
    | .error _ t' => order.torn (lo * pageWords) (hi * pageWords) (word t.flash.data.toList)
        (word t'.flash.data.toList) ∧ ¬ t.Quiet := by
  -- Without a power cut the mock flash completes the erase.
  obtain ⟨f, hf, -⟩ := MockFlashBase.erase_ok (t.armedFlash none) rfl hle hhi
  rw [norFlash_erase]
  cases hhead : t.plan.head?.join with
  | none =>
      rw [erase_quiet t _ _ hhead, onFlash_ok hf]
      have h := PagedFlash.erase_law (t.armedFlash none) lo hi hle hhi
      rw [hf] at h
      exact ⟨h.1, fun hq => hq.after (h.2 ⟨rfl, hq.2⟩).2⟩
  | some i =>
      have hbad : ¬ t.Quiet := fun hq => nomatch hhead.symm.trans hq.1.head
      cases order with
      | ascending =>
          obtain ⟨e, he⟩ := erase_interrupted_ascending t (UInt32.ofNat (lo * (2 * pageWords)))
            (UInt32.ofNat (hi * (2 * pageWords))) hhead
          rw [he]
          refine ⟨?_, hbad⟩
          have h := PagedFlash.erase_law (t.armedFlash (some i.bytes)) lo hi hle hhi
          cases hr : (NorFlash.erase (UInt32.ofNat (lo * (2 * pageWords)))
              (UInt32.ofNat (hi * (2 * pageWords))) : Exec MockFlashError _ Unit)
              (t.armedFlash (some i.bytes)) with
          | ok _ f' =>
              rw [hr] at h
              have hwords : word f'.data.toList = RecordLog.erase blank (lo * pageWords)
                  (hi * pageWords) (word t.flash.data.toList) := h.1
              show RecordLog.AscendingErase State.read? _ _ _ (word f'.data.toList)
              rw [hwords]
              exact RecordLog.ascendingErase_erase read?_blank _ _ _
          | error e f' =>
              rw [hr] at h
              exact h.1
      | unordered =>
          rw [erase_interrupted_unordered t _ _ hhead hf]
          refine ⟨fun k => ?_, hbad⟩
          simp only [Geometry.toNat_page (by omega : lo ≤ pages), Geometry.toNat_page hhi,
            word_clearWords]
          by_cases hk : lo * pageWords ≤ k ∧ k < hi * pageWords ∧ i.words k
          · exact .inr ⟨hk.1, hk.2.1, by rw [if_pos hk]; exact read?_blank⟩
          · exact .inl (if_neg hk)

/-- What a write of a record into an erased word does to the words. -/
theorem write_words (t : FaultyFlash order pages pageWords) {k : Nat} (s : State)
    (hk : k < pages * pageWords) (hblank : word t.flash.data.toList k = blank) :
    match NorFlash.write (UInt32.ofNat (2 * k)) (FlashJournal.recordBytes s) t with
    | .ok _ t' => word t'.flash.data.toList
          = RecordLog.program k s.asBytes (word t.flash.data.toList) ∧ (t.Quiet → t'.Quiet)
    | .error _ t' => RecordLog.TornProgram State.read? k s.asBytes (word t.flash.data.toList)
        (word t'.flash.data.toList) ∧ ¬ t.Quiet := by
  rw [norFlash_write]
  cases hhead : t.plan.head?.join with
  -- Without an interruption this is the write of the mock flash.
  | none =>
      rw [write_quiet t _ _ hhead]
      have h := PagedFlash.write_law (t.armedFlash none) k s hk hblank
      cases hr : (NorFlash.write (UInt32.ofNat (2 * k)) (FlashJournal.recordBytes s) :
          Exec MockFlashError _ Unit) (t.armedFlash none) with
      | ok _ f =>
          rw [hr] at h
          rw [onFlash_ok hr]
          exact ⟨h.1, fun hq => hq.after (h.2 ⟨rfl, hq.2⟩).2⟩
      | error e f =>
          rw [hr] at h
          rw [onFlash_error hr]
          exact ⟨h.1, fun hq => h.2 ⟨rfl, hq.2⟩⟩
  -- An interruption is a power cut on the mock flash. It may come so late that the write is
  -- complete.
  | some i =>
      obtain ⟨e, he⟩ := write_interrupted t (UInt32.ofNat (2 * k)) (FlashJournal.recordBytes s)
        hhead
      rw [he]
      refine ⟨?_, fun hq => nomatch hhead.symm.trans hq.1.head⟩
      have h := PagedFlash.write_law (t.armedFlash (some i.bytes)) k s hk hblank
      cases hr : (NorFlash.write (UInt32.ofNat (2 * k)) (FlashJournal.recordBytes s) :
          Exec MockFlashError _ Unit) (t.armedFlash (some i.bytes)) with
      | ok _ f =>
          rw [hr] at h
          have hwords : word f.data.toList
              = RecordLog.program k s.asBytes (word t.flash.data.toList) := h.1
          show RecordLog.TornProgram State.read? k s.asBytes _ (word f.data.toList)
          rw [hwords]
          exact RecordLog.tornProgram_program k s.asBytes _
      | error e f =>
          rw [hr] at h
          exact h.1

/-- For a reader a faulty flash is good when nothing is interrupted. -/
@[reducible] def readable :
    ReadableFlash (FaultyFlash order pages pageWords) FaultyFlashError where
  content t := t.flash.data.toList
  Good := Uninterrupted
  length_content _ := Vector.length_toList
  capacity_lt _ := hg.addressable
  read_law t offset length heven hlen hodd := by
    rcases read_words t heven hlen hodd with ⟨i, hhead, hr⟩ | hr
    · rw [hr]
      exact ⟨rfl, fun h => nomatch hhead.symm.trans h.head⟩
    · rw [hr]
      exact ⟨rfl, rfl, fun h => h.after _⟩

/-- The faulty flash satisfies the storage laws, and a quiet one does not fail. -/
instance : PagedFlash (FaultyFlash order pages pageWords) FaultyFlashError pages pageWords where
  content t := t.flash.data.toList
  Good := Quiet
  length_content _ := Vector.length_toList
  capacity_lt _ := hg.addressable
  read_law t offset length heven hlen hodd := by
    rcases read_words t heven hlen hodd with ⟨i, hhead, hr⟩ | hr
    · rw [hr]
      exact ⟨rfl, fun h => nomatch hhead.symm.trans h.1.head⟩
    · rw [hr]
      exact ⟨rfl, rfl, fun h => h.after h.2⟩
  tornErase := order.torn
  two_le_pages := hg.two_le_pages
  pageWords_pos := hg.pageWords_pos
  eraseSize_eq := MockFlashBase.pageBytes_two pageWords
  capacity_eq _ := MockFlashBase.capacityBytes_two pages pageWords
  write_law t k s hk hblank := by
    have h := write_words t s hk hblank
    cases hr : (NorFlash.write (UInt32.ofNat (2 * k)) (FlashJournal.recordBytes s) :
        Exec FaultyFlashError _ Unit) t with
    | ok _ t' => rw [hr] at h; exact h
    | error e t' => rw [hr] at h; exact h
  erase_law t lo hi hle hhi := by
    have h := erase_words t hle hhi
    cases hr : (NorFlash.erase (UInt32.ofNat (lo * (2 * pageWords)))
        (UInt32.ofNat (hi * (2 * pageWords))) : Exec FaultyFlashError _ Unit) t with
    | ok _ t' => rw [hr] at h; exact h
    | error e t' => rw [hr] at h; exact h

end Laws

/-- The environment of a faulty flash plans the next operations. -/
instance : Powered (FaultyFlash order pages pageWords) (List (Option Interruption)) where
  arm plan t := { t with plan }

instance [Geometry pages pageWords] : LawfulPowered (FaultyFlash order pages pageWords)
    FaultyFlashError (List (Option Interruption)) where
  content_arm _ _ := rfl

/-- Every journal that is opened on the flash reads a value in `P`. The open can
only fail when it is interrupted. -/
def OpensTo (P : Option State → Prop) (t : FaultyFlash order pages pageWords) : Prop :=
  ∀ m, FlashJournal.BlockSize m → ∀ plan, match FlashJournal.new m (Powered.arm plan t) with
    | .ok j _ => P j.get
    | .error _ _ => ∃ i ∈ plan, i ≠ none

/-- An open reads the last valid record of the flash. -/
theorem opensTo_iff [Geometry pages pageWords] {P : Option State → Prop}
    {t : FaultyFlash order pages pageWords} :
    OpensTo P t ↔ P (FlashJournal.persisted pages pageWords t) := by
  constructor
  · intro h
    -- One opening without an interruption is enough: it reads what is persisted.
    obtain ⟨j, t', hnew, -, -, -, hget⟩ := FlashJournal.new_of_readable
      (t := Powered.arm [] t) readable (fun _ => rfl) ⟨Nat.le_refl 2, rfl⟩
      fun i hi => nomatch hi
    have h2 := h 2 ⟨Nat.le_refl 2, rfl⟩ []
    rw [hnew] at h2
    have hpers : j.get = FlashJournal.persisted pages pageWords t := hget
    rw [← hpers]
    exact h2
  · intro h m hm plan
    cases hnew : FlashJournal.new m (Powered.arm plan t) with
    | ok j t' =>
        obtain ⟨hinner, hsync, hcontent, -⟩ :=
          (FlashJournal.new_spec _ False hm).of_ok ⟨rfl, False.elim⟩ hnew
        show P j.get
        rw [hsync.get_eq, FlashJournal.persisted, hinner, hcontent]
        exact h
    | error e t' =>
        -- An opening fails only by an interruption that was planned.
        show ∃ i ∈ plan, i ≠ none
        by_contra hplan
        have hquiet : ∀ i ∈ plan, i = none := fun i hi =>
          Classical.byContradiction fun hne => hplan ⟨i, hi, hne⟩
        obtain ⟨j, t'', hnew', -⟩ := FlashJournal.new_of_readable
          (t := Powered.arm plan t) readable (fun _ => rfl) hm hquiet
        rw [hnew] at hnew'
        cases hnew'

end FaultyFlash

end EcSlimloader
