import EcSlimloader.Proofs.Journal.Mock
import EcSlimloader.Proofs.Journal.Ops
import EcSlimloader.Proofs.Journal.Runs

/-!
# `EcSlimloader.Proofs.Journal.Logged`: the journal on a storage with a log

A storage with a log satisfies the laws that the storage itself satisfies.
`set_good` is the exact account of a `set` on a storage that does not fail: it returns,
the words are those of `setWords`, and the log has grown by the requests of `setOps`. These
are none when the state is the current one.

`LoggedMock` is the mock flash with a log. Its reads are steady: they never fail, and
they change nothing.

The log does not change what an operation does. So the laws of a logged storage are those of the
storage, with the log carried along, and no proof about the journal has to mention it. Those that
count requests use `set_good`.
-/

set_option autoImplicit false

namespace EcSlimloader

open FlashJournal

namespace LoggedFlash

variable {T E : Type} [NorFlash T E]

/-- A read through the log. -/
theorem read_run (offset : UInt32) (length : Nat) (t : LoggedFlash T) :
    (NorFlash.read offset length : Exec E (LoggedFlash T) (List UInt8)) t
      = match (NorFlash.read offset length : Exec E T (List UInt8)) t.flash with
        | .ok bytes f => .ok bytes { t with flash := f }
        | .error e f => .error e { t with flash := f } := by
  have hread : (NorFlash.read offset length : Exec E (LoggedFlash T) (List UInt8)) t
      = onFlash (NorFlash.read offset length) t := rfl
  rw [hread]
  cases hr : (NorFlash.read offset length : Exec E T (List UInt8)) t.flash with
  | ok bytes f => exact Exec.zoom_ok hr
  | error e f =>
      have herror : onFlash (NorFlash.read offset length) t
          = .error (e.map id) { t with flash := f } := Exec.zoom_error hr
      rw [herror, Fault.map_id]

variable {pages pageWords : Nat}

/-- The log does not touch the laws of the storage. -/
instance [PagedFlash T E pages pageWords] :
    PagedFlash (LoggedFlash T) E pages pageWords where
  content t := ReadableFlash.content t.flash
  Good t := ReadableFlash.Good t.flash
  length_content t := ReadableFlash.length_content t.flash
  capacity_lt t := ReadableFlash.capacity_lt t.flash
  read_law t offset length heven hlen hodd := by
    have h := ReadableFlash.read_law t.flash offset length heven hlen hodd
    rw [read_run]
    cases hr : (NorFlash.read offset length : Exec E T (List UInt8)) t.flash with
    | ok bytes f =>
        rw [hr] at h
        exact h
    | error e f =>
        rw [hr] at h
        exact h
  tornErase := PagedFlash.tornErase T
  two_le_pages := PagedFlash.two_le_pages (T := T)
  pageWords_pos := PagedFlash.pageWords_pos (T := T)
  eraseSize_eq := PagedFlash.eraseSize_eq (T := T)
  capacity_eq t := PagedFlash.capacity_eq t.flash
  write_law t k s hk hblank := by
    have h := PagedFlash.write_law t.flash k s hk hblank
    have hrun := request_run (E := E) (.write (UInt32.ofNat (2 * k)) (recordBytes s)) t
    simp only [FlashOp.run] at hrun
    cases hr : (NorFlash.write (UInt32.ofNat (2 * k)) (recordBytes s) : Exec E T Unit)
        t.flash with
    | ok u f =>
        rw [hr] at h hrun
        rw [show NorFlash.write _ _ t = _ from hrun]
        exact h
    | error e f =>
        rw [hr] at h hrun
        rw [show NorFlash.write _ _ t = _ from hrun]
        exact h
  erase_law t lo hi hle hhi := by
    have h := PagedFlash.erase_law t.flash lo hi hle hhi
    have hrun := request_run (E := E) (.erase (UInt32.ofNat (lo * (2 * pageWords)))
      (UInt32.ofNat (hi * (2 * pageWords)))) t
    simp only [FlashOp.run] at hrun
    cases hr : (NorFlash.erase (UInt32.ofNat (lo * (2 * pageWords)))
        (UInt32.ofNat (hi * (2 * pageWords))) : Exec E T Unit) t.flash with
    | ok u f =>
        rw [hr] at h hrun
        rw [show NorFlash.erase _ _ t = _ from hrun]
        exact h
    | error e f =>
        rw [hr] at h hrun
        rw [show NorFlash.erase _ _ t = _ from hrun]
        exact h

end LoggedFlash

/-! ### A storage that does not fail -/

/-- The requests of a `set`: none for the current record. -/
def setOps (pages pageWords : Nat) (w : Nat → Word) (s : State) : List FlashOp :=
  if RecordLog.current State.read? w (pages * pageWords) = some s then []
  else (storeOps pages pageWords w s).map (WordOp.request pageWords)

section Good

variable {T E : Type} [NorFlash T E] {pages pageWords : Nat} [PagedFlash T E pages pageWords]

/-- A legal operation on a good storage does not fail. -/
theorem op_good {w : Nat → Word} {op : WordOp} (hlegal : op.Legal pages pageWords w) {t : T}
    (hw : word (ReadableFlash.content t) = w) (hgood : ReadableFlash.Good t) :
    ∃ t', ((op.request pageWords).run : Exec E T Unit) t = .ok () t' ∧
      word (ReadableFlash.content t') = op.apply pageWords w ∧ ReadableFlash.Good t' := by
  subst hw
  cases op with
  | program k s =>
      have h := PagedFlash.write_law t k s hlegal.1 hlegal.2
      cases hr : (NorFlash.write (UInt32.ofNat (2 * k)) (recordBytes s) : Exec E T Unit) t with
      | ok u t' =>
          rw [hr] at h
          exact ⟨t', hr, h.1, h.2 hgood⟩
      | error e t' =>
          rw [hr] at h
          -- A write fails only on a storage that is not good.
          exact absurd hgood h.2
  | erase lo hi =>
      have h := PagedFlash.erase_law t lo hi hlegal.1 hlegal.2
      cases hr : (NorFlash.erase (UInt32.ofNat (lo * (2 * pageWords)))
          (UInt32.ofNat (hi * (2 * pageWords))) : Exec E T Unit) t with
      | ok u t' =>
          rw [hr] at h
          exact ⟨t', hr, h.1, h.2 hgood⟩
      | error e t' =>
          rw [hr] at h
          exact absurd hgood h.2

/-- The invariant of the good runs: the requests that were made, with those that are still
to come, are the requests `total`. -/
structure LogTo {T E : Type} [NorFlash T E] {pages : Nat} (pageWords : Nat)
    [PagedFlash T E pages pageWords] (total : List FlashOp) (ops : List WordOp)
    (t : LoggedFlash T) : Prop where
  good : ReadableFlash.Good t
  log : t.ops ++ ops.map (WordOp.request pageWords) = total

/-- One operation goes from those that are to come to those that were made. The fault condition
is `False`: on a good storage no operation fails. -/
theorem logTo_step (total : List FlashOp) :
    OpStep (LoggedFlash T) (LogTo pageWords total) fun _ _ => False := by
  rintro w op ops hlegal t ⟨hw, hgood, hlog⟩
  obtain ⟨f, hrun, hw', hgood'⟩ := op_good (T := T) hlegal hw hgood
  rw [LoggedFlash.run_eq, LoggedFlash.request_run, hrun]
  refine ⟨hw', hgood', ?_⟩
  rw [← hlog]
  simp [LoggedFlash.ops]

/-- A `set` on a storage that does not fail. -/
theorem set_good (hreads : SteadyReads (LoggedFlash T)) {n : Nat} (hn : BlockSize n) (s : State)
    {j : FlashJournal (LoggedFlash T)} (hsync : InSync j) (hgood : ReadableFlash.Good j.inner) :
    ∃ j', set n s j = .ok () j' ∧ InSync j' ∧ ReadableFlash.Good j'.inner ∧ j'.get = some s ∧
      word (ReadableFlash.content j'.inner)
        = setWords pages pageWords (word (ReadableFlash.content j.inner)) s ∧
      j'.inner.ops = j.inner.ops
        ++ setOps pages pageWords (word (ReadableFlash.content j.inner)) s := by
  have hget : j.get
      = RecordLog.current State.read? (word (ReadableFlash.content j.inner)) (pages * pageWords) :=
    hsync.get_eq
  by_cases hcur : RecordLog.current State.read? (word (ReadableFlash.content j.inner))
      (pages * pageWords) = some s
  · rw [hcur] at hget
    refine ⟨j, set_run_of_eq hget, hsync, hgood, hget, ?_, ?_⟩
    · rw [setWords, if_pos hcur]
    · rw [setOps, if_pos hcur, List.append_nil]
  · have hset := set_triple (logTo_step (T := T) (j.inner.ops ++ (storeOps pages pageWords
      (word (ReadableFlash.content j.inner)) s).map (WordOp.request pageWords))) hreads hn
      (word (ReadableFlash.content j.inner)) s hcur
    -- `logTo_step` leaves no room for a failed operation.
    obtain ⟨u, j', hrun, hsync', hw', hget', hgood', hlog⟩ :=
      hset.returns (by rintro e j' ⟨-, -, hfalse⟩; exact hfalse) ⟨hsync, rfl, hgood, rfl⟩
    refine ⟨j', hrun, hsync', hgood', hget', ?_, ?_⟩
    · rw [hw', setWords, if_neg hcur]
    · rw [setOps, if_neg hcur, ← hlog, List.map_nil, List.append_nil]

end Good

/-! ### The mock flash with a log -/

/-- The mock flash with a log. -/
abbrev LoggedMock (pages pageWords : Nat) : Type := LoggedFlash (MockFlashBase pages 2 pageWords)

namespace LoggedMock

variable {pages pageWords : Nat}

/-- For a reader the storage stays as it is. -/
@[reducible] def readable [Geometry pages pageWords] (t₀ : LoggedMock pages pageWords) :
    ReadableFlash (LoggedMock pages pageWords) MockFlashError where
  content t := t.flash.data.toList
  Good t := t = t₀
  length_content t := Vector.length_toList
  capacity_lt t := ReadableFlash.capacity_lt t
  read_law t offset length heven hlen hodd := by
    rw [LoggedFlash.read_run, MockFlashBase.read_run t.flash heven hlen hodd]
    exact ⟨rfl, rfl, fun h => h⟩

/-- Reads of the mock flash are steady. -/
theorem steadyReads [Geometry pages pageWords] : SteadyReads (LoggedMock pages pageWords) := by
  intro n hn t
  -- `readable t` calls only `t` itself good. A read keeps what is good, so it keeps the flash.
  have hcompute := @computeCache_spec _ _ _ (readable t) t.flash.data.toList True n hn
  obtain ⟨cache, t', hr, hcache, -, ht'⟩ :=
    hcompute.returns (fun _ _ h => h.2 trivial) ⟨rfl, fun _ => rfl⟩
  rw [hr, hcache, ht' trivial]
  rfl

/-- Opening a journal succeeds and changes nothing, whatever the flash holds and whatever
power cut is scheduled. -/
theorem new_run_eq [Geometry pages pageWords] {n : Nat} (hn : BlockSize n)
    (t : LoggedMock pages pageWords) :
    new n t = .ok ⟨t, scanCache t.flash.data.toList⟩ t := by
  rw [new_run, steadyReads hn t]
  rfl

end LoggedMock

end EcSlimloader
