import EcSlimloader.Proofs.Journal.Logged

/-!
# `EcSlimloader.Proofs.Journal.AnyContent`: `set` works from any content

Take a mock flash with any bytes whose words are all writable, and no power cut.
`sets_from_any_content`: the journal opens, every `set` of any sequence of states returns,
and every open afterwards reads what was set, all with any buffer sizes. `SetWorks` lists what
holds of one of these calls. The flash has a log, so that it can say that a `set` of the
current state asks nothing of the flash.

The invariant of the sequence is that the handle is in sync and that the flash is good.

A content without a record is not an error for the journal. `FirstEmpty` says where the next record
goes, and when there is no such word the first `set` erases. After one `set` the flash is in a state
that the next one can start with, so the sequence is an induction with one step.
-/

set_option autoImplicit false

namespace EcSlimloader

open FlashJournal

section

variable {pages pageWords : Nat}

/-- Word `a` is the first erased one behind the last valid record, or the first one at all
when there is no record. -/
def FirstEmpty (f : MockFlashBase pages 2 pageWords) (a : Nat) : Prop :=
  a < pages * pageWords ∧ word f.data.toList a = blank ∧
    RecordLog.Behind (RecordLog.last State.read? (word f.data.toList) (pages * pageWords)) a ∧
    ∀ k, k < a →
      RecordLog.Behind (RecordLog.last State.read? (word f.data.toList) (pages * pageWords)) k →
      word f.data.toList k ≠ blank

/-- A `set` of `s` on the handle `j`, with the buffer size `m`, that does what it should. It
ends with the handle `j'`. -/
structure SetWorks (j : FlashJournal (LoggedMock pages pageWords)) (m : Nat) (s : State)
    (j' : FlashJournal (LoggedMock pages pageWords)) : Prop where
  /-- The call returns. -/
  returns : set m s j = .ok () j'
  /-- Then `get` returns the state. -/
  get : j'.get = some s
  /-- So does a journal that is opened afterwards on the same flash. -/
  reads : ∀ n, BlockSize n → ∃ j'' t, new n j'.inner = .ok j'' t ∧ j''.get = some s
  /-- A `set` of the current state asks nothing of the flash. -/
  idle : j.get = some s → j'.inner.ops = j.inner.ops
  /-- When there is an erased word behind the last record, no other word changes. -/
  single : ∀ a, FirstEmpty j.inner.flash a → ∀ k, k ≠ a →
    word j'.inner.flash.data.toList k = word j.inner.flash.data.toList k

/-- Every call of a sequence does what it should, one after the other on the same handle. -/
def SetsWork : FlashJournal (LoggedMock pages pageWords) → List (Nat × State) → Prop
  | _, [] => True
  | j, (m, s) :: calls => ∃ j', SetWorks j m s j' ∧ SetsWork j' calls

/-- The scan finds the first erased word behind the last record. -/
theorem FirstEmpty.scan_eq {f : MockFlashBase pages 2 pageWords} {a : Nat} (h : FirstEmpty f a) :
    (scanWords (word f.data.toList) (pages * pageWords)).empty = some a := by
  obtain ⟨ha, hblank, hbehind, hfirst⟩ := h
  exact empty_of_first ha hblank hbehind hfirst

/-- When there is an erased word behind the last record, an update changes that word
only. -/
theorem setWords_of_firstEmpty {f : MockFlashBase pages 2 pageWords} {a : Nat}
    (h : FirstEmpty f a) (s : State) {k : Nat} (hk : k ≠ a) :
    setWords pages pageWords (word f.data.toList) s k = word f.data.toList k := by
  unfold setWords storeWords
  split
  · rfl
  · -- The append branch programs the word that the scan has found.
    rw [h.scan_eq]
    exact RecordLog.program_of_ne hk _ _

variable [Geometry pages pageWords]

/-- One call, on a handle in sync with a good flash. -/
theorem setWorks_of_good {j : FlashJournal (LoggedMock pages pageWords)} (hsync : InSync j)
    (hgood : ReadableFlash.Good j.inner) {m : Nat} (hm : BlockSize m) (s : State) :
    ∃ j', SetWorks j m s j' ∧ InSync j' ∧ ReadableFlash.Good j'.inner := by
  obtain ⟨j', hset, hsync', hgood', hget', hwords, hops⟩ :=
    set_good LoggedMock.steadyReads hm s hsync hgood
  refine ⟨j', ⟨hset, hget', ?_, ?_, ?_⟩, hsync', hgood'⟩
  · intro n hn
    refine ⟨_, _, LoggedMock.new_run_eq hn j'.inner, ?_⟩
    -- The new handle has the same cache, because both are in sync with the same flash.
    rw [← hget', FlashJournal.get, FlashJournal.get, hsync']
    rfl
  · intro hcur
    rw [hsync.get_eq, persisted] at hcur
    rw [hops, setOps, if_pos hcur, List.append_nil]
  · intro a ha k hk
    have hword : word j'.inner.flash.data.toList
        = setWords pages pageWords (word j.inner.flash.data.toList) s := hwords
    rw [hword]
    exact setWords_of_firstEmpty ha s hk

/-- The calls of a sequence, by induction. -/
theorem setsWork_of_good {j : FlashJournal (LoggedMock pages pageWords)} (hsync : InSync j)
    (hgood : ReadableFlash.Good j.inner) (calls : List (Nat × State))
    (hcalls : ∀ call ∈ calls, BlockSize call.1) : SetsWork j calls := by
  induction calls generalizing j with
  | nil => trivial
  | cons call calls ih =>
      obtain ⟨m, s⟩ := call
      have hm : BlockSize m := hcalls (m, s) List.mem_cons_self
      obtain ⟨j', hworks, hsync', hgood'⟩ := setWorks_of_good hsync hgood hm s
      exact ⟨j', hworks, ih hsync' hgood' fun call h => hcalls call (List.mem_cons_of_mem _ h)⟩

end

/-- The journal works from any content of the flash. -/
theorem sets_from_any_content {pages pageWords : Nat} [Geometry pages pageWords] {n : Nat}
    (hn : BlockSize n) (t : LoggedMock pages pageWords)
    (hcut : t.flash.bytesUntilShutoff = none)
    (hflags : ∀ k, k < pages * pageWords → t.flash.flagAt k = .O)
    (calls : List (Nat × State)) (hcalls : ∀ call ∈ calls, BlockSize call.1) :
    ∃ j t', new n t = .ok j t' ∧ SetsWork j calls := by
  have hgood : ReadableFlash.Good t := ⟨hcut, fun k hk _ => hflags k hk⟩
  have hsync : InSync (FlashJournal.mk t (scanCache t.flash.data.toList)) := rfl
  exact ⟨_, _, LoggedMock.new_run_eq hn t, setsWork_of_good hsync hgood calls hcalls⟩

/-- A writable flash of garbage with a log. -/
def garbageMock : LoggedMock 2 2 where
  flash := { writable := Vector.replicate _ .O, data := Vector.replicate _ 0xaa,
             bytesUntilShutoff := none }
  log := []

/-- Three calls on the flash of garbage, one of them with the current state. -/
theorem sets_from_any_content_garbage :
    ∃ j t', new 4 garbageMock = .ok j t' ∧ SetsWork j
      [(2, State.new .Initial .S1 .S0), (6, State.new .Initial .S1 .S0),
        (4, State.new .Attempting .S1 .S0)] :=
  sets_from_any_content ⟨by decide, by decide⟩ garbageMock rfl (by decide +kernel) _
    (fun call h => by
      simp only [List.mem_cons, List.not_mem_nil, or_false] at h
      rcases h with rfl | rfl | rfl <;> exact ⟨by decide, by decide⟩)

end EcSlimloader
