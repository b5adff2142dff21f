import EcSlimloader.Proofs.Journal.Set
import EcSlimloader.State.Logged

/-!
# `EcSlimloader.Proofs.Journal.Ops`: the operations of an update

`storeOps` is the list of the operations that an update makes on the words of the storage:
one write, and up to two erases of pages around it. `writeState_eq_ops` says that
`writeState` is this list, run in order. `legalAll_storeOps` says that every operation is
legal when its turn comes: a write goes to an erased word of the storage, an erase covers
pages of the storage.

So a property of all updates needs one step lemma about a legal operation.
`writeState_triple` and `set_triple` are the rules. The invariant `I` of a rule depends on the
operations that are still to come.

The four branches of `write_state` are four lists (`storeOps_append`, `storeOps_roll`,
`storeOps_spill`, `storeOps_clear`). The case analysis over them is made here, once. A module that
uses the rules proves `OpStep`, which has one operation in front of it and the words that it is
legal on.

The invariant may say more than the words do: a log, the flags of a mock flash, a count.
-/

set_option autoImplicit false

namespace EcSlimloader

/-- An operation on the words of a storage. -/
inductive WordOp where
  /-- Write the record `s` to word `k`. -/
  | program (k : Nat) (s : State)
  /-- Erase the pages `lo ≤ i < hi`. -/
  | erase (lo hi : Nat)

namespace WordOp

/-- The words after the operation. -/
def apply (pageWords : Nat) : WordOp → (Nat → Word) → Nat → Word
  | .program k s, w => RecordLog.program k s.asBytes w
  | .erase lo hi, w => RecordLog.erase blank (lo * pageWords) (hi * pageWords) w

/-- The operation is allowed on a storage that holds the words `w`. -/
def Legal (pages pageWords : Nat) (w : Nat → Word) : WordOp → Prop
  | .program k _ => k < pages * pageWords ∧ w k = blank
  | .erase lo hi => lo ≤ hi ∧ hi ≤ pages

/-- The request to the storage. -/
def request (pageWords : Nat) : WordOp → FlashOp
  | .program k s => .write (UInt32.ofNat (2 * k)) (FlashJournal.recordBytes s)
  | .erase lo hi =>
      .erase (UInt32.ofNat (lo * (2 * pageWords))) (UInt32.ofNat (hi * (2 * pageWords)))

/-- The words after some operations. -/
def applyAll (pageWords : Nat) : List WordOp → (Nat → Word) → Nat → Word
  | [], w => w
  | op :: ops, w => applyAll pageWords ops (op.apply pageWords w)

/-- Each operation is allowed when its turn comes. -/
def LegalAll (pages pageWords : Nat) : List WordOp → (Nat → Word) → Prop
  | [], _ => True
  | op :: ops, w => op.Legal pages pageWords w ∧ LegalAll pages pageWords ops (op.apply pageWords w)

end WordOp

/-- The operations of an update with the record `s`, one case per branch of
`writeState`. -/
def storeOps (pages pageWords : Nat) (w : Nat → Word) (s : State) : List WordOp :=
  match (scanWords w (pages * pageWords)).empty, (scanWords w (pages * pageWords)).last with
  | some a, _ => [.program a s]
  | none, some (_, i) =>
      if pageWords ≤ i then [.erase 0 1, .program 0 s, .erase 1 pages]
      else [.erase 1 pages, .program pageWords s]
  | none, none => [.erase 0 pages, .program 0 s]

section StoreOps

variable {pages pageWords : Nat} {w : Nat → Word} {s : State}

/-- The first case: there is an empty word behind the last record, and the update only writes. -/
theorem storeOps_append {a : Nat} (he : (scanWords w (pages * pageWords)).empty = some a) :
    storeOps pages pageWords w s = [.program a s] := by
  unfold storeOps
  rw [he]

/-- The roll-over from the last page to the first one. The record on the other page is there until
the new one is written, and only then are the other pages erased. -/
theorem storeOps_roll {b : State} {i : Nat}
    (he : (scanWords w (pages * pageWords)).empty = none)
    (hl : (scanWords w (pages * pageWords)).last = some (b, i)) (hi : pageWords ≤ i) :
    storeOps pages pageWords w s = [.erase 0 1, .program 0 s, .erase 1 pages] := by
  unfold storeOps
  rw [he, hl]
  exact if_pos hi

/-- A full storage whose last record is on the first page: the other pages are erased first, and
the record on the first page stays where it is. -/
theorem storeOps_spill {b : State} {i : Nat}
    (he : (scanWords w (pages * pageWords)).empty = none)
    (hl : (scanWords w (pages * pageWords)).last = some (b, i)) (hi : ¬ pageWords ≤ i) :
    storeOps pages pageWords w s = [.erase 1 pages, .program pageWords s] := by
  unfold storeOps
  rw [he, hl]
  exact if_neg hi

/-- A storage without a record and without an empty word is erased as a whole. -/
theorem storeOps_clear (he : (scanWords w (pages * pageWords)).empty = none)
    (hl : (scanWords w (pages * pageWords)).last = none) :
    storeOps pages pageWords w s = [.erase 0 pages, .program 0 s] := by
  unfold storeOps
  rw [he, hl]

/-- The operations of an update make the words of `storeWords`. -/
theorem applyAll_storeOps :
    WordOp.applyAll pageWords (storeOps pages pageWords w s) w
      = storeWords pages pageWords w s := by
  unfold storeOps storeWords
  cases (scanWords w (pages * pageWords)).empty with
  | some a => rfl
  | none =>
      cases (scanWords w (pages * pageWords)).last with
      | none =>
          simp only [WordOp.applyAll, WordOp.apply, Nat.zero_mul]
      | some p =>
          simp only
          split <;> simp only [WordOp.applyAll, WordOp.apply, Nat.zero_mul, Nat.one_mul]

/-- Every operation of an update is allowed when its turn comes. -/
theorem legalAll_storeOps (hP : 2 ≤ pages) (hW : 0 < pageWords) :
    WordOp.LegalAll pages pageWords (storeOps pages pageWords w s) w := by
  have hlt := pageWords_lt_words hP hW
  cases he : (scanWords w (pages * pageWords)).empty with
  | some a =>
      obtain ⟨ha, hblank, -⟩ := behind_of_empty he
      rw [storeOps_append he]
      -- The scan has found an erased word, and that is where the record goes.
      exact ⟨⟨ha, hblank⟩, trivial⟩
  | none =>
      cases hl : (scanWords w (pages * pageWords)).last with
      | none =>
          rw [storeOps_clear he hl]
          -- Everything was erased just before, so the first word is free.
          exact ⟨⟨by omega, by omega⟩, ⟨by omega,
            RecordLog.erase_of_mem (by omega) (by omega) w⟩, trivial⟩
      | some p =>
          obtain ⟨b, i⟩ := p
          by_cases hi : pageWords ≤ i
          · rw [storeOps_roll he hl hi]
            exact ⟨⟨by omega, by omega⟩, ⟨by omega,
              RecordLog.erase_of_mem (by omega) (by omega) w⟩, ⟨by omega, by omega⟩, trivial⟩
          · rw [storeOps_spill he hl hi]
            -- The record goes to the second page, which exists because there are two.
            exact ⟨⟨by omega, by omega⟩, ⟨hlt,
              RecordLog.erase_of_mem (by omega) hlt w⟩, trivial⟩

end StoreOps

namespace FlashJournal

variable {T E : Type} [NorFlash T E] {pages pageWords : Nat} [PagedFlash T E pages pageWords]

/-- `writeState` is its list of operations. -/
theorem writeState_eq_ops (w : Nat → Word) (s : State) (t : T) :
    (writeState (cacheOfScan (scanWords w (pages * pageWords))) s : Exec E T Unit)
      = (storeOps pages pageWords w s).forM fun op => (op.request pageWords).run := by
  cases he : (scanWords w (pages * pageWords)).empty with
  | some a =>
      rw [storeOps_append he]
      unfold writeState
      simp only [cacheOfScan, he, Option.map_some, List.forM_eq_forM, List.forM_cons,
        List.forM_nil, bind_pure_unit, WordOp.request, FlashOp.run]
  | none =>
      cases hl : (scanWords w (pages * pageWords)).last with
      | none =>
          rw [storeOps_clear he hl]
          unfold writeState
          simp only [cacheOfScan, he, hl, Option.map_none]
          -- `clear_eq` has the page count of the storage in place of the computed one.
          rw [clear_eq]
          simp only [List.forM_eq_forM, List.forM_cons, List.forM_nil, bind_pure_unit,
            WordOp.request, FlashOp.run]
      | some p =>
          obtain ⟨b, i⟩ := p
          by_cases hi : pageWords ≤ i
          · rw [storeOps_roll he hl hi, writeState_eq_roll s he hl hi t, roll_eq]
            simp only [List.forM_eq_forM, List.forM_cons, List.forM_nil, bind_pure_unit,
              WordOp.request, FlashOp.run]
          · rw [storeOps_spill he hl hi, writeState_eq_spill s he hl hi t, spill_eq]
            simp only [List.forM_eq_forM, List.forM_cons, List.forM_nil, bind_pure_unit,
              WordOp.request, FlashOp.run]

/-- What a step lemma has to show about one legal operation: it makes the words that it
should, and the invariant goes on to the operations behind it. -/
def OpStep (T : Type) {E : Type} [NorFlash T E] {pages pageWords : Nat}
    [PagedFlash T E pages pageWords] (I : List WordOp → T → Prop) (C : Fault E → T → Prop) : Prop :=
  ∀ (w : Nat → Word) (op : WordOp) (ops : List WordOp), op.Legal pages pageWords w →
    Triple (fun t : T => word (ReadableFlash.content t) = w ∧ I (op :: ops) t)
      (op.request pageWords).run
      (fun _ t => word (ReadableFlash.content t) = op.apply pageWords w ∧ I ops t) C

variable {I : List WordOp → T → Prop} {C : Fault E → T → Prop}

/-- The rule for a list of operations. -/
theorem ops_triple (step : OpStep T I C) (ops : List WordOp) (w : Nat → Word)
    (hlegal : WordOp.LegalAll pages pageWords ops w) :
    Triple (fun t : T => word (ReadableFlash.content t) = w ∧ I ops t)
      (ops.forM fun op => (op.request pageWords).run)
      (fun _ t => word (ReadableFlash.content t) = WordOp.applyAll pageWords ops w ∧ I [] t)
      C := by
  -- Each operation is legal on the words that the ones in front of it have left.
  induction ops generalizing w with
  | nil => exact Triple.pure _ fun _ h => h
  | cons op ops ih =>
      obtain ⟨hop, hops⟩ := hlegal
      exact Triple.bind (step w op ops hop) fun _ => ih _ hops

/-- The rule for `writeState`. -/
theorem writeState_triple (step : OpStep T I C) (w : Nat → Word) (s : State) :
    Triple (fun t : T => word (ReadableFlash.content t) = w ∧ I (storeOps pages pageWords w s) t)
      (writeState (cacheOfScan (scanWords w (pages * pageWords))) s)
      (fun _ t => word (ReadableFlash.content t) = storeWords pages pageWords w s ∧ I [] t)
      C := by
  intro t ht
  have hlegal : WordOp.LegalAll pages pageWords (storeOps pages pageWords w s) w :=
    legalAll_storeOps (PagedFlash.two_le_pages (T := T)) (PagedFlash.pageWords_pos (T := T))
  -- The words in the end are those of `storeWords`, by the list of operations.
  rw [writeState_eq_ops w s t, ← applyAll_storeOps]
  exact ops_triple step _ w hlegal t ht

/-- Reading the whole storage succeeds and leaves it as it is. -/
def SteadyReads (T : Type) {E : Type} [NorFlash T E] [ReadableFlash T E] : Prop :=
  ∀ {n : Nat}, BlockSize n → ∀ t : T,
    (computeCache n : Exec E T Cache) t = .ok (scanCache (ReadableFlash.content t)) t

/-- The rule for a `set` that changes the current record, on a storage with steady reads. -/
theorem set_triple (step : OpStep T I C) (hreads : SteadyReads T) {n : Nat} (hn : BlockSize n)
    (w : Nat → Word) (s : State)
    (hne : RecordLog.current State.read? w (pages * pageWords) ≠ some s) :
    Triple (fun j : FlashJournal T => InSync j ∧ word (ReadableFlash.content j.inner) = w ∧
        I (storeOps pages pageWords w s) j.inner)
      (set n s)
      (fun _ j => InSync j ∧ word (ReadableFlash.content j.inner) = storeWords pages pageWords w s ∧
        j.get = some s ∧ I [] j.inner)
      (fun e j => ∃ e', e = e'.map .Other ∧ C e' j.inner) := by
  rintro j ⟨hsync, hw, hI⟩
  have hget : j.get ≠ some s := by
    rw [hsync.get_eq, persisted, hw]
    exact hne
  have hcache : j.cache = cacheOfScan (scanWords w (pages * pageWords)) := by
    rw [hsync, scanCache_content, hw]
  -- The handle is in sync, so its cache is the one that `writeState_triple` is about.
  have hwrite := writeState_triple step w s j.inner ⟨hw, hI⟩
  rw [set_run_of_ne hget, hcache]
  cases hrun : (writeState (cacheOfScan (scanWords w (pages * pageWords))) s : Exec E T Unit)
      j.inner with
  | error e t =>
      rw [hrun] at hwrite
      exact ⟨e, rfl, hwrite⟩
  | ok u t =>
      rw [hrun] at hwrite
      obtain ⟨hwords, hI'⟩ := hwrite
      -- The cache is computed again behind the write, so the new handle is in sync too.
      have hsync' : InSync (FlashJournal.mk t (scanCache (ReadableFlash.content t))) := rfl
      have hget' : (FlashJournal.mk t (scanCache (ReadableFlash.content t))).get = some s := by
        rw [hsync'.get_eq, persisted, hwords]
        exact current_storeWords (PagedFlash.two_le_pages (T := T))
          (PagedFlash.pageWords_pos (T := T)) w s
      -- The readback finds what was written.
      simp only [hreads hn t]
      rw [if_pos hget']
      exact ⟨hsync', hwords, hget', hI'⟩

end FlashJournal

end EcSlimloader
