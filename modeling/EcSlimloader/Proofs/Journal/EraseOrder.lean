import EcSlimloader.Proofs.Journal.Faulty

/-!
# `EcSlimloader.Proofs.Journal.EraseOrder`: interrupted updates when an erase has no order

The roll-over branch of `set` erases all pages behind the first one with one erase
of the storage. The record that is replaced is in that range, and so are older
ones. On a flash that erases in any order, an interruption of this erase can keep
an older record and lose the replaced one.

`set_unordered_iff` says when this happens. In every run, on every handle, an
interrupted `set` leaves the old or the new state, exactly when the update is no
roll-over that exposes a superseded record. `exposedHandle_not_atomic` is a run
from an erased flash that reads a superseded state in the end.

The exact condition has two directions. If the update does not expose a superseded record, no erase
that is cut can make one current (`TornSet.current_of_not_exposes`). If it does, `exposed_run` gives
the interruption: the erase spares the exposed record and clears every other word.

So the faulty flash has to be able to do this. `erase_sparing` says that its erase can clear every
word but one, which a flash with no order may do.
-/

set_option autoImplicit false

namespace EcSlimloader

open RecordLog (last current TornErase)
open FlashJournal

/-- The update with `s` is a roll-over, and among the records in the pages that it
erases last there is one that is neither the current state nor `s`. -/
def RollOverExposes (pages pageWords : Nat) (w : Nat → Word) (s : State) : Prop :=
  ∃ b i, (scanWords w (pages * pageWords)).empty = none ∧
    last State.read? w (pages * pageWords) = some (b, i) ∧ pageWords ≤ i ∧ b ≠ s ∧
    ∃ k c, pageWords ≤ k ∧ k < i ∧ State.read? (w k) = some c ∧ c ≠ b ∧ c ≠ s

/-- When no superseded record is exposed, an interrupted update leaves the old or
the new record as the current one. -/
theorem TornSet.current_of_not_exposes {pages pageWords : Nat} (hP : 2 ≤ pages)
    (hW : 0 < pageWords) {w w' : Nat → Word} {s : State}
    (h : TornSet (TornErase State.read?) pages pageWords w s w')
    (hne : current State.read? w (pages * pageWords) ≠ some s)
    (hexp : ¬ RollOverExposes pages pageWords w s) :
    current State.read? w' (pages * pageWords) = current State.read? w (pages * pageWords) ∨
      current State.read? w' (pages * pageWords) = some s := by
  have hlt := pageWords_lt_words hP hW
  rcases h.current_cases hP hW fun _ _ _ _ h => h with h' | ⟨b, i, he, hl, hi, herase⟩
  · exact h'
  · have hfront : State.read? (rolled pageWords w s 0) = some s := by
      rw [rolled_zero]
      exact State.read?_asBytes s
    rcases herase.current_of_front hW (by omega) hfront
        (fun k h0 hk => by rw [rolled_gap h0 hk]; exact read?_blank) with
      hnew | ⟨k, c, hk, hkn, hlk, hvk⟩
    · exact .inr hnew
    · -- The surviving record was there before: it is the last one, or superseded.
      rw [rolled_rest hW hk] at hvk
      obtain ⟨-, hb, hafter⟩ := RecordLog.last_eq_some_iff.mp hl
      have hki : k ≤ i := by
        by_contra hlt'
        exact nomatch (hafter k (by omega) hkn).symm.trans hvk
      have hcurrent : current State.read? w (pages * pageWords) = some b :=
        RecordLog.current_eq_some hl
      rw [RecordLog.current_eq_some hlk, hcurrent]
      by_cases hki' : k = i
      · subst hki'
        exact .inl (hvk.symm.trans hb)
      · by_cases hcb : c = b
        · exact .inl (by rw [hcb])
        · by_cases hcs : c = s
          · exact .inr (by rw [hcs])
          · exact absurd ⟨b, i, he, hl, hi, fun hbs => hne (by rw [hcurrent, hbs]),
              k, c, hk, by omega, hvk, hcb, hcs⟩ hexp

namespace FaultyFlash

variable {pages pageWords : Nat}

/-- The property of one `set` of `s` on the handle `j`, with the interruptions
`plan`: when it fails, every open afterwards reads what `j` read before, or `s`. -/
def EraseAtomic (j : FlashJournal (FaultyFlash .unordered pages pageWords)) (n : Nat)
    (s : State) (plan : List (Option Interruption)) : Prop :=
  match set n s (Device.armed plan j) with
  | .ok _ _ => True
  | .error _ j' => OpensTo (fun o => o = j.get ∨ o = some s) j'.inner

variable [hg : Geometry pages pageWords]

/-- What is persisted after an interrupted `set`, if it fails. -/
def persistedOnError (j : FlashJournal (FaultyFlash .unordered pages pageWords)) (n : Nat)
    (s : State) (plan : List (Option Interruption)) : Option (Option State) :=
  match set n s (Device.armed plan j) with
  | .ok _ _ => none
  | .error _ j' => some (persisted pages pageWords j'.inner)

/-- An interrupted `set` that leaves a third value breaks the property. -/
theorem not_eraseAtomic {j : FlashJournal (FaultyFlash .unordered pages pageWords)} {n : Nat}
    {s : State} {plan : List (Option Interruption)} {o : Option State}
    (hrun : persistedOnError j n s plan = some o) (hold : o ≠ j.get) (hnew : o ≠ some s) :
    ¬ EraseAtomic j n s plan := by
  unfold EraseAtomic
  unfold persistedOnError at hrun
  cases hset : set n s (Device.armed plan j) with
  | ok u j' =>
      rw [hset] at hrun
      cases hrun
  | error e j' =>
      rw [hset] at hrun
      cases hrun
      show ¬ OpensTo _ j'.inner
      rw [opensTo_iff]
      rintro (h | h)
      · exact hold h
      · exact hnew h

section Exposed

variable {t : FaultyFlash .unordered pages pageWords}

/-- An erase that is not interrupted. -/
theorem erase_ok (hhead : t.plan.head?.join = none) {lo hi : Nat} (hle : lo ≤ hi)
    (hhi : hi ≤ pages) :
    ∃ f, (NorFlash.erase (UInt32.ofNat (lo * (2 * pageWords)))
        (UInt32.ofNat (hi * (2 * pageWords))) : Exec FaultyFlashError _ Unit) t
          = .ok () (t.after f) ∧
      MockFlashBase.ErasedTo t.flash (2 * (lo * pageWords)) (2 * (hi * pageWords)) f := by
  obtain ⟨f, hf, herased⟩ := MockFlashBase.erase_ok (t.armedFlash none) rfl hle hhi
  refine ⟨f, ?_, herased.bytes, herased.flags⟩
  rw [norFlash_erase, erase_quiet t _ _ hhead, onFlash_ok hf]

/-- A write of a record into a writable erased word that is not interrupted. -/
theorem write_ok (hhead : t.plan.head?.join = none) {k : Nat} (s : State)
    (hk : k < pages * pageWords) (hblank : word t.flash.data.toList k = blank)
    (hflag : t.flash.flagAt k = .O) :
    ∃ f, (NorFlash.write (UInt32.ofNat (2 * k)) (recordBytes s) :
        Exec FaultyFlashError _ Unit) t = .ok () (t.after f) ∧
      word f.data.toList = RecordLog.program k s.asBytes (word t.flash.data.toList) := by
  have hcases := MockFlashBase.write_cases (t.armedFlash none) s hk
  have hlaw := PagedFlash.write_law (t.armedFlash none) k s hk hblank
  rw [norFlash_write, write_quiet t _ _ hhead]
  cases hr : (NorFlash.write (UInt32.ofNat (2 * k)) (recordBytes s) :
      Exec MockFlashError _ Unit) (t.armedFlash none) with
  | ok u f =>
      rw [hr] at hlaw
      exact ⟨f, onFlash_ok hr, hlaw.1⟩
  | error e f =>
      have hr' : MockFlashBase.write (UInt32.ofNat (2 * k)) (recordBytes s)
          (t.armedFlash none) = .error e f := hr
      rw [hr'] at hcases
      rcases hcases.2 with h | h
      · exact absurd rfl h.1
      · cases h.symm.trans hflag

/-- An interrupted erase of all pages behind the first one that spares word `k`. -/
theorem erase_sparing {k : Nat}
    (hhead : t.plan.head?.join = some ⟨0, fun x => x != k⟩) :
    ∃ f, (NorFlash.erase (UInt32.ofNat (1 * (2 * pageWords)))
        (UInt32.ofNat (pages * (2 * pageWords))) : Exec FaultyFlashError _ Unit) t
          = .error (.error .Interrupted) { flash := f, plan := t.plan.tail } ∧
      ∀ i, word f.data.toList i = if pageWords ≤ i ∧ i < pages * pageWords ∧ i ≠ k then blank
        else word t.flash.data.toList i := by
  have hP := hg.two_le_pages
  obtain ⟨f, hf, -⟩ := MockFlashBase.erase_ok (t.armedFlash none) rfl
    (by omega : 1 ≤ pages) (Nat.le_refl pages)
  refine ⟨_, by rw [norFlash_erase, erase_interrupted_unordered t _ _ hhead hf], fun i => ?_⟩
  rw [Geometry.toNat_page (by omega : 1 ≤ pages), Geometry.toNat_page (Nat.le_refl pages),
    Nat.one_mul, word_clearWords]
  simp only [bne_iff_ne]

/-- A roll-over that is interrupted in its last erase with word `k` spared: the
first page holds the new record, and behind it only word `k` is left. -/
theorem roll_sparing {k : Nat} (s : State)
    (hplan : t.plan = [none, none, some ⟨0, fun x => x != k⟩]) :
    ∃ f, (do
        NorFlash.erase (UInt32.ofNat (0 * (2 * pageWords))) (UInt32.ofNat (1 * (2 * pageWords)))
        NorFlash.write (UInt32.ofNat (2 * 0)) (recordBytes s)
        NorFlash.erase (UInt32.ofNat (1 * (2 * pageWords)))
          (UInt32.ofNat (pages * (2 * pageWords))) : Exec FaultyFlashError _ Unit) t
        = .error (.error .Interrupted) { flash := f, plan := [] } ∧
      ∀ i, word f.data.toList i = if pageWords ≤ i ∧ i < pages * pageWords ∧ i ≠ k then blank
        else rolled pageWords (word t.flash.data.toList) s i := by
  have hP := hg.two_le_pages
  have hW := hg.pageWords_pos
  have hlt := pageWords_lt_words hP hW
  -- The first erase and the write are not interrupted.
  obtain ⟨f1, h1, herased⟩ := erase_ok (t := t) (by rw [hplan]; rfl) (Nat.zero_le 1)
    (by omega : 1 ≤ pages)
  rw [Nat.zero_mul, Nat.one_mul] at herased
  have hwords1 : word f1.data.toList
      = RecordLog.erase blank 0 pageWords (word t.flash.data.toList) := herased.words
  have hblank : word f1.data.toList 0 = blank := by
    rw [hwords1]
    exact erase_zero_eq_blank hW
  have hflag : f1.flagAt 0 = .O := by rw [herased.flags, if_pos (by omega)]
  obtain ⟨f2, h2, hwords2⟩ := write_ok (t := t.after f1) (by rw [after, hplan]; rfl) s
    (by omega : 0 < pages * pageWords) hblank hflag
  -- The second erase is, and it has cleared every word but `k`.
  obtain ⟨f3, h3, hwords3⟩ := erase_sparing (t := (t.after f1).after f2) (k := k)
    (by simp only [after, hplan]; rfl)
  refine ⟨f3, ?_, fun i => ?_⟩
  · rw [Exec.bind_ok h1, Exec.bind_ok h2, h3]
    simp only [after, hplan]
    rfl
  · have h2' : word f2.data.toList i = rolled pageWords (word t.flash.data.toList) s i := by
      rw [hwords2]
      show RecordLog.program 0 s.asBytes (word f1.data.toList) i = _
      rw [hwords1, rolled]
    rw [hwords3, ← h2']
    rfl

end Exposed

/-- A roll-over that exposes a superseded record can leave it as the current one. -/
theorem exposed_run {j : FlashJournal (FaultyFlash .unordered pages pageWords)}
    (hsync : InSync j) {s : State}
    (hexp : RollOverExposes pages pageWords (word (ReadableFlash.content j.inner)) s) :
    ∃ plan o, persistedOnError j 2 s plan = some o ∧ o ≠ j.get ∧ o ≠ some s := by
  have hW := hg.pageWords_pos
  obtain ⟨b, i, he, hl, hi, hbs, k, c, hk, hki, hvk, hcb, hcs⟩ := hexp
  obtain ⟨hin, -, -⟩ := RecordLog.last_eq_some_iff.mp hl
  -- The plan: two operations that succeed, and an erase that spares the exposed record `k`.
  let plan : List (Option Interruption) := [none, none, some ⟨0, fun x => x != k⟩]
  have harmed : InSync (Device.armed plan j) := Device.inSync_armed plan hsync
  have hget : j.get = some b := by
    rw [hsync.get_eq]
    exact RecordLog.current_eq_some hl
  have hget' : (Device.armed plan j).get ≠ some s := by
    show j.get ≠ some s
    rw [hget]
    exact fun h => hbs (Option.some.inj h)
  have hcache : (Device.armed plan j).cache = cacheOfScan (scanWords
      (word (ReadableFlash.content j.inner)) (pages * pageWords)) := by
    rw [harmed, scanCache_content]
    rfl
  obtain ⟨f, hrun, hwords⟩ := roll_sparing (t := (Device.armed plan j).inner) (k := k) s rfl
  -- Everything behind `k` is blank, so the spared record is the last one, and it is a superseded
  -- one.
  have hlast : last State.read? (word f.data.toList) (pages * pageWords) = some (c, k) := by
    refine RecordLog.last_eq_some_iff.mpr ⟨by omega, ?_, fun m hkm hm => ?_⟩
    · rw [hwords, if_neg (by omega), rolled_rest hW hk]
      exact hvk
    · rw [hwords, if_pos (by omega)]
      exact read?_blank
  have hpers : persisted pages pageWords ({ flash := f, plan := [] } :
      FaultyFlash .unordered pages pageWords) = some c := RecordLog.current_eq_some hlast
  refine ⟨plan, some c, ?_, ?_, fun h => hcs (Option.some.inj h)⟩
  · have hwrite : (writeState (Device.armed plan j).cache s : Exec FaultyFlashError _ Unit)
        (Device.armed plan j).inner = .error (.error .Interrupted) { flash := f, plan := [] } := by
      rw [hcache, writeState_eq_roll s he (by rw [last_of_scan]; exact hl) hi
        (Device.armed plan j).inner, roll_eq]
      exact hrun
    rw [persistedOnError, set_run_of_ne hget', hwrite]
    exact congrArg some hpers
  · rw [hget]
    exact fun h => hcb (Option.some.inj h)

end FaultyFlash

/-- Atomicity on a flash that erases in any order. In every run, on every handle
and for every state, each interrupted `set` leaves the old or the new state,
exactly when the update is no roll-over that exposes a superseded record. -/
theorem set_unordered_iff {pages pageWords : Nat} [Geometry pages pageWords]
    (f₀ : FaultyFlash .unordered pages pageWords)
    (j : FlashJournal (FaultyFlash .unordered pages pageWords))
    (hrun : Device.Run (.off f₀) (.on j)) (s : State) :
    (∀ n, BlockSize n → ∀ plan, FaultyFlash.EraseAtomic j n s plan) ↔
      ¬ RollOverExposes pages pageWords (word (ReadableFlash.content j.inner)) s := by
  have hP : 2 ≤ pages := Geometry.two_le_pages pageWords
  have hW : 0 < pageWords := Geometry.pageWords_pos pages
  have hsync : InSync j := Device.synced_of_run hrun
  constructor
  · intro h hexp
    obtain ⟨plan, o, hrun', hold, hnew⟩ := FaultyFlash.exposed_run hsync hexp
    exact FaultyFlash.not_eraseAtomic hrun' hold hnew (h 2 ⟨Nat.le_refl 2, rfl⟩ plan)
  · intro hexp n hn plan
    have harmed : InSync (Device.armed plan j) := Device.inSync_armed plan hsync
    unfold FaultyFlash.EraseAtomic
    cases hset : set n s (Device.armed plan j) with
    | ok u j' => trivial
    | error e j' =>
        -- A `set` of the cached state does not fail.
        have hne : j.get ≠ some s := by
          intro hget
          have hget' : (Device.armed plan j).get = some s := hget
          rw [set_run_of_eq hget'] at hset
          cases hset
        obtain ⟨htorn | hdone, -⟩ := (set_spec _ False hn s).of_error
          ⟨harmed, rfl, False.elim⟩ hset
        · refine FaultyFlash.opensTo_iff.mpr ?_
          rw [hsync.get_eq] at hne ⊢
          exact TornSet.current_of_not_exposes hP hW htorn hne hexp
        · refine FaultyFlash.opensTo_iff.mpr (.inr ?_)
          rw [persisted, hdone]
          exact current_storeWords hP hW _ s

/-- An erased flash of two pages of two words, with nothing planned. -/
def exposedFlash : FaultyFlash .unordered 2 2 := { flash := .new none, plan := [] }

/-- A handle that has opened the erased flash. -/
def openedHandle : FlashJournal (FaultyFlash .unordered 2 2) :=
  { inner := exposedFlash, cache := { lastValidState := none, firstEmptySlot := some 0 } }

/-- Four states that fill the flash. -/
def fillingStates : List State :=
  [State.new .Initial .S1 .S0, State.new .Attempting .S1 .S0, State.new .Failed .S1 .S0,
    State.new .Initial .S2 .S0]

/-- The handle after they have been set. -/
def exposedHandle : FlashJournal (FaultyFlash .unordered 2 2) :=
  (Device.setAll 2 [] fillingStates openedHandle).get (by decide +kernel)

/-- The handle is reached by opening the erased flash and setting the states. -/
theorem run_exposedHandle : Device.Run (.off exposedFlash) (.on exposedHandle) := by
  have hopen : Device.Step (.off exposedFlash) (.on openedHandle) :=
    .openOk _ 2 [] openedHandle exposedFlash ⟨by decide, by decide⟩ rfl
  have hsize : BlockSize 2 := ⟨by decide, by decide⟩
  exact .head hopen (Device.run_setAll hsize (Option.some_get _).symm)

/-- The equivalence at this handle. -/
theorem set_unordered_iff_exposed :
    (∀ n, BlockSize n → ∀ plan,
        FaultyFlash.EraseAtomic exposedHandle n (State.new .Attempting .S2 .S0) plan) ↔
      ¬ RollOverExposes 2 2 (word (ReadableFlash.content exposedHandle.inner))
        (State.new .Attempting .S2 .S0) :=
  set_unordered_iff exposedFlash exposedHandle run_exposedHandle (State.new .Attempting .S2 .S0)

/-- The next state rolls over, and the interruption of its last erase clears only
the word of the current state: the state before it is back. -/
theorem exposedHandle_not_atomic :
    Device.Run (.off exposedFlash) (.on exposedHandle) ∧
      ¬ FaultyFlash.EraseAtomic exposedHandle 2 (State.new .Attempting .S2 .S0)
        [none, none, some ⟨0, fun x => x == 3⟩] := by
  have hget : exposedHandle.get = some (State.new .Initial .S2 .S0) := by decide +kernel
  have hrun : FaultyFlash.persistedOnError exposedHandle 2 (State.new .Attempting .S2 .S0)
      [none, none, some ⟨0, fun x => x == 3⟩] = some (some (State.new .Failed .S1 .S0)) := by
    decide +kernel
  refine ⟨run_exposedHandle, FaultyFlash.not_eraseAtomic hrun ?_ (by decide +kernel)⟩
  rw [hget]
  decide +kernel

end EcSlimloader
