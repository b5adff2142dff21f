import EcSlimloader.Proofs.Journal.Set
import Mathlib.Logic.Relation

/-!
# `EcSlimloader.Proofs.Journal.Runs`: runs of a journal with interruptions

A device holds a storage and, while it is on, a journal handle. Its steps are:
open the journal, run a `set` that returns, and run a `set` that fails. A failed
`set` drops the handle, and the storage keeps what the failure left behind.
Before each step the environment arms the storage: it chooses where the next
operation is interrupted, if it is.

`Device.synced_of_run` is the invariant of all runs: the handle of a device that is on
knows what the storage holds. `TornSet.current_cases` says which record an
interrupted `set` leaves as the current one. For an ascending erase it is the
old one or the new one (`TornSet.current_of_ascending`). For an erase without an
order this can fail in one place only, the erase that ends a roll-over.

`Powered` and `LawfulPowered` say what the environment may do between two steps: it arms the
storage, and this leaves the content as it is. So a handle stays in sync, and what it knows of the
storage does not depend on the interruption that is planned.

The current record after an interrupted update is found per operation. In most of them the words
behind the cut hold no record, so the last one stays the last.
-/

set_option autoImplicit false

namespace EcSlimloader

open RecordLog (program erase last current TornProgram TornErase AscendingErase)
open FlashJournal

/-! ### The current record after an interrupted update

`rolled` is the content between the two erases of a roll-over: the new record in the first word, and
behind the first page what was there. The last record of such a content is the old one as long as
the erase has not reached it. -/

section Torn

variable {pages pageWords : Nat} {w w' : Nat → Word} {s b : State} {i : Nat}
  {tornErase : Nat → Nat → (Nat → Word) → (Nat → Word) → Prop}

/-- The words of a roll-over before its last erase: the first page holds the new
record only, the other pages are untouched. -/
def rolled (pageWords : Nat) (w : Nat → Word) (s : State) : Nat → Word :=
  program 0 s.asBytes (erase blank 0 pageWords w)

/-- The first word is the new record. -/
theorem rolled_zero : rolled pageWords w s 0 = s.asBytes := RecordLog.program_self _ _ _

/-- The rest of the first page is blank. -/
theorem rolled_gap {k : Nat} (h0 : 0 < k) (hk : k < pageWords) :
    rolled pageWords w s k = blank := by
  rw [rolled, RecordLog.program_of_ne (by omega),
    RecordLog.erase_of_mem (Nat.zero_le k) hk]

/-- The other pages hold what they held. -/
theorem rolled_rest {k : Nat} (h0 : 0 < pageWords) (hk : pageWords ≤ k) :
    rolled pageWords w s k = w k := by
  rw [rolled, RecordLog.program_of_ne (by omega), RecordLog.erase_of_not_mem (by omega)]

/-- Before its last erase a roll-over has kept the last record. -/
theorem last_rolled {n : Nat} (hW : 0 < pageWords)
    (hl : last State.read? w n = some (b, i)) (hi : pageWords ≤ i) :
    last State.read? (rolled pageWords w s) n = some (b, i) :=
  RecordLog.last_frame hl fun _ hij _ => rolled_rest hW (by omega)

/-- An interrupted update leaves the old or the new record as the current one,
unless it was interrupted in the erase that ends a roll-over. -/
theorem TornSet.current_cases (hP : 2 ≤ pages) (hW : 0 < pageWords)
    (htorn : ∀ lo hi v v', tornErase lo hi v v' → TornErase State.read? lo hi v v')
    (h : TornSet tornErase pages pageWords w s w') :
    (current State.read? w' (pages * pageWords) = current State.read? w (pages * pageWords) ∨
      current State.read? w' (pages * pageWords) = some s) ∨
    ∃ b i, (scanWords w (pages * pageWords)).empty = none ∧
      last State.read? w (pages * pageWords) = some (b, i) ∧ pageWords ≤ i ∧
      tornErase pageWords (pages * pageWords) (rolled pageWords w s) w' := by
  have hlt := pageWords_lt_words hP hW
  have hs : State.read? s.asBytes = some s := State.read?_asBytes s
  cases h with
  | append a he h =>
      obtain ⟨ha, -, hbehind⟩ := behind_of_empty he
      exact .inl (h.current ha hs hbehind)
  | rollEraseFirst b i he hl hi h =>
      rw [last_of_scan] at hl
      have hl' := (htorn _ _ _ _ h).last_eq hl (by omega)
      exact .inl (.inl (RecordLog.current_of_last_eq (hl'.trans hl.symm)))
  | rollWrite b i he hl hi h =>
      rw [last_of_scan] at hl
      -- The old record is behind the first page, which is all that changed.
      have hl' : last State.read? w' (pages * pageWords) = some (b, i) := by
        refine RecordLog.last_frame hl fun j hij hj => ?_
        rw [h.1 j (by omega), RecordLog.erase_of_not_mem (by omega)]
      exact .inl (.inl (RecordLog.current_of_last_eq (hl'.trans hl.symm)))
  | rollEraseRest b i he hl hi h =>
      -- The old record is in the range that is erased, so this case is left to the order.
      rw [last_of_scan] at hl
      exact .inr ⟨b, i, he, hl, hi, h⟩
  | spillErase b i he hl hi h =>
      rw [last_of_scan] at hl
      have hl' := (htorn _ _ _ _ h).last_eq hl (by omega)
      exact .inl (.inl (RecordLog.current_of_last_eq (hl'.trans hl.symm)))
  | spillWrite b i he hl hi h =>
      rw [last_of_scan] at hl
      -- The erase has kept the old record, which stands in the first page.
      have hl' := (RecordLog.tornErase_erase read?_blank pageWords (pages * pageWords) w).last_eq
        hl (by omega)
      refine .inl (h.current_of_kept (hl'.trans hl.symm) hlt hs ?_)
      rw [hl]
      intro b' j hj
      cases hj
      exact hi
  | clearErase he hl h =>
      rw [last_of_scan] at hl
      have hl' := (htorn _ _ _ _ h).last_eq_none hl
      exact .inl (.inl (RecordLog.current_of_last_eq (hl'.trans hl.symm)))
  | clearWrite he hl h =>
      rw [last_of_scan] at hl
      have hl' := (RecordLog.tornErase_erase read?_blank 0 (pages * pageWords) w).last_eq_none hl
      refine .inl (h.current_of_kept (hl'.trans hl.symm) (by omega) hs ?_)
      rw [hl]
      exact fun b' j hj => nomatch hj

/-- With ascending erases an interrupted update leaves the old or the new record
as the current one. -/
theorem TornSet.current_of_ascending (hP : 2 ≤ pages) (hW : 0 < pageWords)
    (h : TornSet (AscendingErase State.read?) pages pageWords w s w') :
    current State.read? w' (pages * pageWords) = current State.read? w (pages * pageWords) ∨
      current State.read? w' (pages * pageWords) = some s := by
  rcases h.current_cases hP hW fun _ _ _ _ h => h.torn with h' | ⟨b, i, -, hl, hi, herase⟩
  · exact h'
  · -- The new record is in front and the old one is the last to go.
    have hfront : State.read? (rolled pageWords w s 0) = some s := by
      rw [rolled_zero]
      exact State.read?_asBytes s
    rcases herase.current hW hfront
        (fun k h0 hk => by rw [rolled_gap h0 hk]; exact read?_blank)
        (last_rolled hW hl hi) with h' | h'
    · exact .inl (by rw [h', RecordLog.current_eq_some hl])
    · exact .inr h'

end Torn

/-! ### Runs

The environment arms the storage in front of every step. `setAll` is the run of a list of states,
which the samples use. -/

/-- A storage whose next operations the environment can interrupt. `arm i` plans
the interruptions and does not touch the content. -/
class Powered (T : Type) (ι : outParam Type) where
  arm : ι → T → T

/-- Arming a storage does not change what it holds. -/
class LawfulPowered (T : Type) (E : outParam Type) (ι : outParam Type) [NorFlash T E]
    [ReadableFlash T E] [Powered T ι] : Prop where
  content_arm : ∀ (i : ι) (t : T), ReadableFlash.content (Powered.arm i t)
    = ReadableFlash.content t

/-- A device: a storage without a handle, or an open journal. -/
inductive Device (T : Type) where
  | off (flash : T)
  | on (journal : FlashJournal T)

namespace Device

variable {T E ι : Type} [NorFlash T E]

/-- The storage of a device. -/
def flash : Device T → T
  | .off t => t
  | .on j => j.inner

variable [Powered T ι]

/-- The journal of a device with its storage armed for the next operation. -/
def armed (i : ι) (j : FlashJournal T) : FlashJournal T :=
  { j with inner := Powered.arm i j.inner }

/-- One step of a device. A device that is on can drop its handle and open the
journal again. -/
inductive Step : Device T → Device T → Prop where
  | openOk (d : Device T) (n : Nat) (i : ι) (j : FlashJournal T) (t : T) (hn : BlockSize n)
      (h : new n (Powered.arm i d.flash) = .ok j t) : Step d (.on j)
  | openFail (d : Device T) (n : Nat) (i : ι) (e : Fault (Error E)) (t : T) (hn : BlockSize n)
      (h : new n (Powered.arm i d.flash) = .error e t) : Step d (.off t)
  | setOk (j : FlashJournal T) (n : Nat) (s : State) (i : ι) (j' : FlashJournal T)
      (hn : BlockSize n) (h : set n s (armed i j) = .ok () j') : Step (.on j) (.on j')
  | setFail (j : FlashJournal T) (n : Nat) (s : State) (i : ι) (e : Fault (Error E))
      (j' : FlashJournal T) (hn : BlockSize n) (h : set n s (armed i j) = .error e j') :
      Step (.on j) (.off j'.inner)

/-- A step that only opens the journal. -/
inductive OpenStep : Device T → Device T → Prop where
  | openOk (d : Device T) (n : Nat) (i : ι) (j : FlashJournal T) (t : T) (hn : BlockSize n)
      (h : new n (Powered.arm i d.flash) = .ok j t) : OpenStep d (.on j)
  | openFail (d : Device T) (n : Nat) (i : ι) (e : Fault (Error E)) (t : T) (hn : BlockSize n)
      (h : new n (Powered.arm i d.flash) = .error e t) : OpenStep d (.off t)

/-- A run: any number of steps. -/
def Run : Device T → Device T → Prop := Relation.ReflTransGen Step

/-- A run that only opens the journal. -/
def OpenRun : Device T → Device T → Prop := Relation.ReflTransGen OpenStep

/-- Set the states one after the other, with the same plan for each: the handle in
the end, if no `set` fails. -/
def setAll (n : Nat) (i : ι) : List State → FlashJournal T → Option (FlashJournal T)
  | [], j => some j
  | s :: states, j =>
      match set n s (armed i j) with
      | .ok _ j' => setAll n i states j'
      | .error _ _ => none

/-- Setting states is a run. -/
theorem run_setAll {n : Nat} (hn : BlockSize n) {i : ι} {states : List State}
    {j j' : FlashJournal T} (h : setAll n i states j = some j') : Run (.on j) (.on j') := by
  induction states generalizing j with
  | nil =>
      cases h
      exact .refl
  | cons s states ih =>
      unfold setAll at h
      cases hset : set n s (armed i j) with
      | error e j₁ =>
          rw [hset] at h
          cases h
      | ok u j₁ =>
          rw [hset] at h
          exact .head (.setOk j n s i j₁ hn hset) (ih h)

variable {pages pageWords : Nat} [PagedFlash T E pages pageWords] [LawfulPowered T E ι]

/-- The handle of a device that is on is in sync. -/
def Synced : Device T → Prop
  | .off _ => True
  | .on j => InSync j

/-- The armed journal is still in sync. -/
theorem inSync_armed (i : ι) {j : FlashJournal T} (h : InSync j) : InSync (armed i j) := by
  show j.cache = scanCache (ReadableFlash.content (Powered.arm i j.inner))
  rw [LawfulPowered.content_arm]
  exact h

/-- A step ends in sync. -/
theorem synced_step {d d' : Device T} (hd : Synced d) (h : Step d d') : Synced d' := by
  cases h with
  | openOk _ n i j t hn h =>
      exact ((new_spec (T := T) _ False hn).of_ok ⟨rfl, False.elim⟩ h).2.1
  | openFail => trivial
  | setOk j n s i j' hn h =>
      exact ((set_spec (T := T) _ False hn s).of_ok
        ⟨inSync_armed i hd, rfl, False.elim⟩ h).1
  | setFail => trivial

/-- A run that starts with a storage ends in sync. -/
theorem synced_of_run {t : T} {d : Device T} (h : Run (.off t) d) : Synced d := by
  induction h with
  | refl => trivial
  | tail _ hstep ih => exact synced_step ih hstep

end Device

end EcSlimloader
