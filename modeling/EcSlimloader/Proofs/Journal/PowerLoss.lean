import EcSlimloader.Proofs.Journal.Mock
import EcSlimloader.Proofs.Journal.Runs

/-!
# `EcSlimloader.Proofs.Journal.PowerLoss`: power-loss atomicity on the mock flash

`set_powerLoss` is the main theorem. Take any mock flash, with any bytes and any
write-once flags, and any run of opens and sets with power cuts after any number
of bytes. A `set` that fails leaves a storage from which every later open reads
the state from before, or the new one. A `set` that returns leaves the new one,
for every later open before the next `set`.

A failed `set` is a power cut, or the refusal of a word whose write-once flag is
taken. Both are covered: after either one the handle is dropped.

The two halves are `persisted_of_set_error` and `persisted_of_set_ok`. They take the invariant of
all runs from `synced_of_run`, and that an open reads what is persisted from `persisted_of_openRun`.
That the mock flash erases in ascending order is used in one place, `TornSet.current_of_ascending`.

The buffer sizes are those of each call. An open may use another one than the `set` in front of it.
-/

set_option autoImplicit false

namespace EcSlimloader

open FlashJournal

namespace MockFlashBase

variable {pages pageWords : Nat}

/-- The environment of a mock flash: the number of byte operations until the
power is cut, or no cut. -/
instance : Powered (MockFlashBase pages 2 pageWords) (Option Nat) where
  arm cut f := { f with bytesUntilShutoff := cut }

instance [Geometry pages pageWords] :
    LawfulPowered (MockFlashBase pages 2 pageWords) MockFlashError (Option Nat) where
  content_arm _ _ := rfl

variable [Geometry pages pageWords]

/-- A `set` that fails on a handle in sync keeps the persisted record or stores
the new one. -/
theorem persisted_of_set_error {j j' : FlashJournal (MockFlashBase pages 2 pageWords)}
    (hsync : InSync j) {n : Nat} (hn : BlockSize n) {s : State}
    {e : Fault (Error MockFlashError)} (h : set n s j = .error e j') :
    persisted pages pageWords j'.inner = persisted pages pageWords j.inner ∨
      persisted pages pageWords j'.inner = some s := by
  obtain ⟨htorn | hdone, -⟩ := (set_spec _ False hn s).of_error ⟨hsync, rfl, False.elim⟩ h
  · exact TornSet.current_of_ascending (Geometry.two_le_pages pageWords)
      (Geometry.pageWords_pos pages) htorn
  · refine .inr ?_
    rw [persisted, hdone]
    exact current_storeWords (Geometry.two_le_pages pageWords) (Geometry.pageWords_pos pages)
      _ s

/-- A `set` that returns on a handle in sync stores the new record. -/
theorem persisted_of_set_ok {j j' : FlashJournal (MockFlashBase pages 2 pageWords)}
    (hsync : InSync j) {n : Nat} (hn : BlockSize n) {s : State}
    (h : set n s j = .ok () j') :
    InSync j' ∧ persisted pages pageWords j'.inner = some s := by
  have hs := (set_spec _ False hn s).of_ok ⟨hsync, rfl, False.elim⟩ h
  exact ⟨hs.1, hs.2.1⟩

/-- Opening the journal does not change the persisted record. -/
theorem persisted_of_openRun {d d' : Device (MockFlashBase pages 2 pageWords)}
    (h : Device.OpenRun d d') :
    persisted pages pageWords d'.flash = persisted pages pageWords d.flash := by
  have hcontent : ∀ {f f' : MockFlashBase pages 2 pageWords},
      ReadableFlash.content f' = ReadableFlash.content f →
      persisted pages pageWords f' = persisted pages pageWords f := by
    intro f f' h
    rw [persisted, persisted, h]
  -- Induction on the run: every step of it leaves the content as it is, whether the opening
  -- succeeds or not.
  induction h with
  | refl => rfl
  | tail _ hstep ih =>
      rw [← ih]
      cases hstep with
      | openOk n c j f hn h =>
          have hs := (new_spec _ False hn).of_ok ⟨rfl, False.elim⟩ h
          refine hcontent ?_
          show ReadableFlash.content j.inner = _
          rw [hs.1, hs.2.2.1, LawfulPowered.content_arm]
      | openFail n c e f hn h =>
          have hs := (new_spec _ False hn).of_error ⟨rfl, False.elim⟩ h
          refine hcontent ?_
          show ReadableFlash.content f = _
          rw [hs.1, LawfulPowered.content_arm]

end MockFlashBase

/-- What power-loss atomicity asks of one `set` of `s` on the handle `j`, with a
power cut after `cut` byte operations, or none. If the `set` fails, then every
later open reads what `j` read before, or `s`. If it returns, then every later
open before the next `set` reads `s`. -/
def PowerLossAtomic {pages pageWords : Nat}
    (j : FlashJournal (MockFlashBase pages 2 pageWords)) (n : Nat) (s : State)
    (cut : Option Nat) : Prop :=
  match set n s (Device.armed cut j) with
  | .error _ j' => ∀ d, Device.OpenRun (.off j'.inner) d → ∀ m, BlockSize m → ∀ cut',
      ∃ j'' f'', new m (Powered.arm cut' d.flash) = .ok j'' f'' ∧
        (j''.get = j.get ∨ j''.get = some s)
  | .ok _ j' => ∀ d, Device.OpenRun (.on j') d → ∀ m, BlockSize m → ∀ cut',
      ∃ j'' f'', new m (Powered.arm cut' d.flash) = .ok j'' f'' ∧ j''.get = some s

/-- Power-loss atomicity over whole runs: every run from any flash, every handle
it opens, and every `set` on it. -/
theorem set_powerLoss {pages pageWords : Nat} [Geometry pages pageWords]
    (f₀ : MockFlashBase pages 2 pageWords)
    (j : FlashJournal (MockFlashBase pages 2 pageWords))
    (hrun : Device.Run (.off f₀) (.on j)) (n : Nat) (hn : BlockSize n) (s : State)
    (cut : Option Nat) : PowerLossAtomic j n s cut := by
  have hsync : InSync j := Device.synced_of_run hrun
  have harmed : InSync (Device.armed cut j) := Device.inSync_armed cut hsync
  have hget : j.get = persisted pages pageWords (Device.armed cut j).inner := hsync.get_eq
  -- An open after opens reads what is persisted.
  have hopen : ∀ {d₀ d : Device (MockFlashBase pages 2 pageWords)}, Device.OpenRun d₀ d →
      ∀ {m : Nat}, BlockSize m → ∀ cut', ∃ j'' f'', new m (Powered.arm cut' d.flash)
        = .ok j'' f'' ∧ j''.get = persisted pages pageWords d₀.flash := by
    intro d₀ d h m hm cut'
    obtain ⟨j'', f'', hnew, -, -, -, hget''⟩ :=
      MockFlashBase.new_ok hm (Powered.arm cut' d.flash)
    refine ⟨j'', f'', hnew, hget''.trans ?_⟩
    exact MockFlashBase.persisted_of_openRun h
  unfold PowerLossAtomic
  cases hset : set n s (Device.armed cut j) with
  | error e j' =>
      intro d hd m hm cut'
      obtain ⟨j'', f'', hnew, hget''⟩ := hopen hd hm cut'
      refine ⟨j'', f'', hnew, ?_⟩
      rw [hget'', hget]
      exact MockFlashBase.persisted_of_set_error harmed hn hset
  | ok u j' =>
      intro d hd m hm cut'
      obtain ⟨j'', f'', hnew, hget''⟩ := hopen hd hm cut'
      refine ⟨j'', f'', hnew, ?_⟩
      rw [hget'']
      exact (MockFlashBase.persisted_of_set_ok harmed hn hset).2

/-- The handle of a journal that was opened on an erased flash of two pages of
two words. -/
def erasedHandle : FlashJournal (MockFlashBase 2 2 2) :=
  { inner := .new none, cache := { lastValidState := none, firstEmptySlot := some 0 } }

/-- Opening the erased flash is a run. -/
theorem run_erasedHandle : Device.Run (.off (.new none)) (.on erasedHandle) :=
  .single (.openOk _ 2 none erasedHandle (.new none) ⟨by decide, by decide⟩ rfl)

/-- The first `set` on an erased flash, with the power cut between its two bytes. -/
theorem set_powerLoss_erased :
    PowerLossAtomic erasedHandle 2 (State.new .Initial .S1 .S0) (some 1) :=
  set_powerLoss (.new none) erasedHandle run_erasedHandle 2 ⟨by decide, by decide⟩ _ _

end EcSlimloader
