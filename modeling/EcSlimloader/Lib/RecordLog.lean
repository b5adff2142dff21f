import Mathlib.Algebra.GroupWithZero.Nat
import Mathlib.Tactic.Common

/-!
# `EcSlimloader.Lib.RecordLog`: the last record of a log in erasable cells

A log is an array of cells. A cell holds a record (`valid? c = some b`), or is
empty, or holds neither. The current record of the log is the last valid one,
so a log is updated by programming an empty cell behind the last record, or by
erasing cells.

The first half states what a scan of the log finds: `last` and `scan`, with
`last_eq_some_iff`, `last_eq_none_iff` and `isScan_scan`. The second half has
the crash rules: what the last record is when a program or an erase of a range
stops half way. `TornErase` lets the cells of the range be lost in any order.
`AscendingErase` fixes the order: every lost cell stands before every kept one.

The cells are a function from all natural numbers, and a log has `n` of them. A scan that looks at
`n` cells is compared with one that looks at `n + 1` in the inductions, and a function needs no
proof that an index is in range. Two logs with the same cells below `n` have the same last record.

The type of records and `valid?` are parameters. The journal of this repository is the instance in
which a cell is a word of two bytes.
-/

set_option autoImplicit false

namespace RecordLog

variable {α β : Type}

/-! ### The last record

Among the first `n` cells, the last one that reads as a record. By `last_frame` the cells that
matter are the last record and what is behind it, and nothing in front of it. -/

section Last

variable (valid? : α → Option β)

/-- The last record among the first `n` cells, with its index. -/
def last (w : Nat → α) : Nat → Option (β × Nat)
  | 0 => none
  | n + 1 =>
      match valid? (w n) with
      | some b => some (b, n)
      | none => last w n

/-- The current record of the log. -/
def current (w : Nat → α) (n : Nat) : Option β := (last valid? w n).map Prod.fst

variable {valid?} {w w' : Nat → α} {n : Nat}

/-- There is no last record exactly when no cell is valid. -/
theorem last_eq_none_iff : last valid? w n = none ↔ ∀ j, j < n → valid? (w j) = none := by
  induction n with
  | zero => simp [last]
  | succ n ih =>
      cases hv : valid? (w n) with
      | some b =>
          simp only [last, hv]
          exact ⟨fun h => (nomatch h), fun h => (nomatch hv.symm.trans (h n (by omega)))⟩
      | none =>
          simp only [last, hv]
          rw [ih]
          refine ⟨fun h j hj => ?_, fun h j hj => h j (by omega)⟩
          by_cases hjn : j = n
          · rw [hjn]; exact hv
          · exact h j (by omega)

/-- The last record is valid and no cell behind it is. -/
theorem last_eq_some_iff {b : β} {i : Nat} :
    last valid? w n = some (b, i) ↔
      i < n ∧ valid? (w i) = some b ∧ ∀ j, i < j → j < n → valid? (w j) = none := by
  induction n with
  | zero => simp [last]
  | succ n ih =>
      cases hv : valid? (w n) with
      -- The cell `n` is valid, so it is the last one of `n + 1` cells, whatever is in front of it.
      | some b' =>
          simp only [last, hv, Option.some.injEq, Prod.mk.injEq]
          constructor
          · rintro ⟨rfl, rfl⟩
            exact ⟨by omega, hv, fun j hij hj => absurd hij (by omega)⟩
          · rintro ⟨hi, hb, hafter⟩
            by_cases hin : i = n
            · subst hin
              rw [hv] at hb
              exact ⟨Option.some.inj hb, rfl⟩
            · exact nomatch hv.symm.trans (hafter n (by omega) (by omega))
      -- It is not valid, so it adds nothing to what is known of the first `n` cells.
      | none =>
          simp only [last, hv]
          rw [ih]
          constructor
          · rintro ⟨hi, hb, hafter⟩
            refine ⟨by omega, hb, fun j hij hj => ?_⟩
            by_cases hjn : j = n
            · rw [hjn]; exact hv
            · exact hafter j hij (by omega)
          · rintro ⟨hi, hb, hafter⟩
            refine ⟨?_, hb, fun j hij hj => hafter j hij (by omega)⟩
            by_cases hin : i = n
            · subst hin
              exact nomatch hv.symm.trans hb
            · omega

/-- The current record when the last one is known. -/
theorem current_eq_some {b : β} {i : Nat} (h : last valid? w n = some (b, i)) :
    current valid? w n = some b := by
  rw [current, h]; rfl

/-- Logs with the same last record have the same current record. -/
theorem current_of_last_eq (h : last valid? w' n = last valid? w n) :
    current valid? w' n = current valid? w n := by
  rw [current, current, h]

/-- Two logs whose first `n` cells are equal have the same last record. -/
theorem last_congr (h : ∀ i, i < n → w' i = w i) :
    last valid? w' n = last valid? w n := by
  induction n with
  | zero => rfl
  | succ n ih =>
      rw [last, last, h n (by omega), ih fun i hi => h i (by omega)]

/-- The last record depends only on the cells from it on. -/
theorem last_frame {b : β} {i : Nat} (h : last valid? w n = some (b, i))
    (hframe : ∀ j, i ≤ j → j < n → w' j = w j) : last valid? w' n = some (b, i) := by
  obtain ⟨hi, hb, hafter⟩ := last_eq_some_iff.mp h
  refine last_eq_some_iff.mpr ⟨hi, by rw [hframe i (Nat.le_refl i) hi]; exact hb, ?_⟩
  intro j hij hj
  rw [hframe j (by omega) hj]
  exact hafter j hij hj

end Last

/-! ### The scan

The scan goes over the cells from the front and keeps the last record so far and the first empty
cell behind it. A record that comes later resets the empty cell. -/

/-- What a scan has found: the last record, and the first empty cell behind it. -/
structure Scan (β : Type) where
  last : Option (β × Nat)
  empty : Option Nat
  deriving DecidableEq, Repr

/-- `i` is behind the last record, or there is no record. -/
def Behind (o : Option (β × Nat)) (i : Nat) : Prop := ∀ b j, o = some (b, j) → j < i

section Scan

variable (valid? : α → Option β) (empty : α → Bool)

/-- Scan one more cell. A record resets the empty cell that was found. -/
def Scan.step (s : Scan β) (i : Nat) (c : α) : Scan β :=
  match valid? c with
  | some b => ⟨some (b, i), none⟩
  | none => if empty c ∧ s.empty = none then { s with empty := some i } else s

/-- Scan the first `n` cells. -/
def scan (w : Nat → α) : Nat → Scan β
  | 0 => ⟨none, none⟩
  | n + 1 => (scan w n).step valid? empty n (w n)

/-- The meaning of a scan of the first `n` cells: `last` is the last record, and
`empty` is the lowest empty cell behind it. -/
structure IsScan (w : Nat → α) (n : Nat) (s : Scan β) : Prop where
  last_eq : s.last = last valid? w n
  empty_some : ∀ a, s.empty = some a →
    a < n ∧ empty (w a) ∧ Behind s.last a ∧ ∀ j, j < a → Behind s.last j → ¬ empty (w j)
  empty_none : s.empty = none → ∀ j, j < n → Behind s.last j → ¬ empty (w j)

variable {valid? empty}

/-- The scan finds what it should. -/
theorem isScan_scan (w : Nat → α) (n : Nat) :
    IsScan valid? empty w n (scan valid? empty w n) := by
  induction n with
  | zero => exact ⟨rfl, fun a h => (nomatch h), fun _ j hj => absurd hj (by omega)⟩
  | succ n ih =>
      obtain ⟨hlast, hsome, hnone⟩ := ih
      cases hv : valid? (w n) with
      | some b =>
          -- A record: nothing behind it has been scanned yet.
          have hs : scan valid? empty w (n + 1) = ⟨some (b, n), none⟩ := by
            simp only [scan, Scan.step, hv]
          rw [hs]
          refine ⟨by simp only [last, hv], fun a h => (nomatch h), fun _ j hj hb => ?_⟩
          exact absurd (hb b n rfl) (by omega)
      | none =>
          have hl : last valid? w (n + 1) = last valid? w n := by simp only [last, hv]
          by_cases he : empty (w n) = true ∧ (scan valid? empty w n).empty = none
          · -- The first empty cell behind the last record.
            have hs : scan valid? empty w (n + 1)
                = { scan valid? empty w n with empty := some n } := by
              simp only [scan, Scan.step, hv, if_pos he]
            rw [hs]
            refine ⟨by rw [hl]; exact hlast, fun a h => ?_, fun h => (nomatch h)⟩
            cases h
            refine ⟨by omega, he.1, fun b j hj => ?_, fun j hj hb => hnone he.2 j hj hb⟩
            have hj' : last valid? w n = some (b, j) := hlast.symm.trans hj
            exact (last_eq_some_iff.mp hj').1
          · -- Not empty, or an empty cell has been found before.
            have hs : scan valid? empty w (n + 1) = scan valid? empty w n := by
              simp only [scan, Scan.step, hv, if_neg he]
            rw [hs]
            refine ⟨by rw [hl]; exact hlast, fun a h => ?_, fun h j hj hb => ?_⟩
            · obtain ⟨ha, h1, h2, h3⟩ := hsome a h
              exact ⟨by omega, h1, h2, h3⟩
            · by_cases hjn : j = n
              · rw [hjn]
                exact fun hc => he ⟨hc, h⟩
              · exact hnone h j (by omega) hb

end Scan

/-! ### Programming and erasing cells

An interrupted operation is a relation between the cells before and after. A torn program touches
one cell. A torn erase keeps a cell of its range or leaves no record in it, in any order, and an
ascending one works from the front. -/

/-- The log with the cell `a` programmed to `c`. -/
def program (a : Nat) (c : α) (w : Nat → α) : Nat → α := fun i => if i = a then c else w i

/-- The log with the cells `lo ≤ i < hi` set to `blank`. -/
def erase (blank : α) (lo hi : Nat) (w : Nat → α) : Nat → α :=
  fun i => if lo ≤ i ∧ i < hi then blank else w i

/-- The programmed cell. -/
@[simp] theorem program_self (a : Nat) (c : α) (w : Nat → α) : program a c w a = c :=
  if_pos rfl

/-- Programming leaves the other cells alone. -/
theorem program_of_ne {a i : Nat} (h : i ≠ a) (c : α) (w : Nat → α) :
    program a c w i = w i := if_neg h

/-- An erased cell. -/
theorem erase_of_mem {blank : α} {lo hi i : Nat} (h : lo ≤ i) (h' : i < hi) (w : Nat → α) :
    erase blank lo hi w i = blank := if_pos ⟨h, h'⟩

/-- Erasing leaves the cells outside of the range alone. -/
theorem erase_of_not_mem {blank : α} {lo hi i : Nat} (h : ¬ (lo ≤ i ∧ i < hi))
    (w : Nat → α) : erase blank lo hi w i = w i := if_neg h

section Crash

variable (valid? : α → Option β)

/-- A program of `c` into the cell `a` that stopped half way: the cell holds no
record yet, or the record of `c`. No other cell changes. -/
def TornProgram (a : Nat) (c : α) (w w' : Nat → α) : Prop :=
  (∀ i, i ≠ a → w' i = w i) ∧ (valid? (w' a) = none ∨ valid? (w' a) = valid? c)

/-- An erase of `lo ≤ i < hi` that stopped half way: each cell of the range is
kept or holds no record any more, in any order. No other cell changes. -/
def TornErase (lo hi : Nat) (w w' : Nat → α) : Prop :=
  ∀ i, w' i = w i ∨ (lo ≤ i ∧ i < hi ∧ valid? (w' i) = none)

/-- An erase that stopped half way and runs upwards: below some cell `m` the
range holds no record, and from `m` on it is kept. -/
def AscendingErase (lo hi : Nat) (w w' : Nat → α) : Prop :=
  ∃ m, (∀ i, lo ≤ i → i < hi → i < m → valid? (w' i) = none) ∧
    ∀ i, ¬ (lo ≤ i ∧ i < hi ∧ i < m) → w' i = w i

variable {valid?} {w w' : Nat → α} {n : Nat}

/-- An ascending erase is a torn erase. -/
theorem AscendingErase.torn {lo hi : Nat} (h : AscendingErase valid? lo hi w w') :
    TornErase valid? lo hi w w' := by
  obtain ⟨m, hlost, hkept⟩ := h
  intro i
  by_cases hi : lo ≤ i ∧ i < hi ∧ i < m
  · exact .inr ⟨hi.1, hi.2.1, hlost i hi.1 hi.2.1 hi.2.2⟩
  · exact .inl (hkept i hi)

/-- A finished erase is a torn erase that lost every cell. -/
theorem tornErase_erase {blank : α} (hblank : valid? blank = none) (lo hi : Nat)
    (w : Nat → α) : TornErase valid? lo hi w (erase blank lo hi w) := by
  intro i
  by_cases h : lo ≤ i ∧ i < hi
  · refine .inr ⟨h.1, h.2, ?_⟩
    rw [erase_of_mem h.1 h.2]
    exact hblank
  · exact .inl (erase_of_not_mem h w)

/-- A finished erase is an ascending erase that reached the end. -/
theorem ascendingErase_erase {blank : α} (hblank : valid? blank = none) (lo hi : Nat)
    (w : Nat → α) : AscendingErase valid? lo hi w (erase blank lo hi w) := by
  refine ⟨hi, fun i hlo hhi _ => ?_, fun i hi' => erase_of_not_mem (by omega) w⟩
  rw [erase_of_mem hlo hhi]
  exact hblank

/-- A finished program is a torn program that stored the record. -/
theorem tornProgram_program (a : Nat) (c : α) (w : Nat → α) :
    TornProgram valid? a c w (program a c w) :=
  ⟨fun _ h => program_of_ne h c w, .inr (by rw [program_self])⟩

/-- A torn erase makes no record: a valid cell was valid before. -/
theorem TornErase.valid_of_valid {lo hi : Nat} (h : TornErase valid? lo hi w w') {i : Nat}
    {b : β} (hv : valid? (w' i) = some b) : valid? (w i) = some b := by
  rcases h i with he | ⟨-, -, hn⟩
  · rw [← he]; exact hv
  · exact nomatch hn.symm.trans hv

/-- A torn erase of a range that does not hold the last record keeps it. -/
theorem TornErase.last_eq {lo hi : Nat} (h : TornErase valid? lo hi w w') {b : β} {i : Nat}
    (hl : last valid? w n = some (b, i)) (hout : ¬ (lo ≤ i ∧ i < hi)) :
    last valid? w' n = some (b, i) := by
  obtain ⟨hi, hb, hafter⟩ := last_eq_some_iff.mp hl
  refine last_eq_some_iff.mpr ⟨hi, ?_, fun j hij hj => ?_⟩
  · rcases h i with he | ⟨h1, h2, -⟩
    · rw [he]; exact hb
    · exact absurd ⟨h1, h2⟩ hout
  · cases hv : valid? (w' j) with
    | none => rfl
    | some b' => exact nomatch (hafter j hij hj).symm.trans (h.valid_of_valid hv)

/-- A torn erase of a log without a record leaves it without one. -/
theorem TornErase.last_eq_none {lo hi : Nat} (h : TornErase valid? lo hi w w')
    (hl : last valid? w n = none) : last valid? w' n = none := by
  refine last_eq_none_iff.mpr fun j hj => ?_
  cases hv : valid? (w' j) with
  | none => rfl
  | some b' => exact nomatch (last_eq_none_iff.mp hl j hj).symm.trans (h.valid_of_valid hv)

/-- Programming a record behind the last one makes it the last record. -/
theorem last_program {a : Nat} {c : α} {b : β} (ha : a < n) (hc : valid? c = some b)
    (hbehind : Behind (last valid? w n) a) :
    last valid? (program a c w) n = some (b, a) := by
  refine last_eq_some_iff.mpr ⟨ha, by rw [program_self]; exact hc, fun j haj hj => ?_⟩
  rw [program_of_ne (by omega)]
  cases hl : last valid? w n with
  | none => exact last_eq_none_iff.mp hl j hj
  | some p =>
      obtain ⟨b', i⟩ := p
      have hi : i < a := hbehind b' i hl
      exact (last_eq_some_iff.mp hl).2.2 j (by omega) hj

/-- A torn program behind the last record: the current record is the old one or
the new one. -/
theorem TornProgram.current {a : Nat} {c : α} {b : β} (h : TornProgram valid? a c w w')
    (ha : a < n) (hc : valid? c = some b) (hbehind : Behind (last valid? w n) a) :
    current valid? w' n = current valid? w n ∨ current valid? w' n = some b := by
  obtain ⟨hframe, hcell⟩ := h
  rcases hcell with hnone | hnew
  · -- The cell holds no record, as before: each cell is valid exactly as before.
    refine .inl (current_of_last_eq ?_)
    have htorn : TornErase valid? a (a + 1) w w' := by
      intro i
      by_cases hia : i = a
      · subst hia
        exact .inr ⟨by omega, by omega, hnone⟩
      · exact .inl (hframe i hia)
    cases hl : last valid? w n with
    | none => exact htorn.last_eq_none hl
    | some p =>
        obtain ⟨b', i⟩ := p
        have hi : i < a := hbehind b' i hl
        exact htorn.last_eq hl (by omega)
  · -- The cell holds the new record: the log is as after a finished program of that cell.
    refine .inr ?_
    have hw : last valid? w' n = last valid? (program a (w' a) w) n := by
      refine last_congr fun i _ => ?_
      by_cases hia : i = a
      · subst hia; rw [program_self]
      · rw [program_of_ne hia, hframe i hia]
    refine current_eq_some (i := a) ?_
    rw [hw]
    exact last_program ha (hnew.trans hc) hbehind

/-- A torn program behind the last record of a log that has kept the last record of `w`. -/
theorem TornProgram.current_of_kept {w₁ : Nat → α} {a : Nat} {c : α} {b : β}
    (h : TornProgram valid? a c w₁ w') (hkept : last valid? w₁ n = last valid? w n)
    (ha : a < n) (hc : valid? c = some b) (hbehind : Behind (last valid? w n) a) :
    RecordLog.current valid? w' n = RecordLog.current valid? w n ∨
      RecordLog.current valid? w' n = some b := by
  rw [← hkept] at hbehind
  rw [← current_of_last_eq hkept]
  exact h.current ha hc hbehind

/-- A torn erase of everything behind cell `0` when cell `0` holds the record
`b'` and the cells between it and the range hold none: the current record is
`b'`, or it is a record of the range. -/
theorem TornErase.current_of_front {lo : Nat} {b' : β} (h : TornErase valid? lo n w w')
    (hlo : 0 < lo) (hn : 0 < n) (hfront : valid? (w 0) = some b')
    (hgap : ∀ j, 0 < j → j < lo → valid? (w j) = none) :
    current valid? w' n = some b' ∨
      ∃ i b, lo ≤ i ∧ i < n ∧ last valid? w' n = some (b, i) ∧ valid? (w i) = some b := by
  -- The front cell is not in the range, so the torn log has a last record.
  have h0 : valid? (w' 0) = some b' := by
    rcases h 0 with he | ⟨h1, -, -⟩
    · rw [he]; exact hfront
    · omega
  cases hl : last valid? w' n with
  | none => exact nomatch (last_eq_none_iff.mp hl 0 hn).symm.trans h0
  | some p =>
      obtain ⟨b, i⟩ := p
      obtain ⟨hi, hb, -⟩ := last_eq_some_iff.mp hl
      -- A cell that is valid behind a torn erase was valid in front of it.
      have hbw := h.valid_of_valid hb
      by_cases hi0 : i = 0
      · subst hi0
        rw [hb] at h0
        exact .inl (by rw [current_eq_some hl, h0])
      · by_cases hilo : i < lo
        · exact nomatch (hgap i (by omega) hilo).symm.trans hbw
        · exact .inr ⟨i, b, by omega, hi, rfl, hbw⟩

/-- An ascending erase of the range that holds the last record, with the new
record in front: the current record is the old one or the new one. -/
theorem AscendingErase.current {lo i : Nat} {b b' : β} (h : AscendingErase valid? lo n w w')
    (hlo : 0 < lo) (hfront : valid? (w 0) = some b')
    (hgap : ∀ j, 0 < j → j < lo → valid? (w j) = none)
    (hl : last valid? w n = some (b, i)) :
    current valid? w' n = some b ∨ current valid? w' n = some b' := by
  obtain ⟨hi, hb, hafter⟩ := last_eq_some_iff.mp hl
  rcases h.torn.current_of_front hlo (by omega) hfront hgap with hnew | ⟨k, bk, hk, hkn, hlk, hvk⟩
  · exact .inr hnew
  · -- The surviving record `k` is kept, so every later cell is kept: `k` is `i`.
    refine .inl ?_
    obtain ⟨-, hk', hafter'⟩ := last_eq_some_iff.mp hlk
    obtain ⟨m, hlost, hkept⟩ := h
    have hmk : m ≤ k := by
      by_contra hlt
      exact nomatch (hlost k hk hkn (by omega)).symm.trans hk'
    have hki : k ≤ i := by
      by_contra hlt
      exact nomatch (hafter k (by omega) hkn).symm.trans hvk
    by_cases hik : k = i
    · subst hik
      rw [hb] at hvk
      rw [current_eq_some hlk, hvk]
    · -- A kept record behind `k` would be a later one.
      have hwi : w' i = w i := hkept i (by omega)
      have hcontra := hafter' i (by omega) hi
      rw [hwi, hb] at hcontra
      exact nomatch hcontra

end Crash

end RecordLog
