import Mathlib.Tactic.Common

/-!
# `EcSlimloader.Lib.Otp`: memory whose bits can only be set

A one-time programmable memory is a function from indices to words. Programming a word sets
the bits of the data and clears none. An attempt that fails, or that is cut short, sets some
of these bits.

`BitsOf` is the order of words by their bits. `Burned` is what an attempt leaves of one word.
`Programmed` and `Attempted` are what a sequence of writes leaves of the memory, when all of
them succeed and when one of them fails. The words are those of any `BitWord` type.

The order is what makes a sequence of interrupted attempts manageable. Each attempt moves a word
up, and never above the word that the whole write would give. So the bits of all attempts together
stay below one bound, and once the bound is reached nothing moves any more (`Burned.eq_of_bitsOf`).
-/

set_option autoImplicit false

/-- Words with a bitwise or. -/
class BitWord (W : Type) [OrOp W] : Prop where
  or_assoc (a b c : W) : (a ||| b) ||| c = a ||| (b ||| c)
  or_comm (a b : W) : a ||| b = b ||| a
  or_self (a : W) : a ||| a = a

instance : BitWord UInt32 where
  or_assoc := UInt32.or_assoc
  or_comm := UInt32.or_comm
  or_self _ := UInt32.or_self

namespace BitWord

variable {W : Type} [OrOp W] {a b c : W}

/-- Every bit of `a` is set in `b`. -/
def BitsOf (a b : W) : Prop := a ||| b = b

/-- What an attempt to program `data` leaves of a word. -/
structure Burned (data before after : W) : Prop where
  keeps : BitsOf before after
  within : BitsOf after (before ||| data)

section Words

variable [BitWord W]

/-- `BitsOf` is an order on words: it is reflexive. -/
theorem BitsOf.refl (a : W) : BitsOf a a := or_self a

/-- `BitsOf` is transitive. -/
theorem BitsOf.trans (hab : BitsOf a b) (hbc : BitsOf b c) : BitsOf a c := by
  show a ||| c = c
  rw [← hbc, ← or_assoc, hab]

/-- `BitsOf` is antisymmetric: words with each other's bits are equal. -/
theorem BitsOf.antisymm (hab : BitsOf a b) (hba : BitsOf b a) : a = b := by
  rw [← hba, or_comm]
  exact hab

/-- The or of two words is above the first of them. -/
theorem BitsOf.or_left (a b : W) : BitsOf a (a ||| b) := by
  show a ||| (a ||| b) = a ||| b
  rw [← or_assoc, or_self]

/-- The or of two words is above the second of them. -/
theorem BitsOf.or_right (a b : W) : BitsOf b (a ||| b) := by
  rw [or_comm]
  exact or_left b a

/-- The or of two words is the least word above them. -/
theorem BitsOf.or (hac : BitsOf a c) (hbc : BitsOf b c) : BitsOf (a ||| b) c := by
  show (a ||| b) ||| c = c
  rw [or_assoc, hbc, hac]

/-- A word that already has the bits. -/
theorem or_eq_left (h : BitsOf b a) : a ||| b = a := by
  rw [or_comm]
  exact h

namespace Burned

variable {data before after after' : W}

/-- An attempt that programs nothing. -/
theorem refl (data before : W) : Burned data before before :=
  ⟨.refl _, .or_left _ _⟩

/-- A whole write. -/
theorem full (data before : W) : Burned data before (before ||| data) :=
  ⟨.or_left _ _, .refl _⟩

/-- A word that already has the bits. -/
theorem eq_of_bitsOf (h : Burned data before after) (hdata : BitsOf data before) :
    after = before := by
  have hwithin := h.within
  rw [or_eq_left hdata] at hwithin
  exact hwithin.antisymm h.keeps

/-- A bound on the bits stays one. -/
theorem bitsOf (h : Burned data before after) (hbefore : BitsOf before c) (hdata : BitsOf data c) :
    BitsOf after c :=
  h.within.trans (hbefore.or hdata)

end Burned

end Words

/-! ### Sequences of writes

A list of writes, each to an address of its own. `Programmed` is what all of them have done, and
`Attempted` what they may have done if one of them has failed. -/

section Memory

variable {ι : Type}

/-- What writes leave behind that have all succeeded. -/
structure Programmed (words : List (ι × W)) (before after : ι → W) : Prop where
  word : ∀ i w, (i, w) ∈ words → after i = before i ||| w
  others : ∀ i, i ∉ words.map Prod.fst → after i = before i

/-- What writes leave behind one of which may have failed. -/
structure Attempted (words : List (ι × W)) (before after : ι → W) : Prop where
  word : ∀ i w, (i, w) ∈ words → Burned w (before i) (after i)
  others : ∀ i, i ∉ words.map Prod.fst → after i = before i

variable {words : List (ι × W)} {before middle after : ι → W} {i : ι} {w : W}

/-- No writes leave the memory as it is. -/
theorem Programmed.nil (before : ι → W) : Programmed [] before before :=
  ⟨fun _ _ h => absurd h List.not_mem_nil, fun _ _ => rfl⟩

omit [OrOp W] in
/-- The indices of the words behind the first one are other indices. -/
theorem other_of_mem (hi : i ∉ words.map Prod.fst) {j : ι} {v : W} (hv : (j, v) ∈ words) :
    j ∉ [(i, w)].map Prod.fst := by
  intro hj
  have hj : j = i := List.mem_singleton.mp hj
  exact hi (hj ▸ List.mem_map_of_mem (f := Prod.fst) hv)

/-- One word more, at an index of its own. -/
theorem Programmed.cons (hi : i ∉ words.map Prod.fst) (h : Programmed [(i, w)] before middle)
    (hwords : Programmed words middle after) : Programmed ((i, w) :: words) before after := by
  constructor
  · intro j v hv
    rcases List.mem_cons.mp hv with heq | hv
    · obtain ⟨rfl, rfl⟩ := Prod.mk.inj heq
      rw [hwords.others j hi]
      exact h.word j v (List.mem_singleton_self _)
    · rw [hwords.word j v hv, h.others j (other_of_mem hi hv)]
  · intro j hj
    rw [List.map_cons, List.mem_cons, not_or] at hj
    rw [hwords.others j hj.2]
    exact h.others j fun h => hj.1 (List.mem_singleton.mp h)

/-- One word more, and an attempt behind it. -/
theorem Attempted.cons (hi : i ∉ words.map Prod.fst) (h : Attempted [(i, w)] before middle)
    (hwords : Attempted words middle after) : Attempted ((i, w) :: words) before after := by
  constructor
  · intro j v hv
    rcases List.mem_cons.mp hv with heq | hv
    · obtain ⟨rfl, rfl⟩ := Prod.mk.inj heq
      rw [hwords.others j hi]
      exact h.word j v (List.mem_singleton_self _)
    · rw [← h.others j (other_of_mem hi hv)]
      exact hwords.word j v hv
  · intro j hj
    rw [List.map_cons, List.mem_cons, not_or] at hj
    rw [hwords.others j hj.2]
    exact h.others j fun h => hj.1 (List.mem_singleton.mp h)

variable [BitWord W]

/-- Writes that have succeeded are attempted writes. What is proved of an attempt holds of them
too. -/
theorem Programmed.attempted (h : Programmed words before after) :
    Attempted words before after where
  word i w hw := h.word i w hw ▸ .full w (before i)
  others := h.others

/-- An attempt that fails before its first bit. With `Attempted.cons` it is how a sequence of
writes ends at a failure. -/
theorem Attempted.refl (words : List (ι × W)) (memory : ι → W) :
    Attempted words memory memory :=
  ⟨fun i w _ => .refl w (memory i), fun _ _ => rfl⟩

/-- No bit is cleared. -/
theorem Attempted.keeps (h : Attempted words before after) (i : ι) :
    BitsOf (before i) (after i) := by
  by_cases hi : i ∈ words.map Prod.fst
  · obtain ⟨⟨j, w⟩, hw, rfl⟩ := List.mem_map.mp hi
    exact (h.word j w hw).keeps
  · rw [h.others i hi]
    exact .refl _

/-- Writes of bits that are set already change nothing. -/
theorem Programmed.of_bitsOf (h : ∀ i w, (i, w) ∈ words → BitsOf w (before i)) :
    Programmed words before before :=
  ⟨fun i w hw => (or_eq_left (h i w hw)).symm, fun _ _ => rfl⟩

end Memory

end BitWord
