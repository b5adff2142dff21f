import EcSlimloader.Lib.Exec
import Mathlib.Data.List.GetD

/-!
# `EcSlimloader.Lib.Bytes`: little-endian words in byte strings

A byte string is a list of bytes. `u32At` and `u16At` read a little-endian number at
an offset, `toLe` is the byte string of a number, and `splice` overwrites a part of
a byte string. The reading functions are total: a byte behind the end reads as `0`.
Callers check the length first, as the programs they model do.

`sliceFrom`, `sliceRange`, `addU32` and `subU32` are the operations of a program that panics
when an index is out of range or, in a build that checks it, when an addition or a
subtraction overflows.

The lemmas say how reads meet the other operations: a read at an offset of a suffix,
of a prefix, of a concatenation, and of a string with a number spliced in.

The rewriting lemmas about `u32At` are stated for offsets that are sums, because a header inside a
block inside an image is read at such an offset. With `u32At_append_left`, `u32At_append_right` and
`u32At_splice_of_disjoint`, a proof about a field of a built-up string never looks at single bytes.
-/

set_option autoImplicit false

namespace Bytes

/-! ### Numbers

A number of `n` bytes, least significant byte first. `toLe_fromLe` and `fromLe_toLe` say that the
two directions are inverse to each other. -/

/-- `u32::from_le_bytes`. -/
def fromLe (b0 b1 b2 b3 : UInt8) : UInt32 :=
  UInt32.ofNat (b0.toNat + 256 * b1.toNat + 65536 * b2.toNat + 16777216 * b3.toNat)

/-- `u16::from_le_bytes`. -/
def fromLe16 (b0 b1 : UInt8) : UInt16 := UInt16.ofNat (b0.toNat + 256 * b1.toNat)

/-- `u32::to_le_bytes`. -/
def toLe (w : UInt32) : List UInt8 :=
  [UInt8.ofNat w.toNat, UInt8.ofNat (w.toNat / 256), UInt8.ofNat (w.toNat / 65536),
    UInt8.ofNat (w.toNat / 16777216)]

/-- A word is written as four bytes. -/
@[simp] theorem length_toLe (w : UInt32) : (toLe w).length = 4 := rfl

/-- Four bytes are a number below `2 ^ 32`. -/
theorem toNat_fromLe (b0 b1 b2 b3 : UInt8) :
    (fromLe b0 b1 b2 b3).toNat
      = b0.toNat + 256 * b1.toNat + 65536 * b2.toNat + 16777216 * b3.toNat := by
  have h0 := b0.toNat_lt
  have h1 := b1.toNat_lt
  have h2 := b2.toNat_lt
  have h3 := b3.toNat_lt
  simp only [fromLe, UInt32.toNat_ofNat']
  omega

/-- Reading the bytes of a number gives the number. -/
theorem fromLe_toLe (w : UInt32) :
    fromLe (UInt8.ofNat w.toNat) (UInt8.ofNat (w.toNat / 256)) (UInt8.ofNat (w.toNat / 65536))
      (UInt8.ofNat (w.toNat / 16777216)) = w := by
  have hw := w.toNat_lt
  apply UInt32.toNat_inj.mp
  simp only [toNat_fromLe, UInt8.toNat_ofNat']
  omega

/-- The bytes of the number that four bytes make are these bytes. -/
theorem toLe_fromLe (b0 b1 b2 b3 : UInt8) : toLe (fromLe b0 b1 b2 b3) = [b0, b1, b2, b3] := by
  have h0 := b0.toNat_lt
  have h1 := b1.toNat_lt
  have h2 := b2.toNat_lt
  have h3 := b3.toNat_lt
  simp only [toLe, toNat_fromLe, List.cons.injEq, and_true]
  refine ⟨?_, ?_, ?_, ?_⟩
  all_goals
    apply UInt8.toNat_inj.mp
    simp only [UInt8.toNat_ofNat']
    omega

/-! ### Reading

`u32At` reads a word at an offset, with zeros behind the end of the string. The lemmas move an
offset through `drop`, `take` and `++`, so that a field can be found again in a part of a string. -/

/-- The little-endian number at an offset. -/
def u32At (data : List UInt8) (offset : Nat) : UInt32 :=
  fromLe (data.getD offset 0) (data.getD (offset + 1) 0) (data.getD (offset + 2) 0)
    (data.getD (offset + 3) 0)

/-- The little-endian 16-bit number at an offset. -/
def u16At (data : List UInt8) (offset : Nat) : UInt16 :=
  fromLe16 (data.getD offset 0) (data.getD (offset + 1) 0)

/-- Two byte strings that agree on four bytes hold the same number there. -/
theorem u32At_congr {data data' : List UInt8} {offset offset' : Nat}
    (h : ∀ i, i < 4 → data'.getD (offset' + i) 0 = data.getD (offset + i) 0) :
    u32At data' offset' = u32At data offset := by
  have h0 := h 0 (by omega)
  have h1 := h 1 (by omega)
  have h2 := h 2 (by omega)
  have h3 := h 3 (by omega)
  simp only [Nat.add_zero] at h0
  simp only [u32At, h0, h1, h2, h3]

/-- A number at the front of the string of its bytes. -/
theorem u32At_toLe_append (w : UInt32) (rest : List UInt8) : u32At (toLe w ++ rest) 0 = w := by
  show fromLe _ _ _ _ = w
  exact fromLe_toLe w

/-- A string of four bytes is the string of the number that they make. -/
theorem toLe_u32At {data : List UInt8} (h : data.length = 4) : toLe (u32At data 0) = data := by
  match data, h with
  | [b0, b1, b2, b3], _ => exact toLe_fromLe b0 b1 b2 b3

/-- A byte of what follows the first `n` bytes. Behind the end both sides are the default. -/
theorem getD_drop (data : List UInt8) (n i : Nat) (d : UInt8) :
    (data.drop n).getD i d = data.getD (n + i) d := by
  simp only [List.getD_eq_getElem?_getD, List.getElem?_drop]

/-- A byte of the first `n` bytes. -/
theorem getD_take_of_lt {n i : Nat} (h : i < n) (data : List UInt8) (d : UInt8) :
    (data.take n).getD i d = data.getD i d := by
  simp only [List.getD_eq_getElem?_getD, List.getElem?_take, if_pos h]

/-- A byte of the back part of a concatenation whose front part has `n` bytes. -/
theorem getD_append_add {xs : List UInt8} {n : Nat} (h : xs.length = n) (ys : List UInt8)
    (i : Nat) (d : UInt8) : (xs ++ ys).getD (n + i) d = ys.getD i d := by
  subst h
  rw [List.getD_append_right _ _ _ _ (by omega), Nat.add_sub_cancel_left]

/-- A number in a suffix. -/
theorem u32At_drop (data : List UInt8) (n offset : Nat) :
    u32At (data.drop n) offset = u32At data (n + offset) := by
  apply u32At_congr
  intro i _
  rw [getD_drop, Nat.add_assoc]

/-- A number in a prefix. -/
theorem u32At_take {n offset : Nat} (h : offset + 4 ≤ n) (data : List UInt8) :
    u32At (data.take n) offset = u32At data offset := by
  apply u32At_congr
  intro i hi
  exact getD_take_of_lt (by omega) data 0

/-- A number in the first part of a concatenation. -/
theorem u32At_append_left {xs : List UInt8} {offset : Nat} (h : offset + 4 ≤ xs.length)
    (ys : List UInt8) : u32At (xs ++ ys) offset = u32At xs offset := by
  apply u32At_congr
  intro i hi
  exact List.getD_append _ _ _ _ (by omega)

/-- A number in the second part of a concatenation. -/
theorem u32At_append_right {xs : List UInt8} {n : Nat} (h : xs.length = n) (ys : List UInt8)
    (offset : Nat) : u32At (xs ++ ys) (n + offset) = u32At ys offset := by
  apply u32At_congr
  intro i _
  rw [Nat.add_assoc, getD_append_add h]

/-! ### Operations that panic

A slice out of range is a panic in every build. A sum that does not fit is one with overflow checks
only, and wraps without them. So the two builds of a program are one definition with a parameter. -/

section Checked

variable {ε : Type}

/-- `&data[start..]`. -/
def sliceFrom (data : List UInt8) (start : Nat) : Except (Fault ε) (List UInt8) :=
  if start ≤ data.length then .ok (data.drop start)
  else .error (.panic "range start index out of range for slice")

/-- `&data[start..stop]`, for `start ≤ stop`. -/
def sliceRange (data : List UInt8) (start stop : Nat) : Except (Fault ε) (List UInt8) :=
  if stop ≤ data.length then .ok ((data.drop start).take (stop - start))
  else .error (.panic "range end index out of range for slice")

/-- The addition of two 32-bit numbers. A build without overflow checks wraps. -/
def addU32 (overflowChecks : Bool) (a b : UInt32) : Except (Fault ε) UInt32 :=
  if overflowChecks ∧ 2 ^ 32 ≤ a.toNat + b.toNat then
    .error (.panic "attempt to add with overflow")
  else .ok (a + b)

/-- The subtraction of two 32-bit numbers. A build without overflow checks wraps. -/
def subU32 (overflowChecks : Bool) (a b : UInt32) : Except (Fault ε) UInt32 :=
  if overflowChecks ∧ a.toNat < b.toNat then
    .error (.panic "attempt to subtract with overflow")
  else .ok (a - b)

/-- A subtraction of a number that is not larger, in every build. -/
theorem subU32_of_le {a b : UInt32} (h : b.toNat ≤ a.toNat) (overflowChecks : Bool) :
    (subU32 overflowChecks a b : Except (Fault ε) UInt32) = .ok (a - b) := by
  rw [subU32, if_neg]
  rintro ⟨-, h'⟩
  omega

/-- An addition whose sum fits, in every build. -/
theorem addU32_of_lt {a b : UInt32} (h : a.toNat + b.toNat < 2 ^ 32) (overflowChecks : Bool) :
    (addU32 overflowChecks a b : Except (Fault ε) UInt32) = .ok (a + b) := by
  rw [addU32, if_neg]
  rintro ⟨-, h'⟩
  omega

/-- With overflow checks, an addition returns the sum of the numbers. -/
theorem addU32_checked {a b c : UInt32}
    (h : (addU32 true a b : Except (Fault ε) UInt32) = .ok c) :
    c.toNat = a.toNat + b.toNat := by
  simp only [addU32, true_and] at h
  split at h
  · cases h
  · cases h
    rw [UInt32.toNat_add]
    omega

/-- An addition fails with a panic only. -/
theorem addU32_error {overflowChecks : Bool} {a b : UInt32} {e : Fault ε}
    (h : addU32 overflowChecks a b = .error e) : ∃ msg, e = .panic msg := by
  rw [addU32] at h
  split at h
  · cases h
    exact ⟨_, rfl⟩
  · cases h

end Checked

/-! ### Overwriting

`splice` writes a string over a part of another one, as an assignment to a slice does. A word is
either the one that was written, or it lies beside what was written and is as before. -/

/-- The byte string with `xs` at an offset, in place of the bytes that were there. -/
def splice (data : List UInt8) (offset : Nat) (xs : List UInt8) : List UInt8 :=
  data.take offset ++ xs ++ data.drop (offset + xs.length)

section Splice

variable {data xs : List UInt8} {offset : Nat}

/-- Overwriting bytes inside the data keeps its length. -/
theorem length_splice (h : offset + xs.length ≤ data.length) :
    (splice data offset xs).length = data.length := by
  simp only [splice, List.length_append, List.length_take, List.length_drop]
  omega

/-- The bytes that were overwritten. -/
theorem getD_splice_self (h : offset + xs.length ≤ data.length) {i : Nat} (hi : i < xs.length)
    (d : UInt8) : (splice data offset xs).getD (offset + i) d = xs.getD i d := by
  have hlen : (data.take offset).length = offset := by
    rw [List.length_take]
    omega
  rw [splice, List.append_assoc, getD_append_add hlen, List.getD_append _ _ _ _ hi]

/-- The bytes before and behind the part that was overwritten. -/
theorem getD_splice_of_not_mem (h : offset + xs.length ≤ data.length) {i : Nat}
    (hi : i < offset ∨ offset + xs.length ≤ i) (d : UInt8) :
    (splice data offset xs).getD i d = data.getD i d := by
  have hlen : (data.take offset ++ xs).length = offset + xs.length := by
    rw [List.length_append, List.length_take]
    omega
  rcases hi with hi | hi
  · rw [splice, List.append_assoc,
      List.getD_append _ _ _ _ (by rw [List.length_take]; omega), getD_take_of_lt hi]
  · obtain ⟨k, rfl⟩ := Nat.exists_eq_add_of_le hi
    rw [splice, getD_append_add hlen, getD_drop]

/-- The part behind what was overwritten. -/
theorem drop_splice (h : offset + xs.length ≤ data.length) {n : Nat}
    (hn : offset + xs.length ≤ n) : (splice data offset xs).drop n = data.drop n := by
  have hlen : (data.take offset ++ xs).length = offset + xs.length := by
    rw [List.length_append, List.length_take]
    omega
  obtain ⟨k, rfl⟩ := Nat.exists_eq_add_of_le hn
  rw [splice, ← hlen, List.drop_length_add_append, List.drop_drop, hlen]

/-- The number that was spliced in. -/
theorem u32At_splice_self {w : UInt32} (h : offset + 4 ≤ data.length) :
    u32At (splice data offset (toLe w)) offset = w := by
  have hw : u32At (toLe w ++ []) 0 = w := u32At_toLe_append w []
  rw [List.append_nil] at hw
  conv_rhs => rw [← hw]
  apply u32At_congr
  intro i hi
  rw [Nat.zero_add]
  exact getD_splice_self h hi 0

/-- A number beside the part that was overwritten. -/
theorem u32At_splice_of_disjoint (h : offset + xs.length ≤ data.length) {offset' : Nat}
    (hdisj : offset' + 4 ≤ offset ∨ offset + xs.length ≤ offset') :
    u32At (splice data offset xs) offset' = u32At data offset' := by
  apply u32At_congr
  intro i hi
  exact getD_splice_of_not_mem h (by omega) 0

end Splice

end Bytes
