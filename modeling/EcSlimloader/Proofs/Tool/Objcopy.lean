import EcSlimloader.Tool.Objcopy

/-!
# `EcSlimloader.Proofs.Tool.Objcopy`: the flat image is the segments

`objcopy_flat` says what `objcopy` does for the segments that it is to copy. An image that it
returns holds the bytes of each of them at its physical address, and zeros between them. It
starts with the first segment and ends with the last. If two of the segments overlap or are
not in order, `objcopy` returns an error.

The checks keep the end of the last segment that is copied. `checkSegments_cases` turns that
into an order of all segments. Behind it, the segments are disjoint, so the copy of one does
not touch what was copied of another.

The copy is a loop over the segments with a buffer. `Copied` is its invariant: what the buffer holds
at each address that one of the segments covers, and that it is unchanged elsewhere. The order from
the checks is what makes a step keep it.

The addresses are of 32 bits, and a segment may end behind the last of them. The hypothesis on the
address space leaves those out, because the source's sum would wrap or panic there.
-/

set_option autoImplicit false

namespace EcSlimloader

open Bytes (splice addU32 subU32 addU32_of_lt subU32_of_le length_splice getD_splice_self
  getD_splice_of_not_mem)

instance lawfulOrderMaxUInt32 : Std.LawfulOrderMax UInt32 where
  max_le_iff a b c := by
    rw [show max a b = if a ≤ b then b else a from rfl]
    simp only [UInt32.le_iff_toNat_le]
    split <;> omega
  max_eq_or a b := by
    rw [show max a b = if a ≤ b then b else a from rfl]
    split
    · exact .inr rfl
    · exact .inl rfl

namespace Segment

/-- The segment has content and is not a part of the prelude. -/
def isCopied (s : Segment) : Bool := s.pFilesz ≠ 0 && !inPrelude s.pPaddr

/-- The content of the segment goes to the physical address `a`, among others. -/
def Covers (s : Segment) (a : Nat) : Prop :=
  s.pPaddr.toNat ≤ a ∧ a < s.pPaddr.toNat + s.pFilesz.toNat

/-- The segment takes the physical address `a`, in the file or in memory. -/
def Occupies (s : Segment) (a : Nat) : Prop :=
  s.pPaddr.toNat ≤ a ∧ a < s.pPaddr.toNat + max s.pFilesz.toNat s.pMemsz.toNat

/-- The two segments share a physical address. -/
def Overlaps (s s' : Segment) : Prop := ∃ a, s.Occupies a ∧ s'.Occupies a

/-- The first segment ends before the second one starts. -/
def Before (s s' : Segment) : Prop := s.pPaddr.toNat + s.pFilesz.toNat ≤ s'.pPaddr.toNat

/-- The sums of the segment's address and its sizes fit in 32 bits. -/
def InAddressSpace (s : Segment) : Prop := s.pPaddr.toNat + s.pMemsz.toNat < 2 ^ 32

end Segment

/-! ### The checks -/

/-- A segment that passes the checks has the same size in the file and in memory. -/
structure CheckedSegments (lastPaddr : UInt32) (segments : List Segment) : Prop where
  size : ∀ s ∈ segments, s.pMemsz = s.pFilesz
  above : ∀ s ∈ segments, lastPaddr.toNat ≤ s.pPaddr.toNat
  order : segments.Pairwise Segment.Before

/-- The checks select the segments to copy, or fail with an error. -/
theorem checkSegments_cases (overflowChecks : Bool) (all : List Segment)
    (hall : ∀ s ∈ all, s.InAddressSpace) (lastPaddr : UInt32) :
    (checkSegments overflowChecks all lastPaddr = .ok (all.filter Segment.isCopied) ∧
      CheckedSegments lastPaddr (all.filter Segment.isCopied)) ∨
    ∃ e, checkSegments overflowChecks all lastPaddr = .error (.error e) := by
  induction all generalizing lastPaddr with
  | nil => exact .inl ⟨rfl, by simp, by simp, List.Pairwise.nil⟩
  | cons s rest ih =>
      have hrest : ∀ s ∈ rest, s.InAddressSpace := fun s hs => hall s (List.mem_cons_of_mem _ hs)
      unfold checkSegments
      split
      next hempty =>
        -- A segment that is skipped does not move the end of the last one.
        have hcopied : ¬s.isCopied = true := by simp [Segment.isCopied, hempty]
        rw [List.filter_cons_of_neg hcopied]
        exact ih hrest lastPaddr
      next hempty =>
      split
      · exact .inr ⟨_, rfl⟩
      next hfile =>
      split
      · exact .inr ⟨_, rfl⟩
      next hmem =>
      have hsize : s.pMemsz = s.pFilesz := by
        rw [gt_iff_lt, UInt32.lt_iff_toNat_lt] at hfile hmem
        apply UInt32.toNat_inj.mp
        omega
      split
      next hprelude =>
        have hcopied : ¬s.isCopied = true := by simp [Segment.isCopied, hprelude]
        rw [List.filter_cons_of_neg hcopied]
        exact ih hrest lastPaddr
      next hprelude =>
      have hcopied : s.isCopied = true := by
        simp [Segment.isCopied, hempty, hprelude]
      split
      · exact .inr ⟨_, rfl⟩
      next horder =>
      have hspace : s.pPaddr.toNat + s.pMemsz.toNat < 2 ^ 32 := hall s List.mem_cons_self
      -- The source adds the size in memory, which is that in the file here.
      have hend : (s.pPaddr + s.pMemsz).toNat = s.pPaddr.toNat + s.pFilesz.toNat := by
        rw [UInt32.toNat_add, Nat.mod_eq_of_lt hspace, hsize]
      rw [addU32_of_lt hspace, Except.ok_bind, List.filter_cons_of_pos hcopied]
      rcases ih hrest (s.pPaddr + s.pMemsz) with ⟨hcheck, hchecked⟩ | ⟨e, hcheck⟩
      · rw [hcheck]
        rw [UInt32.lt_iff_toNat_lt] at horder
        refine .inl ⟨rfl, ?_, ?_, ?_⟩
        · rintro s' (_ | ⟨_, hs'⟩)
          · exact hsize
          · exact hchecked.size s' hs'
        · rintro s' (_ | ⟨_, hs'⟩)
          · omega
          · have habove := hchecked.above s' hs'
            omega
        · -- The end of this segment is the lower bound for all that follow.
          refine List.Pairwise.cons (fun s' hs' => ?_) hchecked.order
          have habove := hchecked.above s' hs'
          rw [hend] at habove
          exact habove
      · rw [hcheck]
        exact .inr ⟨e, rfl⟩

/-! ### The copy -/

/-- The image `out` after some segments were copied over the image `image`. -/
structure Copied (baseAddr : UInt32) (segments : List Segment) (image out : List UInt8) : Prop where
  length : out.length = image.length
  bytes : ∀ s ∈ segments, ∃ data, s.data = some data ∧ ∀ k, k < s.pFilesz.toNat →
    out.getD (s.pPaddr.toNat + k - baseAddr.toNat) 0 = data.getD k 0
  rest : ∀ i, (∀ s ∈ segments, ¬s.Covers (baseAddr.toNat + i)) → out.getD i 0 = image.getD i 0

/-- The copy of segments that are in order. -/
theorem copySegments_eq_ok {baseAddr : UInt32} {segments : List Segment} {image out : List UInt8}
    (hbase : ∀ s ∈ segments, baseAddr.toNat ≤ s.pPaddr.toNat)
    (horder : segments.Pairwise Segment.Before)
    (h : copySegments baseAddr segments image = .ok out) :
    Copied baseAddr segments image out := by
  -- The image is the accumulator. What a copy does not cover stays as it was.
  induction segments generalizing image with
  | nil =>
      cases h
      exact ⟨rfl, by simp, fun i _ => rfl⟩
  | cons s rest ih =>
      obtain ⟨hbefore, horder⟩ := List.pairwise_cons.mp horder
      have hbase' := hbase s List.mem_cons_self
      simp only [copySegments] at h
      split at h
      · cases h
      next hfits =>
      split at h
      · cases h
      next data hdata =>
      split at h
      · cases h
      next hsize =>
      have hlen : data.length = s.pFilesz.toNat := s.length_data data hdata
      have hin : s.pPaddr.toNat - baseAddr.toNat + data.length ≤ image.length := by omega
      have hcopied := ih (fun s hs => hbase s (List.mem_cons_of_mem _ hs)) horder h
      refine ⟨?_, ?_, ?_⟩
      · rw [hcopied.length, length_splice hin]
      · rintro s' (_ | ⟨_, hs'⟩)
        · refine ⟨data, hdata, fun k hk => ?_⟩
          -- The other segments start behind this one.
          rw [hcopied.rest, Nat.sub_add_comm hbase']
          · exact getD_splice_self hin (by omega) 0
          · intro s' hs' hcovers
            have hle := hbefore s' hs'
            rw [Segment.Before] at hle
            obtain ⟨hle', -⟩ := hcovers
            omega
        · exact hcopied.bytes s' hs'
      · intro i hi
        rw [hcopied.rest i fun s' hs' => hi s' (List.mem_cons_of_mem _ hs')]
        refine getD_splice_of_not_mem hin ?_ 0
        have hcovers := hi s List.mem_cons_self
        rw [Segment.Covers] at hcovers
        omega

/-! ### The image -/

/-- The flat image of some segments. -/
structure FlatImage (segments : List Segment) (image : List UInt8) (base : UInt32) : Prop where
  /-- No two of the segments share a physical address. -/
  disjoint : segments.Pairwise fun s s' => ¬s.Overlaps s'
  /-- The base is the smallest start address. -/
  bottom : (∃ s ∈ segments, s.pPaddr = base) ∧ ∀ s ∈ segments, base.toNat ≤ s.pPaddr.toNat
  /-- The end of the image is the largest end address. -/
  top : (∃ s ∈ segments, s.pPaddr.toNat + s.pFilesz.toNat = base.toNat + image.length) ∧
    ∀ s ∈ segments, s.pPaddr.toNat + s.pFilesz.toNat ≤ base.toNat + image.length
  /-- The bytes of each segment are at its address. -/
  bytes : ∀ s ∈ segments, ∃ data, s.data = some data ∧ data.length = s.pFilesz.toNat ∧
    ∀ k, k < s.pFilesz.toNat → image[s.pPaddr.toNat + k - base.toNat]? = data[k]?
  /-- The other bytes are zero. -/
  zeros : ∀ i, i < image.length → (∀ s ∈ segments, ¬s.Covers (base.toNat + i)) →
    image[i]? = some 0
  /-- All of a segment's memory has content. -/
  sizes : ∀ s ∈ segments, s.pMemsz = s.pFilesz

/-- `unwrap` returns exactly the value that is there. -/
theorem unwrap_eq_ok {α : Type} {o : Option α} {a : α} : unwrap o = .ok a ↔ o = some a := by
  cases o with
  | none => simp [unwrap]
  | some b =>
      exact ⟨fun h => congrArg some (Except.ok.inj h), fun h => congrArg _ (Option.some.inj h)⟩

/-- The ends of the segments do not overflow. -/
theorem mapM_ends (overflowChecks : Bool) (segments : List Segment)
    (h : ∀ s ∈ segments, s.pPaddr.toNat + s.pFilesz.toNat < 2 ^ 32) :
    (segments.mapM fun s => addU32 overflowChecks s.pPaddr s.pFilesz : ObjcopyResult (List UInt32))
      = .ok (segments.map fun s => s.pPaddr + s.pFilesz) :=
  Except.mapM_ok fun s hs => addU32_of_lt (h s hs) overflowChecks

/-- Two byte strings that agree on a byte. -/
theorem getElem?_eq_of_getD {xs ys : List UInt8} {i j : Nat} (hi : i < xs.length)
    (hj : j < ys.length) (h : xs.getD i 0 = ys.getD j 0) : xs[i]? = ys[j]? := by
  rw [List.getD_eq_getElem _ _ hi, List.getD_eq_getElem _ _ hj] at h
  rw [List.getElem?_eq_getElem hi, List.getElem?_eq_getElem hj, h]

/-- Segments that passed the checks do not overlap. -/
theorem CheckedSegments.not_overlaps {lastPaddr : UInt32} {segments : List Segment}
    (h : CheckedSegments lastPaddr segments) :
    segments.Pairwise fun s s' => ¬s.Overlaps s' ∧ s.pPaddr ≤ s'.pPaddr := by
  refine h.order.imp_of_mem ?_
  intro s s' hs hs' hbefore
  have hsize := h.size s hs
  have hsize' := h.size s' hs'
  rw [Segment.Before] at hbefore
  refine ⟨?_, UInt32.le_iff_toNat_le.mpr (by omega)⟩
  -- An address in both segments would be in front of the end of one and behind it.
  rintro ⟨a, ha, ha'⟩
  rw [Segment.Occupies, hsize] at ha
  rw [Segment.Occupies, hsize'] at ha'
  omega

/-- What `objcopy` makes of segments that passed the checks. -/
theorem flatImage_of_checked {overflowChecks : Bool} {file : ElfFile32} {image : List UInt8}
    {base : UInt32} (hspace : ∀ s ∈ file.segments, s.InAddressSpace)
    (hcheck : checkSegments overflowChecks file.segments 0
      = .ok (file.segments.filter Segment.isCopied))
    (hchecked : CheckedSegments 0 (file.segments.filter Segment.isCopied))
    (h : objcopy overflowChecks file = .ok (image, base)) :
    FlatImage (file.segments.filter Segment.isCopied) image base := by
  have hends : ∀ s ∈ file.segments.filter Segment.isCopied,
      s.pPaddr.toNat + s.pFilesz.toNat < 2 ^ 32 := by
    intro s hs
    have hs' := hspace s (List.mem_filter.mp hs).1
    rw [Segment.InAddressSpace, hchecked.size s hs] at hs'
    exact hs'
  unfold objcopy at h
  rw [hcheck, Except.ok_bind] at h
  -- Behind the checks, only the segments that passed are used.
  generalize file.segments.filter Segment.isCopied = segments at *
  simp only [mapM_ends overflowChecks segments hends, Except.ok_bind, Except.bind_eq_ok,
    unwrap_eq_ok] at h
  obtain ⟨baseAddr, hmin, topAddr, hmax, outputSize, hsub, _, -, h⟩ := h
  split at h
  · cases h
  simp only [Except.bind_eq_ok] at h
  obtain ⟨out, hcopy, hout⟩ := h
  obtain ⟨rfl, rfl⟩ := Prod.mk.inj (Except.ok.inj hout)
  obtain ⟨hbaseMem, hbaseLe⟩ := List.min?_eq_some_iff.mp hmin
  obtain ⟨htopMem, htopLe⟩ := List.max?_eq_some_iff.mp hmax
  obtain ⟨first, hfirst, hfirstBase⟩ := List.mem_map.mp hbaseMem
  obtain ⟨last, hlast, hlastTop⟩ := List.mem_map.mp htopMem
  have hbase : ∀ s ∈ segments, baseAddr.toNat ≤ s.pPaddr.toNat := fun s hs =>
    UInt32.le_iff_toNat_le.mp (hbaseLe _ (List.mem_map_of_mem hs))
  have hend : ∀ s ∈ segments,
      (s.pPaddr + s.pFilesz).toNat = s.pPaddr.toNat + s.pFilesz.toNat := by
    intro s hs
    rw [UInt32.toNat_add, Nat.mod_eq_of_lt (hends s hs)]
  have htop : ∀ s ∈ segments, s.pPaddr.toNat + s.pFilesz.toNat ≤ topAddr.toNat := by
    intro s hs
    rw [← hend s hs]
    exact UInt32.le_iff_toNat_le.mp (htopLe _ (List.mem_map_of_mem hs))
  -- The first segment ends behind its start, so the size is not negative.
  have hbaseTop : baseAddr.toNat ≤ topAddr.toNat := by
    have hle := htop first hfirst
    rw [hfirstBase] at hle
    omega
  rw [subU32_of_le hbaseTop] at hsub
  obtain rfl := Except.ok.inj hsub
  have hcopied := copySegments_eq_ok hbase hchecked.order hcopy
  have hlen : baseAddr.toNat + out.length = topAddr.toNat := by
    rw [hcopied.length, List.length_replicate,
      UInt32.toNat_sub_of_le _ _ (UInt32.le_iff_toNat_le.mpr hbaseTop)]
    omega
  refine ⟨hchecked.not_overlaps.imp And.left, ⟨⟨first, hfirst, hfirstBase⟩, hbase⟩, ⟨?_, ?_⟩,
    ?_, ?_, hchecked.size⟩
  · refine ⟨last, hlast, ?_⟩
    rw [hlen, ← hend last hlast, hlastTop]
  · rw [hlen]
    exact htop
  · intro s hs
    obtain ⟨data, hdata, hbytes⟩ := hcopied.bytes s hs
    have hdataLen : data.length = s.pFilesz.toNat := s.length_data data hdata
    refine ⟨data, hdata, hdataLen, fun k hk => ?_⟩
    have hle := htop s hs
    have hge := hbase s hs
    exact getElem?_eq_of_getD (by omega) (by omega) (hbytes k hk)
  · intro i hi hcovers
    have hzero := hcopied.rest i hcovers
    rw [hcopied.length] at hi
    rw [List.getD_eq_getElem _ _ hi, List.getElem_replicate] at hzero
    rw [← hcopied.length] at hi
    rw [List.getD_eq_getElem _ _ hi] at hzero
    rw [List.getElem?_eq_getElem hi, hzero]

/-- The image is the segments, and segments that are not in order are an error. -/
theorem objcopy_flat (overflowChecks : Bool) (file : ElfFile32)
    (hspace : ∀ s ∈ file.segments, s.pPaddr.toNat + s.pMemsz.toNat < 2 ^ 32) :
    (∀ image base, objcopy overflowChecks file = .ok (image, base) →
      FlatImage (file.segments.filter Segment.isCopied) image base) ∧
    (¬(file.segments.filter Segment.isCopied).Pairwise
        (fun s s' => ¬s.Overlaps s' ∧ s.pPaddr ≤ s'.pPaddr) →
      ∃ e, objcopy overflowChecks file = .error (.error e)) := by
  -- The check of the segments decides both parts.
  rcases checkSegments_cases overflowChecks file.segments hspace 0 with
    ⟨hcheck, hchecked⟩ | ⟨e, hcheck⟩
  · refine ⟨fun image base h => flatImage_of_checked hspace hcheck hchecked h, fun h => ?_⟩
    exact absurd hchecked.not_overlaps h
  · have herror : objcopy overflowChecks file = .error (.error e) := by
      rw [objcopy, hcheck]
      rfl
    refine ⟨fun image base h => ?_, fun _ => ⟨e, herror⟩⟩
    rw [herror] at h
    cases h

/-- A segment with content. -/
def contentSegment (paddr : UInt32) (data : List UInt8) (h : data.length < 2 ^ 32) : Segment where
  pPaddr := paddr
  pFilesz := UInt32.ofNat data.length
  pMemsz := UInt32.ofNat data.length
  data := some data
  length_data bytes hbytes := by
    cases hbytes
    rw [UInt32.toNat_ofNat_of_lt' h]

/-- A file with a segment of the prelude, a bss, and two segments with a gap between them. -/
def sampleElf : ElfFile32 where
  segments := [contentSegment 0x08000400 [7, 7] (by decide),
    { pPaddr := 0x30176000, pFilesz := 0, pMemsz := 64, data := some [],
      length_data := fun bytes hbytes => by cases hbytes; rfl },
    contentSegment 0x10170000 [1, 2] (by decide), contentSegment 0x10170004 [3] (by decide)]
  entry := 0x10170131

/-- The flat image of the sample file. -/
theorem objcopy_flat_sample :
    objcopy true sampleElf = .ok ([1, 2, 0, 0, 3], 0x10170000) ∧
      FlatImage (sampleElf.segments.filter Segment.isCopied) [1, 2, 0, 0, 3] 0x10170000 := by
  have hrun : objcopy true sampleElf = .ok ([1, 2, 0, 0, 3], 0x10170000) := by decide +kernel
  refine ⟨hrun, (objcopy_flat true sampleElf ?_).1 _ _ hrun⟩
  decide +kernel

end EcSlimloader
