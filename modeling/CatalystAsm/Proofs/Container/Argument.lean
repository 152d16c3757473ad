import CatalystAsm.Container.Note
import Mathlib.Data.List.Count
import Mathlib.Data.Nat.Bitwise

/-!
# The resources of arguments

A pointer takes a resource by its address space, an image by its access, and a sampler takes one
anyway. One pass over the arguments counts these kinds (`KernelConfig.resources_eq`). Another one
marks the views, with a condition of its own, and it marks as many as the first one counts
(`KernelConfig.marked_viewMask`).
-/

namespace CatalystAsm

/-! ## Kinds of arguments -/

namespace KernelArg

/-- Whether the argument is a pointer to an address space. -/
def isPointerTo (space : PtrSpace) (a : KernelArg) : Bool := a.type = .pointer && a.space = space

/-- Whether the argument is an image with an access. -/
def isImageWith (access : PtrAccess) (a : KernelArg) : Bool :=
  a.type.isImage && a.access.imagePart = access

/-- A pointer is no image. -/
theorem not_isImageWith_of_isPointerTo {a : KernelArg} {space : PtrSpace} {access : PtrAccess}
    (h : a.isPointerTo space = true) : a.isImageWith access = false := by
  have htype : a.type = .pointer := by simpa using (Bool.and_eq_true_iff.mp h).1
  have hpointer : ArgType.pointer.isImage = false := by decide
  rw [isImageWith, htype, hpointer, Bool.false_and]

/-- Whether the argument takes a view. -/
def takesView (a : KernelArg) : Bool := a.isPointerTo .global || a.isImageWith .writeOnly

/-- A pointer is no image, so the arguments with a view are counted by their two kinds. -/
theorem countP_takesView (args : List KernelArg) : args.countP takesView =
    args.countP (·.isPointerTo .global) + args.countP (·.isImageWith .writeOnly) := by
  induction args with
  | nil => rfl
  | cons a args ih =>
    rw [List.countP_cons, List.countP_cons, List.countP_cons, ih, takesView]
    by_cases hpointer : a.isPointerTo .global = true
    · have himage : a.isImageWith .writeOnly = false := not_isImageWith_of_isPointerTo hpointer
      simp only [hpointer, himage, Bool.true_or, if_true, Bool.false_eq_true, if_false]
      omega
    · simp only [Bool.eq_false_of_not_eq_true hpointer, Bool.false_or, Bool.false_eq_true, if_false]
      omega

end KernelArg

namespace KernelConfig

/-- The number of images that are only read. -/
def readOnlyImages (c : KernelConfig) : Nat := c.argList.countP (·.isImageWith .readOnly)

/-- The number of views: the kernel's own one, and those of global pointers and of images that are
only written. -/
def views (c : KernelConfig) : Nat :=
  1 + c.argList.countP (·.isPointerTo .global) + c.argList.countP (·.isImageWith .writeOnly)

/-- The number of constant buffers: two of the kernel, and those of constant pointers. -/
def constantBuffers (c : KernelConfig) : Nat := 2 + c.argList.countP (·.isPointerTo .constant)

/-- The number of sampler arguments. -/
def samplerCount (c : KernelConfig) : Nat := c.argList.countP (·.isSampler)

end KernelConfig

/-! ## Counting -/

namespace ArgResources

open KernelArg

/-- An argument counts for the kinds that it is of. -/
theorem add_eq (r : ArgResources) (a : KernelArg) : r.add a =
    { readOnlyImages := r.readOnlyImages + if a.isImageWith .readOnly then 1 else 0
      views := r.views + ((if a.isPointerTo .global then 1 else 0) +
        if a.isImageWith .writeOnly then 1 else 0)
      constantBuffers := r.constantBuffers + if a.isPointerTo .constant then 1 else 0
      samplers := r.samplers + if a.isSampler then 1 else 0 } := by
  have hpointer : ArgType.pointer.isImage = false := by decide
  have hsampler : ArgType.sampler.isImage = false := by decide
  have htypes : ArgType.pointer ≠ .sampler := by decide
  have haccesses : PtrAccess.readOnly ≠ .writeOnly := by decide
  have hspaces : PtrSpace.global ≠ .constant := by decide
  unfold add isImageWith isPointerTo isSampler
  -- the types exclude each other, and so do the accesses and the spaces
  by_cases himage : a.type.isImage = true
  · have hnoPointer : a.type ≠ .pointer := fun h => by simp [h, hpointer] at himage
    have hnoSampler : a.type ≠ .sampler := fun h => by simp [h, hsampler] at himage
    by_cases hread : a.access.imagePart = .readOnly
    · simp [himage, hnoPointer, hnoSampler, hread, haccesses]
    · by_cases hwrite : a.access.imagePart = .writeOnly <;>
        simp [himage, hnoPointer, hnoSampler, hread, hwrite, haccesses.symm]
  · by_cases htype : a.type = .pointer
    · by_cases hglobal : a.space = .global
      · simp [htype, hpointer, htypes, hglobal, hspaces]
      · by_cases hconstant : a.space = .constant <;>
          simp [htype, hpointer, htypes, hglobal, hconstant, hspaces.symm]
    · by_cases hs : a.type = .sampler <;>
        simp [himage, htype, hsampler, hs, htypes.symm]

/-- One pass counts each kind. -/
theorem foldl_add (r : ArgResources) (args : List KernelArg) : args.foldl add r =
    { readOnlyImages := r.readOnlyImages + args.countP (·.isImageWith .readOnly)
      views := r.views + (args.countP (·.isPointerTo .global) +
        args.countP (·.isImageWith .writeOnly))
      constantBuffers := r.constantBuffers + args.countP (·.isPointerTo .constant)
      samplers := r.samplers + args.countP (·.isSampler) } := by
  induction args generalizing r with
  | nil => rfl
  | cons a args ih =>
    rw [List.foldl_cons, ih, add_eq]
    simp only [List.countP_cons, mk.injEq]
    omega

end ArgResources

/-- **The resources of a kernel**, each kind counted on its own. -/
theorem KernelConfig.resources_eq (c : KernelConfig) :
    c.resources = ⟨c.readOnlyImages, c.views, c.constantBuffers, c.samplerCount⟩ := by
  rw [resources, ArgResources.ofArgs, ArgResources.foldl_add, readOnlyImages, views,
    constantBuffers, samplerCount]
  simp only [Nat.zero_add, Nat.add_assoc]

/-! ## Marking -/

namespace ViewMask

open KernelArg

/-- The word that has the bit of a view. -/
theorem toNat_shiftRight_five (id : UInt32) : (id >>> 5).toNat = id.toNat / 32 := by
  rw [UInt32.toNat_shiftRight, Nat.shiftRight_eq_div_pow]
  rfl

theorem testBit_one_shiftLeft (id : UInt32) {j : Nat} (hj : j < 32) :
    ((1 : UInt32) <<< (id &&& 31)).toNat.testBit j = decide (id.toNat % 32 = j) := by
  have hcount : (id &&& 31).toNat % 32 = id.toNat % 32 := by
    rw [UInt32.toNat_and]
    show (id.toNat &&& (2 ^ 5 - 1)) % 32 = _
    rw [Nat.and_two_pow_sub_one_eq_mod]
    exact Nat.mod_mod _ _
  rw [UInt32.toNat_shiftLeft, hcount, Nat.testBit_mod_two_pow, decide_eq_true hj, Bool.true_and]
  show (1 <<< (id.toNat % 32)).testBit j = _
  rw [Nat.one_shiftLeft, Nat.testBit_two_pow]

theorem getElem_mark (mask : ViewMask) (id : UInt32) {w : Nat} (hw : w < 32) :
    (mask.mark id)[w] =
      if id.toNat / 32 = w then mask[w] ||| 1 <<< (id &&& 31) else mask[w] := by
  unfold mark
  split
  next h =>
    dsimp only
    rw [Vector.getElem_set, ← toNat_shiftRight_five]
    by_cases hsame : (id >>> 5).toNat = w
    · simp only [hsame]
    · simp only [hsame, if_false]
  next h =>
    have hno : id.toNat / 32 ≠ w := by
      have : ¬ id.toNat < 1024 := fun hlt => h (UInt32.lt_iff_toNat_lt.mpr hlt)
      omega
    rw [if_neg hno]

/-- Whether a view is marked, read off the words of the mask. -/
def marked (mask : ViewMask) (i : Nat) : Bool :=
  (mask.toList.getD (i / 32) 0).toNat.testBit (i % 32)

theorem marked_eq (mask : ViewMask) {i : Nat} (hi : i / 32 < 32) :
    mask.marked i = (mask[i / 32]).toNat.testBit (i % 32) := by
  have hlt : i / 32 < mask.toList.length := by rwa [Vector.length_toList]
  rw [marked, List.getD_eq_getElem _ _ hlt, Vector.getElem_toList]

/-- Marking a view leaves the other ones as they are. -/
theorem marked_mark (mask : ViewMask) (id : UInt32) {i : Nat} (hi : i < 1024) :
    (mask.mark id).marked i = (mask.marked i || decide (id.toNat = i)) := by
  have hlt : i / 32 < 32 := by omega
  rw [marked_eq _ hlt, marked_eq _ hlt, getElem_mark]
  by_cases hword : id.toNat / 32 = i / 32
  · have hid : id.toNat % 32 = i % 32 ↔ id.toNat = i := by omega
    rw [if_pos hword, UInt32.toNat_or, Nat.testBit_or,
      testBit_one_shiftLeft id (Nat.mod_lt _ (by decide))]
    simp only [hid]
  · have hid : id.toNat ≠ i := by
      rintro rfl
      exact hword rfl
    simp [hword, hid]

/-- The views of arguments are numbered one after the other, in words. -/
theorem marked_markArgs (mask : ViewMask) (id : UInt32) (args : List KernelArg) {i : Nat}
    (hi : i < 1024) : (mask.markArgs id args).marked i = true ↔
      mask.marked i = true ∨ ∃ j < args.countP takesView, (id + UInt32.ofNat j).toNat = i := by
  induction args generalizing mask id with
  | nil => simp [markArgs]
  | cons a args ih =>
    by_cases hview : a.takesView = true
    · have hstep : mask.markArgs id (a :: args) = (mask.mark id).markArgs (id + 1) args :=
        if_pos hview
      have hnext (j : Nat) : id + 1 + UInt32.ofNat j = id + UInt32.ofNat (j + 1) := by
        rw [UInt32.ofNat_add, UInt32.add_comm (UInt32.ofNat j), ← UInt32.add_assoc]
        rfl
      rw [hstep, ih, marked_mark mask id hi, Bool.or_eq_true, decide_eq_true_iff, or_assoc,
        List.countP_cons_of_pos hview]
      apply or_congr Iff.rfl
      constructor
      · rintro (hid | ⟨j, hj, hid⟩)
        · exact ⟨0, Nat.succ_pos _, by simpa using hid⟩
        · exact ⟨j + 1, Nat.succ_lt_succ hj, hnext j ▸ hid⟩
      · rintro ⟨j, hj, hid⟩
        cases j with
        | zero => exact .inl (by simpa using hid)
        | succ j => exact .inr ⟨j, Nat.lt_of_succ_lt_succ hj, (hnext j).symm ▸ hid⟩
    · have hstep : mask.markArgs id (a :: args) = mask.markArgs id args := if_neg hview
      rw [hstep, ih, List.countP_cons_of_neg hview]

end ViewMask

/-- **The mask marks the views that are counted**, the kernel's own one under its own number. -/
theorem KernelConfig.marked_viewMask (c : KernelConfig) {i : Nat} (hi : i < 1024)
    (hviews : c.views ≤ UInt32.size) :
    c.viewMask.marked i = true ↔ i = c.uavId.toNat ∨ 1 ≤ i ∧ i < c.views := by
  have hcount : c.views = 1 + c.argList.countP KernelArg.takesView := by
    rw [KernelArg.countP_takesView, ← Nat.add_assoc]
    rfl
  have hblank : ViewMask.marked (Vector.replicate 32 0) i = false := by
    have hlt : i / 32 < 32 := by omega
    rw [ViewMask.marked_eq _ hlt, Vector.getElem_replicate]
    exact Nat.zero_testBit _
  have hid {j : Nat} (hj : j < c.argList.countP KernelArg.takesView) :
      (1 + UInt32.ofNat j).toNat = 1 + j := by
    have hword : 1 + j < UInt32.size := by omega
    have hsum : (1 : UInt32) + UInt32.ofNat j = UInt32.ofNat (1 + j) := (UInt32.ofNat_add 1 j).symm
    rw [hsum, UInt32.toNat_ofNat_of_lt' hword]
  rw [viewMask, ViewMask.marked_markArgs _ _ _ hi, ViewMask.marked_mark _ _ hi, hblank,
    Bool.false_or, decide_eq_true_iff, eq_comm]
  apply or_congr Iff.rfl
  constructor
  · rintro ⟨j, hj, hji⟩
    rw [hid hj] at hji
    omega
  · rintro ⟨hpos, hlt⟩
    have hj : i - 1 < c.argList.countP KernelArg.takesView := by omega
    exact ⟨i - 1, hj, by rw [hid hj]; omega⟩

end CatalystAsm
