import PanelFirmware.Lib.Bytes
import PanelFirmware.Lib.Heap

/-!
# `systems/src/memmgr.c`: `realloc` and `calloc` over the allocator of the kernel

The C library's functions are put on top of `pvPortMalloc` and `vPortFree`, which are any correct
allocator here. The allocator does not tell the size of a block.

* `realloc`, `calloc`: the functions, with the addresses that are read and the blocks that are
  freed.
* `ReallocContract`, `CallocContract`: what their callers rely on.
* `realloc_agree`, `calloc_agree`: the other blocks are left alone.
* `memmgr_iff`: exactly when the contracts hold.
-/

namespace PanelFirmware.Systems.Memmgr

open PanelFirmware.Lib

/-- `size_t` has 32 bits. -/
abbrev Heap := Lib.Heap Byte (2 ^ 32)

/-- Source: `heap_4.c` `pvPortMalloc`, `vPortFree`. -/
abbrev Allocator := Lib.Allocator Byte (2 ^ 32)

/-! ### The code -/

/-- The result of a call, the heap after it, the addresses that were read and the blocks that were
freed. -/
structure Outcome where
  result : Option ℕ
  heap : Heap
  reads : List ℕ
  frees : List ℕ

/-- A null pointer is not freed. Source: `heap_4.c` `vPortFree`. -/
def vPortFree (A : Allocator) (h : Heap) (ptr : ℕ) : Heap := if ptr = 0 then h else A.free h ptr

/-- `memcpy` copies the bytes as they were before; where it reads behind the old block these may be
any. Source: `memmgr.c` `realloc`. -/
def realloc (A : Allocator) (h : Heap) (ptr size : ℕ) : Outcome :=
  if size = 0 then ⟨none, vPortFree A h ptr, [], if ptr = 0 then [] else [ptr]⟩
  else
    let (p, h) := A.malloc h size
    match p with
    | none => ⟨none, h, [], []⟩
    | some p =>
        if ptr ≠ 0 then
          let copied := h.write p size fun i => h.cells (ptr + i)
          ⟨some p, vPortFree A copied ptr, (List.range size).map fun i => ptr + i, [ptr]⟩
        else ⟨some p, h, [], []⟩

/-- The product is taken in `size_t`. Source: `memmgr.c` `calloc`. -/
def calloc (A : Allocator) (h : Heap) (count size : ℕ) : Outcome :=
  let bytes := count * size % 2 ^ 32
  let (ptr, h) := A.malloc h bytes
  match ptr with
  | none => ⟨none, h, [], []⟩
  | some ptr => ⟨some ptr, h.write ptr bytes fun _ => 0, [], []⟩

/-! ### The contracts -/

/-- What is promised of `realloc` for a block in use of `s` bytes at `p`: when it succeeds, a block
of at least `n` bytes that begins as the old one did, no byte read outside the old block, and the
old block freed once; when it fails, the old block as it was. -/
structure ReallocContract (A : Allocator) (h : Heap) (p s n : ℕ) : Prop where
  size : ∀ q, (realloc A h p n).result = some q →
    ∃ m, (q, m) ∈ (realloc A h p n).heap.blocks ∧ n ≤ m
  contents : ∀ q, (realloc A h p n).result = some q →
    ∀ i < min s n, (realloc A h p n).heap.cells (q + i) = h.cells (p + i)
  reads : ∀ q, (realloc A h p n).result = some q →
    ∀ a ∈ (realloc A h p n).reads, p ≤ a ∧ a < p + s
  frees : ∀ q, (realloc A h p n).result = some q →
    (realloc A h p n).frees = [p] ∧ ∀ m, (p, m) ∉ (realloc A h p n).heap.blocks
  refused : (realloc A h p n).result = none →
    (p, s) ∈ (realloc A h p n).heap.blocks ∧ h.Agree (realloc A h p n).heap (p, s) ∧
      (realloc A h p n).frees = []

/-- What is promised of `calloc`: nothing, or a block of as many bytes as the product, all zero. -/
def CallocContract (A : Allocator) (h : Heap) (count size : ℕ) : Prop :=
  ∀ q, (calloc A h count size).result = some q →
    (∃ m, (q, m) ∈ (calloc A h count size).heap.blocks ∧ count * size ≤ m) ∧
      ∀ i < count * size, (calloc A h count size).heap.cells (q + i) = 0

/-! ### `realloc` -/

variable {A : Allocator} {h : Heap} {p s n q : ℕ}

/-- A refused request changes nothing but what is the allocator's own. -/
lemma realloc_refused (hn : 0 < n) (hq : (A.malloc h n).1 = none) :
    realloc A h p n = ⟨none, (A.malloc h n).2, [], []⟩ := by
  unfold realloc
  rw [if_neg hn.ne']
  simp only [hq]

/-- A granted request is copied and the old block freed. -/
lemma realloc_given (hp : (p, s) ∈ h.blocks) (hn : 0 < n) (hq : (A.malloc h n).1 = some q) :
    realloc A h p n = ⟨some q,
      A.free ((A.malloc h n).2.write q n fun i => (A.malloc h n).2.cells (p + i)) p,
      (List.range n).map fun i => p + i, [p]⟩ := by
  have hpos : p ≠ 0 := (h.inside _ hp).1.ne'
  unfold realloc
  rw [if_neg hn.ne']
  simp only [hq, hpos, vPortFree, if_false, ne_eq, not_false_eq_true, if_true]

/-- The blocks after a granted request: the new one is among them, the old one is not, and the old
contents are at the beginning of the new one. -/
lemma realloc_heap (hp : (p, s) ∈ h.blocks) (hq : (A.malloc h n).1 = some q) :
    let copied := (A.malloc h n).2.write q n fun i => (A.malloc h n).2.cells (p + i)
    (q, n) ∈ (A.free copied p).blocks ∧ (∀ m, (p, m) ∉ (A.free copied p).blocks) ∧
      ∀ i < min s n, (A.free copied p).cells (q + i) = h.cells (p + i) := by
  intro copied
  have hold : (p, s) ∈ copied.blocks := Lib.Allocator.mem_malloc hp
  have hnew : (q, n) ∈ copied.blocks := Lib.Allocator.mem_of_given hq
  have hne : q ≠ p := (Lib.Allocator.apart_of_given hq _ hp).1
  have hblocks := A.free_taken copied p s hold
  refine ⟨?_, ?_, ?_⟩
  · rw [hblocks]
    exact List.mem_filter.mpr ⟨hnew, decide_eq_true hne⟩
  · intro m hm
    rw [hblocks] at hm
    exact absurd rfl (of_decide_eq_true (List.mem_filter.mp hm).2)
  · intro i hi
    obtain ⟨his, hin⟩ := lt_min_iff.mp hi
    have hcopied : copied.cells (q + i) = (A.malloc h n).2.cells (p + i) :=
      Lib.Heap.write_cells hin _
    rw [A.free_keeps copied p s hold (q, n) hnew hne i hin, hcopied]
    exact A.malloc_keeps h n (p, s) hp i his

/-- The copy reads as many bytes as the new block has. -/
lemma reads_iff (hn : 0 < n) :
    (∀ a ∈ (List.range n).map fun i => p + i, p ≤ a ∧ a < p + s) ↔ n ≤ s := by
  constructor
  · intro hall
    have hlast := (hall (p + (n - 1))
      (List.mem_map.mpr ⟨n - 1, List.mem_range.mpr (by omega), rfl⟩)).2
    omega
  · intro hle a ha
    obtain ⟨i, hi, rfl⟩ := List.mem_map.mp ha
    have hlt := List.mem_range.mp hi
    omega

/-- **`realloc`** keeps its contract exactly when the block does not grow or the request is
refused. -/
theorem reallocContract_iff (hp : (p, s) ∈ h.blocks) (hn : 0 < n) :
    ReallocContract A h p s n ↔ n ≤ s ∨ (A.malloc h n).1 = none := by
  cases hq : (A.malloc h n).1 with
  | none =>
      have hout := realloc_refused (p := p) hn hq
      refine iff_of_true ⟨?_, ?_, ?_, ?_, ?_⟩ (Or.inr rfl)
      all_goals rw [hout]
      · rintro q ⟨⟩
      · rintro q ⟨⟩
      · rintro q ⟨⟩
      · rintro q ⟨⟩
      · exact fun _ => ⟨Lib.Allocator.mem_malloc hp, A.malloc_keeps h n _ hp, rfl⟩
  | some q =>
      have hout := realloc_given hp hn hq
      obtain ⟨hnew, hold, hcontents⟩ := realloc_heap hp hq
      have hreads := reads_iff (p := p) (s := s) hn
      refine ⟨fun hcontract => Or.inl (hreads.mp ?_), fun hle => ⟨?_, ?_, ?_, ?_, ?_⟩⟩
      · have hall := hcontract.reads q (by rw [hout])
        rwa [hout] at hall
      all_goals rw [hout]
      · rintro q' ⟨⟩
        exact ⟨n, hnew, le_rfl⟩
      · rintro q' ⟨⟩
        exact hcontents
      · rintro q' ⟨⟩
        exact hreads.mpr (hle.resolve_right (by simp))
      · rintro q' ⟨⟩
        exact ⟨rfl, hold⟩
      · rintro ⟨⟩

/-! ### `calloc` -/

/-- A granted request is zeroed. -/
lemma calloc_given {count size : ℕ} (hq : (A.malloc h (count * size % 2 ^ 32)).1 = some q) :
    calloc A h count size = ⟨some q, (A.malloc h (count * size % 2 ^ 32)).2.write q
      (count * size % 2 ^ 32) fun _ => 0, [], []⟩ := by
  simp only [calloc, hq]

/-- **`calloc`** keeps its contract exactly when the product does not overflow or the request for
what is left of it is refused. -/
theorem callocContract_iff (A : Allocator) (h : Heap) (count size : ℕ) :
    CallocContract A h count size ↔
      count * size < 2 ^ 32 ∨ (A.malloc h (count * size % 2 ^ 32)).1 = none := by
  unfold CallocContract
  cases hq : (A.malloc h (count * size % 2 ^ 32)).1 with
  | none =>
      have hout : (calloc A h count size).result = none := by simp only [calloc, hq]
      rw [hout]
      exact iff_of_true (by rintro q ⟨⟩) (Or.inr rfl)
  | some q =>
      rw [calloc_given hq]
      constructor
      · intro hcontract
        obtain ⟨⟨m, hm, hle⟩, -⟩ := hcontract q rfl
        exact Or.inl (hle.trans_lt (Lib.Heap.size_lt hm))
      · intro hsmall
        have hbytes := Nat.mod_eq_of_lt (hsmall.resolve_right (by simp))
        rintro q' ⟨⟩
        refine ⟨⟨_, Lib.Allocator.mem_of_given hq, hbytes.ge⟩, fun i hi => ?_⟩
        exact Lib.Heap.write_cells (hbytes.symm ▸ hi) fun _ => 0

/-! ### The other blocks -/

/-- A write into a block that has been given leaves the others alone. -/
lemma agree_given (hq : (A.malloc h n).1 = some q) {b : ℕ × ℕ} (hb : b ∈ h.blocks)
    (bytes : ℕ → Byte) : h.Agree ((A.malloc h n).2.write q n bytes) b :=
  (A.malloc_keeps h n b hb).trans
    (Lib.Heap.agree_write (Lib.Allocator.apart_of_given hq b hb) bytes)

/-- **`realloc` leaves the other blocks alone**, also where it reads behind the old one. -/
theorem realloc_agree (hp : (p, s) ∈ h.blocks) (hn : 0 < n) {b : ℕ × ℕ} (hb : b ∈ h.blocks)
    (hne : b.1 ≠ p) : h.Agree (realloc A h p n).heap b := by
  cases hq : (A.malloc h n).1 with
  | none =>
      rw [realloc_refused hn hq]
      exact A.malloc_keeps h n b hb
  | some q =>
      rw [realloc_given hp hn hq]
      have hold : (p, s) ∈ (A.malloc h n).2.blocks := Lib.Allocator.mem_malloc hp
      have hother : b ∈ (A.malloc h n).2.blocks := Lib.Allocator.mem_malloc hb
      refine (agree_given hq hb fun i => (A.malloc h n).2.cells (p + i)).trans ?_
      exact A.free_keeps (Lib.Heap.write _ q n _) p s hold b hother hne

/-- **So does `calloc`**. -/
theorem calloc_agree {b : ℕ × ℕ} (hb : b ∈ h.blocks) (count size : ℕ) :
    h.Agree (calloc A h count size).heap b := by
  cases hq : (A.malloc h (count * size % 2 ^ 32)).1 with
  | none =>
      simp only [calloc, hq]
      exact A.malloc_keeps h _ b hb
  | some q =>
      rw [calloc_given hq]
      exact agree_given hq hb fun _ => 0

/-! ### Main result -/

/-- **The contracts of `realloc` and `calloc`** over every correct allocator: `realloc` keeps its
own exactly when the block does not grow or is refused, since it copies as many bytes as the new
block has; `calloc` when the product is a `size_t` or the rest of it is refused. -/
theorem memmgr_iff (A : Allocator) (h : Heap) :
    (∀ p s n, (p, s) ∈ h.blocks → 0 < n →
      (ReallocContract A h p s n ↔ n ≤ s ∨ (A.malloc h n).1 = none)) ∧
      ∀ count size, CallocContract A h count size ↔
        count * size < 2 ^ 32 ∨ (A.malloc h (count * size % 2 ^ 32)).1 = none :=
  ⟨fun _ _ _ hp hn => reallocContract_iff hp hn, callocContract_iff A h⟩

/-- A heap with one block of four bytes. -/
def oneBlock : Heap where
  cells _ := 0
  blocks := [(8, 4)]
  inside := by decide
  apart := by decide

/-- The block grows to eight bytes, four of which are read behind it; of the `2 ^ 32 + 16` bytes of
an array there are sixteen. -/
theorem not_memmgr_oneBlock : ¬ ReallocContract (stacking Byte (2 ^ 32)) oneBlock 8 4 8 ∧
    ¬ CallocContract (stacking Byte (2 ^ 32)) oneBlock (2 ^ 28 + 1) 16 := by
  constructor
  · intro h
    have hread := h.reads 24 (by decide) 15 (by decide)
    exact absurd hread.2 (by decide)
  · intro h
    obtain ⟨⟨m, hm, hle⟩, -⟩ := h 24 (by decide)
    have hlt := Lib.Heap.size_lt hm
    simp only at hlt
    omega

/-- The block shrinks, and a small array is allocated. -/
theorem memmgr_iff_oneBlock : ReallocContract (stacking Byte (2 ^ 32)) oneBlock 8 4 3 ∧
    CallocContract (stacking Byte (2 ^ 32)) oneBlock 3 5 := by
  obtain ⟨hrealloc, hcalloc⟩ := memmgr_iff (stacking Byte (2 ^ 32)) oneBlock
  refine ⟨?_, ?_⟩
  · exact (hrealloc 8 4 3 (by decide) (by decide)).mpr (Or.inl (by decide))
  · exact (hcalloc 3 5).mpr (Or.inl (by decide))

end PanelFirmware.Systems.Memmgr
