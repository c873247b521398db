import Mathlib

/-!
# Heaps and allocators

A heap is a memory with the blocks that have been given out of it, each by its address and the size
that was asked for. Blocks lie in the address space, apart from each other and not at zero. An
allocator gives blocks out and takes them back, and leaves the contents of the others alone; what is
in the memory besides is its own.

* `Heap`, `Allocator`: heaps and allocators, with what makes them correct.
* `Heap.write`: a write into the memory; `Heap.agree_write`: it leaves apart what is apart from it.
* `stacking`: an allocator that puts every block behind the last.
-/

namespace PanelFirmware.Lib

/-- Two blocks have different addresses and no byte in common. -/
def Apart (a b : ℕ × ℕ) : Prop := a.1 ≠ b.1 ∧ (a.1 + a.2 ≤ b.1 ∨ b.1 + b.2 ≤ a.1)

instance (a b : ℕ × ℕ) : Decidable (Apart a b) := inferInstanceAs (Decidable (_ ∧ _))

/-- A memory with addresses below `space`, and the blocks that are in use. -/
structure Heap (β : Type) (space : ℕ) where
  cells : ℕ → β
  blocks : List (ℕ × ℕ)
  inside : ∀ b ∈ blocks, 0 < b.1 ∧ b.1 + b.2 ≤ space
  apart : blocks.Pairwise Apart

namespace Heap

variable {β : Type} {space : ℕ} {h h' : Heap β space} {b : ℕ × ℕ}

/-- A block has the same contents in two heaps. -/
def Agree (h h' : Heap β space) (b : ℕ × ℕ) : Prop :=
  ∀ i < b.2, h'.cells (b.1 + i) = h.cells (b.1 + i)

/-- The bytes from an address on are replaced. -/
def write (h : Heap β space) (p n : ℕ) (bytes : ℕ → β) : Heap β space :=
  { h with cells := fun a => if p ≤ a ∧ a < p + n then bytes (a - p) else h.cells a }

@[simp] lemma write_blocks (h : Heap β space) (p n : ℕ) (bytes : ℕ → β) :
    (h.write p n bytes).blocks = h.blocks := rfl

/-- What was written is there. -/
lemma write_cells {p n i : ℕ} (hi : i < n) (bytes : ℕ → β) :
    (h.write p n bytes).cells (p + i) = bytes i := by
  change (if p ≤ p + i ∧ p + i < p + n then bytes (p + i - p) else _) = _
  rw [if_pos ⟨Nat.le_add_right p i, Nat.add_lt_add_left hi p⟩, Nat.add_sub_cancel_left]

/-- What is apart from the bytes that are written stays. -/
lemma agree_write {p n : ℕ} (hapart : Apart (p, n) b) (bytes : ℕ → β) :
    Agree h (h.write p n bytes) b := by
  intro i hi
  refine if_neg ?_
  rintro ⟨hlo, hhi⟩
  rcases hapart.2 with hle | hle <;> simp only at hle <;> omega

lemma Agree.trans {h'' : Heap β space} (hab : Agree h h' b) (hbc : Agree h' h'' b) :
    Agree h h'' b :=
  fun i hi => (hbc i hi).trans (hab i hi)

/-- A block is not as large as the address space. -/
lemma size_lt (hb : b ∈ h.blocks) : b.2 < space := by
  have hinside := h.inside b hb
  omega

end Heap

/-- An allocator: `malloc` gives a block of the size asked for or refuses, `free` takes back the
block at an address. -/
structure Allocator (β : Type) (space : ℕ) where
  malloc : Heap β space → ℕ → Option ℕ × Heap β space
  free : Heap β space → ℕ → Heap β space
  malloc_refused : ∀ h n, (malloc h n).1 = none → (malloc h n).2.blocks = h.blocks
  malloc_given : ∀ h n p, (malloc h n).1 = some p → (malloc h n).2.blocks = (p, n) :: h.blocks
  malloc_keeps : ∀ h n, ∀ b ∈ h.blocks, Heap.Agree h (malloc h n).2 b
  free_taken : ∀ h p n, (p, n) ∈ h.blocks →
    (free h p).blocks = h.blocks.filter fun b => b.1 ≠ p
  free_keeps : ∀ h p n, (p, n) ∈ h.blocks → ∀ b ∈ h.blocks, b.1 ≠ p → Heap.Agree h (free h p) b

namespace Allocator

variable {β : Type} {space : ℕ} {A : Allocator β space} {h : Heap β space} {n p : ℕ}

/-- A block that is given is apart from those in use. -/
lemma apart_of_given (hp : (A.malloc h n).1 = some p) : ∀ b ∈ h.blocks, Apart (p, n) b := by
  have hapart := (A.malloc h n).2.apart
  rw [A.malloc_given h n p hp] at hapart
  exact (List.pairwise_cons.mp hapart).1

/-- It is in use then. -/
lemma mem_of_given (hp : (A.malloc h n).1 = some p) : (p, n) ∈ (A.malloc h n).2.blocks := by
  rw [A.malloc_given h n p hp]
  exact List.mem_cons_self

/-- So are the others. -/
lemma mem_malloc {b : ℕ × ℕ} (hb : b ∈ h.blocks) : b ∈ (A.malloc h n).2.blocks := by
  cases hp : (A.malloc h n).1 with
  | none => rwa [A.malloc_refused h n hp]
  | some p =>
      rw [A.malloc_given h n p hp]
      exact List.mem_cons_of_mem _ hb

end Allocator

/-! ### An allocator -/

namespace Stacking

variable {β : Type} {space : ℕ}

/-- The end of the last block. -/
def top (h : Heap β space) : ℕ := (h.blocks.map fun b => b.1 + b.2).foldr max 0

/-- The address of the next block: a multiple of eight behind eight more bytes. -/
def place (h : Heap β space) : ℕ := (top h + 7) / 8 * 8 + 8

/-- No block ends behind the end of the last. -/
lemma le_top {h : Heap β space} {b : ℕ × ℕ} (hb : b ∈ h.blocks) : b.1 + b.2 ≤ top h := by
  unfold top
  revert hb
  generalize h.blocks = bs
  intro hb
  induction bs with
  | nil => cases hb
  | cons c bs ih =>
      rcases List.mem_cons.mp hb with rfl | hb
      · exact le_max_left _ _
      · exact (ih hb).trans (le_max_right _ _)

/-- The next block is apart from all. -/
lemma apart_place {h : Heap β space} {b : ℕ × ℕ} (hb : b ∈ h.blocks) (n : ℕ) :
    Apart (place h, n) b := by
  have hle := le_top hb
  have hplace : top h < place h := by
    unfold place
    omega
  exact ⟨by simp only; omega, Or.inr (by simp only; omega)⟩

/-- A block is put behind the last one. -/
def give (h : Heap β space) (n : ℕ) (hfits : place h + n ≤ space) : Heap β space where
  cells := h.cells
  blocks := (place h, n) :: h.blocks
  inside := List.forall_mem_cons.mpr ⟨⟨Nat.succ_pos _, hfits⟩, h.inside⟩
  apart := List.pairwise_cons.mpr ⟨fun _ hb => apart_place hb n, h.apart⟩

/-- The block at an address is forgotten. -/
def take (h : Heap β space) (p : ℕ) : Heap β space where
  cells := h.cells
  blocks := h.blocks.filter fun b => b.1 ≠ p
  inside := fun b hb => h.inside b (List.mem_of_mem_filter hb)
  apart := h.apart.filter _

end Stacking

/-- The allocator that puts every block behind the last and gives none of no size. -/
def stacking (β : Type) (space : ℕ) : Allocator β space where
  malloc h n :=
    if hfits : 0 < n ∧ Stacking.place h + n ≤ space then
      (some (Stacking.place h), Stacking.give h n hfits.2)
    else (none, h)
  free := Stacking.take
  malloc_refused h n hnone := by
    split_ifs at hnone ⊢
    · rfl
  malloc_given h n p hp := by
    split_ifs at hp ⊢
    · rw [← Option.some.inj hp]
      rfl
  malloc_keeps h n b _ := by
    split_ifs <;> exact fun _ _ => rfl
  free_taken _ _ _ _ := rfl
  free_keeps _ _ _ _ _ _ _ := fun _ _ => rfl

end PanelFirmware.Lib
