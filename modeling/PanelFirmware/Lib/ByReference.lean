import Mathlib

/-!
# Data sent by reference

A sender that does not copy what it is given reads it in its caller's memory whenever it sends it.
The memory is divided into regions; what is to be sent is the beginning of one. Of the copies of a
byte the receiver keeps the first that arrives.

* `Sound`: what has been received is what was to be sent, and the memory still holds the rest.
* `Sound.store`, `Sound.write`, `Sound.deliver`: the operations keep it, a store into a region as
  long as everything sent from there has been received.
-/

namespace PanelFirmware.Lib.ByReference

variable {ρ β : Type}

/-- What is to be sent from a region, with the bytes that the region held when it was given to the
sender, which no operation reads, and what has been received, by position. -/
structure Segment (ρ β : Type) where
  region : ρ
  bytes : List β
  received : ℕ → Option β

/-- A sender with the memory it sends from. -/
structure Sender (ρ β : Type) where
  memory : ρ → ℕ → β
  segments : List (Segment ρ β)

/-- Other bytes are stored in a region. -/
def Sender.store [DecidableEq ρ] (s : Sender ρ β) (r : ρ) (cells : ℕ → β) : Sender ρ β :=
  { s with memory := Function.update s.memory r cells }

/-- The first bytes of a region are given to the sender. -/
def Sender.write (s : Sender ρ β) (r : ρ) (n : ℕ) : Sender ρ β :=
  { s with segments := s.segments ++ [⟨r, (List.range n).map (s.memory r), fun _ => none⟩] }

/-- A byte of a segment arrives as the memory holds it now. -/
def Segment.deliver (memory : ρ → ℕ → β) (i : ℕ) (seg : Segment ρ β) : Segment ρ β :=
  if i < seg.bytes.length ∧ (seg.received i).isNone then
    { seg with received := Function.update seg.received i (some (memory seg.region i)) }
  else seg

/-- A byte of one of the segments arrives. -/
def Sender.deliver (s : Sender ρ β) (k i : ℕ) : Sender ρ β :=
  { s with segments := s.segments.modify k (Segment.deliver s.memory i) }

/-- What has been received of a segment is what was to be sent. -/
def Segment.Intact (seg : Segment ρ β) : Prop :=
  ∀ i b, seg.received i = some b → seg.bytes[i]? = some b

/-- What was given to the sender from a region has been received. -/
def Sender.Settled (s : Sender ρ β) (r : ρ) : Prop :=
  ∀ seg ∈ s.segments, seg.region = r → ∀ i < seg.bytes.length, (seg.received i).isSome

instance [DecidableEq ρ] (s : Sender ρ β) (r : ρ) : Decidable (s.Settled r) :=
  inferInstanceAs (Decidable (∀ seg ∈ s.segments, seg.region = r →
    ∀ i < seg.bytes.length, (seg.received i).isSome))

/-- What holds of a segment: it is intact, and the memory holds what has not been received. -/
structure Segment.Sound (memory : ρ → ℕ → β) (seg : Segment ρ β) : Prop where
  intact : seg.Intact
  rest : ∀ i b, seg.bytes[i]? = some b → seg.received i = none → memory seg.region i = b

/-- All segments are sound. -/
def Sender.Sound (s : Sender ρ β) : Prop := ∀ seg ∈ s.segments, seg.Sound s.memory

/-- **A store into a region from which nothing is on its way.** -/
theorem Sender.Sound.store [DecidableEq ρ] {s : Sender ρ β} (h : s.Sound) {r : ρ}
    (hsettled : s.Settled r) (cells : ℕ → β) : (s.store r cells).Sound := by
  intro seg hseg
  refine ⟨(h seg hseg).intact, fun i b hb hnone => ?_⟩
  by_cases hr : seg.region = r
  · obtain ⟨hi, -⟩ := List.getElem?_eq_some_iff.mp hb
    have hreceived := hsettled seg hseg hr i hi
    rw [hnone] at hreceived
    cases hreceived
  · simp only [Sender.store, Function.update_of_ne hr]
    exact (h seg hseg).rest i b hb hnone

/-- **A write.** -/
theorem Sender.Sound.write {s : Sender ρ β} (h : s.Sound) (r : ρ) (n : ℕ) :
    (s.write r n).Sound := by
  intro seg hseg
  rcases List.mem_append.mp hseg with hseg | hseg
  · exact h seg hseg
  · obtain rfl := List.mem_singleton.mp hseg
    refine ⟨fun i b hb => (by cases hb), fun i b hb _ => ?_⟩
    obtain ⟨hi, hget⟩ := List.getElem?_eq_some_iff.mp hb
    rw [List.getElem_map, List.getElem_range] at hget
    exact hget

/-- The arrival of a byte keeps a segment sound. -/
lemma Segment.Sound.deliver {memory : ρ → ℕ → β} {seg : Segment ρ β} (h : seg.Sound memory)
    (i : ℕ) : (seg.deliver memory i).Sound memory := by
  unfold Segment.deliver
  split_ifs with hnew
  · obtain ⟨hi, hnone⟩ := hnew
    have hbyte := h.rest i _ (List.getElem?_eq_getElem hi) (Option.isNone_iff_eq_none.mp hnone)
    refine ⟨fun j b hb => ?_, fun j b hb hj => ?_⟩
    · by_cases hji : j = i
      · subst hji
        simp only [Function.update_self] at hb
        rw [List.getElem?_eq_getElem hi, ← hbyte, ← Option.some.inj hb]
      · simp only [Function.update_of_ne hji] at hb
        exact h.intact j b hb
    · by_cases hji : j = i
      · simp only [hji, Function.update_self] at hj
        cases hj
      · simp only [Function.update_of_ne hji] at hj
        exact h.rest j b hb hj
  · exact h

/-- **A delivery.** -/
theorem Sender.Sound.deliver {s : Sender ρ β} (h : s.Sound) (k i : ℕ) : (s.deliver k i).Sound := by
  intro seg hseg
  obtain ⟨j, hj⟩ := List.mem_iff_getElem?.mp hseg
  simp only [Sender.deliver, List.getElem?_modify] at hj
  obtain ⟨seg', hseg', rfl⟩ := Option.map_eq_some_iff.mp hj
  have hmem := List.mem_of_getElem? hseg'
  split_ifs
  · exact (h seg' hmem).deliver i
  · exact h seg' hmem

end PanelFirmware.Lib.ByReference
