import Mathlib.Data.List.Induction

/-! A tape of blocks that are written one after another. The place of a block is the number of elements
before it; blocks that are not empty have places of their own and cover the tape from its start to its
end. -/

namespace Tape

variable {β : Type} {blocks : List (List β)} {block b : List β} {offset : Nat}

/-- The block lies on the tape from `offset` on. -/
def At (blocks : List (List β)) (offset : Nat) (block : List β) : Prop :=
  ∃ before after, blocks = before ++ block :: after ∧ offset = before.flatten.length

theorem not_at_nil : ¬ At ([] : List (List β)) offset block := by
  rintro ⟨before, after, h, -⟩
  cases before <;> cases h

theorem At.mem (h : At blocks offset block) : block ∈ blocks := by
  obtain ⟨before, after, rfl, -⟩ := h
  simp

/-- A block ends before the tape does. -/
theorem At.le (h : At blocks offset block) : offset + block.length ≤ blocks.flatten.length := by
  obtain ⟨before, after, rfl, rfl⟩ := h
  simp only [List.flatten_append, List.flatten_cons, List.length_append]
  omega

/-- The last block starts where the tape ended before it. -/
theorem at_snoc : At (blocks ++ [b]) offset block ↔ At blocks offset block ∨ offset = blocks.flatten.length ∧ block = b := by
  constructor
  · rintro ⟨before, after, h, rfl⟩
    rcases List.eq_nil_or_concat after with rfl | ⟨after, last, rfl⟩
    · obtain ⟨rfl, hlast⟩ := List.append_inj' h rfl
      cases hlast
      exact .inr ⟨rfl, rfl⟩
    · rw [List.concat_eq_append, ← List.cons_append, ← List.append_assoc] at h
      obtain ⟨rfl, -⟩ := List.append_inj' h rfl
      exact .inl ⟨before, after, rfl, rfl⟩
  · rintro (⟨before, after, rfl, rfl⟩ | ⟨rfl, rfl⟩)
    · exact ⟨before, after ++ [b], by simp, rfl⟩
    · exact ⟨blocks, [], rfl, rfl⟩

/-- No two blocks start at one place. -/
theorem At.unique (hblocks : [] ∉ blocks) (h : At blocks offset block) (h' : At blocks offset b) : block = b := by
  induction blocks using List.reverseRecOn with
  | nil => exact absurd h not_at_nil
  | append_singleton blocks last ih =>
    simp only [List.mem_append, List.mem_singleton, not_or] at hblocks
    have hearlier : ∀ x, At blocks blocks.flatten.length x → False := by
      intro x hx
      have hend := hx.le
      have hempty : x = [] := List.eq_nil_of_length_eq_zero (by omega)
      exact hblocks.1 (hempty ▸ hx.mem)
    rcases at_snoc.1 h with hold | ⟨rfl, rfl⟩
    · rcases at_snoc.1 h' with hold' | ⟨rfl, rfl⟩
      · exact ih hblocks.1 hold hold'
      · exact (hearlier block hold).elim
    · rcases at_snoc.1 h' with hold' | ⟨-, rfl⟩
      · exact (hearlier b hold').elim
      · rfl

/-- Every element of the tape lies in a block. -/
theorem exists_at {i : Nat} (hi : i < blocks.flatten.length) :
    ∃ offset block, At blocks offset block ∧ offset ≤ i ∧ i < offset + block.length := by
  induction blocks using List.reverseRecOn with
  | nil => exact absurd hi (Nat.not_lt_zero i)
  | append_singleton blocks last ih =>
    by_cases hold : i < blocks.flatten.length
    · obtain ⟨offset, block, hat, hle, hlt⟩ := ih hold
      exact ⟨offset, block, at_snoc.2 (.inl hat), hle, hlt⟩
    · refine ⟨blocks.flatten.length, last, at_snoc.2 (.inr ⟨rfl, rfl⟩), by omega, ?_⟩
      simp only [List.flatten_append, List.flatten_cons, List.flatten_nil, List.append_nil, List.length_append] at hi
      exact hi

/-- Two blocks that share an element start at the same place. -/
theorem At.disjoint {i offset' : Nat} (h : At blocks offset block) (h' : At blocks offset' b)
    (hi : offset ≤ i ∧ i < offset + block.length) (hi' : offset' ≤ i ∧ i < offset' + b.length) : offset = offset' := by
  induction blocks using List.reverseRecOn with
  | nil => exact absurd h not_at_nil
  | append_singleton blocks last ih =>
    rcases at_snoc.1 h with hold | ⟨rfl, rfl⟩
    · rcases at_snoc.1 h' with hold' | ⟨rfl, rfl⟩
      · exact ih hold hold'
      · have := hold.le
        omega
    · rcases at_snoc.1 h' with hold' | ⟨rfl, -⟩
      · have := hold'.le
        omega
      · rfl

/-- Pieces that cover the places from 0 to `n`, each place once. -/
structure Tiles (piece : Nat → List β → Prop) (n : Nat) : Prop where
  within : ∀ offset block, piece offset block → block ≠ [] ∧ offset + block.length ≤ n
  covers : ∀ i < n, ∃ offset block, piece offset block ∧ offset ≤ i ∧ i < offset + block.length
  once : ∀ i offset block offset' block', piece offset block → piece offset' block' → offset ≤ i → i < offset + block.length →
    offset' ≤ i → i < offset' + block'.length → offset = offset' ∧ block = block'

theorem tiles_at (hblocks : [] ∉ blocks) : Tiles (At blocks) blocks.flatten.length where
  within offset block h := ⟨fun hempty => hblocks (hempty ▸ h.mem), h.le⟩
  covers i hi := exists_at hi
  once i offset block offset' block' h h' hle hlt hle' hlt' := by
    have hoffset := h.disjoint h' ⟨hle, hlt⟩ ⟨hle', hlt'⟩
    subst hoffset
    exact ⟨rfl, h.unique hblocks h'⟩

end Tape
