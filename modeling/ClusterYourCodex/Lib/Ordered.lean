import Mathlib.Data.List.Pairwise
import Mathlib.Order.Lattice

/-! Ordered sets and maps: strictly increasing lists, so that iteration has one order and nothing is
stored twice. -/

/-- A set iterated in increasing order. -/
structure OrdSet (α : Type) [LT α] where
  elems : List α
  sorted : elems.Pairwise (· < ·)
  deriving DecidableEq

namespace OrdSet

variable {α : Type} [LT α]

def empty : OrdSet α := ⟨[], List.Pairwise.nil⟩

/-- The elements of `s` that are not in `t`, in order. -/
def difference [DecidableEq α] (s t : OrdSet α) : List α := s.elems.filter fun a => !t.elems.contains a

theorem mem_difference [DecidableEq α] {s t : OrdSet α} {a : α} :
    a ∈ s.difference t ↔ a ∈ s.elems ∧ a ∉ t.elems := by
  simp [difference]

end OrdSet

/-- A map iterated in increasing order of its keys. -/
structure OrdMap (κ ν : Type) [LT κ] where
  entries : List (κ × ν)
  sorted : entries.Pairwise fun a b => a.1 < b.1
  deriving DecidableEq

namespace OrdMap

variable {κ ν : Type} [LT κ]

def empty : OrdMap κ ν := ⟨[], List.Pairwise.nil⟩

def get [DecidableEq κ] (m : OrdMap κ ν) (k : κ) : Option ν := (m.entries.find? fun e => e.1 = k).map Prod.snd

end OrdMap

namespace OrdMap

variable {κ ν : Type} [LinearOrder κ]

/-- The entry in its place, instead of one with the same key. -/
def insertEntry (k : κ) (v : ν) : List (κ × ν) → List (κ × ν)
  | [] => [(k, v)]
  | e :: es => if e.1 < k then e :: insertEntry k v es else if k < e.1 then (k, v) :: e :: es else (k, v) :: es

theorem mem_insertEntry {k : κ} {v : ν} {es : List (κ × ν)} {e : κ × ν} (h : e ∈ insertEntry k v es) :
    e = (k, v) ∨ e ∈ es := by
  induction es with
  | nil => exact .inl (List.mem_singleton.1 h)
  | cons a es ih =>
    unfold insertEntry at h
    split_ifs at h
    · rcases List.mem_cons.1 h with rfl | h
      · exact .inr List.mem_cons_self
      · exact (ih h).imp_right (List.mem_cons_of_mem _)
    · exact List.mem_cons.1 h
    · exact (List.mem_cons.1 h).imp_right (List.mem_cons_of_mem _)

theorem sorted_insertEntry {k : κ} {v : ν} {es : List (κ × ν)} (h : es.Pairwise fun a b => a.1 < b.1) :
    (insertEntry k v es).Pairwise fun a b => a.1 < b.1 := by
  induction es with
  | nil => exact List.pairwise_singleton _ _
  | cons a es ih =>
    obtain ⟨ha, hes⟩ := List.pairwise_cons.1 h
    unfold insertEntry
    split_ifs with hbefore hafter
    · refine List.pairwise_cons.2 ⟨fun e he => ?_, ih hes⟩
      rcases mem_insertEntry he with rfl | he
      · exact hbefore
      · exact ha e he
    · refine List.pairwise_cons.2 ⟨fun e he => ?_, h⟩
      rcases List.mem_cons.1 he with rfl | he
      · exact hafter
      · exact hafter.trans (ha e he)
    · have hk : a.1 = k := le_antisymm (not_lt.1 hafter) (not_lt.1 hbefore)
      refine List.pairwise_cons.2 ⟨fun e he => ?_, hes⟩
      rw [← hk]
      exact ha e he

theorem find?_insertEntry (es : List (κ × ν)) (k : κ) (v : ν) (k' : κ) :
    ((insertEntry k v es).find? fun e => e.1 = k').map Prod.snd =
      if k' = k then some v else (es.find? fun e => e.1 = k').map Prod.snd := by
  induction es with
  | nil =>
    by_cases hk : k' = k
    · simp [insertEntry, hk]
    · simp [insertEntry, hk, Ne.symm hk]
  | cons a es ih =>
    unfold insertEntry
    by_cases hk : k' = k
    · subst hk
      rw [if_pos rfl] at ih ⊢
      split_ifs with hbefore hafter
      · rw [List.find?_cons_of_neg (by simpa using hbefore.ne), ih]
      · simp
      · simp
    · rw [if_neg hk] at ih ⊢
      split_ifs with hbefore hafter
      · by_cases ha : a.1 = k'
        · simp [ha]
        · rw [List.find?_cons_of_neg (by simpa using ha), List.find?_cons_of_neg (by simpa using ha), ih]
      · rw [List.find?_cons_of_neg (by simpa using Ne.symm hk)]
      · have ha : a.1 ≠ k' := fun h => hk (h.symm.trans (le_antisymm (not_lt.1 hafter) (not_lt.1 hbefore)))
        rw [List.find?_cons_of_neg (by simpa using Ne.symm hk), List.find?_cons_of_neg (by simpa using ha)]

def insert (m : OrdMap κ ν) (k : κ) (v : ν) : OrdMap κ ν := ⟨insertEntry k v m.entries, sorted_insertEntry m.sorted⟩

theorem get_insert (m : OrdMap κ ν) (k : κ) (v : ν) (k' : κ) :
    (m.insert k v).get k' = if k' = k then some v else m.get k' :=
  find?_insertEntry m.entries k v k'

end OrdMap
