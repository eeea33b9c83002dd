import Mathlib.Data.List.Nodup

/-! A directory of files that one program keeps to itself: names with contents. Names are exact, and every call is atomic. -/

structure Folder (β : Type) where
  files : List (String × β)
  nodup : (files.map Prod.fst).Nodup

namespace Folder

variable {β : Type} (d : Folder β) {n a b : String} {c : β}

def empty : Folder β := ⟨[], List.nodup_nil⟩

def get (n : String) : Option β := d.files.lookup n

/-- The names as the directory lists them. -/
def names : List String := d.files.map Prod.fst

def remove (n : String) : Folder β where
  files := d.files.filter fun f => f.1 ≠ n
  nodup := d.nodup.sublist (List.filter_sublist.map Prod.fst)

/-- The folder with a file written under the name. -/
def set (n : String) (c : β) : Folder β where
  files := (n, c) :: (d.remove n).files
  nodup := by
    refine List.nodup_cons.2 ⟨?_, (d.remove n).nodup⟩
    simp [remove]

/-- `rename`: what stood at the second name is replaced. -/
def rename (a b : String) : Option (Folder β) := (d.get a).map fun c => (d.remove a).set b c

theorem get_eq_some_iff : d.get n = some c ↔ (n, c) ∈ d.files := by
  obtain ⟨files, hnodup⟩ := d
  show files.lookup n = some c ↔ (n, c) ∈ files
  induction files with
  | nil => simp
  | cons f files ih =>
    obtain ⟨m, e⟩ := f
    rw [List.map_cons, List.nodup_cons] at hnodup
    by_cases hn : n = m
    · subst hn
      rw [List.lookup_cons_self, List.mem_cons, Option.some.injEq, Prod.mk.injEq]
      constructor
      · intro h
        exact .inl ⟨rfl, h.symm⟩
      · rintro (⟨-, rfl⟩ | h)
        · rfl
        · exact absurd (List.mem_map_of_mem (f := Prod.fst) h) hnodup.1
    · rw [List.lookup_cons, beq_false_of_ne hn, List.mem_cons, ih hnodup.2, Prod.mk.injEq]
      simp [hn]

theorem mem_names : n ∈ d.names ↔ (d.get n).isSome = true := by
  rw [Option.isSome_iff_exists, names, List.mem_map]
  constructor
  · rintro ⟨⟨m, c⟩, hmem, rfl⟩
    exact ⟨c, d.get_eq_some_iff.2 hmem⟩
  · rintro ⟨c, hc⟩
    exact ⟨(n, c), d.get_eq_some_iff.1 hc, rfl⟩

@[simp] theorem get_remove (m : String) : (d.remove n).get m = if m = n then none else d.get m := by
  apply Option.ext
  intro c
  rw [get_eq_some_iff]
  split
  · rename_i hm
    simp [remove, hm]
  · rename_i hm
    rw [get_eq_some_iff]
    simp [remove, hm]

@[simp] theorem get_set (m : String) : (d.set n c).get m = if m = n then some c else d.get m := by
  show List.lookup m ((n, c) :: (d.remove n).files) = _
  split
  · rename_i hm
    rw [hm, List.lookup_cons_self]
  · rename_i hm
    rw [List.lookup_cons, beq_false_of_ne hm]
    show (d.remove n).get m = _
    rw [get_remove, if_neg hm]

variable {d} {d' : Folder β}

theorem rename_eq_some : d.rename a b = some d' ↔ ∃ c, d.get a = some c ∧ (d.remove a).set b c = d' := Option.map_eq_some_iff

theorem rename_isSome (h : d.get a = some c) : d.rename a b = some ((d.remove a).set b c) := by rw [rename, h]; rfl

/-! ### Selected names -/

/-- The names that meet the condition, as the directory lists them. -/
def select (p : String → Bool) (d : Folder β) : List String := d.names.filter p

variable {p : String → Bool}

theorem mem_select : n ∈ d.select p ↔ (d.get n).isSome = true ∧ p n = true := by
  rw [select, List.mem_filter, mem_names]

theorem select_eq_nil : d.select p = [] ↔ ∀ n, p n = true → d.get n = none := by
  rw [List.eq_nil_iff_forall_not_mem]
  refine forall_congr' fun n => ?_
  rw [mem_select, not_and', Bool.not_eq_true, Option.isSome_eq_false_iff, Option.isNone_iff_eq_none]

theorem nodup_select (p : String → Bool) (d : Folder β) : (d.select p).Nodup := d.nodup.filter _

/-- Other files do not matter. -/
theorem select_perm (h : ∀ n, p n = true → d'.get n = d.get n) : (d'.select p).Perm (d.select p) := by
  refine (List.perm_ext_iff_of_nodup (nodup_select p d') (nodup_select p d)).2 fun n => ?_
  rw [mem_select, mem_select]
  exact and_congr_left fun hn => by rw [h n hn]

theorem select_eq_singleton :
    d.select p = [n] ↔ p n = true ∧ (d.get n).isSome = true ∧ ∀ m, p m = true → m ≠ n → d.get m = none := by
  constructor
  · intro h
    have hmem : ∀ m, m ∈ d.select p ↔ m = n := fun m => by rw [h, List.mem_singleton]
    obtain ⟨hsome, hp⟩ := mem_select.1 ((hmem n).2 rfl)
    refine ⟨hp, hsome, fun m hm hne => ?_⟩
    rw [← Option.isNone_iff_eq_none, ← Option.isSome_eq_false_iff, ← Bool.not_eq_true]
    exact fun hget => hne ((hmem m).1 (mem_select.2 ⟨hget, hm⟩))
  · rintro ⟨hp, hsome, hother⟩
    have hmem : ∀ m ∈ d.select p, m = n := by
      intro m hm
      obtain ⟨hget, hm⟩ := mem_select.1 hm
      by_contra hne
      rw [hother m hm hne] at hget
      cases hget
    refine List.perm_singleton.1 ((List.perm_ext_iff_of_nodup (nodup_select p d) (List.nodup_singleton n)).2 fun m => ?_)
    rw [List.mem_singleton]
    exact ⟨hmem m, fun hm => hm ▸ mem_select.2 ⟨hsome, hp⟩⟩

end Folder
