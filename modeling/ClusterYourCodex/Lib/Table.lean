import Mathlib.Data.List.Pairwise
import Mathlib.Data.List.Basic

/-! Tables of a relational store. A table is a list of rows, no two of which its PRIMARY KEY and
UNIQUE columns forbid to stand together: that is the field `apart`, so a table with a duplicate key
cannot be built. `insert` and `update` are the statements that can violate a constraint and return
`none` then; `modify` is the UPDATE that leaves the constrained columns alone and cannot fail. -/

namespace Relational

/-- The constraint of a row type: which two rows may not both be stored. -/
class Schema (ρ : Type) where
  clash : ρ → ρ → Bool
  clash_comm : ∀ a b, clash a b = clash b a

open Schema

@[ext]
structure Table (ρ : Type) [Schema ρ] where
  rows : List ρ
  apart : rows.Pairwise fun a b => clash a b = false

section Rewrite

variable {ρ : Type} {p q : ρ → Bool} {f : ρ → ρ}

/-- What an UPDATE of the rows selected by `p` makes of a row. -/
def rewrite (p : ρ → Bool) (f : ρ → ρ) (r : ρ) : ρ := if p r then f r else r

theorem rewrite_of_pos {r : ρ} (h : p r = true) : rewrite p f r = f r := if_pos h

theorem rewrite_of_neg {r : ρ} (h : p r = false) : rewrite p f r = r := by
  simp [rewrite, h]

theorem find_rewrite (hq : ∀ r, q (f r) = q r) (l : List ρ) :
    (l.map (rewrite p f)).find? q = (l.find? q).map (rewrite p f) := by
  have hcomp : q ∘ rewrite p f = q := by
    funext r
    simp only [Function.comp, rewrite]
    split
    · exact hq r
    · rfl
  rw [List.find?_map, hcomp]

end Rewrite

/-- Elements that stand apart, of which no two do, are at most one. -/
theorem length_le_one_of_pairwise {α : Type} {R : α → α → Prop} {l : List α} (h : l.Pairwise R)
    (hnot : ∀ a ∈ l, ∀ b ∈ l, ¬ R a b) : l.length ≤ 1 := by
  match l, h with
  | [], _ => simp
  | [_], _ => simp
  | a :: b :: l, h => exact absurd (List.rel_of_pairwise_cons h List.mem_cons_self) (hnot a (by simp) b (by simp))

namespace Table

variable {ρ : Type} [Schema ρ]

def empty : Table ρ := ⟨[], List.Pairwise.nil⟩

/-- INSERT: fails when a stored row clashes with the new one. -/
def insert (t : Table ρ) (r : ρ) : Option (Table ρ) :=
  if h : ∀ a ∈ t.rows, clash a r = false then
    some ⟨t.rows ++ [r], List.pairwise_append.2
      ⟨t.apart, List.pairwise_singleton _ _, fun a ha b hb => by
        rw [List.mem_singleton.1 hb]; exact h a ha⟩⟩
  else none

/-- UPDATE of columns that no constraint mentions. -/
def modify (t : Table ρ) (p : ρ → Bool) (f : ρ → ρ) (keeps : ∀ a b, clash (f a) b = clash a b) : Table ρ :=
  ⟨t.rows.map (rewrite p f), List.pairwise_map.2 (t.apart.imp fun {a b} h => by
    have left : ∀ a b, clash (rewrite p f a) b = clash a b := by
      intro a b
      unfold rewrite
      split
      · exact keeps a b
      · rfl
    rw [left, clash_comm, left, clash_comm]
    exact h)⟩

/-- UPDATE of constrained columns: fails when two rows of the result clash. -/
def update (t : Table ρ) (p : ρ → Bool) (f : ρ → ρ) : Option (Table ρ) :=
  if h : (t.rows.map (rewrite p f)).Pairwise fun a b => clash a b = false then
    some ⟨t.rows.map (rewrite p f), h⟩
  else none

def delete (t : Table ρ) (p : ρ → Bool) : Table ρ :=
  ⟨t.rows.filter fun r => !p r, t.apart.filter _⟩

/-- INSERT … ON CONFLICT DO UPDATE: writes the columns of the new row into the one it clashes with. -/
def upsert (t : Table ρ) (r : ρ) (f : ρ → ρ) (keeps : ∀ a b, clash (f a) b = clash a b) : Table ρ :=
  match t.insert r with
  | some t' => t'
  | none => t.modify (clash r) f keeps

def find (t : Table ρ) (p : ρ → Bool) : Option ρ := t.rows.find? p

def any (t : Table ρ) (p : ρ → Bool) : Bool := t.rows.any p

variable {t t' : Table ρ} {p q : ρ → Bool} {f : ρ → ρ} {r : ρ} {keeps : ∀ a b, clash (f a) b = clash a b}

theorem insert_eq_some (h : t.insert r = some t') : t'.rows = t.rows ++ [r] ∧ ∀ a ∈ t.rows, clash a r = false := by
  unfold insert at h
  split at h
  · rename_i hc
    cases h
    exact ⟨rfl, hc⟩
  · cases h

theorem insert_isSome (h : ∀ a ∈ t.rows, clash a r = false) : ∃ t', t.insert r = some t' := by
  unfold insert
  rw [dif_pos h]
  exact ⟨_, rfl⟩

theorem update_eq_some (h : t.update p f = some t') : t'.rows = t.rows.map (rewrite p f) := by
  unfold update at h
  split at h
  · cases h; rfl
  · cases h

@[simp] theorem rows_modify (t : Table ρ) (p : ρ → Bool) (f : ρ → ρ) (keeps : ∀ a b, clash (f a) b = clash a b) :
    (t.modify p f keeps).rows = t.rows.map (rewrite p f) := rfl

/-! ### Reading after writing -/

theorem find_some (h : t.find q = some r) : r ∈ t.rows ∧ q r = true :=
  ⟨List.mem_of_find?_eq_some h, List.find?_some h⟩

theorem find_none : t.find q = none ↔ ∀ r ∈ t.rows, q r = false := by
  simp [find, List.find?_eq_none]

theorem any_eq_true : t.any q = true ↔ ∃ r ∈ t.rows, q r = true := by
  simp [any]

theorem any_eq_false : t.any q = false ↔ ∀ r ∈ t.rows, q r = false := by
  simp [any]

/-- A lookup whose column an UPDATE does not write reads the old row, rewritten. -/
theorem find_modify (t : Table ρ) (p q : ρ → Bool) (f : ρ → ρ) (keeps : ∀ a b, clash (f a) b = clash a b)
    (hq : ∀ r, q (f r) = q r) : (t.modify p f keeps).find q = (t.find q).map (rewrite p f) :=
  find_rewrite hq t.rows

theorem find_insert (h : t.insert r = some t') (q : ρ → Bool) :
    t'.find q = (t.find q).or (if q r then some r else none) := by
  unfold find
  rw [(insert_eq_some h).1, List.find?_append]
  congr 1
  simp only [List.find?_cons, List.find?_nil]
  cases q r <;> rfl

/-- An UPDATE that writes what the rows hold already. -/
theorem modify_eq_of_fixed (h : ∀ r ∈ t.rows, p r = true → f r = r) : t.modify p f keeps = t := by
  refine Table.ext ((List.map_congr_left fun r hr => ?_).trans (List.map_id' _))
  unfold rewrite
  split
  · exact h r hr ‹_›
  · rfl

/-- An UPDATE that selects nothing. -/
theorem modify_eq_self (h : ∀ r ∈ t.rows, p r = false) : t.modify p f keeps = t :=
  modify_eq_of_fixed fun r hr hp => by rw [h r hr] at hp; cases hp

/-- A DELETE that selects nothing. -/
theorem delete_eq_self (h : ∀ r ∈ t.rows, p r = false) : t.delete p = t :=
  Table.ext (List.filter_eq_self.2 fun r hr => by simp [h r hr])

/-- An INSERT beside a row with the same key. -/
theorem insert_eq_none {a : ρ} (ha : a ∈ t.rows) (h : clash a r = true) : t.insert r = none := by
  unfold insert
  refine dif_neg fun hall => ?_
  rw [hall a ha] at h
  cases h

theorem mem_insert {x : ρ} (h : t.insert r = some t') : x ∈ t'.rows ↔ x ∈ t.rows ∨ x = r := by
  simp [(insert_eq_some h).1]

theorem mem_update {x : ρ} (h : t.update p f = some t') : x ∈ t'.rows ↔ ∃ r ∈ t.rows, rewrite p f r = x := by
  simp [update_eq_some h]

/-! ### Keys -/

theorem eq_of_clash {a b : ρ} (ha : a ∈ t.rows) (hb : b ∈ t.rows) (h : clash a b = true) : a = b := by
  by_contra hne
  have : Std.Symm fun a b : ρ => clash a b = false := ⟨fun a b h => (clash_comm b a).trans h⟩
  have := t.apart.forall ha hb hne
  simp [this] at h

/-- `q` selects by a key: any two rows it selects clash. -/
def IsKey (q : ρ → Bool) : Prop := ∀ a b, q a = true → q b = true → clash a b = true

theorem find_eq_some_iff (hk : IsKey q) : t.find q = some r ↔ r ∈ t.rows ∧ q r = true := by
  refine ⟨find_some, fun ⟨hr, hq⟩ => ?_⟩
  cases hf : t.find q with
  | none => simp [find_none.1 hf r hr] at hq
  | some r' =>
    obtain ⟨hr', hq'⟩ := find_some hf
    rw [eq_of_clash hr hr' (hk r r' hq hq')]

theorem find_of_mem (hk : IsKey q) (hr : r ∈ t.rows) (hq : q r = true) :
    t.find q = some r := (find_eq_some_iff hk).2 ⟨hr, hq⟩

/-- A key selects one row at most. -/
theorem countP_eq_one (hk : IsKey q) (hr : r ∈ t.rows) (hq : q r = true) : t.rows.countP q = 1 := by
  have hle : (t.rows.filter q).length ≤ 1 := by
    refine length_le_one_of_pairwise (t.apart.filter q) fun a ha b hb hclash => ?_
    rw [hk a b (List.mem_filter.1 ha).2 (List.mem_filter.1 hb).2] at hclash
    cases hclash
  have hpos : 0 < t.rows.countP q := List.countP_pos_iff.2 ⟨r, hr, hq⟩
  rw [← List.countP_eq_length_filter] at hle
  omega

/-- An UPDATE after which no two rows clash. -/
theorem update_isSome
    (h : ∀ a ∈ t.rows, ∀ b ∈ t.rows, clash a b = false → clash (rewrite p f a) (rewrite p f b) = false) :
    ∃ t', t.update p f = some t' := by
  unfold update
  rw [dif_pos (List.pairwise_map.2 (t.apart.imp_of_mem fun {a b} ha hb hclash => h a ha b hb hclash))]
  exact ⟨_, rfl⟩

/-! ### Lookup by a column -/

section Lookup

variable {κ : Type} [DecidableEq κ] {key : ρ → κ} {k : κ}

/-- The row with the given value in a column. -/
def lookup (t : Table ρ) (key : ρ → κ) (k : κ) : Option ρ := t.find fun r => key r = k

theorem lookup_some (h : t.lookup key k = some r) : r ∈ t.rows ∧ key r = k := by
  obtain ⟨hr, hk⟩ := find_some h
  exact ⟨hr, of_decide_eq_true hk⟩

theorem lookup_of_mem (hk : ∀ a b : ρ, key a = key b → clash a b = true) (hr : r ∈ t.rows) :
    t.lookup key (key r) = some r :=
  find_of_mem (fun a b ha hb => hk a b ((of_decide_eq_true ha).trans (of_decide_eq_true hb).symm)) hr (decide_eq_true rfl)

/-- In a column of a key, the row that is found is the only one with its value. -/
theorem filter_of_lookup (hk : ∀ a b : ρ, key a = key b → clash a b = true) (h : t.lookup key k = some r) :
    t.rows.filter (fun a => key a = k) = [r] := by
  obtain ⟨hr, hrk⟩ := lookup_some h
  have hall : ∀ a ∈ t.rows.filter (fun a => key a = k), a = r := by
    intro a ha
    obtain ⟨ha, hak⟩ := List.mem_filter.1 ha
    exact eq_of_clash ha hr (hk a r ((of_decide_eq_true hak).trans hrk.symm))
  have hnodup : (t.rows.filter fun a => key a = k).Nodup := by
    refine (t.apart.imp fun {a b} hab he => ?_).filter _
    rw [hk a b (congrArg key he)] at hab
    cases hab
  have hmem : r ∈ t.rows.filter fun a => key a = k := List.mem_filter.2 ⟨hr, decide_eq_true hrk⟩
  have hlength := List.nodup_replicate.1 (List.eq_replicate_of_mem hall ▸ hnodup)
  obtain ⟨a, ha⟩ := List.length_eq_one_iff.1 (Nat.le_antisymm hlength (List.length_pos_of_mem hmem))
  rw [ha] at hmem ⊢
  rw [List.mem_singleton.1 hmem]

/-- An UPDATE of rows with one value in the column changes the lookup of that value only. -/
theorem lookup_rewrite (hp : ∀ r ∈ t.rows, p r = true → key r = k) (hf : ∀ r, key (f r) = key r)
    (h : t'.rows = t.rows.map (rewrite p f)) :
    t'.lookup key = Function.update (t.lookup key) k ((t.lookup key k).map (rewrite p f)) := by
  have hfind : ∀ k', t'.lookup key k' = (t.lookup key k').map (rewrite p f) := by
    intro k'
    unfold lookup find
    rw [h]
    exact find_rewrite (fun r => by rw [hf]) t.rows
  funext k'
  by_cases hk : k' = k
  · subst hk
    rw [hfind, Function.update_self]
  · rw [hfind, Function.update_of_ne hk]
    cases hl : t.lookup key k' with
    | none => rfl
    | some r =>
      obtain ⟨hr, hkey⟩ := lookup_some hl
      have hpr : p r = false := by
        by_contra hpr
        exact hk (hkey.symm.trans (hp r hr (by simpa using hpr)))
      rw [Option.map_some, rewrite_of_neg hpr]

/-- An UPDATE that selects the row of one value, and no row of another. -/
theorem lookup_modify (hr : t.lookup key k = some r)
    (hp : ∀ a ∈ t.rows, p a = true → key a = k) (hpr : p r = true) (hf : ∀ a, key (f a) = key a) :
    (t.modify p f keeps).lookup key = Function.update (t.lookup key) k (some (f r)) := by
  rw [lookup_rewrite hp hf (rows_modify t p f keeps), hr, Option.map_some, rewrite_of_pos hpr]

/-- The same by the rows it leaves. -/
theorem lookup_updated (h : t'.rows = t.rows.map (rewrite p f)) (hr : t.lookup key k = some r)
    (hp : ∀ a, p a = true → key a = k) (hpr : p r = true) (hf : ∀ a, key (f a) = key a) :
    t'.lookup key = Function.update (t.lookup key) k (some (f r)) := by
  rw [lookup_rewrite (fun a _ => hp a) hf h, hr, Option.map_some, rewrite_of_pos hpr]

/-- An INSERT defines the lookup of its own value. -/
theorem lookup_insert (hk : ∀ a b : ρ, key a = key b → clash a b = true) (h : t.insert r = some t') :
    t.lookup key (key r) = none ∧ t'.lookup key = Function.update (t.lookup key) (key r) (some r) := by
  have hnone : t.lookup key (key r) = none := by
    refine find_none.2 fun a ha => decide_eq_false fun hkey => ?_
    have := (insert_eq_some h).2 a ha
    rw [hk a r hkey] at this
    cases this
  refine ⟨hnone, funext fun k' => ?_⟩
  unfold lookup
  rw [find_insert h]
  by_cases hk' : k' = key r
  · subst hk'
    rw [Function.update_self]
    have : t.find (fun a => decide (key a = key r)) = none := hnone
    rw [this, if_pos (decide_eq_true rfl)]
    rfl
  · rw [Function.update_of_ne hk', if_neg (by simpa using Ne.symm hk'), Option.or_none]

/-- A DELETE of the row with one value in the column. -/
theorem lookup_delete : (t.delete fun r => key r = k).lookup key = Function.update (t.lookup key) k none := by
  funext k'
  unfold lookup find delete
  rw [List.find?_filter]
  by_cases hk : k' = k
  · subst hk
    rw [Function.update_self, List.find?_eq_none]
    intro r _
    simp
  · rw [Function.update_of_ne hk]
    congr 1
    funext r
    by_cases hr : key r = k'
    · simp [hr, hk]
    · simp [hr]

theorem any_eq_lookup : t.any (fun r => key r = k) = (t.lookup key k).isSome := by
  rw [Bool.eq_iff_iff, any_eq_true, lookup, find, List.find?_isSome]

/-- In a table that the column alone constrains, an upsert writes the row of its own value. -/
theorem lookup_upsert (hk : ∀ a b : ρ, clash a b = true ↔ key a = key b) (hf : ∀ a, key (f a) = key a) :
    (t.upsert r f keeps).lookup key =
      Function.update (t.lookup key) (key r) (some (((t.lookup key (key r)).map f).getD r)) := by
  unfold upsert
  cases hinsert : t.insert r with
  | some t' =>
    obtain ⟨hnone, hlookup⟩ := lookup_insert (fun a b => (hk a b).2) hinsert
    rw [hnone]
    exact hlookup
  | none =>
    obtain ⟨a, ha, hclash⟩ : ∃ a ∈ t.rows, clash a r = true := by
      by_contra hall
      simp only [not_exists, not_and, Bool.not_eq_true] at hall
      obtain ⟨t', ht'⟩ := insert_isSome hall
      cases hinsert.symm.trans ht'
    have hlookup : t.lookup key (key r) = some a := by
      rw [← (hk a r).1 hclash]
      exact lookup_of_mem (fun a b => (hk a b).2) ha
    rw [hlookup]
    refine lookup_modify hlookup (fun b _ hb => ((hk r b).1 hb).symm) ?_ hf
    rw [clash_comm]
    exact hclash

/-- If it writes every other column, the row is the given one whether or not there was a row. -/
theorem lookup_upsert_row (hk : ∀ a b : ρ, clash a b = true ↔ key a = key b)
    (hf : ∀ a, key (f a) = key a) (hrow : ∀ a, key a = key r → f a = r) :
    (t.upsert r f keeps).lookup key = Function.update (t.lookup key) (key r) (some r) := by
  rw [lookup_upsert hk hf]
  cases h : t.lookup key (key r) with
  | none => rfl
  | some a => rw [Option.map_some, Option.getD_some, hrow a (lookup_some h).2]

end Lookup

end Table

end Relational
