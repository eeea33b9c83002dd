import Mathlib.Logic.Function.Basic
import Mathlib.Logic.Relation

/-! Registries of keys. A principal is enrolled by an entry that is issued with a deadline, takes a key
before it, and is then confirmed. Confirming one entry retires every other entry of its principal, so
the key that speaks for a principal changes hands in one move. An entry can be closed before it takes a
key, and revoked at any time. -/

namespace Registry

open Relation

variable {ι ν κ : Type}

inductive Stage (κ : Type) where
  | issued
  | closed
  | staged (key : κ)
  | active (key : κ)
  deriving DecidableEq

/-- The key that an entry has taken. -/
def Stage.key : Stage κ → Option κ
  | .issued | .closed => none
  | .staged k | .active k => some k

structure Entry (ν κ : Type) where
  principal : ν
  deadline : Int
  stage : Stage κ
  revoked : Bool

/-- The entry after a revocation. -/
def Entry.revoke (e : Entry ν κ) : Entry ν κ := { e with revoked := true }

/-- What one move makes of an entry; `now` is the instant of the move. -/
inductive Entry.Next (now : Int) : Entry ν κ → Entry ν κ → Prop
  | same {e} : Next now e e
  | close {p d} (live : now < d) : Next now ⟨p, d, .issued, false⟩ ⟨p, d, .closed, false⟩
  | take {p d k} (live : now < d) : Next now ⟨p, d, .issued, false⟩ ⟨p, d, .staged k, false⟩
  | confirm {p d k} : Next now ⟨p, d, .staged k, false⟩ ⟨p, d, .active k, false⟩
  | revoke {e} : Next now e e.revoke

/-- What no move takes from an entry: its principal, its key, its confirmation and its revocation. -/
structure Entry.Kept (e e' : Entry ν κ) : Prop where
  principal : e'.principal = e.principal
  key : ∀ k, e.stage.key = some k → e'.stage.key = some k
  active : ∀ k, e.stage = .active k → e'.stage = .active k
  revoked : e.revoked = true → e'.revoked = true

theorem Entry.Kept.refl (e : Entry ν κ) : e.Kept e := ⟨rfl, fun _ h => h, fun _ h => h, id⟩

theorem Entry.Kept.trans {e₁ e₂ e₃ : Entry ν κ} (h : e₁.Kept e₂) (h' : e₂.Kept e₃) : e₁.Kept e₃ where
  principal := h'.principal.trans h.principal
  key k hk := h'.key k (h.key k hk)
  active k hk := h'.active k (h.active k hk)
  revoked hr := h'.revoked (h.revoked hr)

theorem Entry.Next.kept {now : Int} {e e' : Entry ν κ} (h : Entry.Next now e e') : e.Kept e' := by
  cases h with
  | same => exact .refl e
  | close | take => exact ⟨rfl, nofun, nofun, nofun⟩
  | confirm => exact ⟨rfl, fun _ h => h, nofun, nofun⟩
  | revoke => exact ⟨rfl, fun _ h => h, fun _ h => h, fun _ => rfl⟩

/-- A registry: the entries by their identifiers. -/
def Entries (ι ν κ : Type) : Type := ι → Option (Entry ν κ)

namespace Entries

variable [DecidableEq ι] [DecidableEq ν]

def set (R : Entries ι ν κ) (id : ι) (e : Entry ν κ) : Entries ι ν κ := Function.update R id (some e)

/-- The entry takes over from every other entry of its principal. -/
def confirm (R : Entries ι ν κ) (id : ι) (e : Entry ν κ) : Entries ι ν κ := fun id' =>
  if id' = id then some e else (R id').map fun e' => if e'.principal = e.principal then e'.revoke else e'

/-- No entry has taken the key. -/
def Fresh (R : Entries ι ν κ) (k : κ) : Prop := ∀ id e, R id = some e → e.stage.key ≠ some k

inductive Move (now : Int) (R : Entries ι ν κ) : Entries ι ν κ → Prop
  | issue {id p d} (absent : R id = none) : Move now R (R.set id ⟨p, d, .issued, false⟩)
  | close {id p d} (old : R id = some ⟨p, d, .issued, false⟩) (live : now < d) :
      Move now R (R.set id ⟨p, d, .closed, false⟩)
  | take {id p d k} (old : R id = some ⟨p, d, .issued, false⟩) (live : now < d) (fresh : R.Fresh k) :
      Move now R (R.set id ⟨p, d, .staged k, false⟩)
  | confirm {id p d k} (old : R id = some ⟨p, d, .staged k, false⟩) : Move now R (R.confirm id ⟨p, d, .active k, false⟩)
  | revoke {id e} (old : R id = some e) : Move now R (R.set id e.revoke)

variable {R R' : Entries ι ν κ} {now : Int} {id : ι} {e : Entry ν κ} {p : ν} {k : κ}

omit [DecidableEq ν] in
@[simp] theorem set_self : (R.set id e) id = some e := Function.update_self ..

omit [DecidableEq ν] in
theorem set_of_ne {id' : ι} (h : id' ≠ id) : (R.set id e) id' = R id' := Function.update_of_ne h ..

@[simp] theorem confirm_self : (R.confirm id e) id = some e := if_pos rfl

theorem confirm_of_ne {id' : ι} (h : id' ≠ id) :
    (R.confirm id e) id' = (R id').map fun e' => if e'.principal = e.principal then e'.revoke else e' := if_neg h

omit [DecidableEq ν] in
/-- Writing a stored entry, entry by entry. -/
theorem set_eq_map {e₀ : Entry ν κ} (h : R id = some e₀) :
    R.set id e = fun id' => (R id').map fun e' => if id' = id then e else e' := by
  funext id'
  by_cases heq : id' = id
  · subst heq
    simp [h]
  · simp [set_of_ne heq, heq]

/-- Confirming a stored entry, entry by entry. -/
theorem confirm_eq_map {e₀ : Entry ν κ} (h : R id = some e₀) : R.confirm id e = fun id' => (R id').map fun e' =>
    if id' = id then e else if e'.principal = e.principal then e'.revoke else e' := by
  funext id'
  by_cases heq : id' = id
  · subst heq
    simp [h]
  · simp [confirm_of_ne heq, heq]

/-- A move keeps every entry and takes each one step further at most. -/
theorem Move.next (h : Move now R R') (he : R id = some e) : ∃ e', R' id = some e' ∧ e.Next now e' := by
  have written : ∀ {id₀ e₀ e₁}, R id₀ = some e₀ → e₀.Next now e₁ → ∃ e', (R.set id₀ e₁) id = some e' ∧ e.Next now e' := by
    intro id₀ e₀ e₁ hold hnext
    by_cases heq : id = id₀
    · subst heq
      cases hold.symm.trans he
      exact ⟨e₁, set_self, hnext⟩
    · exact ⟨e, (set_of_ne heq).trans he, .same⟩
  cases h with
  | @issue id₀ _ _ absent =>
    have hne : id ≠ id₀ := by
      rintro rfl
      cases absent.symm.trans he
    exact ⟨e, (set_of_ne hne).trans he, .same⟩
  | close old live => exact written old (.close live)
  | take old live => exact written old (.take live)
  | revoke old => exact written old .revoke
  | @confirm id₀ p d k old =>
    by_cases heq : id = id₀
    · subst heq
      cases old.symm.trans he
      exact ⟨_, confirm_self, .confirm⟩
    · rw [confirm_of_ne heq, he]
      by_cases hp : e.principal = p
      · exact ⟨e.revoke, by simp [hp], .revoke⟩
      · exact ⟨e, by simp [hp], .same⟩

/-! ### Keys in force -/

/-- The key speaks for the principal: a confirmed entry that has not been revoked holds it. -/
def InForce (R : Entries ι ν κ) (p : ν) (k : κ) : Prop := ∃ id d, R id = some ⟨p, d, .active k, false⟩

/-- No two entries hold one key, and at most one entry of a principal is in force. -/
structure WellKept (R : Entries ι ν κ) : Prop where
  distinct : ∀ id id' e e' k, R id = some e → R id' = some e' → e.stage.key = some k → e'.stage.key = some k → id = id'
  single : ∀ id id' p d d' k k', R id = some ⟨p, d, .active k, false⟩ → R id' = some ⟨p, d', .active k', false⟩ → id = id'

omit [DecidableEq ι] [DecidableEq ν] in
theorem WellKept.inForce_unique (h : R.WellKept) {k' : κ} (hk : R.InForce p k) (hk' : R.InForce p k') : k = k' := by
  obtain ⟨id, d, he⟩ := hk
  obtain ⟨id', d', he'⟩ := hk'
  cases h.single id id' p d d' k k' he he'
  cases he.symm.trans he'
  rfl

omit [DecidableEq ν] in
/-- Writing an entry that holds no key of another entry and is not newly in force. -/
theorem WellKept.set (h : R.WellKept)
    (hkey : ∀ k, e.stage.key = some k → ∀ id' e', id' ≠ id → R id' = some e' → e'.stage.key ≠ some k)
    (hforce : ∀ k, e.stage = .active k → e.revoked = true) : (R.set id e).WellKept := by
  constructor
  · intro id₁ id₂ e₁ e₂ k h₁ h₂ hk₁ hk₂
    by_cases heq₁ : id₁ = id <;> by_cases heq₂ : id₂ = id
    · exact heq₁.trans heq₂.symm
    · subst heq₁
      rw [set_self] at h₁
      cases h₁
      rw [set_of_ne heq₂] at h₂
      exact absurd hk₂ (hkey k hk₁ id₂ e₂ heq₂ h₂)
    · subst heq₂
      rw [set_self] at h₂
      cases h₂
      rw [set_of_ne heq₁] at h₁
      exact absurd hk₁ (hkey k hk₂ id₁ e₁ heq₁ h₁)
    · rw [set_of_ne heq₁] at h₁
      rw [set_of_ne heq₂] at h₂
      exact h.distinct id₁ id₂ e₁ e₂ k h₁ h₂ hk₁ hk₂
  · -- the written entry is not in force
    have other : ∀ {id₀ p d k}, (R.set id e) id₀ = some ⟨p, d, .active k, false⟩ → R id₀ = some ⟨p, d, .active k, false⟩ := by
      intro id₀ p d k h₀
      by_cases heq : id₀ = id
      · subst heq
        rw [set_self] at h₀
        cases h₀
        cases hforce k rfl
      · rwa [set_of_ne heq] at h₀
    intro id₁ id₂ p d d' k k' h₁ h₂
    exact h.single id₁ id₂ p d d' k k' (other h₁) (other h₂)

/-- An entry in force after a confirmation is the confirmed one, or was in force for another principal. -/
theorem eq_of_confirm {d d' : Int} {id' : ι} {p' : ν} {k' : κ}
    (h : (R.confirm id ⟨p, d, .active k, false⟩) id' = some ⟨p', d', .active k', false⟩) :
    (p' = p ∧ id' = id ∧ k' = k) ∨ (p' ≠ p ∧ id' ≠ id ∧ R id' = some ⟨p', d', .active k', false⟩) := by
  by_cases heq : id' = id
  · subst heq
    rw [confirm_self] at h
    cases h
    exact .inl ⟨rfl, rfl, rfl⟩
  · rw [confirm_of_ne heq, Option.map_eq_some_iff] at h
    obtain ⟨e', he', h⟩ := h
    split at h
    · cases congrArg Entry.revoked h
    · rename_i hp
      subst h
      exact .inr ⟨hp, heq, he'⟩

/-- After a confirmation the confirmed key is the only one in force for its principal. -/
theorem inForce_confirm {d : Int} {p' : ν} {k' : κ} (old : R id = some ⟨p, d, .staged k, false⟩) :
    (R.confirm id ⟨p, d, .active k, false⟩).InForce p' k' ↔ (p' = p ∧ k' = k) ∨ (p' ≠ p ∧ R.InForce p' k') := by
  constructor
  · rintro ⟨id', d', h⟩
    rcases eq_of_confirm h with ⟨hp, -, hk⟩ | ⟨hp, -, h⟩
    · exact .inl ⟨hp, hk⟩
    · exact .inr ⟨hp, id', d', h⟩
  · rintro (⟨rfl, rfl⟩ | ⟨hp, id', d', h⟩)
    · exact ⟨id, d, confirm_self⟩
    · have heq : id' ≠ id := by
        rintro rfl
        cases old.symm.trans h
      refine ⟨id', d', ?_⟩
      rw [confirm_of_ne heq, h]
      simp [hp]

omit [DecidableEq ν] in
/-- Writing an entry that neither was nor is in force. -/
theorem inForce_set (hold : ∀ p d k, R id ≠ some ⟨p, d, .active k, false⟩) (hnew : ∀ p d k, e ≠ ⟨p, d, .active k, false⟩) :
    (R.set id e).InForce p k ↔ R.InForce p k := by
  constructor
  · rintro ⟨id', d, h⟩
    by_cases heq : id' = id
    · subst heq
      rw [set_self, Option.some.injEq] at h
      exact absurd h (hnew p d k)
    · rw [set_of_ne heq] at h
      exact ⟨id', d, h⟩
  · rintro ⟨id', d, h⟩
    have heq : id' ≠ id := by
      rintro rfl
      exact hold p d k h
    exact ⟨id', d, (set_of_ne heq).trans h⟩

theorem wellKept_move (h : R.WellKept) (hm : Move now R R') : R'.WellKept := by
  cases hm with
  | issue | close => exact h.set nofun nofun
  | take old live fresh =>
    refine h.set (fun k' hk' id' e' _ he' => ?_) nofun
    cases hk'
    exact fresh id' e' he'
  | @revoke id e old =>
    refine h.set (fun k hk id' e' hne he' hk' => hne ?_) fun _ _ => rfl
    exact h.distinct id' id e' e k he' old hk' hk
  | @confirm id p d k old =>
    -- every entry keeps its key
    have before : ∀ {id₀ e₀ k₀}, (R.confirm id ⟨p, d, .active k, false⟩) id₀ = some e₀ → e₀.stage.key = some k₀ →
        ∃ e₁, R id₀ = some e₁ ∧ e₁.stage.key = some k₀ := by
      intro id₀ e₀ k₀ he hk
      by_cases heq : id₀ = id
      · subst heq
        rw [confirm_self] at he
        cases he
        exact ⟨_, old, hk⟩
      · rw [confirm_of_ne heq, Option.map_eq_some_iff] at he
        obtain ⟨e₁, he₁, rfl⟩ := he
        refine ⟨e₁, he₁, ?_⟩
        split at hk <;> exact hk
    constructor
    · intro id₁ id₂ e₁ e₂ k₀ h₁ h₂ hk₁ hk₂
      obtain ⟨e₁', h₁', hk₁'⟩ := before h₁ hk₁
      obtain ⟨e₂', h₂', hk₂'⟩ := before h₂ hk₂
      exact h.distinct id₁ id₂ e₁' e₂' k₀ h₁' h₂' hk₁' hk₂'
    · intro id₁ id₂ p₀ d₁ d₂ k₁ k₂ h₁ h₂
      rcases eq_of_confirm h₁ with ⟨hp, rfl, -⟩ | ⟨hp, -, h₁⟩ <;> rcases eq_of_confirm h₂ with ⟨hp', rfl, -⟩ | ⟨hp', -, h₂⟩
      · rfl
      · exact absurd hp hp'
      · exact absurd hp' hp
      · exact h.single id₁ id₂ p₀ d₁ d₂ k₁ k₂ h₁ h₂

/-! ### Histories of moves -/

/-- Any number of moves, at any instants. -/
def Moves : Entries ι ν κ → Entries ι ν κ → Prop := ReflTransGen fun R R' => ∃ now, Move now R R'

theorem wellKept_moves (h : R.WellKept) (hm : Moves R R') : R'.WellKept := by
  induction hm with
  | refl => exact h
  | tail _ hm ih =>
    obtain ⟨now, hm⟩ := hm
    exact wellKept_move ih hm

theorem Moves.kept (h : Moves R R') (he : R id = some e) : ∃ e', R' id = some e' ∧ e.Kept e' := by
  induction h with
  | refl => exact ⟨e, he, .refl e⟩
  | tail _ hm ih =>
    obtain ⟨now, hm⟩ := hm
    obtain ⟨e₁, he₁, hkept₁⟩ := ih
    obtain ⟨e₂, he₂, hnext⟩ := hm.next he₁
    exact ⟨e₂, he₂, hkept₁.trans hnext.kept⟩

/-- A key that has ceased to be in force never is again, for any principal. -/
theorem not_inForce_again {R₁ R₂ R₃ : Entries ι ν κ} (h : R₁.WellKept) (hk : R₁.InForce p k) (hm : Moves R₁ R₂)
    (hlost : ¬R₂.InForce p k) (hm' : Moves R₂ R₃) (p' : ν) : ¬R₃.InForce p' k := by
  obtain ⟨id, d, he₁⟩ := hk
  obtain ⟨⟨p₂, d₂, s₂, b₂⟩, he₂, hkept⟩ := hm.kept he₁
  cases hkept.principal
  cases hkept.active k rfl
  cases b₂ with
  | false => exact absurd ⟨id, d₂, he₂⟩ hlost
  | true =>
    obtain ⟨e₃, he₃, hkept₃⟩ := hm'.kept he₂
    rintro ⟨id', d', he'⟩
    have hid := (wellKept_moves (wellKept_moves h hm) hm').distinct id id' e₃ _ k he₃ he' (hkept₃.key k rfl) rfl
    subst hid
    cases he₃.symm.trans he'
    cases hkept₃.revoked rfl

end Entries

end Registry
