import ClusterYourCodex.Lib.Checked
import ClusterYourCodex.Spec.Integration

/-! When a failed installation leaves the marketplace as it was. A rollback puts the previous registration
back or asks for a repair, provided that the previous root was kept. Three exits have no such rollback: the first
removal when it fails after it took effect, a rollback without a validated previous root, and the steps after
the plugin is installed. -/

namespace CYC.Integration

open Checked

/-- The same marketplace is registered, or none. -/
def SameMarketplace (disk : Disk) : Option FilePath → Option FilePath → Prop
  | none, none => True
  | some p, some q => samePath disk p q = true
  | _, _ => False

theorem samePath_refl (disk : Disk) (p : FilePath) : samePath disk p p = true := by
  unfold samePath
  split <;> simp

theorem SameMarketplace.refl (disk : Disk) (registered : Option FilePath) : SameMarketplace disk registered registered := by
  cases registered with
  | none => trivial
  | some p => exact samePath_refl disk p

variable {disk : Disk} {o : Outcomes} {switch : MarketplaceSwitch} {s : Cli} {a : Answers}

theorem samePath_symm {p q : FilePath} (h : samePath disk p q = true) : samePath disk q p = true := by
  unfold samePath at h ⊢
  split at h
  · rename_i hwindows
    rw [if_pos hwindows]
    simpa using (of_decide_eq_true h).symm
  · rename_i hwindows
    rw [if_neg hwindows]
    simpa using (of_decide_eq_true h).symm

/-- A validated root is the same path as the one that was registered. -/
theorem samePath_of_validate {root canonical : FilePath}
    (h : validateOwnedMarketplaceRoot disk root = some canonical) : samePath disk canonical root = true := by
  have hcanonical : disk.canonicalize root = some canonical := by
    unfold validateOwnedMarketplaceRoot at h
    split at h
    · cases h
    split at h
    · cases h
    · rename_i c hc
      split at h
      · cases h
        exact hc
      · cases h
  unfold samePath
  rw [hcanonical, disk.canonical _ _ hcanonical]
  split <;> simp

/-! ### Rollbacks -/

/-- What is left after a rollback: a demand for repair, or the previous root under the error that caused it. -/
def RolledBack (o : Outcomes) (primary : IntegrationError) (switch : MarketplaceSwitch) (s : Cli)
    (result : IntegrationError × Cli) : Prop :=
  result.1.repairRequired = true ∨
    (result.1 = primary ∧ o s.issued = .success ∧ result.2.registered = switch.previousOwnedRoot)

section Rollback

variable (hchanged : switch.changed = true)
include hchanged

theorem restoreMarketplace_ok {s' : Cli} (h : restoreMarketplace o switch s = (.ok (), s')) :
    o s.issued = .success ∧ s'.registered = switch.previousOwnedRoot := by
  simp only [restoreMarketplace, hchanged, Bool.not_true, Bool.false_eq_true, if_false, removeOwned, addLocal, command] at h
  cases hfirst : o s.issued with
  | success =>
    simp only [hfirst, Outcome.answer, Outcome.effect, if_true] at h
    refine ⟨rfl, ?_⟩
    cases hprevious : switch.previousOwnedRoot with
    | none =>
      simp only [hprevious] at h
      cases h
      rfl
    | some previous =>
      simp only [hprevious] at h
      cases hsecond : o (s.issued + 1) with
      | success =>
        simp only [hsecond] at h
        cases h
        rfl
      | refused | broken => simp [hsecond] at h
  | refused | broken => simp [hfirst, Outcome.answer] at h

/-- Without a previous root a removal is all there is to do. -/
theorem restoreMarketplace_none (hprevious : switch.previousOwnedRoot = none) (h : o s.issued = .success) :
    restoreMarketplace o switch s = (.ok (), { registered := none, issued := s.issued + 1 }) := by
  simp [restoreMarketplace, hchanged, removeOwned, command, h, Outcome.answer, Outcome.effect, hprevious]

theorem finishMarketplaceFailure_rolledBack (primary : IntegrationError) (s : Cli) :
    RolledBack o primary switch s (finishMarketplaceFailure o primary switch s) := by
  unfold finishMarketplaceFailure
  split
  · rename_i s' h
    obtain ⟨hsuccess, hregistered⟩ := restoreMarketplace_ok hchanged h
    exact .inr ⟨rfl, hsuccess, hregistered⟩
  · exact .inl rfl

theorem finishMarketplaceFailure_none (hprevious : switch.previousOwnedRoot = none) (h : o s.issued = .success)
    (primary : IntegrationError) :
    finishMarketplaceFailure o primary switch s = (primary, { registered := none, issued := s.issued + 1 }) := by
  rw [finishMarketplaceFailure, restoreMarketplace_none hchanged hprevious h]

theorem finishPluginFailure_rolledBack (pluginAdd : PluginAnswer) (primary : IntegrationError) (s : Cli) :
    RolledBack o primary switch s (finishPluginFailure o pluginAdd primary switch s) := by
  unfold finishPluginFailure
  split
  · rename_i s' h
    unfold restorePluginAfterFailure at h
    split at h
    · cases h
    · rename_i s'' hrestored
      obtain ⟨hsuccess, hregistered⟩ := restoreMarketplace_ok hchanged hrestored
      refine .inr ⟨rfl, hsuccess, ?_⟩
      have hsame : s' = s'' := by
        split at h
        · split at h <;> cases h
          rfl
        · cases h
          rfl
      rw [hsame]
      exact hregistered
  · exact .inl rfl

theorem finishPluginFailure_none (hprevious : switch.previousOwnedRoot = none) (h : o s.issued = .success) (pluginAdd : PluginAnswer)
    (primary : IntegrationError) :
    finishPluginFailure o pluginAdd primary switch s = (primary, { registered := none, issued := s.issued + 1 }) := by
  rw [finishPluginFailure, restorePluginAfterFailure, restoreMarketplace_none hchanged hprevious h]
  simp [hprevious]

end Rollback

/-- Nothing is rolled back when nothing was switched. -/
theorem finishPluginFailure_unchanged (hchanged : switch.changed = false)
    (pluginAdd : PluginAnswer) (primary : IntegrationError) :
    (finishPluginFailure o pluginAdd primary switch s).2 = s := by
  rw [finishPluginFailure, restorePluginAfterFailure, restoreMarketplace, hchanged]
  simp only [Bool.not_false, if_true]
  split
  · rename_i s' h
    split at h
    · split at h <;> cases h
      rfl
    · cases h
      rfl
  · rename_i stage cause s' h
    split at h
    · split at h <;> cases h <;> rfl
    · cases h

/-! ### After the previous marketplace is out of the way -/

/-- The error that a rollback answers: of the registration of the new marketplace, or of a step after it. -/
def failure (disk : Disk) (o : Outcomes) (a : Answers) (p : Prepared) (issued : Nat) : Option IntegrationError :=
  match (o issued).answer with
  | .error e => some e
  | .ok false => some .marketplaceInstallFailed
  | .ok true => match installPlugin disk a p with
    | .error primary => some primary
    | .ok _ => none

/-- The steps at the end, which nothing rolls back, succeed or ask for a repair. -/
def endsWell (a : Answers) : Bool :=
  let ending : Except IntegrationError IntegrationState := do
    let now ← a.nowMs
    a.writeRestartReceipt now
    a.status
  match ending with
  | .ok _ => true
  | .error e => e.repairRequired

/-- The rest of the call from the registration of the new marketplace. -/
def proceed (disk : Disk) (o : Outcomes) (a : Answers) (p : Prepared) (switch : MarketplaceSwitch) (s : Cli) :
    Except IntegrationError IntegrationActionResult × Cli :=
  afterSwitch disk o a p (addDesired o p.payload.marketplaceRoot switch s)

theorem finish_eq_error {p : Prepared} {agents : CodexOnlyStatus} {e : IntegrationError}
    (h : finish a p true agents = .error e) : endsWell a = e.repairRequired := by
  unfold endsWell
  simp only [finish, Bool.true_or, if_true] at h
  cases hnow : a.nowMs with
  | error e' =>
    rw [hnow] at h
    cases h
    rfl
  | ok now =>
    rw [hnow] at h
    simp only [ok_bind] at h ⊢
    cases hwrite : a.writeRestartReceipt now with
    | error e' =>
      rw [hwrite] at h
      cases h
      rfl
    | ok u =>
      rw [hwrite] at h
      simp only [ok_bind] at h ⊢
      cases hstatus : a.status with
      | error e' =>
        rw [hstatus] at h
        cases h
        rfl
      | ok status =>
        rw [hstatus] at h
        cases h

theorem finish_of_not_endsWell (h : endsWell a = false) (p : Prepared) (agents : CodexOnlyStatus) :
    ∃ e, finish a p true agents = .error e ∧ e.repairRequired = false := by
  cases hfinish : finish a p true agents with
  | error e => exact ⟨e, rfl, (finish_eq_error hfinish).symm.trans h⟩
  | ok result =>
    simp only [finish, Bool.true_or, if_true, bind_eq_ok] at hfinish
    obtain ⟨now, hnow, _, hwrite, status, hstatus, -⟩ := hfinish
    simp [endsWell, hnow, hwrite, hstatus, ok_bind] at h

/-- An error that asks for no repair leaves the marketplace as it was before. -/
def Restores (disk : Disk) (before : Option FilePath) (result : Except IntegrationError IntegrationActionResult × Cli) : Prop :=
  ∀ e, result.1 = .error e → e.repairRequired = false → SameMarketplace disk result.2.registered before

theorem restores_of_rolledBack {before : Option FilePath} {primary : IntegrationError} {result : IntegrationError × Cli}
    (h : RolledBack o primary switch s result)
    (hsame : primary.repairRequired = false → o s.issued = .success → SameMarketplace disk switch.previousOwnedRoot before) :
    Restores disk before (.error result.1, result.2) := by
  intro e he hrepair
  cases he
  rcases h with h | ⟨hprimary, hsuccess, hregistered⟩
  · rw [h] at hrepair
    cases hrepair
  · show SameMarketplace disk result.2.registered before
    rw [hregistered]
    exact hsame (hprimary ▸ hrepair) hsuccess

section proceeding

variable {disk : Disk} {o : Outcomes} {a : Answers} {p : Prepared} {switch : MarketplaceSwitch} {s : Cli}

/-- What follows the registration of the new marketplace, by how it ends. -/
theorem proceed_cases (hchanged : switch.changed = true) :
    (∃ primary result s', failure disk o a p s.issued = some primary ∧ s'.issued = s.issued + 1 ∧
      RolledBack o primary switch s' result ∧ proceed disk o a p switch s = (.error result.1, result.2) ∧
      (switch.previousOwnedRoot = none → o (s.issued + 1) = .success →
        result.1 = primary ∧ result.2.registered = none)) ∨
    (∃ agents s', failure disk o a p s.issued = none ∧ s'.registered = some p.payload.marketplaceRoot ∧
      proceed disk o a p switch s = (finish a p true agents, s')) := by
  cases hadd : o s.issued with
  | success =>
    have haddDesired : addDesired o p.payload.marketplaceRoot switch s =
        (.ok switch, { registered := some p.payload.marketplaceRoot, issued := s.issued + 1 }) := by
      simp [addDesired, addLocal, command, hadd, Outcome.answer, Outcome.effect]
    cases hinstall : installPlugin disk a p with
    | error primary =>
      left
      refine ⟨primary, finishPluginFailure o a.pluginAddAtRollback primary switch
        { registered := some p.payload.marketplaceRoot, issued := s.issued + 1 }, _, ?_, rfl,
        finishPluginFailure_rolledBack hchanged _ _ _, ?_, ?_⟩
      · simp [failure, hadd, Outcome.answer, hinstall]
      · simp only [proceed, afterSwitch, haddDesired, hinstall]
      · intro hprevious hsuccess
        rw [finishPluginFailure_none hchanged hprevious hsuccess]
        exact ⟨rfl, rfl⟩
    | ok agents =>
      right
      refine ⟨agents, { registered := some p.payload.marketplaceRoot, issued := s.issued + 1 }, ?_, rfl, ?_⟩
      · simp [failure, hadd, Outcome.answer, hinstall]
      · simp only [proceed, afterSwitch, haddDesired, hinstall, hchanged]
  | refused effect | broken effect =>
    left
    obtain ⟨primary, hprimary⟩ : ∃ primary, failure disk o a p s.issued = some primary := by
      simp [failure, hadd, Outcome.answer]
    refine ⟨primary, finishMarketplaceFailure o primary switch
      { registered := if effect then some p.payload.marketplaceRoot else s.registered, issued := s.issued + 1 }, _, hprimary, rfl,
      finishMarketplaceFailure_rolledBack hchanged _ _, ?_, ?_⟩
    · simp only [failure, hadd, Outcome.answer, Option.some.injEq] at hprimary
      simp only [proceed, afterSwitch, addDesired, addLocal, command, hadd, Outcome.answer, Outcome.effect, hprimary]
    · intro hprevious hsuccess
      rw [finishMarketplaceFailure_none hchanged hprevious hsuccess]
      exact ⟨rfl, rfl⟩

/-- From the registration of the new marketplace on, everything is restored exactly when a rollback that
succeeds has something to restore, and the steps at the end do not fail. -/
theorem restores_proceed_iff (hchanged : switch.changed = true) {before : Option FilePath}
    (hother : ¬ SameMarketplace disk (some p.payload.marketplaceRoot) before)
    (hkept : ∀ root, switch.previousOwnedRoot = some root → SameMarketplace disk (some root) before) :
    Restores disk before (proceed disk o a p switch s) ↔
      (∀ primary, failure disk o a p s.issued = some primary → primary.repairRequired = false →
        o (s.issued + 1) = .success → SameMarketplace disk switch.previousOwnedRoot before) ∧
      (failure disk o a p s.issued = none → endsWell a = true) := by
  rcases proceed_cases hchanged with ⟨primary, result, s', hfailure, hissued, hrolled, heq, hnone⟩ |
    ⟨agents, s', hfailure, hregistered, heq⟩
  · rw [heq, hfailure]
    constructor
    · intro h
      refine ⟨?_, nofun⟩
      intro primary' hprimary hrepair hsuccess
      cases hprimary
      cases hprevious : switch.previousOwnedRoot with
      | some root => exact hkept root hprevious
      | none =>
        obtain ⟨herror, hnothing⟩ := hnone hprevious hsuccess
        have hsame := h result.1 rfl (herror ▸ hrepair)
        rwa [hnothing] at hsame
    · rintro ⟨h, -⟩
      refine restores_of_rolledBack hrolled ?_
      intro hrepair hsuccess
      rw [hissued] at hsuccess
      exact h primary rfl hrepair hsuccess
  · rw [heq, hfailure]
    constructor
    · intro h
      refine ⟨nofun, fun _ => ?_⟩
      by_contra hends
      obtain ⟨e, he, hrepair⟩ := finish_of_not_endsWell (by simpa using hends) p agents
      have hsame := h e he hrepair
      rw [hregistered] at hsame
      exact hother hsame
    · rintro ⟨-, h⟩ e he hrepair
      have hends := finish_eq_error he
      rw [h rfl, hrepair] at hends
      cases hends

end proceeding

/-! ### The whole call -/

/-- The number of the command that registers the new marketplace, if the call gets there. -/
def switchedAt (disk : Disk) (o : Outcomes) (desired : FilePath) (s : Cli) : Option Nat :=
  match s.registered with
  | none => some s.issued
  | some root => if samePath disk root desired then none else if o s.issued = .success then some (s.issued + 1) else none

/-- A call in which every failure after an effect is answered. -/
structure Transactional (disk : Disk) (o : Outcomes) (a : Answers) (p : Prepared) (s : Cli) : Prop where
  /-- The removal of another marketplace does not fail after it took effect. -/
  removal : ∀ root, s.registered = some root → samePath disk root p.payload.marketplaceRoot = false →
    (o s.issued).effect = true → o s.issued = .success
  /-- A root that does not validate is not lost to a rollback. -/
  validated : ∀ root k primary, s.registered = some root → switchedAt disk o p.payload.marketplaceRoot s = some k →
    failure disk o a p k = some primary → primary.repairRequired = false → o (k + 1) = .success →
      (validateOwnedMarketplaceRoot disk root).isSome = true
  /-- Once the plugin is installed from a new marketplace, the last steps succeed or ask for a repair. -/
  receipts : ∀ k, switchedAt disk o p.payload.marketplaceRoot s = some k → failure disk o a p k = none → endsWell a = true

/-- The preparations succeed and the call gets to the switch. -/
def Prepares (disk : Disk) (a : Answers) (s : Cli) (p : Prepared) : Prop :=
  a.payloadAtFirst.map (fun _ => ()) ≠ .error .payloadUnavailable ∧ prepare disk a s.registered = .ok p

variable {disk : Disk} {o : Outcomes} {a : Answers} {s : Cli} {p : Prepared} {root : FilePath}

theorem installOrRepair_eq (h : Prepares disk a s p) : installOrRepair disk o a s = match s.registered with
      | none => proceed disk o a p { changed := true, previousOwnedRoot := none } s
      | some root =>
        if samePath disk root p.payload.marketplaceRoot then
          afterSwitch disk o a p (.ok { changed := false, previousOwnedRoot := none }, s)
        else match removeOwned o s with
          | (.error e, s) => (.error e, s)
          | (.ok false, s) => (.error .marketplaceInstallFailed, s)
          | (.ok true, s) => proceed disk o a p
            { changed := true, previousOwnedRoot := validateOwnedMarketplaceRoot disk root } s := by
  obtain ⟨hfirst, hprepare⟩ := h
  have hopen : installOrRepair disk o a s =
      afterSwitch disk o a p (switchMarketplace disk o s.registered p.payload.marketplaceRoot s) := by
    unfold installOrRepair
    split
    · rename_i hunavailable
      rw [hunavailable] at hfirst
      exact absurd rfl hfirst
    · simp only [hprepare]
  rw [hopen]
  unfold switchMarketplace
  cases s.registered with
  | none => rfl
  | some root =>
    by_cases hsame : samePath disk root p.payload.marketplaceRoot = true
    · simp only [hsame, if_true]
    · simp only [hsame, Bool.false_eq_true, if_false]
      rcases removeOwned o s with ⟨answer, s'⟩
      cases answer with
      | error e => rfl
      | ok removed => cases removed <;> rfl

theorem installOrRepair_unprepared (h : ∀ p, ¬ Prepares disk a s p) : (installOrRepair disk o a s).2 = s := by
  unfold installOrRepair
  split
  · rfl
  · rename_i hfirst
    cases hprepare : prepare disk a s.registered with
    | error e => rfl
    | ok p =>
      refine absurd ⟨?_, hprepare⟩ (h p)
      intro hunavailable
      cases hpayload : a.payloadAtFirst with
      | ok value =>
        rw [hpayload] at hunavailable
        cases hunavailable
      | error e =>
        rw [hpayload] at hunavailable
        cases hunavailable
        exact hfirst hpayload

theorem restores_of_unchanged {result : Except IntegrationError IntegrationActionResult × Cli}
    (h : result.2 = s) : Restores disk s.registered result := by
  intro e _ _
  rw [h]
  exact .refl disk _

theorem not_sameMarketplace_of_ne {desired : FilePath} (h : samePath disk root desired = false) :
    ¬ SameMarketplace disk (some desired) (some root) := by
  intro hsame
  rw [samePath_symm hsame] at h
  cases h

/-- The removal that opens the switch fails. -/
theorem restores_removal_iff (hregistered : s.registered = some root)
    (e : IntegrationError) (he : e.repairRequired = false) :
    Restores disk s.registered (.error e, (removeOwned o s).2) ↔ (o s.issued).effect = false := by
  constructor
  · intro h
    have hsame := h e rfl he
    by_contra heffect
    rw [Bool.not_eq_false] at heffect
    simp only [removeOwned, command, heffect, if_true, hregistered] at hsame
    exact hsame
  · intro heffect e' _ _
    simp only [removeOwned, command, heffect, Bool.false_eq_true, if_false]
    exact .refl disk _

theorem restores_iff (h : Prepares disk a s p) :
    Restores disk s.registered (installOrRepair disk o a s) ↔ Transactional disk o a p s := by
  rw [installOrRepair_eq h]
  cases hregistered : s.registered with
  | none =>
    have hat : switchedAt disk o p.payload.marketplaceRoot s = some s.issued := by rw [switchedAt, hregistered]
    simp only
    rw [restores_proceed_iff rfl id (by intro root h; cases h)]
    constructor
    · rintro ⟨-, hends⟩
      refine ⟨?_, ?_, ?_⟩
      · intro root hroot
        rw [hregistered] at hroot
        cases hroot
      · intro root k primary hroot
        rw [hregistered] at hroot
        cases hroot
      · intro k hk
        rw [hat] at hk
        cases hk
        exact hends
    · intro ht
      exact ⟨fun _ _ _ _ => trivial, ht.receipts _ hat⟩
  | some root =>
    by_cases hsame : samePath disk root p.payload.marketplaceRoot = true
    · -- nothing is switched, so nothing can be lost
      have hat : switchedAt disk o p.payload.marketplaceRoot s = none := by
        rw [switchedAt, hregistered]
        simp only [hsame, if_true]
      have hunchanged : ∀ result : Except IntegrationError IntegrationActionResult × Cli, result.2 = s →
          Restores disk (some root) result := by
        intro result hresult
        rw [← hregistered]
        exact restores_of_unchanged hresult
      refine iff_of_true ?_ ⟨?_, ?_, ?_⟩
      · simp only [hsame, if_true, afterSwitch]
        split
        · exact hunchanged _ (finishPluginFailure_unchanged rfl _ _)
        · exact hunchanged _ rfl
      · intro other hother hdiffers
        rw [hregistered] at hother
        cases hother
        rw [hsame] at hdiffers
        cases hdiffers
      · intro other k primary _ hk
        rw [hat] at hk
        cases hk
      · intro k hk
        rw [hat] at hk
        cases hk
    · have hdiffers : samePath disk root p.payload.marketplaceRoot = false := by simpa using hsame
      simp only [hsame, Bool.false_eq_true, if_false]
      rw [← hregistered]
      -- an unsuccessful removal ends the call there
      have hrefused (e : IntegrationError) (he : e.repairRequired = false) (hfails : o s.issued ≠ .success) :
          Restores disk s.registered (.error e, (removeOwned o s).2) ↔ Transactional disk o a p s := by
        have hat : switchedAt disk o p.payload.marketplaceRoot s = none := by
          rw [switchedAt, hregistered]
          simp only [hsame, Bool.false_eq_true, if_false, hfails]
        rw [restores_removal_iff hregistered e he]
        constructor
        · intro heffect
          refine ⟨?_, ?_, ?_⟩
          · intro other _ _ htook
            rw [heffect] at htook
            cases htook
          · intro other k primary _ hk
            rw [hat] at hk
            cases hk
          · intro k hk
            rw [hat] at hk
            cases hk
        · intro ht
          by_contra heffect
          exact hfails (ht.removal root hregistered hdiffers (by simpa using heffect))
      cases hfirst : o s.issued with
      | refused effect =>
        have hstep := hrefused .marketplaceInstallFailed rfl (by simp [hfirst])
        simpa only [removeOwned, command, hfirst, Outcome.answer] using hstep
      | broken effect =>
        have hstep := hrefused .codexInvocationFailed rfl (by simp [hfirst])
        simpa only [removeOwned, command, hfirst, Outcome.answer] using hstep
      | success =>
        have hat : switchedAt disk o p.payload.marketplaceRoot s = some (s.issued + 1) := by
          rw [switchedAt, hregistered]
          simp only [hsame, Bool.false_eq_true, if_false, hfirst, if_true]
        have hkept : ∀ canonical, validateOwnedMarketplaceRoot disk root = some canonical →
            SameMarketplace disk (some canonical) s.registered := by
          intro canonical hcanonical
          rw [hregistered]
          exact samePath_of_validate hcanonical
        have hother : ¬ SameMarketplace disk (some p.payload.marketplaceRoot) s.registered := by
          rw [hregistered]
          exact not_sameMarketplace_of_ne hdiffers
        simp only [removeOwned, command, hfirst, Outcome.answer, Outcome.effect, if_true]
        rw [restores_proceed_iff rfl hother hkept]
        constructor
        · rintro ⟨hrollback, hends⟩
          refine ⟨fun _ _ _ _ => hfirst, ?_, ?_⟩
          · intro other k primary hroot hk hfailure hrepair hsuccess
            rw [hat] at hk
            cases hk
            rw [hregistered] at hroot
            cases hroot
            have hsame := hrollback primary hfailure hrepair hsuccess
            rw [hregistered] at hsame
            cases hvalid : validateOwnedMarketplaceRoot disk root with
            | some canonical => rfl
            | none =>
              rw [hvalid] at hsame
              exact hsame.elim
          · intro k hk
            rw [hat] at hk
            cases hk
            exact hends
        · intro ht
          refine ⟨?_, ht.receipts _ hat⟩
          intro primary hfailure hrepair hsuccess
          obtain ⟨canonical, hcanonical⟩ := Option.isSome_iff_exists.mp
            (ht.validated root _ primary hregistered hat hfailure hrepair hsuccess)
          rw [hcanonical]
          exact hkept canonical hcanonical

/-- For every registered marketplace, every payload, every answer of the steps and every pattern of command
outcomes: an error that asks for no repair leaves the registered marketplace as it was, exactly when every
failure after an effect is answered. -/
theorem marketplace_restored_iff (disk : Disk) (o : Outcomes) (a : Answers) (s : Cli) :
    (∀ e, (installOrRepair disk o a s).1 = .error e → e.repairRequired = false →
        SameMarketplace disk (installOrRepair disk o a s).2.registered s.registered) ↔
      ∀ p, Prepares disk a s p → Transactional disk o a p s := by
  by_cases hprepares : ∃ p, Prepares disk a s p
  · obtain ⟨p, hp⟩ := hprepares
    constructor
    · intro h q hq
      have hsame : q = p := by
        have := hq.2
        rw [hp.2] at this
        exact (Except.ok.inj this).symm
      rw [hsame]
      exact (restores_iff hp).mp h
    · intro h
      exact (restores_iff hp).mpr (h p hp)
  · have hnone : ∀ p, ¬ Prepares disk a s p := fun p hp => hprepares ⟨p, hp⟩
    refine iff_of_true ?_ fun p hp => absurd hp (hnone p)
    exact restores_of_unchanged (installOrRepair_unprepared hnone)

/-- A disk on which every path is canonical and every root a valid payload. -/
def plainDisk : Disk where
  windows := false
  isAbsolute _ := true
  canonicalize p := some p
  validPayloadRoot _ := true
  canonical _ _ h := by
    cases h
    rfl

/-- Every step beside the marketplace succeeds. -/
def smoothAnswers : Answers where
  payloadAtFirst := .ok (⟨['n'], ['n', 'p'], "1"⟩, ⟨"b", "p"⟩)
  payload := .ok (⟨['n'], ['n', 'p'], "1"⟩, ⟨"b", "p"⟩)
  cli := .ok true
  listing := .ok ()
  existingRegistration := .ok none
  validInstalledPlugin _ := true
  receiptState := .installed
  pluginAdd := .ok true
  registration := .ok (some ⟨"1", true, ['n', 'p']⟩)
  currentInstall := .ok ⟨"b", "p"⟩
  globalAgents := .ok .installed
  nowMs := .ok 0
  writeRestartReceipt _ := .ok ()
  status := .ok .restartRequired
  pluginAddAtRollback := .ok true

/-- The removal of the old marketplace takes effect and then fails: the call ends with an ordinary error and
no marketplace is registered. -/
theorem removal_loses_marketplace :
    (installOrRepair plainDisk (fun _ => .refused true) smoothAnswers { registered := some ['o'] }).1 =
        .error .marketplaceInstallFailed ∧
      IntegrationError.repairRequired .marketplaceInstallFailed = false ∧
      ¬ SameMarketplace plainDisk
        (installOrRepair plainDisk (fun _ => .refused true) smoothAnswers { registered := some ['o'] }).2.registered
        (some ['o']) :=
  ⟨rfl, rfl, id⟩

end CYC.Integration
