import ClusterYourCodex.Proofs.Runs
import ClusterYourCodex.Fleet.Revision

/-! Plans over whole histories. Two states of one history with the same fleet revision have the same
configurations, inventories and reservations, and a submission with a plan goes through only if none of
these has changed since the plan was stored. -/

namespace CYC

open Relational

variable {db : Db} {seed : String}

theorem plansStamped_after (seed : String) (calls : List Call) : PlansStamped (storeAfter seed calls) :=
  (revised_after _ calls).stamped nofun

theorem revised_storeAfter (seed : String) (calls later : List Call) :
    Revised (storeAfter seed calls) (storeAfter seed (calls ++ later)) := by
  rw [storeAfter_append]
  exact revised_after _ later

/-- A plan that a submission accepts is stamped with the revision that maintenance leaves. -/
theorem submitted_stamp {env : Env} {db' : Db} {job : JobSpec} {p : PlanRow} {answer : Answer}
    (h : exec env db (.submitJob job (some p.id)) = .ok (db', answer)) (hp : db.plans.lookup PlanRow.id p.id = some p) :
    ∃ db₁ n, expireLeases env db env.now.timestamp = .ok (db₁, n) ∧ p.fleetRevision = db₁.fleetRevision := by
  simp only [exec, answering_eq_ok] at h
  obtain ⟨_, h, -⟩ := h
  obtain ⟨db₁, n, hexpire, p₁, hp₁, hrevision⟩ := submitJob_current h
  obtain ⟨p₂, hp₂, hkept⟩ := (revised_expireLeases hexpire).kept p.id p hp
  cases hp₁.symm.trans hp₂
  exact ⟨db₁, n, hexpire, hkept.symm.trans hrevision⟩

/-- What the fleet revision vouches for along a history: it does not fall, states with one revision have
one material, and from the storing of a plan to a submission that accepts it, maintenance included,
the material is the same. -/
structure RevisionSound (seed : String) (calls later : List Call) : Prop where
  le : (storeAfter seed calls).fleetRevision ≤ (storeAfter seed (calls ++ later)).fleetRevision
  same : (storeAfter seed (calls ++ later)).fleetRevision = (storeAfter seed calls).fleetRevision →
    (storeAfter seed (calls ++ later)).material = (storeAfter seed calls).material
  planned : ∀ p ∈ (storeAfter seed calls).plans.rows, ∀ (env : Env) (job : JobSpec) (db' : Db) (answer : Answer),
    exec env (storeAfter seed (calls ++ later)) (.submitJob job (some p.id)) = .ok (db', answer) →
      (∀ mid rest, later = mid ++ rest → (storeAfter seed (calls ++ mid)).material = (storeAfter seed calls).material) ∧
        ∃ db₁ n, expireLeases env (storeAfter seed (calls ++ later)) env.now.timestamp = .ok (db₁, n) ∧
          db₁.material = (storeAfter seed calls).material

theorem fleet_revision_sound (seed : String) (calls later : List Call) : RevisionSound seed calls later where
  le := (revised_storeAfter seed calls later).advances.le
  same := (revised_storeAfter seed calls later).advances.same
  planned := by
    intro p hp env job db' answer hsubmit
    have hrevised := revised_storeAfter seed calls later
    obtain ⟨p', hp', hkept⟩ := hrevised.kept p.id p (Table.lookup_of_mem PlanRow.clash_of_id hp)
    rw [← (Table.lookup_some hp').2] at hsubmit hp'
    obtain ⟨db₁, n, hexpire, hstamp⟩ := submitted_stamp hsubmit hp'
    have hmaintained := (revised_expireLeases hexpire).advances
    -- the stamp is at most the revision now, and at least the one after maintenance
    have hle : db₁.fleetRevision ≤ (storeAfter seed calls).fleetRevision :=
      (hstamp.symm.trans hkept).trans_le (plansStamped_after seed calls p hp)
    have heq : db₁.fleetRevision = (storeAfter seed calls).fleetRevision :=
      le_antisymm hle (hrevised.advances.le.trans hmaintained.le)
    refine ⟨?_, db₁, n, hexpire, (hrevised.advances.between hmaintained heq).2⟩
    rintro mid rest rfl
    have hmid := (revised_storeAfter seed calls mid).advances
    have hrest := (revised_storeAfter seed (calls ++ mid) rest).advances
    rw [List.append_assoc] at hrest
    exact (hmid.between (hrest.trans hmaintained) heq).1

/-- The worker of node 1 is enrolled and reports, and a plan is made for a job. -/
def planCalls (job : JobSpec) : List Call :=
  enrollCalls 1000 10 ⟨1⟩ "a" ++
    [⟨envAt 1000 20, .recordNodeReport "a" (sampleReport 1 1 ⟨77⟩)⟩, ⟨envAt 1000 21, .createPlan job⟩]

/-- A report of telemetry does not make the plan stale. -/
theorem fleet_revision_sound_planCalls :
    (storeAfter "s" (planCalls (sampleJob ⟨7⟩ .empty none) ++
      [⟨envAt 1001 22, .recordNodeReport "a" (sampleReport 1 2 ⟨77⟩)⟩])).material =
        (storeAfter "s" (planCalls (sampleJob ⟨7⟩ .empty none))).material ∧
      (exec (envAt 1002 23) (storeAfter "s" (planCalls (sampleJob ⟨7⟩ .empty none) ++
        [⟨envAt 1001 22, .recordNodeReport "a" (sampleReport 1 2 ⟨77⟩)⟩]))
          (.submitJob (sampleJob ⟨7⟩ .empty none) (some ((envAt 1000 21).newV4 .plan)))).isOk = true := by
  have hsubmit : (exec (envAt 1002 23) (storeAfter "s" (planCalls (sampleJob ⟨7⟩ .empty none) ++
      [⟨envAt 1001 22, .recordNodeReport "a" (sampleReport 1 2 ⟨77⟩)⟩]))
        (.submitJob (sampleJob ⟨7⟩ .empty none) (some ((envAt 1000 21).newV4 .plan)))).isOk = true := by decide +kernel
  refine ⟨?_, hsubmit⟩
  exact (fleet_revision_sound "s" _ _).same (by decide +kernel)

end CYC
