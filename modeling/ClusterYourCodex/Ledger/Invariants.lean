import ClusterYourCodex.Ledger.Phases

/-! What every move of a run keeps: coherent rows, one lease to a node, evidence for each success, and
obligations and receipts that are never taken back. Each invariant has a lemma for one move and one
for a sequence of moves. -/

namespace CYC

open Relation (ReflTransGen)

section Mono

variable {T T' : Int} {r : Uuid} {j : JobRow} {l : LeaseRow} {c : WorkerClaimRow} {rows : RunRows}

theorem Leased.mono (h : Leased T r j l) (hT : T ≤ T') : Leased T' r j l :=
  { h with
    created := h.created.trans hT
    started := fun s hs => ⟨(h.started s hs).1, (h.started s hs).2.trans hT⟩ }

theorem Placed.mono (h : Placed T r j l) (hT : T ≤ T') : Placed T' r j l :=
  { h with toLeased := h.toLeased.mono hT }

theorem Dispatched.mono (h : Dispatched T r j l) (hT : T ≤ T') : Dispatched T' r j l :=
  { h with toPlaced := h.toPlaced.mono hT }

theorem Waiting.mono (h : Waiting T r j l) (hT : T ≤ T') : Waiting T' r j l :=
  { h with toLeased := h.toLeased.mono hT }

theorem Withdrawn.mono (h : Withdrawn T r j l) (hT : T ≤ T') : Withdrawn T' r j l :=
  { h with toLeased := h.toLeased.mono hT }

theorem Executing.mono (h : Executing T r j l c) (hT : T ≤ T') : Executing T' r j l c :=
  { h with toPlaced := h.toPlaced.mono hT }

theorem Lost.mono (h : Lost T r j l c) (hT : T ≤ T') : Lost T' r j l c :=
  { h with toPlaced := h.toPlaced.mono hT }

theorem Completed.mono {d : RunCompletionRow} {o : CleanupObligationRow} {cleanup : Option RunCleanupRow}
    (h : Completed T r j l c d o cleanup) (hT : T ≤ T') : Completed T' r j l c d o cleanup :=
  { h with toPlaced := h.toPlaced.mono hT }

theorem Coherent.mono (h : Coherent T r rows) (hT : T ≤ T') : Coherent T' r rows := by
  cases h with
  | absent => exact .absent
  | dispatched h => exact .dispatched (h.mono hT)
  | waiting h => exact .waiting (h.mono hT)
  | withdrawn h => exact .withdrawn (h.mono hT)
  | executing h => exact .executing (h.mono hT)
  | lost h => exact .lost (h.mono hT)
  | completed h => exact .completed (h.mono hT)

end Mono

/-- A lease comes with the job it was given to. -/
theorem Coherent.leased {T : Int} {r : Uuid} {rows : RunRows} {l : LeaseRow} (h : Coherent T r rows)
    (hl : rows.lease = some l) : ∃ j, rows.job = some j ∧ Leased T r j l := by
  cases h with
  | absent => cases hl
  | dispatched h | waiting h | withdrawn h | executing h | lost h | completed h => cases hl; exact ⟨_, rfl, h.toLeased⟩

/-- A job comes with the lease it was given. -/
theorem Coherent.leased_of_job {T : Int} {r : Uuid} {rows : RunRows} {j : JobRow} (h : Coherent T r rows)
    (hj : rows.job = some j) : ∃ l, rows.lease = some l ∧ Leased T r j l := by
  cases h with
  | absent => cases hj
  | dispatched h | waiting h | withdrawn h | executing h | lost h | completed h => cases hj; exact ⟨_, rfl, h.toLeased⟩

section State

variable {T : Int} {r : Uuid} {rows : RunRows} {j : JobRow}

/-- The claim of a run is one on its lease. -/
theorem Coherent.claimed {l : LeaseRow} {c : WorkerClaimRow} (h : Coherent T r rows) (hl : rows.lease = some l)
    (hc : rows.claim = some c) : Claimed r l c := by
  cases h with
  | executing he => cases hl; cases hc; exact he.toClaimed
  | lost hlost => cases hl; cases hc; exact hlost.toClaimed
  | completed hd => cases hl; cases hc; exact hd.toClaimed
  | _ => cases hc

theorem Coherent.job_of_claim {c : WorkerClaimRow} (h : Coherent T r rows) (hc : rows.claim = some c) :
    ∃ j, rows.job = some j := by
  cases h with
  | executing | lost | completed => exact ⟨_, rfl⟩
  | _ => cases hc

/-- A claimed run is not queued, and it is placed on the node of its claim. -/
theorem Coherent.placed_of_claim {j : JobRow} {c : WorkerClaimRow} (h : Coherent T r rows) (hj : rows.job = some j)
    (hc : rows.claim = some c) : j.run.state ≠ .queued ∧ ∃ l, rows.lease = some l ∧ Placed T r j l ∧ l.nodeId = c.nodeId := by
  cases h with
  | @executing _ l _ _ _ he =>
    cases hj; cases hc
    refine ⟨fun hqueued => ?_, l, rfl, he.toPlaced, he.claimNode.symm⟩
    have := he.state
    rw [hqueued] at this
    cases this
  | @lost _ l _ _ _ hlost =>
    cases hj; cases hc
    refine ⟨fun hqueued => ?_, l, rfl, hlost.toPlaced, hlost.claimNode.symm⟩
    cases hqueued.symm.trans hlost.state
  | @completed _ l _ _ _ _ _ _ hd =>
    cases hj; cases hc
    refine ⟨fun hqueued => ?_, l, rfl, hd.toPlaced, hd.claimNode.symm⟩
    have := hd.terminal
    rw [hqueued] at this
    cases this
  | _ => cases hc

/-- A run without a job row has no rows. -/
theorem Coherent.eq_empty (h : Coherent T r rows) (hj : rows.job = none) : rows = {} := by
  cases h with
  | absent => rfl
  | _ => cases hj

/-- A queued run is on a node or waits for one. -/
theorem Coherent.queued (h : Coherent T r rows) (hj : rows.job = some j) (hqueued : j.run.state = .queued) :
    ∃ l, rows = { job := some j, lease := some l } ∧ (Dispatched T r j l ∨ Waiting T r j l) := by
  cases h with
  | absent => cases hj
  | dispatched hd => cases hj; exact ⟨_, rfl, .inl hd⟩
  | waiting hw => cases hj; exact ⟨_, rfl, .inr hw⟩
  | withdrawn hw => cases hj; cases hqueued.symm.trans hw.state
  | executing he =>
    cases hj
    have := he.state
    rw [hqueued] at this
    cases this
  | lost hl => cases hj; cases hqueued.symm.trans hl.state
  | completed hd =>
    cases hj
    have := hd.terminal
    rw [hqueued] at this
    cases this

/-- An active run is in the hands of a worker. -/
theorem Coherent.active (h : Coherent T r rows) (hj : rows.job = some j) (hactive : j.run.state.isActive = true) :
    ∃ l c, rows = { job := some j, lease := some l, claim := some c, chunks := rows.chunks, artifacts := rows.artifacts } ∧
      Executing T r j l c := by
  have conflict : ∀ {s : JobState}, j.run.state = s → s.isActive = false → False := by
    rintro s rfl hs
    rw [hactive] at hs
    cases hs
  cases h with
  | absent => cases hj
  | dispatched hd => cases hj; exact (conflict hd.state rfl).elim
  | waiting hw | withdrawn hw => cases hj; exact (conflict hw.state rfl).elim
  | executing he => cases hj; exact ⟨_, _, rfl, he⟩
  | lost hl => cases hj; exact (conflict hl.state rfl).elim
  | completed hd =>
    cases hj
    have := hd.terminal
    rw [JobState.isTerminal_of_isActive hactive] at this
    cases this

end State

namespace Ledger

variable {T T' : Int} {waiting waiting' : Prop} {L L' : Ledger}

theorem Step.mono (h : Step T waiting L L') (hT : T ≤ T') (hw : waiting → waiting') : Step T' waiting' L L' := by
  cases h with
  | submit absent new free => exact .submit absent (new.mono hT) free
  | requeue old new => exact .requeue old (new.mono hT)
  | redispatch old new free => exact .redispatch old (new.mono hT) free
  | withdraw old new placed => exact .withdraw old (new.mono hT) (placed.imp_left hw)
  | claim old held new node => exact .claim old held (new.mono hT) node
  | work old held new node grows => exact .work old held (new.mono hT) node grows
  | lose old new node => exact .lose old (new.mono hT) node
  | complete old held new node verified => exact .complete old held (new.mono hT) node verified
  | settle old new node held obligation receipt => exact .settle old (new.mono hT) node held obligation receipt

/-- A sequence of moves. -/
def Steps (T : Int) (waiting : Prop) : Ledger → Ledger → Prop := ReflTransGen (Step T waiting)

theorem Steps.mono (h : Steps T waiting L L') (hT : T ≤ T') (hw : waiting → waiting') : Steps T' waiting' L L' := by
  induction h with
  | refl => exact .refl
  | tail _ hs ih => exact ih.tail (hs.mono hT hw)

/-- The invariant rule for a sequence of moves. -/
theorem Steps.induction {P : Ledger → Prop} (h : Steps T waiting L L') (h0 : P L)
    (hstep : ∀ L L', P L → Step T waiting L L' → P L') : P L' := by
  induction h with
  | refl => exact h0
  | tail _ hs ih => exact hstep _ _ ih hs

/-! ### Coherence -/

def Coherent (T : Int) (L : Ledger) : Prop := ∀ r, CYC.Coherent T r (L.rows r)

theorem Coherent.mono (h : L.Coherent T) (hT : T ≤ T') : L.Coherent T' := fun r => (h r).mono hT

variable {r : Uuid} {rows : RunRows} {L₁ L₂ L₃ : Ledger}

theorem Coherent.set (h : L.Coherent T) (hr : CYC.Coherent T r rows) : (L.set r rows).Coherent T := by
  intro r'
  by_cases he : r' = r
  · subst he; rw [rows_set]; exact hr
  · rw [rows_set_of_ne he]; exact h r'

theorem coherent_step (h : L.Coherent T) (hs : Step T waiting L L') : L'.Coherent T := by
  cases hs with
  | submit _ new => exact h.set (.dispatched new)
  | requeue _ new => exact h.set (.waiting new)
  | redispatch _ new => exact h.set (.dispatched new)
  | withdraw _ new => exact h.set (.withdrawn new)
  | claim _ _ new => exact h.set (.executing new)
  | @work _ _ _ _ _ _ _ _ _ _ _ objects _ _ new =>
    have stored : (L.store objects).Coherent T := h
    exact stored.set (.executing new)
  | lose _ new => exact h.set (.lost new)
  | complete _ _ new | settle _ new => exact h.set (.completed new)

theorem coherent_steps (h : L.Coherent T) (hs : Steps T waiting L L') : L'.Coherent T :=
  hs.induction h fun _ _ => coherent_step

/-! ### Exclusion -/

/-- A node is held by the lease of at most one run. -/
def Exclusive (L : Ledger) : Prop :=
  ∀ r r' l l', (L.rows r).lease = some l → (L.rows r').lease = some l' → l.releasedAt = none → l'.releasedAt = none →
    l.nodeId = l'.nodeId → r = r'

/-- A run whose lease is released, or stays on the node it held, leaves the others exclusive. -/
theorem Exclusive.set (h : L.Exclusive) (hr : ∀ l, rows.lease = some l → l.releasedAt = none → L.Free l.nodeId ∨
      ∃ l₀, (L.rows r).lease = some l₀ ∧ l₀.releasedAt = none ∧ l.nodeId = l₀.nodeId) :
    (L.set r rows).Exclusive := by
  -- a held lease of `r` against the held lease of another run
  have other : ∀ r' l l', r' ≠ r → rows.lease = some l → (L.rows r').lease = some l' → l.releasedAt = none →
      l'.releasedAt = none → l.nodeId ≠ l'.nodeId := by
    intro r' l l' hne hl hl' hheld hheld' hnode
    rcases hr l hl hheld with hfree | ⟨l₀, hl₀, hheld₀, hnode₀⟩
    · exact hfree r' l' hl' hheld' hnode.symm
    · exact hne (h r' r l' l₀ hl' hl₀ hheld' hheld₀ (hnode.symm.trans hnode₀))
  intro r₁ r₂ l₁ l₂ h₁ h₂ held₁ held₂ hnode
  by_cases e₁ : r₁ = r <;> by_cases e₂ : r₂ = r
  · rw [e₁, e₂]
  · subst e₁
    rw [rows_set] at h₁
    rw [rows_set_of_ne e₂] at h₂
    exact absurd hnode (other r₂ l₁ l₂ e₂ h₁ h₂ held₁ held₂)
  · subst e₂
    rw [rows_set_of_ne e₁] at h₁
    rw [rows_set] at h₂
    exact absurd hnode.symm (other r₁ l₂ l₁ e₁ h₂ h₁ held₂ held₁)
  · rw [rows_set_of_ne e₁] at h₁
    rw [rows_set_of_ne e₂] at h₂
    exact h r₁ r₂ l₁ l₂ h₁ h₂ held₁ held₂ hnode

theorem exclusive_step (h : L.Exclusive) (hs : Step T waiting L L') : L'.Exclusive := by
  -- a lease that stays where it was
  have stays : ∀ {r rows l l'}, (L.rows r).lease = some l → rows.lease = some l' → l'.nodeId = l.nodeId →
      (l'.releasedAt = none → l.releasedAt = none) → (L.set r rows).Exclusive := by
    intro r rows l l' hold hnew hnode hheld
    refine h.set fun l₁ hl₁ held => .inr ⟨l, hold, ?_⟩
    cases hnew.symm.trans hl₁
    exact ⟨hheld held, hnode⟩
  -- a lease that has been given back
  have gone : ∀ {r rows l'}, rows.lease = some l' → l'.releasedAt ≠ none → (L.set r rows).Exclusive := by
    intro r rows l' hnew hreleased
    refine h.set fun l₁ hl₁ held => absurd held ?_
    cases hnew.symm.trans hl₁
    exact hreleased
  cases hs with
  | submit _ _ free => exact h.set fun l hl _ => .inl (by cases hl; exact free)
  | requeue _ new => exact gone rfl new.released
  | redispatch _ _ free => exact h.set fun l hl _ => .inl (by cases hl; exact free)
  | withdraw _ new => exact gone rfl new.released
  | claim old held _ node => exact stays (by rw [old]) rfl node fun _ => held
  | @work _ _ _ l _ _ _ _ _ _ _ objects old held _ node =>
    have stored : (L.store objects).Exclusive := h
    refine stored.set fun l₁ hl₁ _ => .inr ⟨l, by rw [rows_store, old], held, ?_⟩
    cases hl₁
    exact node
  | lose _ new => exact gone rfl new.released
  | complete old held _ node => exact stays (by rw [old]) rfl node fun _ => held
  | settle old _ node held => exact stays (by rw [old]) rfl node held

theorem exclusive_steps (h : L.Exclusive) (hs : Steps T waiting L L') : L'.Exclusive :=
  hs.induction h fun _ _ => exclusive_step

/-! ### Evidence -/

/-- Every success is borne out by what is stored now. -/
def Proven (L : Ledger) : Prop :=
  ∀ r j d, (L.rows r).job = some j → (L.rows r).completion = some d → j.run.state = .succeeded →
    Evidenced L.objects (L.rows r) j.job d.document

/-- Evidence is about the chunks and artifacts of a run, and objects are never overwritten. -/
theorem evidenced_grow {objects objects' : String → Option (List UInt8)} {rows' : RunRows} {job : JobSpec}
    {c : RunCompletion} (h : Evidenced objects rows job c)
    (grows : ∀ path bytes, objects path = some bytes → objects' path = some bytes)
    (chunks : rows'.chunks = rows.chunks) (artifacts : rows'.artifacts = rows.artifacts) :
    Evidenced objects' rows' job c := by
  have stored : ∀ stream e, StreamStored objects (rows.stream stream) e → StreamStored objects' (rows'.stream stream) e := by
    rintro stream e ⟨pieces, hpieces, hrest⟩
    unfold RunRows.stream at *
    rw [chunks]
    exact ⟨pieces, hpieces.imp fun _ _ hpiece => grows _ _ hpiece, hrest⟩
  exact { h with
    stdout := stored _ _ h.stdout
    stderr := stored _ _ h.stderr
    artifacts := by rw [artifacts]; exact h.artifacts }

theorem Proven.set (h : L.Proven) (hr : ∀ j d, rows.job = some j → rows.completion = some d → j.run.state = .succeeded →
      Evidenced L.objects rows j.job d.document) : (L.set r rows).Proven := by
  intro r' j d hj hd hsucceeded
  by_cases he : r' = r
  · subst he
    rw [rows_set] at hj hd ⊢
    exact hr j d hj hd hsucceeded
  · rw [rows_set_of_ne he] at hj hd ⊢
    exact h r' j d hj hd hsucceeded

theorem Proven.set_unfinished (h : L.Proven) (hr : rows.completion = none) : (L.set r rows).Proven := by
  refine h.set fun _ d _ hd => ?_
  rw [hr] at hd
  cases hd

theorem proven_step (h : L.Proven) (hs : Step T waiting L L') : L'.Proven := by
  cases hs with
  | submit | requeue | redispatch | withdraw | claim | lose => exact h.set_unfinished rfl
  | @work _ _ _ _ _ _ _ _ _ _ _ objects _ _ _ _ grows =>
    have grown : (L.store objects).Proven := fun r j d hj hd hsucceeded =>
      evidenced_grow (h r j d hj hd hsucceeded) grows rfl rfl
    exact grown.set_unfinished rfl
  | complete _ _ _ _ verified =>
    refine h.set fun j d hj hd hsucceeded => ?_
    cases hj; cases hd
    exact evidenced_grow (verified hsucceeded) (fun _ _ hb => hb) rfl rfl
  | @settle r _ _ _ _ _ _ _ _ _ _ _ old =>
    refine h.set fun j d hj hd hsucceeded => ?_
    cases hj; cases hd
    have before := h r _ _ (by rw [old]) (by rw [old]) hsucceeded
    exact evidenced_grow before (fun _ _ hb => hb) (by rw [old]) (by rw [old])

theorem proven_steps (h : L.Proven) (hs : Steps T waiting L L') : L'.Proven :=
  hs.induction h fun _ _ => proven_step

/-! ### What is never taken back -/

/-- Receipts and released obligations stay as they are. -/
structure Grows (L L' : Ledger) : Prop where
  obligation : ∀ r o, (L.rows r).obligation = some o → o.reservationReleasedAt ≠ none → (L'.rows r).obligation = some o
  receipt : ∀ r x, (L.rows r).cleanup = some x → (L'.rows r).cleanup = some x

theorem Grows.refl (L : Ledger) : L.Grows L := ⟨fun _ _ h _ => h, fun _ _ h => h⟩

theorem Grows.trans (h : L₁.Grows L₂) (h' : L₂.Grows L₃) : L₁.Grows L₃ where
  obligation r o ho hr := h'.obligation r o (h.obligation r o ho hr) hr
  receipt r x hx := h'.receipt r x (h.receipt r x hx)

theorem Grows.set (ho : ∀ o, (L.rows r).obligation = some o → o.reservationReleasedAt ≠ none → rows.obligation = some o)
    (hx : ∀ x, (L.rows r).cleanup = some x → rows.cleanup = some x) : L.Grows (L.set r rows) := by
  constructor
  · intro r' o h hr
    by_cases he : r' = r
    · subst he; rw [rows_set]; exact ho o h hr
    · rw [rows_set_of_ne he]; exact h
  · intro r' x h
    by_cases he : r' = r
    · subst he; rw [rows_set]; exact hx x h
    · rw [rows_set_of_ne he]; exact h

/-- Before a run has completed there is nothing to keep. -/
theorem Grows.set_unfinished (ho : (L.rows r).obligation = none)
    (hx : (L.rows r).cleanup = none) : L.Grows (L.set r rows) := by
  refine Grows.set (fun o h => ?_) (fun x h => ?_)
  · rw [ho] at h; cases h
  · rw [hx] at h; cases h

theorem grows_step (hs : Step T waiting L L') : L.Grows L' := by
  cases hs with
  | submit old | requeue old | redispatch old | withdraw old | claim old | lose old =>
    exact .set_unfinished (by rw [old]) (by rw [old])
  | @work _ _ _ _ _ _ _ _ _ _ _ objects old =>
    have stored : L.Grows (L.store objects) := ⟨fun _ _ ho _ => ho, fun _ _ hx => hx⟩
    exact stored.trans (.set_unfinished (by rw [rows_store, old]) (by rw [rows_store, old]))
  | complete old => exact .set_unfinished (by rw [old]) (by rw [old])
  | settle old _ _ _ obligation receipt =>
    refine Grows.set (fun o ho hr => ?_) (fun x hx => ?_)
    · rw [old] at ho
      cases ho
      rw [obligation hr]
    · rw [old] at hx
      exact receipt x hx

theorem grows_steps (hs : Steps T waiting L L') : L.Grows L' :=
  hs.induction (P := fun L' => L.Grows L') (.refl L) fun _ _ h hs => h.trans (grows_step hs)

/-! ### Claims -/

/-- A claimed run stays with the node that claimed it. -/
def ClaimsKept (L L' : Ledger) : Prop :=
  ∀ r c, (L.rows r).claim = some c → ∃ c', (L'.rows r).claim = some c' ∧ c'.nodeId = c.nodeId

theorem ClaimsKept.refl (L : Ledger) : L.ClaimsKept L := fun _ c hc => ⟨c, hc, rfl⟩

theorem ClaimsKept.trans (h : L₁.ClaimsKept L₂) (h' : L₂.ClaimsKept L₃) : L₁.ClaimsKept L₃ := by
  intro r c hc
  obtain ⟨c₂, hc₂, hnode₂⟩ := h r c hc
  obtain ⟨c₃, hc₃, hnode₃⟩ := h' r c₂ hc₂
  exact ⟨c₃, hc₃, hnode₃.trans hnode₂⟩

theorem ClaimsKept.set (h : ∀ c, (L.rows r).claim = some c → ∃ c', rows.claim = some c' ∧ c'.nodeId = c.nodeId) :
    L.ClaimsKept (L.set r rows) := by
  intro r' c hc
  by_cases he : r' = r
  · subst he; rw [rows_set]; exact h c hc
  · rw [rows_set_of_ne he]; exact ⟨c, hc, rfl⟩

theorem claimsKept_step (h : L.Coherent T) (hs : Step T waiting L L') : L.ClaimsKept L' := by
  -- the claim and the lease of a run name one node, before the move and after it
  have moved : ∀ {r rows l l' c'}, (L.rows r).lease = some l → l'.nodeId = l.nodeId → Claimed r l' c' →
      rows.claim = some c' → L.ClaimsKept (L.set r rows) := by
    intro r rows l l' c' hl hnode hclaimed hc'
    refine ClaimsKept.set fun c hc => ⟨c', hc', ?_⟩
    rw [hclaimed.claimNode, hnode, ((h r).claimed hl hc).claimNode]
  cases hs with
  | submit old | requeue old | redispatch old | withdraw old | claim old =>
    exact .set fun c hc => by rw [old] at hc; cases hc
  | work old _ new node | lose old new node | complete old _ new node | settle old new node =>
    exact moved (by rw [old]) node new.toClaimed rfl

theorem claimsKept_steps (h : L.Coherent T) (hs : Steps T waiting L L') : L.ClaimsKept L' :=
  (hs.induction (P := fun L' => L'.Coherent T ∧ L.ClaimsKept L') ⟨h, .refl L⟩ fun _ _ ⟨hc, hkept⟩ hs =>
    ⟨coherent_step hc hs, hkept.trans (claimsKept_step hc hs)⟩).2

/-! ### Rows that can be read back -/

/-- A run without a node is queued. -/
def Readable (L : Ledger) : Prop := ∀ r j, (L.rows r).job = some j → j.run.nodeId = none → j.run.state = .queued

theorem Readable.set {j : JobRow} (h : L.Readable) (hj : rows.job = some j)
    (hr : j.run.nodeId = none → j.run.state = .queued) : (L.set r rows).Readable := by
  intro r' j' hj'
  by_cases he : r' = r
  · subst he
    rw [rows_set, hj] at hj'
    cases hj'
    exact hr
  · rw [rows_set_of_ne he] at hj'
    exact h r' j' hj'

theorem readable_step (h : L.Readable) (hs : Step T False L L') : L'.Readable := by
  have placed : ∀ {r rows j l}, rows.job = some j → Placed T r j l → (L.set r rows).Readable := by
    intro r rows j l hj hp
    refine h.set hj fun hnone => ?_
    rw [hp.node] at hnone
    cases hnone
  cases hs with
  | submit _ new => exact placed rfl new.toPlaced
  | requeue _ new => exact h.set rfl fun _ => new.state
  | redispatch _ new => exact placed rfl new.toPlaced
  | withdraw _ _ hplaced => exact h.set rfl fun hnone => absurd hnone (hplaced.resolve_left id)
  | claim _ _ new => exact placed rfl new.toPlaced
  | @work _ _ _ _ _ _ _ _ _ _ _ objects _ _ new =>
    have stored : (L.store objects).Readable := h
    refine stored.set rfl fun hnone => ?_
    rw [new.node] at hnone
    cases hnone
  | lose _ new | complete _ _ new | settle _ new => exact placed rfl new.toPlaced

theorem readable_steps (h : L.Readable) (hs : Steps T False L L') : L'.Readable :=
  hs.induction h fun _ _ => readable_step

end Ledger

end CYC
