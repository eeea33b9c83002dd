import ClusterYourCodex.Provision.Changes

/-! Host keys are pinned. A record that has a host key keeps it until it is removed, and apart from the
connection attempt and the probe nothing is asked of the driver for a computer before a call has approved
the fingerprint of that key. -/

namespace CYC.Provision

open Checked Relational History

variable {paths : PathRules} {s s' : Desk} {r r' : ComputerRecord} {id : Uuid} {key : PinnedHostKeyRecord}

def Event.approves (id : Uuid) (fingerprint : String) : Event → Bool
  | .approved id' fingerprint' => id' = id && fingerprint' = fingerprint
  | _ => false

def Event.removes (id : Uuid) : Event → Bool
  | .removed id' => id' = id
  | _ => false

/-- The computer's key has been approved, and the computer has not been removed since. -/
def ApprovedKey (log : List Event) (id : Uuid) (key : PinnedHostKeyRecord) : Prop :=
  Since (Event.approves id key.fingerprint) (Event.removes id) log

/-- The approval on a record is of its own key. -/
def Pinned (log : List Event) (r : ComputerRecord) : Prop :=
  r.hostKeyApprovedAt.isSome = true → ∃ key, r.hostKey = some key ∧ ApprovedKey log r.id key

/-- An action past the probe is on a computer whose key has been approved. -/
def Permitted (e : Event) (past : List Event) : Prop :=
  ∀ request answer, e = .called (.execute request answer) → request.action ≠ .beginSsh →
    request.action ≠ .probeHostKey → ∃ key, request.computer.hostKey = some key ∧ ApprovedKey past request.computer.id key

/-! ### One change -/

theorem applyCompletion_hostKey {action : ProvisioningAction} {completion : StepCompletion}
    (h : applyCompletion r action completion = .ok r') :
    r'.hostKeyApprovedAt = r.hostKeyApprovedAt ∧ (∀ key, r.hostKey = some key → r'.hostKey = some key) ∧
      ∀ observed, completion = .hostKeyObserved observed → r'.hostKey = some observed := by
  unfold applyCompletion at h
  split at h
  case h_2 observed =>
    simp only [bind_eq_ok, pure_eq_ok, ensure_eq_ok] at h
    obtain ⟨_, -, _, hsame, rfl⟩ := h
    refine ⟨rfl, ?_, ?_⟩
    · intro key hkey
      rw [hkey] at hsame
      exact congrArg some (of_decide_eq_true hsame).symm
    · rintro _ ⟨⟩
      rfl
  all_goals first
    | cases h; exact ⟨rfl, fun _ hkey => hkey, by rintro _ ⟨⟩⟩
    | simp only [bind_eq_ok, pure_eq_ok] at h
      first
        | obtain ⟨_, -, rfl⟩ := h; exact ⟨rfl, fun _ hkey => hkey, by rintro _ ⟨⟩⟩
        | obtain ⟨_, -, _, -, rfl⟩ := h; exact ⟨rfl, fun _ hkey => hkey, by rintro _ ⟨⟩⟩
        | obtain ⟨_, -, _, -, _, -, rfl⟩ := h; exact ⟨rfl, fun _ hkey => hkey, by rintro _ ⟨⟩⟩
    | cases h

theorem failedRecord_hostKey (failure : DriverFailure) : (failedRecord r failure).hostKey = r.hostKey ∧
      (failedRecord r failure).hostKeyApprovedAt = r.hostKeyApprovedAt ∧ (failedRecord r failure).step = r.step := by
  unfold failedRecord
  cases failure.rejectsCredential <;> exact ⟨rfl, rfl, rfl⟩

variable {call : Option DriverCall} {event : Option Event} {request : DriverRequest}

/-- A change keeps the key, and it leaves the approval alone unless it is one. -/
theorem Change.hostKey (h : Change r call event r') : (∀ key, r.hostKey = some key → r'.hostKey = some key) ∧
      (r'.hostKeyApprovedAt = r.hostKeyApprovedAt ∨
        ∃ key, r.hostKey = some key ∧ event = some (.approved r.id key.fingerprint)) := by
  cases h with
  | approved _ _ hkey => exact ⟨fun _ h => h, .inr ⟨_, hkey, rfl⟩⟩
  | intended _ _ _ => exact ⟨fun _ h => h, .inl rfl⟩
  | repaired hnext =>
    rw [nextCycle_eq_ok hnext]
    exact ⟨fun _ h => h, .inl rfl⟩
  | rolledBack hnext =>
    rw [resetAfterRollback_eq_ok hnext]
    exact ⟨fun _ h => h, .inl rfl⟩
  | tornDown | forgotten => exact ⟨fun _ h => h, .inl rfl⟩
  | failed _ failure =>
    obtain ⟨hkey, happroved, -⟩ := failedRecord_hostKey (r := r) failure
    exact ⟨fun _ h => hkey.trans h, .inl happroved⟩
  | dropped _ => exact ⟨fun _ h => h, .inl rfl⟩
  | completed _ happly =>
    obtain ⟨happroved, hkey, -⟩ := applyCompletion_hostKey happly
    exact ⟨hkey, .inl happroved⟩

/-- A driver call removes no computer. -/
theorem removes_called (call : Option DriverCall) : ∀ e ∈ (call.map Event.called).toList, e.removes id = false := by
  intro e he
  obtain ⟨c, -, rfl⟩ := Option.map_eq_some_iff.1 (Option.mem_toList.1 he)
  rfl

/-- Nor does a change. -/
theorem Change.removes_event (h : Change r call event r') : ∀ e ∈ event.toList, e.removes id = false := by
  intro e he
  rcases h.event with rfl | ⟨key, -, rfl⟩
  · cases he
  · rw [List.mem_singleton.1 he]
    rfl

theorem Pinned.append {log events : List Event} (h : Pinned log r) (hevents : ∀ e ∈ events, e.removes r.id = false) :
    Pinned (events ++ log) r := by
  intro happroved
  obtain ⟨key, hkey, hsince⟩ := h happroved
  exact ⟨key, hkey, hsince.append hevents⟩

/-! ### Actions -/

theorem approved_of_reached (hvalid : r.validate paths = .ok ()) (h : r.reached .authenticated = true) :
    r.hostKeyApprovedAt.isSome = true := by
  simp only [ComputerRecord.validate, ComputerRecord.validateCheckpoints, seq_eq_ok, ensure_eq_ok] at hvalid
  have happroved := hvalid.2.2.2.2.2.2.2.2.1.2.1
  rw [h] at happroved
  simpa using happroved

/-- A record that is acted on past the probe has an approval. -/
theorem approved_of_made {answer : Except DriverFailure StepCompletion}
    (hvalid : r.validate paths = .ok ()) (h : Made r (.execute request answer))
    (hssh : request.action ≠ .beginSsh) (hprobe : request.action ≠ .probeHostKey) :
    r.hostKeyApprovedAt.isSome = true := by
  cases h with
  | execute _ _ hfailed happroved haction =>
    cases hstate : r.state with
    | draft =>
      simp only [actionForRecord, ComputerRecord.step, hstate] at haction
      cases haction
      exact absurd rfl hssh
    | sshConnecting =>
      simp only [actionForRecord, ComputerRecord.step, hstate] at haction
      cases haction
      exact absurd rfl hprobe
    | hostKeyPending => exact happroved hstate
    | failed _ _ _ =>
      rw [hstate] at hfailed
      cases hfailed
    | authenticated | discovering | credentialStored | kitStaged | workerInstalled | enrollmentIssued | paired
    | serviceEnabled | heartbeatSeen | smokeCheck | ready =>
      apply approved_of_reached hvalid
      simp only [ComputerRecord.reached, ComputerRecord.step, hstate]
      rfl

/-! ### Runs -/

structure Pinning (s : Desk) : Prop where
  records : ∀ id r, s.journal.record id = some r → Pinned s.log r
  actions : EachAfter Permitted s.log

theorem Pinning.permitted (h : Pinning s) {call : DriverCall} (hget : s.journal.get paths r.id = .ok r)
    (hmade : Made r call) : Permitted (.called call) s.log := by
  rintro request answer ⟨⟩ hssh hprobe
  obtain ⟨hlookup, hvalid⟩ := get_eq_ok.1 hget
  have hcomputer : request.computer = r := hmade.computer
  rw [hcomputer]
  exact h.records r.id r hlookup (approved_of_made hvalid hmade hssh hprobe)

/-- The driver call of a step is permitted. -/
theorem Pinning.called (h : Pinning s) (hcall : ∀ c ∈ call, ∃ r, s.journal.get paths r.id = .ok r ∧ Made r c) :
    EachAfter Permitted ((call.map Event.called).toList ++ s.log) := by
  refine h.actions.append fun e he => ?_
  obtain ⟨c, hc, rfl⟩ := Option.map_eq_some_iff.1 he
  obtain ⟨r, hget, hmade⟩ := hcall c hc
  exact h.permitted hget hmade

theorem permitted_of_ne_called {e : Event} {past : List Event} (h : ∀ c, e ≠ .called c) : Permitted e past := by
  intro request answer he
  exact absurd he (h _)

theorem Pinning.step (h : Pinning s) (call : EngineCall) : Pinning (Desk.step paths s call) := by
  have hstep : Stepped paths s _ (Desk.step paths s call) := stepped s call
  generalize (Desk.serve paths s.journal call).call = c at hstep
  generalize Desk.step paths s call = s' at hstep
  cases hstep with
  | idle hcall =>
    refine ⟨fun id r hr => ?_, h.called hcall⟩
    exact (h.records id r hr).append (removes_called c)
  | created hnone hfresh hlookup =>
    refine ⟨fun id r hr => ?_, h.actions⟩
    rcases update_eq_some (hlookup ▸ hr) with ⟨-, ⟨⟩⟩ | ⟨-, hr⟩
    · rintro ⟨⟩
    · exact h.records id r hr
  | @saved r r' event savedAt j' hget hchange hlookup =>
    refine ⟨fun id r₀ hr => ?_, (h.called fun c hc => ⟨r, hget, hchange.made c hc⟩).append fun e he => ?_⟩
    · rcases update_eq_some (hlookup ▸ hr) with ⟨-, ⟨⟩⟩ | ⟨-, hr⟩
      · have hsame := hchange.sameIdentity
        obtain ⟨hkeys, happroval⟩ := hchange.hostKey
        intro happroved
        rcases happroval with hold | ⟨key, hkey, rfl⟩
        · -- the approval is an old one, and the key has been kept since
          obtain ⟨key, hkey, hsince⟩ :=
            h.records r.id r (get_eq_ok.1 hget).1 ((congrArg Option.isSome hold).symm.trans happroved)
          refine ⟨key, hkeys key hkey, ?_⟩
          have hid : (stamped savedAt r r').id = r.id := hsame.id
          rw [hid]
          exact (hsince.append (removes_called c)).append hchange.removes_event
        · refine ⟨key, hkeys key hkey, .inl ?_⟩
          have hid : (stamped savedAt r r').id = r.id := hsame.id
          simp [Event.approves, hid]
      · exact ((h.records id r₀ hr).append (removes_called c)).append hchange.removes_event
    · rcases hchange.event with rfl | ⟨key, -, rfl⟩
      · cases he
      · rw [← Option.mem_some.1 he]
        exact permitted_of_ne_called fun c => nofun
  | @removed r request answer j' hget hcall hmade hlookup =>
    subst hcall
    refine ⟨fun id r₀ hr => ?_,
      (h.called fun c hc => ⟨r, hget, Option.mem_some.1 hc ▸ hmade⟩).append fun e he => ?_⟩
    · rcases update_eq_some (hlookup ▸ hr) with ⟨-, ⟨⟩⟩ | ⟨hid, hr⟩
      refine ((h.records id r₀ hr).append (removes_called _)).append fun e he => ?_
      have hid₀ : r₀.id = id := id_of_record hr
      rw [List.mem_singleton.1 he]
      exact decide_eq_false fun heq => hid (hid₀.symm.trans heq.symm)
    · rw [← Option.mem_some.1 he]
      exact permitted_of_ne_called fun c => nofun

/-- The key of a computer is kept from one state to a later one unless the computer is removed between
them. -/
def KeepsKeys (s s' : Desk) : Prop :=
  ∃ events, s'.log = events ++ s.log ∧ ∀ id r key, s.journal.record id = some r →
    r.hostKey = some key → (∀ e ∈ events, e.removes id = false) →
      ∃ r', s'.journal.record id = some r' ∧ r'.hostKey = some key

theorem KeepsKeys.refl (s : Desk) : KeepsKeys s s :=
  ⟨[], rfl, fun _ r _ hr hkey _ => ⟨r, hr, hkey⟩⟩

theorem KeepsKeys.trans {s₁ s₂ s₃ : Desk} (h₁ : KeepsKeys s₁ s₂) (h₂ : KeepsKeys s₂ s₃) : KeepsKeys s₁ s₃ := by
  obtain ⟨events₁, hlog₁, hkeys₁⟩ := h₁
  obtain ⟨events₂, hlog₂, hkeys₂⟩ := h₂
  refine ⟨events₂ ++ events₁, by rw [hlog₂, hlog₁, List.append_assoc], fun id r key hr hkey hevents => ?_⟩
  obtain ⟨r', hr', hkey'⟩ := hkeys₁ id r key hr hkey fun e he => hevents e (List.mem_append_right _ he)
  exact hkeys₂ id r' key hr' hkey' fun e he => hevents e (List.mem_append_left _ he)

theorem KeepsKeys.step (s : Desk) (call : EngineCall) : KeepsKeys s (Desk.step paths s call) := by
  have hstep : Stepped paths s _ (Desk.step paths s call) := stepped s call
  generalize (Desk.serve paths s.journal call).call = c at hstep
  generalize Desk.step paths s call = s' at hstep
  cases hstep with
  | idle hcall => exact ⟨_, rfl, fun _ r _ hr hkey _ => ⟨r, hr, hkey⟩⟩
  | created hnone hfresh hlookup =>
    refine ⟨[], rfl, fun id r key hr hkey _ => ⟨r, ?_, hkey⟩⟩
    have hid : id ≠ _ := fun heq => by rw [heq, hfresh] at hr; cases hr
    rw [hlookup, Function.update_of_ne hid]
    exact hr
  | @saved r r' event savedAt j' hget hchange hlookup =>
    refine ⟨_, (List.append_assoc ..).symm, fun id r₀ key hr hkey _ => ?_⟩
    by_cases hid : id = r.id
    · subst hid
      cases (get_eq_ok.1 hget).1.symm.trans hr
      refine ⟨stamped savedAt r r', ?_, hchange.hostKey.1 key hkey⟩
      rw [hlookup, Function.update_self]
    · refine ⟨r₀, ?_, hkey⟩
      rw [hlookup, Function.update_of_ne hid]
      exact hr
  | @removed r request answer j' hget hcall hmade hlookup =>
    refine ⟨_, (List.append_assoc ..).symm, fun id r₀ key hr hkey hevents => ⟨r₀, ?_, hkey⟩⟩
    have hid : id ≠ r.id := by
      intro heq
      have := hevents (.removed r.id) (List.mem_append_left _ List.mem_cons_self)
      rw [heq, Event.removes, decide_eq_false_iff_not] at this
      exact this rfl
    rw [hlookup, Function.update_of_ne hid]
    exact hr

theorem KeepsKeys.after (s : Desk) (calls : List EngineCall) : KeepsKeys s (Desk.after paths s calls) := by
  induction calls generalizing s with
  | nil => exact .refl s
  | cons call calls ih => exact (KeepsKeys.step s call).trans (ih _)

/-- A probe that shows another key leaves the record at its step, with its key. -/
theorem probe_unadvanced {call : EngineCall} {observed : PinnedHostKeyRecord}
    (hcall : (Desk.serve paths s.journal call).call = some (.execute request (.ok (.hostKeyObserved observed))))
    (hkey : request.computer.hostKey = some key) (hne : observed ≠ key) :
    ∃ r', (Desk.step paths s call).journal.record request.computer.id = some r' ∧
      r'.hostKey = some key ∧ r'.step = request.computer.step := by
  have hstep : Stepped paths s _ (Desk.step paths s call) := stepped s call
  rw [hcall] at hstep
  generalize Desk.step paths s call = s' at hstep
  cases hstep with
  | idle hidle =>
    obtain ⟨r, hget, hmade⟩ := hidle _ rfl
    have hcomputer : request.computer = r := hmade.computer
    subst hcomputer
    exact ⟨_, (get_eq_ok.1 hget).1, hkey, rfl⟩
  | created hnone _ _ => cases hnone
  | @saved r r' event savedAt j' hget hchange hlookup =>
    have hcomputer : request.computer = r := (hchange.made _ rfl).computer
    subst hcomputer
    refine ⟨stamped savedAt request.computer r', by rw [hlookup, Function.update_self],
      hchange.hostKey.1 key hkey, ?_⟩
    show r'.step = request.computer.step
    generalize hsome : some (DriverCall.execute request (.ok (.hostKeyObserved observed))) = c at hchange
    cases hchange with
    | approved _ _ _ | intended _ _ _ | repaired _ | rolledBack _ => cases hsome
    | tornDown _ | forgotten _ | dropped _ => rfl
    | failed _ failure => exact (failedRecord_hostKey failure).2.2
    | completed _ happly =>
      obtain ⟨-, hkept, hobserved⟩ := applyCompletion_hostKey happly
      have hcompletion := Except.ok.inj (DriverCall.execute.inj (Option.some.inj hsome)).2
      have hkeys := (hobserved observed hcompletion.symm).symm.trans (hkept key hkey)
      exact absurd (Option.some.inj hkeys) hne
  | removed _ hsome _ _ => cases hsome

theorem pinning_after (calls : List EngineCall) : Pinning (Desk.after paths .initial calls) := by
  have hinitial : Pinning .initial := ⟨fun _ _ h => (by cases h), trivial⟩
  unfold Desk.after History.after
  induction calls using List.reverseRecOn with
  | nil => exact hinitial
  | append_singleton calls call ih =>
    rw [List.foldl_append]
    exact ih.step call

/-- What pinning means along a run. -/
structure HostKeyPinning (paths : PathRules) (calls : List EngineCall) : Prop where
  /-- A key is kept from any state of the run to its end, unless the computer is removed in between. -/
  kept : ∀ earlier later, calls = earlier ++ later →
    KeepsKeys (Desk.after paths .initial earlier) (Desk.after paths .initial calls)
  /-- Past the probe, an action is only asked for on a computer whose own key has been approved. -/
  permitted : EachAfter Permitted (Desk.after paths .initial calls).log
  /-- A probe that shows another key does not advance the record. -/
  unadvanced : ∀ earlier call later request observed key, calls = earlier ++ call :: later →
    (Desk.serve paths (Desk.after paths .initial earlier).journal call).call =
      some (.execute request (.ok (.hostKeyObserved observed))) →
    request.computer.hostKey = some key → observed ≠ key →
      ∃ r', (Desk.after paths .initial (earlier ++ [call])).journal.record request.computer.id = some r' ∧
        r'.hostKey = some key ∧ r'.step = request.computer.step

theorem host_key_pinning (paths : PathRules) (calls : List EngineCall) : HostKeyPinning paths calls where
  kept := by
    rintro earlier later rfl
    have hafter : Desk.after paths .initial (earlier ++ later) =
        Desk.after paths (Desk.after paths .initial earlier) later := after_append ..
    rw [hafter]
    exact .after _ later
  permitted := (pinning_after calls).actions
  unadvanced := by
    rintro earlier call later request observed key - hcall hkey hne
    have hafter : Desk.after paths .initial (earlier ++ [call]) =
        Desk.step paths (Desk.after paths .initial earlier) call := after_append ..
    rw [hafter]
    exact probe_unadvanced hcall hkey hne

end CYC.Provision
