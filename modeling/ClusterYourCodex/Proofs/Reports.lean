import ClusterYourCodex.Proofs.Runs
import ClusterYourCodex.Fleet.Authority
import ClusterYourCodex.Fleet.Nodes

/-! The order of node reports. The telemetry row of a node holds a cursor (generation, boot, sequence),
and a report is stored only if it is ahead of it. Probes write the same row: the probe of a claim only
before the first report, but the probe of a repair whenever a pairing is consumed, and that takes the
cursor back to the start while the old worker may still report. -/

namespace CYC

open Checked

variable {env : Env} {db db' : Db} {op : Op} {answer : Answer} {call : Call} {node : Uuid} {tel tel' : NodeTelemetry}
variable {report : NodeReportRequest} {row : NodeTelemetryRow}

/-! ### Reports that are stored -/

/-- The telemetry that the call stores for the node, if it is of a positive generation. -/
def Call.acceptedReport (node : Uuid) (db : Db) (call : Call) : Option NodeTelemetry :=
  match call.op, exec call.env db call.op with
  | .recordNodeReport _ report, .ok (_, .report outcome) =>
    if outcome.accepted && outcome.nodeId = node && 0 < report.telemetry.bootGeneration.toNat then some report.telemetry
    else none
  | _, _ => none

/-- The call is a report that is not stored. -/
def Call.rejectedReport (db : Db) (call : Call) : Bool :=
  match call.op, exec call.env db call.op with
  | .recordNodeReport .., .ok (_, .report outcome) => !outcome.accepted
  | .recordNodeReport .., .error _ => true
  | _, _ => false

/-- The reports of positive generations that a history stores for a node, in order. -/
def acceptedReports (seed : String) (node : Uuid) (calls : List Call) : List NodeTelemetry :=
  History.emitted step (Call.acceptedReport node) (.empty seed) calls

/-- The first report comes before the second: a generation has one boot, and within it the sequence
grows. -/
def NodeTelemetry.Before (tel tel' : NodeTelemetry) : Prop :=
  (tel.bootGeneration.toNat < tel'.bootGeneration.toNat ∨
    (tel.bootGeneration.toNat = tel'.bootGeneration.toNat ∧ tel.sequence.toNat < tel'.sequence.toNat)) ∧
    (tel.bootGeneration.toNat = tel'.bootGeneration.toNat → tel.bootId = tel'.bootId)

instance (tel tel' : NodeTelemetry) : Decidable (tel.Before tel') := inferInstanceAs (Decidable (_ ∧ _))

/-! ### Ahead of the cursor -/

/-- The report is at the cursor or behind it. -/
def NodeTelemetryRow.Passed (row : NodeTelemetryRow) (tel : NodeTelemetry) : Prop :=
  tel.bootGeneration.toNat < asU64 row.bootGeneration ∨
    (tel.bootGeneration.toNat = asU64 row.bootGeneration ∧ tel.bootId = row.bootId ∧ tel.sequence.toNat ≤ asU64 row.sequence)

theorem validate_cursor (h : report.validate = .ok ()) :
    report.telemetry.bootId.isNil = false ∧ asU64 (asI64 report.telemetry.bootGeneration.toNat) = report.telemetry.bootGeneration.toNat ∧
      asU64 (asI64 report.telemetry.sequence.toNat) = report.telemetry.sequence.toNat := by
  simp only [NodeReportRequest.validate, bind_eq_ok, ensure_eq_ok, Bool.and_eq_true, decide_eq_true_eq] at h
  obtain ⟨-, -, -, hboot, -, -, -, ⟨hgeneration, hsequence⟩, -⟩ := h
  unfold maxSafeJsonInteger at hgeneration hsequence
  unfold asU64 asI64 i64Max
  exact ⟨by simpa using hboot, by omega, by omega⟩

/-- A report that is not overtaken by a cursor in a positive generation. -/
theorem ahead_of_cursor (hpositive : 0 < row.bootGeneration) (h : reportOvertaken db row tel = false) :
    asU64 row.bootGeneration < tel.bootGeneration.toNat ∨
      (tel.bootGeneration.toNat = asU64 row.bootGeneration ∧ tel.bootId = row.bootId ∧ asU64 row.sequence < tel.sequence.toNat) := by
  have hgeneration : asU64 row.bootGeneration ≠ 0 := by
    unfold asU64
    omega
  simp only [reportOvertaken, hgeneration, decide_false, Bool.false_and, Bool.false_eq_true, if_false, Bool.or_eq_false_iff,
    Bool.and_eq_false_iff, decide_eq_false_iff_not] at h
  obtain ⟨hle, hsame⟩ := h
  rcases hsame with hne | ⟨hboot, hsequence⟩
  · exact .inl (by omega)
  · by_cases heq : tel.bootGeneration.toNat = asU64 row.bootGeneration
    · exact .inr ⟨heq, not_not.1 hboot, by omega⟩
    · exact .inl (by omega)

theorem NodeTelemetryRow.Passed.before (h : row.Passed tel) (hpositive : 0 < row.bootGeneration)
    (hahead : reportOvertaken db row tel' = false) : tel.Before tel' := by
  rcases ahead_of_cursor hpositive hahead with hlt | ⟨heq, hboot, hsequence⟩
  · rcases h with h | ⟨h, -, -⟩
    · exact ⟨.inl (by omega), fun h => by omega⟩
    · exact ⟨.inl (by omega), fun h => by omega⟩
  · rcases h with h | ⟨h, hboot', hsequence'⟩
    · exact ⟨.inl (by omega), fun h => by omega⟩
    · exact ⟨.inr ⟨by omega, by omega⟩, fun _ => hboot'.trans hboot.symm⟩

/-- A report within bounds leaves the cursor at itself. -/
theorem passed_reported {t : DateTime} (h : report.validate = .ok ()) :
    (row.reported t report.telemetry).Passed report.telemetry := by
  obtain ⟨-, hgeneration, hsequence⟩ := validate_cursor h
  exact .inr ⟨hgeneration.symm, rfl, hsequence.ge⟩

/-- What the cursor has passed it has passed after the report, too. -/
theorem NodeTelemetryRow.Passed.reported {t : DateTime} (h : row.Passed tel) (hpositive : 0 < row.bootGeneration)
    (hahead : reportOvertaken db row report.telemetry = false) (hvalid : report.validate = .ok ()) :
    (row.reported t report.telemetry).Passed tel ∧ 0 < (row.reported t report.telemetry).bootGeneration := by
  obtain ⟨-, hgeneration, hsequence⟩ := validate_cursor hvalid
  constructor
  · obtain ⟨hlt | ⟨heq, hlt⟩, hboot⟩ := h.before hpositive hahead
    · exact .inl (hlt.trans_eq hgeneration.symm)
    · exact .inr ⟨heq.trans hgeneration.symm, hboot heq, hlt.le.trans_eq hsequence.symm⟩
  · have hge : asU64 row.bootGeneration ≤ report.telemetry.bootGeneration.toNat := by
      rcases ahead_of_cursor hpositive hahead with hlt | ⟨heq, -⟩
      · exact hlt.le
      · exact heq.ge
    unfold asU64 at hge
    change 0 < asI64 _
    unfold asI64 i64Max
    omega

/-! ### Histories -/

/-- The call consumes no pairing, not yet consumed, of a node whose worker reports in a generation. -/
def Call.sparesCursor (db : Db) (call : Call) : Bool :=
  match call.op with
  | .consumePairing _ pairingId nodeId _ _ _ _ =>
    ((db.pairings.lookup PairingRow.id pairingId).all fun p => p.usedAt.isSome) ||
      (db.telemetryOf nodeId).all fun row => row.bootGeneration ≤ 0
  | _ => true

/-- The cursor of a positive generation names a boot. -/
def BootNamed (node : Uuid) (db : Db) : Prop :=
  ∀ row, db.telemetryOf node = some row → 0 < row.bootGeneration → row.bootId.isNil = false

/-- The report is not ahead of the node's cursor, which is in a positive generation. -/
def PassedBy (node : Uuid) (tel : NodeTelemetry) (db : Db) : Prop :=
  ∃ row, db.telemetryOf node = some row ∧ 0 < row.bootGeneration ∧ row.Passed tel

/-- A probe is not written over a cursor of a positive generation. -/
theorem not_probed (hspares : call.sparesCursor db = true) (hnamed : BootNamed node db)
    (hrow : db.telemetryOf node = some row) (hpositive : 0 < row.bootGeneration) : ¬call.op.probes db node := by
  intro hprobes
  have hboot := hnamed row hrow hpositive
  unfold Call.sparesCursor at hspares
  cases hop : call.op <;> rw [hop] at hprobes hspares
  case claimJob =>
    have hnil := hprobes.2
    rw [hrow, Option.all_some, hboot] at hnil
    cases hnil
  case consumePairing =>
    obtain ⟨rfl, p, hp, hused⟩ := hprobes
    simp only [hp, hrow, Option.all_some, hused, Option.isSome_none, Bool.false_or, decide_eq_true_eq] at hspares
    omega
  all_goals exact hprobes

/-- No call takes the cursor back. -/
theorem cursor_step (hspares : call.sparesCursor db = true) (hnamed : BootNamed node db) :
    BootNamed node (step db call) ∧ ∀ tel, PassedBy node tel db → PassedBy node tel (step db call) := by
  have same : (step db call).telemetryOf node = db.telemetryOf node →
      BootNamed node (step db call) ∧ ∀ tel, PassedBy node tel db → PassedBy node tel (step db call) := by
    intro h
    unfold BootNamed PassedBy
    rw [h]
    exact ⟨hnamed, fun _ h => h⟩
  rcases step_cases db call with ⟨db', answer, hexec, hstep⟩ | hstep
  · rw [hstep] at same ⊢
    rcases exec_nodeRows hexec with ⟨hsame, -⟩ | ⟨id, rows', hrows, hwritten⟩
    · exact same (congrArg NodeRows.telemetry (congrFun hsame node) :)
    · have hafter : db'.telemetryOf node = (Function.update db.nodeRows id rows' node).telemetry := by
        rw [← hrows]
        rfl
      by_cases hid : node = id
      · subst hid
        rw [Function.update_self] at hafter
        cases hwritten with
        | probe asked self due written =>
          obtain ⟨-, -, -, htelemetry, -, -⟩ := written
          refine ⟨fun row hrow hpositive => ?_, fun tel ⟨row₀, hrow₀, hpositive, _⟩ => ?_⟩
          · rw [hafter, Option.some.injEq] at hrow
            rw [← hrow, htelemetry] at hpositive
            exact absurd hpositive (lt_irrefl 0)
          · exact absurd due (not_probed hspares hnamed hrow₀ hpositive)
        | @report credential report outcome asked answered accepted self valid ahead written =>
          obtain ⟨-, -, -, hstored, -, -⟩ := written
          obtain ⟨hboot, -, -⟩ := validate_cursor valid
          refine ⟨fun row hrow _ => ?_, fun tel ⟨row₀, hrow₀, hpositive, hpassed⟩ => ?_⟩
          · rw [hafter, Option.some.injEq] at hrow
            subst hrow
            exact hboot
          · cases hstored.symm.trans hrow₀
            obtain ⟨hpassed', hpositive'⟩ := hpassed.reported hpositive (ahead _ hstored) valid
            exact ⟨_, hafter, hpositive', hpassed'⟩
        | configure asked written =>
          cases written
          exact same hafter
      · rw [Function.update_of_ne hid] at hafter
        exact same hafter
  · exact same (by rw [hstep])

/-- A stored report moves the cursor to itself, and everything the cursor had passed came before it. -/
theorem cursor_accepted (h : call.acceptedReport node db = some tel) :
    PassedBy node tel (step db call) ∧ ∀ tel₀, PassedBy node tel₀ db → tel₀.Before tel := by
  unfold Call.acceptedReport at h
  split at h
  · rename_i credential report db' outcome hop hexec
    split at h
    · rename_i haccepted
      simp only [Bool.and_eq_true, decide_eq_true_eq] at haccepted
      obtain ⟨⟨haccepted, rfl⟩, hpositive⟩ := haccepted
      cases h
      rw [step_eq hexec]
      rw [hop] at hexec
      rcases exec_nodeRows hexec with ⟨-, hsilent⟩ | ⟨id, rows', hrows, hwritten⟩
      · cases (hsilent outcome rfl).symm.trans haccepted
      · cases hwritten with
        | probe _ _ due => exact due.elim
        | configure asked => cases asked
        | @report _ report' _ asked answered _ self valid ahead written =>
          cases asked
          cases answered
          subst self
          obtain ⟨-, -, -, hstored, -, -⟩ := written
          have hafter := congrArg NodeRows.telemetry ((congrFun hrows outcome.nodeId).trans (Function.update_self ..))
          refine ⟨⟨_, hafter, ?_, passed_reported valid⟩, fun tel₀ ⟨row₀, hrow₀, hpositive₀, hpassed⟩ => ?_⟩
          · change 0 < asI64 _
            unfold asI64 i64Max
            omega
          · cases hstored.symm.trans hrow₀
            exact hpassed.before hpositive₀ (ahead _ hstored)
    · cases h
  · cases h

/-- A report that is not stored leaves inventories and telemetry, with the times of their receipt, as
they were. -/
theorem rejected_report (h : call.rejectedReport db = true) :
    (step db call).nodeInventories = db.nodeInventories ∧ (step db call).nodeTelemetry = db.nodeTelemetry := by
  unfold Call.rejectedReport at h
  split at h
  · rename_i credential report db' outcome hop hexec
    rw [step_eq hexec]
    rw [hop] at hexec
    simp only [exec, answering_eq_ok, Answer.report.injEq] at hexec
    obtain ⟨_, hrecord, rfl⟩ := hexec
    rcases nodeRows_recordNodeReport hrecord with ⟨htouched, -⟩ | ⟨rows', -, hwritten⟩
    · exact ⟨congrArg Fleet.nodeInventories htouched.rest, congrArg Fleet.nodeTelemetry htouched.rest⟩
    · cases hwritten with
      | probe _ _ due => exact due.elim
      | configure asked => cases asked
      | report _ answered accepted =>
        cases answered
        simp [accepted] at h
  · rename_i hop hexec
    simp [step, hexec]
  · cases h

/-- In a history without a repair over a reporting worker, the stored reports of a node are strictly in
order; and in every history a report that is not stored changes no document. -/
theorem reports_ordered (seed : String) (calls : List Call) :
    (History.Along step (fun db call => call.sparesCursor db = true) (.empty seed) calls →
      ∀ node, (acceptedReports seed node calls).Pairwise NodeTelemetry.Before) ∧
    ∀ call : Call, call.rejectedReport (storeAfter seed calls) = true →
      (step (storeAfter seed calls) call).nodeInventories = (storeAfter seed calls).nodeInventories ∧
        (step (storeAfter seed calls) call).nodeTelemetry = (storeAfter seed calls).nodeTelemetry := by
  refine ⟨fun h node => ?_, fun call => rejected_report⟩
  have hempty : BootNamed node (.empty seed) := by
    intro row hrow
    have hnone : (Db.empty seed).telemetryOf node = none := rfl
    rw [hnone] at hrow
    cases hrow
  refine (History.pairwise_emitted (I := BootNamed node) (B := PassedBy node) h hempty ?_ ?_).1
  · intro db call hnamed hspares
    exact cursor_step hspares hnamed
  · intro db call tel _ _ haccepted
    exact cursor_accepted haccepted

/-- The worker of node 1 is enrolled with credential `a` and reports in generations 1 and 2. -/
def reportCalls : List Call :=
  enrollCalls 1000 10 ⟨1⟩ "a" ++
    [⟨envAt 1000 20, .recordNodeReport "a" (sampleReport 1 5 ⟨77⟩)⟩,
     ⟨envAt 1001 21, .recordNodeReport "a" (sampleReport 2 1 ⟨78⟩)⟩]

theorem reports_ordered_reportCalls : (acceptedReports "s" ⟨1⟩ reportCalls).length = 2 ∧
    (acceptedReports "s" ⟨1⟩ reportCalls).Pairwise NodeTelemetry.Before :=
  ⟨by decide +kernel, (reports_ordered "s" reportCalls).1 (by decide +kernel) ⟨1⟩⟩

/-- The worker is then repaired with credential `b`, and before the repair is acknowledged a report of
generation 1 arrives with the old credential. -/
def repairedReports : List Call :=
  reportCalls ++ pairCalls 1002 30 ⟨1⟩ "b" ++ [⟨envAt 1003 40, .recordNodeReport "a" (sampleReport 1 4 ⟨77⟩)⟩]

/-- The repair lets the report of the retired process through. -/
theorem repair_reorders_reports : Chronological repairedReports ∧
    (acceptedReports "s" ⟨1⟩ repairedReports).map (fun tel => (tel.bootGeneration, tel.sequence)) = [(1, 5), (2, 1), (1, 4)] ∧
      ¬(acceptedReports "s" ⟨1⟩ repairedReports).Pairwise NodeTelemetry.Before :=
  ⟨⟨0, by decide +kernel⟩, by decide +kernel, by decide +kernel⟩

end CYC
