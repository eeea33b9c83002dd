import ClusterYourCodex.Lib.History
import ClusterYourCodex.Spec.Completion
import ClusterYourCodex.Spec.Pairing

/-! The controller store as a system: the calls its routes make, each a transaction that commits its
database or, on an error, none, and the histories of such calls from an empty database. -/

namespace CYC

open Checked

/-- A call of the store that a route makes. Enrollment and claim routes hand it the node document they build from the
worker's probe. The routes check their documents before; these checks are left out, so that histories have more calls
than the routes let through, but for that of a request for a pairing, which the store does not repeat. -/
inductive Op where
  | createPlan (job : JobSpec)
  | submitJob (job : JobSpec) (planId : Option Uuid)
  | claimJob (workerCredential : String) (nodeId : Uuid) (probe : ProbeReport) (endpoint : String)
  | workerHeartbeat (workerCredential runCredential : String) (runId leaseId : Uuid) (expectedVersion : Nat)
      (expectedState : JobState)
  | workerTransition (workerCredential runCredential : String) (runId leaseId : Uuid) (expectedVersion : Nat)
      (next : JobState)
  | putLogChunk (workerCredential runCredential : String) (runId leaseId : Uuid) (stream : String) (offset : Nat)
      (expectedSha256 : String) (data : List UInt8)
  | putArtifact (workerCredential runCredential : String) (runId leaseId artifactId : Uuid)
      (name expectedSha256 : String) (data : List UInt8)
  | workerCompleteManaged (workerCredential runCredential : String) (completion : RunCompletion)
  | recordCleanup (workerCredential runCredential : String) (receipt : CleanupReceipt)
  | cancelJob (id : Uuid) (expectedVersion : Option Nat)
  | getJob (id : Uuid)
  | listJobs (limit : Nat)
  | getCleanupSnapshot (id : Uuid)
  /-- The maintenance that a fleet snapshot commits before it reads. -/
  | maintain
  | recordNodeReport (credential : String) (report : NodeReportRequest)
  | updateNodeConfig (nodeId : Uuid) (expectedRevision : Int) (config : NodeConfig)
  | authenticateWorker (credential : String)
  | createPairingFor (request : CreatePairingRequest) (valid : request.validate = .ok ())
  | createPairingIdempotent (operationKey : String) (request : CreatePairingRequest) (valid : request.validate = .ok ())
      (workerUrl certificatePem : String)
  | consumePairing (code : String) (pairingId intendedNodeId : Uuid) (credentialSha256 : String)
      (displayName : Option String) (probe : ProbeReport) (endpoint : String)
  | acknowledgePairing (credential : String) (pairingId nodeId : Uuid) (credentialSha256 : String)
  | failPairing (pairingId : Uuid) (failureCode : PairingFailureCode)
  | revokePairing (pairingId : Uuid)

/-- What a call answers. -/
inductive Answer where
  | plan (plan : StoredPlan)
  | job (stored : StoredJob)
  | jobs (stored : List StoredJob)
  | claim (claim : Option WorkerClaim)
  | heartbeat (heartbeat : WorkerHeartbeat)
  | chunk (chunk : LogChunk)
  | artifact (artifact : StoredArtifact)
  | cleanup (cleanup : StoredCleanup)
  | snapshot (snapshot : CleanupSnapshot)
  | report (outcome : NodeReportOutcome)
  | config (config : StoredNodeConfig)
  | node (nodeId : Uuid)
  | pairing (pairing : PairingSecret)
  | idempotentPairing (pairing : IdempotentPairing)
  | paired (worker : PairedWorker)
  | acknowledged (acknowledgement : PairingAcknowledgement)
  | done

/-- The database and the answer of an operation. -/
def answering {α : Type} (answer : α → Answer) (result : StoreResult (Db × α)) : StoreResult (Db × Answer) :=
  result.map fun (db, a) => (db, answer a)

def silently (result : StoreResult Db) : StoreResult (Db × Answer) := result.map fun db => (db, .done)

def exec (env : Env) (db : Db) : Op → StoreResult (Db × Answer)
  | .createPlan job => answering .plan (createPlan env db job .default)
  | .submitJob job planId => answering .job (submitJob env db job planId .default)
  | .claimJob workerCredential nodeId probe endpoint =>
    answering .claim (claimJob env db workerCredential (nodeFromProbe nodeId none probe endpoint true))
  | .workerHeartbeat workerCredential runCredential runId leaseId expectedVersion expectedState =>
    answering .heartbeat (workerHeartbeat env db workerCredential runCredential runId leaseId expectedVersion expectedState)
  | .workerTransition workerCredential runCredential runId leaseId expectedVersion next =>
    answering .job (workerTransition env db workerCredential runCredential runId leaseId expectedVersion next)
  | .putLogChunk workerCredential runCredential runId leaseId stream offset expectedSha256 data =>
    answering .chunk (putLogChunk env db workerCredential runCredential runId leaseId stream offset expectedSha256 data)
  | .putArtifact workerCredential runCredential runId leaseId artifactId name expectedSha256 data =>
    answering .artifact
      (putArtifact env db workerCredential runCredential runId leaseId artifactId name expectedSha256 data)
  | .workerCompleteManaged workerCredential runCredential completion =>
    answering .job (workerCompleteManaged env db workerCredential runCredential completion)
  | .recordCleanup workerCredential runCredential receipt =>
    answering .cleanup (recordCleanup env db workerCredential runCredential receipt)
  | .cancelJob id expectedVersion => answering .job (cancelJob env db id expectedVersion)
  | .getJob id => answering .job (getJob env db id)
  | .listJobs limit => answering .jobs (listJobs env db limit)
  | .getCleanupSnapshot id => answering .snapshot (getCleanupSnapshot env db id)
  | .maintain => answering (fun _ => .done) (expireLeases env db env.now.timestamp)
  | .recordNodeReport credential report => answering .report (recordNodeReport env db credential report)
  | .updateNodeConfig nodeId expectedRevision config =>
    answering .config (updateNodeConfig env db nodeId expectedRevision config)
  | .authenticateWorker credential => answering .node (authenticateWorkerTx db credential env.now.timestamp)
  | .createPairingFor request _ => answering .pairing (createPairingFor env db request.intendedNodeId)
  | .createPairingIdempotent operationKey request _ workerUrl certificatePem =>
    answering .idempotentPairing (createPairingIdempotent env db operationKey request.intendedNodeId workerUrl certificatePem)
  | .consumePairing code pairingId intendedNodeId credentialSha256 displayName probe endpoint =>
    answering .paired (consumePairing env db code pairingId intendedNodeId credentialSha256
      (nodeFromProbe intendedNodeId displayName probe endpoint false))
  | .acknowledgePairing credential pairingId nodeId credentialSha256 =>
    answering .acknowledged (acknowledgePairing env db credential pairingId nodeId credentialSha256)
  | .failPairing pairingId failureCode => silently (failPairing env db pairingId failureCode)
  | .revokePairing pairingId => silently (revokePairing env db pairingId)

/-- A call and what it observes of the world. -/
structure Call where
  env : Env
  op : Op

/-- The database after a call: an error rolls everything back. -/
def step (db : Db) (call : Call) : Db :=
  match exec call.env db call.op with
  | .ok (db', _) => db'
  | .error _ => db

/-- The database after a history of calls on a new store. -/
def storeAfter (pairingSeed : String) (calls : List Call) : Db := History.after step (.empty pairingSeed) calls

/-- The calls follow one another in time. -/
def Chronological (calls : List Call) : Prop :=
  ∃ t, History.Chronological (fun c : Call => c.env.now.nanos) (fun c => c.env.finish.nanos) t calls

theorem storeAfter_append (seed : String) (calls later : List Call) :
    storeAfter seed (calls ++ later) = History.after step (storeAfter seed calls) later := History.after_append ..

theorem step_eq {db : Db} {call : Call} {db' : Db} {a : Answer} (h : exec call.env db call.op = .ok (db', a)) :
    step db call = db' := by
  simp [step, h]

/-- A call either commits or leaves the database as it was. -/
theorem step_cases (db : Db) (call : Call) :
    (∃ db' a, exec call.env db call.op = .ok (db', a) ∧ step db call = db') ∨ step db call = db := by
  cases h : exec call.env db call.op with
  | ok r => exact .inl ⟨r.1, r.2, rfl, step_eq h⟩
  | error e => exact .inr (by simp [step, h])

@[simp] theorem answering_eq_ok {α : Type} {answer : α → Answer} {result : StoreResult (Db × α)} {db : Db} {a : Answer} :
    answering answer result = .ok (db, a) ↔ ∃ x, result = .ok (db, x) ∧ answer x = a := by
  cases result with
  | error e => exact ⟨nofun, fun ⟨_, h, _⟩ => by cases h⟩
  | ok r =>
    constructor
    · intro h; cases h; exact ⟨r.2, rfl, rfl⟩
    · rintro ⟨x, h, rfl⟩; cases h; rfl

@[simp] theorem silently_eq_ok {result : StoreResult Db} {db : Db} {a : Answer} :
    silently result = .ok (db, a) ↔ result = .ok db ∧ .done = a := by
  cases result with
  | error e => exact ⟨nofun, fun ⟨h, _⟩ => by cases h⟩
  | ok r =>
    constructor
    · intro h; cases h; exact ⟨rfl, rfl⟩
    · rintro ⟨h, rfl⟩; cases h; rfl

end CYC
