import ClusterYourCodex.Spec.Fleet

/-! Enrollment of workers: a pairing is issued, consumed by a worker with a staged credential,
acknowledged, which activates the credential and retires every other enrollment of the node, or it
fails, expires or is revoked. Its phase is not stored but classified from its columns. -/

namespace CYC

open Checked Relational

structure PairingSecret where
  id : Uuid
  intendedNodeId : Uuid
  code : String
  createdAt : DateTime
  expiresAt : DateTime

structure IdempotentPairing where
  pairing : PairingSecret
  workerUrl : String
  certificatePem : String
  replayed : Bool

/-! ### The phase of a pairing -/

structure PairingCredentialState where
  total : Nat
  stagedUnrevoked : Nat
  activeUnrevoked : Nat
  stagedRevoked : Nat
  activeRevoked : Nat

def pairingFailureState (failedAt : Option Int) (failureCode : Option PairingFailureCode) :
    StoreResult (Option (DateTime × PairingFailureCode)) :=
  match failedAt, failureCode with
  | none, none => .ok none
  | some failedAt, some failureCode => do
    let failedAt ← (timestamp failedAt).mapError fun _ => .invalidPairingFailureState
    return some (failedAt, failureCode)
  | _, _ => .error .invalidPairingFailureState

def classifyPairingPhase (intendedNodeId : Uuid) (nodeId : Option Uuid) (expiresAt : DateTime)
    (consumed acknowledged revoked failed nodeExists : Bool) (credentials : PairingCredentialState) (now : DateTime) :
    StoreResult PairingPhase := do
  ensure (credentials.stagedUnrevoked + credentials.activeUnrevoked + credentials.stagedRevoked +
    credentials.activeRevoked = credentials.total) .invalidPairingFailureState
  let untouched := !consumed && !acknowledged && nodeId.isNone && credentials.total = 0
  let cleanPending := untouched && !failed
  let cleanFailed := untouched && failed
  let exactNode := nodeId = some intendedNodeId && nodeExists
  let exactConsumed := !failed && consumed && !acknowledged && exactNode && credentials.total = 1 &&
    (if revoked then credentials.stagedRevoked = 1 else credentials.stagedUnrevoked = 1)
  let exactReady := !failed && consumed && acknowledged && exactNode && credentials.total = 1 &&
    (if revoked then credentials.activeRevoked = 1 else credentials.activeUnrevoked = 1)
  ensure (cleanPending || cleanFailed || exactConsumed || exactReady) .invalidPairingFailureState
  return if revoked then .revoked
    else if exactReady then .ready
    else if exactConsumed then .consumed
    else if cleanFailed then .failed
    else if expiresAt.nanos ≤ now.nanos then .expired
    else .pending

/-- The credentials of a pairing, counted by what has become of them. -/
def Db.credentialState (db : Db) (p : PairingRow) : PairingCredentialState :=
  let own := db.credentialsOf p.id
  let ofNode := own.filter fun c => some c.nodeId = p.nodeId
  { total := own.length
    stagedUnrevoked := ofNode.countP fun c => c.activatedAt.isNone && c.revokedAt.isNone
    activeUnrevoked := ofNode.countP fun c => c.activatedAt.isSome && c.revokedAt.isNone
    stagedRevoked := ofNode.countP fun c => c.activatedAt.isNone && c.revokedAt.isSome
    activeRevoked := ofNode.countP fun c => c.activatedAt.isSome && c.revokedAt.isSome }

/-- The phase of a stored pairing, with its failure. -/
def pairingPhase (db : Db) (p : PairingRow) (expiresAt now : DateTime) :
    StoreResult (PairingPhase × Option (DateTime × PairingFailureCode)) := do
  let failure ← pairingFailureState p.failedAt p.failureCode
  let phase ← classifyPairingPhase p.intendedNodeId p.nodeId expiresAt p.usedAt.isSome p.acknowledgedAt.isSome
    p.revokedAt.isSome failure.isSome (p.nodeId.any db.nodeExists) (db.credentialState p) now
  return (phase, failure)

structure StoredPairingStatus where
  pairingId : Uuid
  intendedNodeId : Uuid
  nodeId : Option Uuid
  phase : PairingPhase
  createdAt : DateTime
  expiresAt : DateTime
  consumedAt : Option DateTime
  acknowledgedAt : Option DateTime
  revokedAt : Option DateTime
  failure : Option (DateTime × PairingFailureCode)

def getPairingStatus (env : Env) (db : Db) (pairingId : Uuid) : StoreResult StoredPairingStatus := do
  let p ← required (db.pairings.find fun p => p.id = pairingId) .notFound
  let createdAt ← timestamp p.createdAt
  let expiresAt ← timestamp p.expiresAt
  let consumedAt ← optionalTimestamp p.usedAt
  let acknowledgedAt ← optionalTimestamp p.acknowledgedAt
  let revokedAt ← optionalTimestamp p.revokedAt
  let (phase, failure) ← pairingPhase db p expiresAt env.now
  return { pairingId, intendedNodeId := p.intendedNodeId, nodeId := p.nodeId, phase, createdAt, expiresAt,
           consumedAt, acknowledgedAt, revokedAt, failure }

/-! ### Issue -/

inductive EnrollmentValidationError where
  | nilIdentifier (field : String)
  deriving DecidableEq

/-- The document of a request for a pairing (`cyc-protocol`, `onboarding.rs`). -/
structure CreatePairingRequest where
  intendedNodeId : Option Uuid

def CreatePairingRequest.validate (request : CreatePairingRequest) : Except EnrollmentValidationError Unit :=
  ensure (!request.intendedNodeId.any Uuid.isNil) (.nilIdentifier "intendedNodeId")

def newPairing (id : Uuid) (codeHash : String) (createdAt expiresAt : Int) (intendedNodeId : Uuid) : PairingRow where
  id := id
  codeHash := codeHash
  createdAt := createdAt
  expiresAt := expiresAt
  usedAt := none
  acknowledgedAt := none
  revokedAt := none
  nodeId := none
  intendedNodeId := intendedNodeId
  failedAt := none
  failureCode := none

def createPairingFor (env : Env) (db : Db) (intendedNodeId : Option Uuid) : StoreResult (Db × PairingSecret) := do
  let now ← timestamp env.now.timestamp
  let pairing : PairingSecret :=
    { id := env.newV4 .pairing, intendedNodeId := intendedNodeId.getD (env.newV4 .pairingNode),
      code := env.randomSecret, createdAt := now, expiresAt := now.addSeconds pairingTtlSeconds }
  let pairings ← inserted db.pairings (newPairing pairing.id (secretHash pairing.code) pairing.createdAt.timestamp
    pairing.expiresAt.timestamp pairing.intendedNodeId)
  return ({ db with pairings }, pairing)

def validPairingOperationKey (value : String) : Bool :=
  1 ≤ Text.byteCount value && Text.byteCount value ≤ 128 &&
    value.toList.all fun c => Text.isAsciiAlphanumeric c || c = '.' || c = '_' || c = ':' || c = '-'

/-- The code of an idempotent pairing: the stored seed and the immutable fields determine it. -/
def derivePairingCode (seed operationKey : String) (pairingId intendedNodeId : Uuid) (createdAt : Int) : String :=
  Sha256.hex (textBytes "cyc-pairing-code-v1" ++ 0 :: textBytes seed ++ 0 :: textBytes operationKey ++
    0 :: Sha256.bigEndian 16 pairingId.value.toNat ++ Sha256.bigEndian 16 intendedNodeId.value.toNat ++
    Sha256.bigEndian 8 (createdAt % 18446744073709551616).toNat)

/-- A repeated request under a stored key: answered again while the pairing is pending. -/
def replayPairing (env : Env) (db : Db) (operation : PairingOperationRow) (p : PairingRow)
    (requestedNodeId : Option Uuid) : StoreResult IdempotentPairing := do
  ensure (operation.requestedNodeId = requestedNodeId) .pairingIdempotencyMismatch
  let createdAt ← timestamp p.createdAt
  let expiresAt ← timestamp p.expiresAt
  let (phase, _) ← pairingPhase db p expiresAt env.now
  ensure (phase = .pending) (.pairingIdempotencyFinalized phase)
  let code := derivePairingCode db.pairingSeed operation.operationKey p.id p.intendedNodeId createdAt.timestamp
  return { pairing := { id := p.id, intendedNodeId := p.intendedNodeId, code, createdAt, expiresAt },
           workerUrl := operation.workerUrl, certificatePem := operation.certificatePem, replayed := true }

/-- The first request under a key. -/
def issuePairing (env : Env) (db : Db) (operationKey : String) (requestedNodeId : Option Uuid)
    (workerUrl certificatePem : String) : StoreResult (Db × IdempotentPairing) := do
  let createdAt ← timestamp env.now.timestamp
  let expiresAt := createdAt.addSeconds pairingTtlSeconds
  let id := env.newV4 .pairing
  let intendedNodeId := requestedNodeId.getD (env.newV4 .pairingNode)
  let code := derivePairingCode db.pairingSeed operationKey id intendedNodeId createdAt.timestamp
  let pairings ← inserted db.pairings
    (newPairing id (secretHash code) createdAt.timestamp expiresAt.timestamp intendedNodeId)
  let operations ← inserted db.pairingOperations
    { operationKey, pairingId := id, requestedNodeId, workerUrl, certificatePem }
  return ({ db with pairings, pairingOperations := operations },
    { pairing := { id, intendedNodeId, code, createdAt, expiresAt }, workerUrl, certificatePem, replayed := false })

def createPairingIdempotent (env : Env) (db : Db) (operationKey : String) (requestedNodeId : Option Uuid)
    (workerUrl certificatePem : String) : StoreResult (Db × IdempotentPairing) := do
  ensure (validPairingOperationKey operationKey) .invalidPairingOperationKey
  ensure (workerUrl ≠ "" && Text.byteCount workerUrl ≤ 2048 && !Text.hasControl workerUrl && certificatePem ≠ "" &&
    Text.byteCount certificatePem ≤ 128 * 1024) .invalidUpload
  match db.pairingOperations.find fun o => o.operationKey = operationKey with
  | none => issuePairing env db operationKey requestedNodeId workerUrl certificatePem
  | some operation => match db.pairings.find fun p => p.id = operation.pairingId with
    -- the foreign key of an operation names a stored pairing
    | none => issuePairing env db operationKey requestedNodeId workerUrl certificatePem
    | some p => do
      let pairing ← replayPairing env db operation p requestedNodeId
      return (db, pairing)

/-! ### Failure and revocation -/

/-- A pairing that nothing has happened to. -/
def PairingRow.untouched (p : PairingRow) : Bool :=
  p.usedAt.isNone && p.acknowledgedAt.isNone && p.revokedAt.isNone && p.failedAt.isNone && p.failureCode.isNone &&
    p.nodeId.isNone

def failPairing (env : Env) (db : Db) (pairingId : Uuid) (failureCode : PairingFailureCode) : StoreResult Db := do
  let now := env.now.timestamp
  let p ← required (db.pairings.find fun p => p.id = pairingId) .notFound
  let expiresAt ← (timestamp p.expiresAt).mapError fun _ => .invalidPairingFailureState
  let (phase, failure) ← pairingPhase db p expiresAt (env.reading .classified)
  match phase with
  | .pending => do
    let fails : PairingRow → Bool := fun p => p.id = pairingId && p.untouched && now < p.expiresAt &&
      (db.credentialsOf p.id).isEmpty
    ensure (db.pairings.rows.countP fails = 1) .invalidPairingFailureState
    return { db with
      pairings := db.pairings.modify fails (fun p => { p with failedAt := some now, failureCode := some failureCode })
        (fun _ _ => rfl) }
  | .failed => do
    ensure (failure.map Prod.snd = some failureCode) .pairingFailureMismatch
    return db
  | phase => .error (.pairingFailureFinalized phase)

def revokePairing (env : Env) (db : Db) (pairingId : Uuid) : StoreResult Db := do
  let now := env.now.timestamp
  ensure (db.pairings.any fun p => p.id = pairingId) .notFound
  let credentials ← required (db.workerCredentials.update (fun c => c.pairingId = pairingId)
    (fun c => { c with revokedAt := c.revokedAt.or (some now) })) .database
  return { db with
    pairings := db.pairings.modify (fun p => p.id = pairingId)
      (fun p => { p with revokedAt := p.revokedAt.or (some now) }) (fun _ _ => rfl)
    workerCredentials := credentials }

/-! ### Consumption -/

structure PairedWorker where
  pairingId : Uuid
  nodeId : Uuid
  credentialSha256 : String
  consumedAt : DateTime
  replayed : Bool

/-- The worker repeats the request that consumed the pairing. -/
def replayConsumption (db : Db) (p : PairingRow) (consumedAt : Int) (credentialSha256 : String) :
    StoreResult PairedWorker := do
  let nodeId ← required p.nodeId .pairingBindingMismatch
  ensure (p.acknowledgedAt.isNone && nodeId = p.intendedNodeId && (db.credentialsOf p.id).length = 1 &&
    db.nodeExists nodeId) .pairingUnavailable
  ensure (db.workerCredentials.any fun c => c.pairingId = p.id && c.nodeId = p.intendedNodeId &&
    c.credentialHash = credentialSha256 && c.activatedAt.isNone && c.revokedAt.isNone) .pairingBindingMismatch
  let consumedAt ← timestamp consumedAt
  return { pairingId := p.id, nodeId := p.intendedNodeId, credentialSha256, consumedAt, replayed := true }

/-- The first use of a pairing: the node's documents and a staged credential. -/
def consumeFresh (env : Env) (db : Db) (p : PairingRow) (credentialSha256 : String) (node : Node) :
    StoreResult (Db × PairedWorker) := do
  let now := env.now.timestamp
  ensure (p.acknowledgedAt.isNone && p.nodeId.isNone && (db.credentialsOf p.id).isEmpty) .pairingUnavailable
  ensure (!db.workerCredentials.any fun c => c.credentialHash = credentialSha256) .pairingBindingMismatch
  let consumes : PairingRow → Bool := fun r => r.id = p.id && r.intendedNodeId = p.intendedNodeId &&
    r.codeHash = p.codeHash && r.untouched && now < r.expiresAt && (db.credentialsOf r.id).isEmpty
  ensure (db.pairings.rows.countP consumes = 1) .pairingUnavailable
  let pairings := db.pairings.modify consumes
    (fun r => { r with usedAt := some now, nodeId := some p.intendedNodeId }) (fun _ _ => rfl)
  let db ← upsertNodeTx env { db with pairings } { node with id := p.intendedNodeId } .pairingProbe
  let credentials ← inserted db.workerCredentials
    { id := env.newV4 .credential, pairingId := p.id, nodeId := p.intendedNodeId, credentialHash := credentialSha256,
      createdAt := now, activatedAt := none, lastUsedAt := none, revokedAt := none }
  let consumedAt ← timestamp now
  return ({ db with workerCredentials := credentials },
    { pairingId := p.id, nodeId := p.intendedNodeId, credentialSha256, consumedAt, replayed := false })

def consumePairing (env : Env) (db : Db) (code : String) (pairingId intendedNodeId : Uuid) (credentialSha256 : String)
    (node : Node) : StoreResult (Db × PairedWorker) := do
  ensure (isManaged node.transport) .invalidManagedNode
  ensure (validSha256 credentialSha256) .invalidCredentialDigest
  let now := env.now.timestamp
  let p ← required (db.pairings.find fun p => p.codeHash = secretHash code && p.revokedAt.isNone && now < p.expiresAt &&
    p.failedAt.isNone && p.failureCode.isNone) .pairingUnavailable
  ensure (pairingId = p.id && intendedNodeId = p.intendedNodeId && node.id = p.intendedNodeId) .pairingBindingMismatch
  match p.usedAt with
  | some consumedAt => do
    let paired ← replayConsumption db p consumedAt credentialSha256
    return (db, paired)
  | none => consumeFresh env db p credentialSha256 node

/-! ### Acknowledgement -/

structure PairingAcknowledgement where
  pairingId : Uuid
  nodeId : Uuid
  credentialSha256 : String
  acknowledgedAt : DateTime

/-- The pairing's columns bind the node and nothing has ended it. -/
def PairingRow.bound (p : PairingRow) (nodeId : Uuid) : Bool :=
  p.usedAt.isSome && p.revokedAt.isNone && p.failedAt.isNone && p.failureCode.isNone &&
    p.nodeId = some nodeId && p.intendedNodeId = nodeId

/-- The credential is the only one of its pairing. -/
def Db.soleCredential (db : Db) (c : WorkerCredentialRow) : Bool :=
  (db.credentialsOf c.pairingId).all fun other => other.id = c.id

/-- The pairing that the credential of an acknowledgement belongs to. -/
def acknowledgeable (db : Db) (pairingId nodeId : Uuid) (credentialSha256 : String) : Option PairingRow := do
  let c ← db.workerCredentials.find fun c => c.credentialHash = credentialSha256 && c.pairingId = pairingId &&
    c.nodeId = nodeId && c.revokedAt.isNone && db.soleCredential c && db.nodeExists c.nodeId
  db.pairings.find fun p => p.id = c.pairingId && p.bound nodeId && p.acknowledgedAt.isSome == c.activatedAt.isSome

/-- Activates the staged credential and retires the node's other credentials and pairings. -/
def activatePairing (db : Db) (now : Int) (pairingId nodeId : Uuid) (credentialSha256 : String) : StoreResult Db := do
  let staged : WorkerCredentialRow → Bool := fun c => c.pairingId = pairingId && c.nodeId = nodeId &&
    c.credentialHash = credentialSha256 && c.activatedAt.isNone && c.revokedAt.isNone && db.soleCredential c
  let pending : PairingRow → Bool := fun p => p.id = pairingId && p.bound nodeId && p.acknowledgedAt.isNone
  let current := db.workerCredentials.any staged && db.pairings.any pending && db.nodeExists nodeId
  let credentials ← required (db.workerCredentials.update
    (fun c => c.nodeId = nodeId && c.pairingId ≠ pairingId && c.revokedAt.isNone && current)
    (fun c => { c with revokedAt := some now })) .database
  let activates : WorkerCredentialRow → Bool := fun c => staged c && current
  ensure (credentials.rows.countP activates = 1) .pairingAcknowledgementUnavailable
  let credentials ← required (credentials.update activates
    (fun c => { c with activatedAt := some now, lastUsedAt := some now })) .database
  let db := { db with workerCredentials := credentials }
  let acknowledges : PairingRow → Bool := fun p => pending p && db.nodeExists nodeId &&
    (db.workerCredentials.any fun c => c.pairingId = p.id && c.nodeId = nodeId && c.credentialHash = credentialSha256 &&
      c.active) && (db.credentialsOf p.id).length = 1
  ensure (db.pairings.rows.countP acknowledges = 1) .pairingAcknowledgementUnavailable
  let pairings := db.pairings.modify acknowledges (fun p => { p with acknowledgedAt := some now }) (fun _ _ => rfl)
  return { db with
    pairings := pairings.modify (fun p => p.intendedNodeId = nodeId && p.id ≠ pairingId && p.revokedAt.isNone)
      (fun p => { p with revokedAt := some now }) (fun _ _ => rfl) }

def acknowledgePairing (env : Env) (db : Db) (credential : String) (pairingId nodeId : Uuid) (credentialSha256 : String) :
    StoreResult (Db × PairingAcknowledgement) := do
  ensure (validSha256 credentialSha256 && secretHash credential = credentialSha256) .pairingAcknowledgementUnavailable
  let now := env.now.timestamp
  let p ← required (acknowledgeable db pairingId nodeId credentialSha256) .pairingAcknowledgementUnavailable
  match p.acknowledgedAt with
  | some acknowledgedAt => do
    let acknowledgedAt ← timestamp acknowledgedAt
    return (db, { pairingId, nodeId, credentialSha256, acknowledgedAt })
  | none => do
    let db ← activatePairing db now pairingId nodeId credentialSha256
    let acknowledgedAt ← timestamp now
    return (db, { pairingId, nodeId, credentialSha256, acknowledgedAt })

end CYC
