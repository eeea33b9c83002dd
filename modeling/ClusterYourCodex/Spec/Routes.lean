import ClusterYourCodex.Spec.System

/-! The routes of an enrollment: what the controller checks of the head of a request before it reads the body. -/

namespace CYC

open Checked Relational

/-- Checks the code of an enrollment: a worker may consume its pairing, or repeat the consumption. -/
def preauthorizePairing (env : Env) (db : Db) (code : String) : StoreResult Unit :=
  ensure (db.pairings.any fun p => p.codeHash = secretHash code && p.revokedAt.isNone && env.now.timestamp < p.expiresAt &&
    p.failedAt.isNone && p.failureCode.isNone &&
    ((p.usedAt.isNone && p.acknowledgedAt.isNone && p.nodeId.isNone && (db.credentialsOf p.id).isEmpty) ||
      (p.usedAt.isSome && p.acknowledgedAt.isNone && p.nodeId = some p.intendedNodeId && p.nodeId.any db.nodeExists &&
        (db.workerCredentials.any fun c => c.pairingId = p.id && some c.nodeId = p.nodeId && c.activatedAt.isNone &&
          c.revokedAt.isNone) && (db.credentialsOf p.id).length = 1))) .pairingUnavailable

/-- Checks the credential of an acknowledgement, which may still be pending. -/
def preauthorizePairingAck (db : Db) (credential : String) : StoreResult Unit :=
  ensure (db.workerCredentials.any fun c => c.credentialHash = secretHash credential && c.revokedAt.isNone &&
    db.nodeExists c.nodeId && db.soleCredential c &&
    (db.pairings.any fun p => p.id = c.pairingId && p.bound c.nodeId &&
      ((p.acknowledgedAt.isNone && c.activatedAt.isNone) || (p.acknowledgedAt.isSome && c.activatedAt.isSome))))
    .pairingAcknowledgementUnavailable

end CYC
