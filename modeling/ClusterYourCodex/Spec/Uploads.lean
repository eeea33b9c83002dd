import ClusterYourCodex.Spec.Completion

/-! What the store gives back of the uploads of a run: the bytes of a log stream and those of an
artifact, each checked against the row that names them. -/

namespace CYC

open Checked Relational

/-- One turn of the loop of `readLog`: the chunk has to continue the output. -/
def readLogChunk (db : Db) (output : List UInt8) (row : LogChunkRow) : StoreResult (List UInt8) := do
  ensure (asU64 row.chunkOffset = output.length) .uploadOffset
  let bytes ← readGeneratedObject db row.relativePath
  ensure (bytes.length = asU64 row.chunkLength && bytesSha256 bytes = row.sha256) .digestMismatch
  return output ++ bytes

def readLog (db : Db) (id : Uuid) (stream : String) : StoreResult (List UInt8) := do
  ensure (stream = "stdout" || stream = "stderr") .invalidUpload
  let stored ← getJobPreferJobId db id
  (db.streamChunks stored.run.id stream).foldlM (readLogChunk db) []

def readArtifact (db : Db) (id artifactId : Uuid) : StoreResult (StoredArtifact × List UInt8) := do
  let stored ← getJobPreferJobId db id
  let artifact ← required (← getArtifact db artifactId) .notFound
  ensure (artifact.runId = stored.run.id) .notFound
  let row ← required (db.artifacts.find fun a => a.id = artifactId) .database
  let bytes ← readGeneratedObject db row.relativePath
  ensure (bytes.length = artifact.size && bytesSha256 bytes = artifact.sha256) .digestMismatch
  return (artifact, bytes)

end CYC
