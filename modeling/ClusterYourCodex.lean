import ClusterYourCodex.Proofs.Decoding
import ClusterYourCodex.Proofs.Assignment
import ClusterYourCodex.Proofs.Reports
import ClusterYourCodex.Proofs.Plans
import ClusterYourCodex.Proofs.Attempts
import ClusterYourCodex.Proofs.Restart
import ClusterYourCodex.Proofs.Pinning
import ClusterYourCodex.Proofs.Rendering
import ClusterYourCodex.Proofs.Switching
import ClusterYourCodex.Proofs.Smoke
import ClusterYourCodex.Proofs.Scores
import ClusterYourCodex.Proofs.Quiescence
import ClusterYourCodex.Proofs.Pumping
import ClusterYourCodex.Proofs.Spinning
import ClusterYourCodex.Proofs.Cancelling
import ClusterYourCodex.Proofs.Uploads
import ClusterYourCodex.Proofs.Issuing
import ClusterYourCodex.Proofs.Retrying
import ClusterYourCodex.Proofs.StateFiles
import ClusterYourCodex.Proofs.Patterns
import ClusterYourCodex.Proofs.Readers
