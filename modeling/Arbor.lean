import Arbor.Context
import Arbor.Proofs.HostSession
import Arbor.Proofs.Lens
import Arbor.Proofs.Matching
import Arbor.Proofs.References
import Arbor.Proofs.Shape
import Arbor.Proofs.Soundness
import Arbor.Session
import Arbor.Proofs.Lockstep
import Arbor.Proofs.HostCall
import Arbor.Proofs.Functionless
import Arbor.Proofs.Echo
import Arbor.Proofs.Halting
import Arbor.Proofs.CallLimit
import Arbor.Proofs.Cascade
import Arbor.Proofs.Effects
import Arbor.Proofs.Unnamed
import Arbor.Proofs.Following
import Arbor.Proofs.Unrefused
import Arbor.Proofs.StaticLength
import Arbor.Proofs.Completeness
import Arbor.Proofs.Conflict
import Arbor.Proofs.Growth
import Arbor.Proofs.Unmasked
import Arbor.Proofs.Parallel
import Arbor.Proofs.Reannotation
import Arbor.Proofs.Unknown
import Arbor.Proofs.Zero
import Arbor.Proofs.Omitted
import Arbor.Proofs.Sequence
import Arbor.Proofs.Binding
import Arbor.Proofs.Filling
import Arbor.Proofs.Addressable
import Arbor.Proofs.Location
import Arbor.Proofs.Repeatable
import Arbor.Proofs.Calculation
import Arbor.Proofs.Contrast
import Arbor.Proofs.Allocation
import Arbor.Proofs.Replay
