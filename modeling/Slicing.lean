import Slicing.Session
import Slicing.Proofs.CurrentLength
import Slicing.Proofs.Inquiries
import Slicing.Proofs.Rebuilding
import Slicing.Proofs.Tuples
import Slicing.Proofs.Windows
import Slicing.Proofs.Locks.Sessions
import Slicing.Proofs.TwosComplement
import Slicing.Proofs.Narrowing
import Slicing.Proofs.Contents
import Slicing.Proofs.SliceOrder
import Slicing.Proofs.OmittedBounds
import Slicing.Proofs.ExactTriples
import Slicing.Proofs.Locks.Outcomes
import Slicing.Proofs.OneCall
import Slicing.Proofs.IntegerValues
import Slicing.Proofs.Draws
import Slicing.Proofs.Duality
import Slicing.Proofs.DeepCopies
import Slicing.Proofs.DecidingPair
import Slicing.Proofs.HashKeys
