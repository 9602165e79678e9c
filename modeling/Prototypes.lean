import Prototypes.Decimal.Reading
import Prototypes.Main
import Prototypes.Proofs.Binding.Creation
import Prototypes.Proofs.Cloning.Independence
import Prototypes.Proofs.Cloning.Instances
import Prototypes.Proofs.Delegation.Assigning
import Prototypes.Proofs.Delegation.LateBinding
import Prototypes.Proofs.Delegation.Responding
import Prototypes.Proofs.Delegation.Selecting
import Prototypes.Proofs.Families.Unmirrored
import Prototypes.Proofs.Heap.Foreign
import Prototypes.Proofs.Mirrors.Interception
import Prototypes.Proofs.Permanence.Handles
import Prototypes.Proofs.Quotation.Substitution
import Prototypes.Proofs.Quotation.Unquotations
import Prototypes.Proofs.Safety.Evaluation
import Prototypes.Proofs.Scopes.CallFrames
import Prototypes.Proofs.Scopes.Parameters
import Prototypes.Proofs.Slots.AllOrNothing
import Prototypes.Proofs.Slots.Declarations
import Prototypes.Proofs.Slots.Indexing
import Prototypes.Proofs.Slots.Readers
import Prototypes.Proofs.Slots.Reflection
import Prototypes.Proofs.Symbol.Codec
import Prototypes.Proofs.Symbol.Interning
import Prototypes.Proofs.Tags.Clones
