import Kernai.Proofs.Allocator
import Kernai.Proofs.Budgets
import Kernai.Proofs.Idempotence
import Kernai.Proofs.Buffer
import Kernai.Proofs.Deputy
import Kernai.Proofs.Framing
import Kernai.Proofs.Keyframes
import Kernai.Proofs.Keys
import Kernai.Proofs.Line
import Kernai.Proofs.Overflow
import Kernai.Proofs.Refimpl
import Kernai.Proofs.Output
import Kernai.Proofs.Delivery
import Kernai.Proofs.UnsafeBudget
