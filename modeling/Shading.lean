import Shading.Compile
import Shading.Session
import Shading.Source.Memory
import Shading.Proofs.Session.Deadlock
import Shading.Proofs.Session.Requests
import Shading.Proofs.Session.FoundAgain
import Shading.Proofs.Session.Schedule
import Shading.Proofs.Session.Faithful
import Shading.Proofs.Session.History
import Shading.Proofs.Kernel.ConstantOrder
import Shading.Proofs.Kernel.Grouping
import Shading.Proofs.Grammar.Derivation
import Shading.Proofs.Session.Skipped
import Shading.Proofs.Session.Failure
import Shading.Proofs.Session.Traversal
import Shading.Proofs.Token.Placement
import Shading.Proofs.Grammar.Joined
import Shading.Proofs.Source.Streaming
import Shading.Proofs.Include.NormalForm
import Shading.Proofs.Source.Containment
import Shading.Proofs.Kernel.Negations
import Shading.Proofs.Session.Cancellation
import Shading.Proofs.Session.EntryPoints
import Shading.Proofs.Kernel.Numerals
import Shading.Proofs.Kernel.Failing
import Shading.Proofs.Kernel.Thinned
import Shading.Proofs.Session.LineFeeds
import Shading.Proofs.Grammar.Declared
import Shading.Proofs.Grammar.Depth
import Shading.Proofs.Grammar.Shape
import Shading.Proofs.Include.Spellings
import Shading.Proofs.Grammar.Faults
import Shading.Proofs.Token.Faults
import Shading.Proofs.Grammar.Progress
