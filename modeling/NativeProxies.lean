import NativeProxies.SharedLibraries
import NativeProxies.Main
import NativeProxies.Script.Session
import NativeProxies.Proofs.Identity
import NativeProxies.Proofs.Conservation
import NativeProxies.Proofs.Borrowing
import NativeProxies.Proofs.Sharing
import NativeProxies.Proofs.Releases
import NativeProxies.Proofs.Persistence
import NativeProxies.Proofs.Classification
import NativeProxies.Proofs.Reclamation
import NativeProxies.Proofs.Twin.Outside
import NativeProxies.Proofs.Twin.Bridge
import NativeProxies.Proofs.Twin.Script
import NativeProxies.Proofs.Twin.World
import NativeProxies.Proofs.Strictness
import NativeProxies.Proofs.LateNotices
import NativeProxies.Proofs.Inertia
import NativeProxies.Proofs.Metrics
import NativeProxies.Proofs.Interchange
import NativeProxies.Proofs.Scenario.Rounds
import NativeProxies.Proofs.Scenario.Division
import NativeProxies.Proofs.Alternation
import NativeProxies.Proofs.Linearity
import NativeProxies.Proofs.Diary
import NativeProxies.Proofs.Pacing
import NativeProxies.Proofs.Twin.Hearing
import NativeProxies.Proofs.Promptness
import NativeProxies.Proofs.Ancestry
import NativeProxies.Proofs.Draining
import NativeProxies.Proofs.Conversion
import NativeProxies.Proofs.Names
import NativeProxies.Proofs.Conformance
import NativeProxies.Proofs.Cycles
import NativeProxies.Proofs.Threshold
import NativeProxies.Proofs.Loading
import NativeProxies.Proofs.Listings
