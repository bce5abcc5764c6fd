import SingleWire.Bench.Session
import SingleWire.Main
import SingleWire.Proofs.Addressing
import SingleWire.Proofs.ReadingRoms
import SingleWire.Proofs.Search.AnyBus
import SingleWire.Proofs.Search.Enumeration
import SingleWire.Proofs.Search.FamilySkips
import SingleWire.Proofs.Search.Interleaving
import SingleWire.Proofs.Search.Targets
import SingleWire.Proofs.Search.Verification
import SingleWire.Proofs.Faults
import SingleWire.Proofs.Search.Retrying
import SingleWire.Proofs.Search.SkipsAfterFaults
import SingleWire.Proofs.Search.Arrivals
import SingleWire.Proofs.Scanning
import SingleWire.Proofs.Remainders
import SingleWire.Proofs.Line.AnyTiming
import SingleWire.Proofs.Search.Strangers
import SingleWire.Proofs.Line.Grammar
import SingleWire.Proofs.ErrorDetection
import SingleWire.Proofs.Line.Presence
import SingleWire.Proofs.Search.Composition
import SingleWire.Proofs.Leads
import SingleWire.Proofs.Search.Harmlessness
import SingleWire.Proofs.ParasitePower
import SingleWire.Proofs.FamilyCodes
import SingleWire.Proofs.Line.FixedWidth
import SingleWire.Proofs.Search.Landing
