import Provenance.Chain.Edit
import Provenance.Registry.Request
import Provenance.Json.Reader
import Provenance.Sample.Fixture
import Provenance.Sample.Vector
import Provenance.Proofs.Chain.Tampering
import Provenance.Proofs.Chain.Replay
import Provenance.Proofs.Store.Clients
import Provenance.Proofs.Registry.Holders
import Provenance.Proofs.Chain.Offers
import Provenance.Proofs.Registry.Decision
import Provenance.Proofs.Registry.Sequence
import Provenance.Proofs.Text.Decimal
import Provenance.Proofs.Text.Ambiguity
import Provenance.Proofs.Registry.FreshKeys
import Provenance.Proofs.Chain.Growth
import Provenance.Proofs.Store.Run
import Provenance.Proofs.Registry.Isolation
import Provenance.Proofs.Registry.SameLookups
import Provenance.Proofs.Registry.Interchange
import Provenance.Proofs.Store.Loading
import Provenance.Proofs.Ledger.Lookups
import Provenance.Proofs.Store.IssueLog
import Provenance.Proofs.Registry.Trail
import Provenance.Proofs.Chain.Verdict
import Provenance.Proofs.Chain.Rollback
import Provenance.Proofs.Chain.Relocation
import Provenance.Proofs.Chain.FreeCells
import Provenance.Proofs.Chain.RoundTrip
import Provenance.Proofs.Store.Acceptance
import Provenance.Proofs.Registry.Reports
import Provenance.Proofs.Text.Canonical
import Provenance.Proofs.Registry.Directory
import Provenance.Proofs.Sample.Passphrases
import Provenance.Proofs.Sample.Persisted
import Provenance.Proofs.Json.Canonical
