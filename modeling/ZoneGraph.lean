import ZoneGraph.Main
import ZoneGraph.Draft
import ZoneGraph.Proofs.Zone.Backends
import ZoneGraph.Proofs.Zone.Histories
import ZoneGraph.Proofs.Zone.Consistency
import ZoneGraph.Proofs.Zone.Changes
import ZoneGraph.Proofs.Zone.Holdings
import ZoneGraph.Proofs.Zone.Users
import ZoneGraph.Proofs.Zone.Separation
import ZoneGraph.Proofs.Zone.AtomicRegistration
import ZoneGraph.Proofs.Zone.RecordSets
import ZoneGraph.Proofs.Zone.Managed
import ZoneGraph.Proofs.Zone.RecordHistories
import ZoneGraph.Proofs.Zone.Signing
import ZoneGraph.Proofs.Bundle.Presented
import ZoneGraph.Proofs.DomainName.Reading
import ZoneGraph.Proofs.DomainName.ServerNames
import ZoneGraph.Proofs.Stack.Providers
import ZoneGraph.Proofs.Stack.Document
import ZoneGraph.Proofs.Deployment.References
import ZoneGraph.Proofs.Deployment.Bindings
import ZoneGraph.Proofs.Deployment.Delegations
import ZoneGraph.Proofs.Deployment.GroupOrder
import ZoneGraph.Proofs.Bundle.ProtectedDomain
import ZoneGraph.Proofs.Zone.WebHosting
import ZoneGraph.Proofs.Zone.NameserverLookup
import ZoneGraph.Proofs.Zone.RecordNames
import ZoneGraph.Proofs.Zone.WebNames
import ZoneGraph.Proofs.Zone.CallOrder
import ZoneGraph.Proofs.Zone.MailHosting
import ZoneGraph.Proofs.Resource.Indexed
import ZoneGraph.Proofs.Cli.Reports
import ZoneGraph.Proofs.Resource.Identifiers
