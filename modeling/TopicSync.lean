import TopicSync.Api.Script
import TopicSync.Broker.Admin
import TopicSync.Main
import TopicSync.Memory.FaultyTree
import TopicSync.Memory.FixedBroker
import TopicSync.Memory.Schedule
import TopicSync.Store.ConfigMap
import TopicSync.Watch.Polling
import TopicSync.Watch.Stream
import TopicSync.Proofs.TextMap
import TopicSync.Proofs.Topic.Name
import TopicSync.Proofs.Selector
import TopicSync.Proofs.Topic.Fields
import TopicSync.Proofs.Plan.Merge
import TopicSync.Proofs.Plan.Sides
import TopicSync.Proofs.Plan.Convergence
import TopicSync.Proofs.Memory.World
import TopicSync.Proofs.Operator.Deletion
import TopicSync.Proofs.Operator.Admission
import TopicSync.Proofs.Operator.FollowUp
import TopicSync.Proofs.Operator.Calls
import TopicSync.Proofs.Resource.Validation
import TopicSync.Proofs.Resource.Mapping
import TopicSync.Proofs.Resource.Description
import TopicSync.Proofs.Memory.View
import TopicSync.Proofs.Operator.Uniqueness
import TopicSync.Proofs.Api.Gateway
import TopicSync.Proofs.Operator.Replacement
import TopicSync.Proofs.Broker.Presence
import TopicSync.Proofs.Broker.Agreement
import TopicSync.Proofs.Watch.Feedback
import TopicSync.Proofs.Watch.Polls
import TopicSync.Proofs.Watch.Relist
import TopicSync.Proofs.Operator.Attempt
import TopicSync.Proofs.Store.Paths
import TopicSync.Proofs.Store.Tree
import TopicSync.Proofs.Store.Parents
import TopicSync.Proofs.Operator.Inventory
import TopicSync.Proofs.Memory.Inventory
import TopicSync.Proofs.Operator.RecordLast
import TopicSync.Proofs.Json.Fields
import TopicSync.Proofs.Json.RoundTrip
import TopicSync.Proofs.Topic.Record
import TopicSync.Proofs.Store.Root
import TopicSync.Proofs.Store.Bindings
import TopicSync.Proofs.Text.Form
import TopicSync.Proofs.Text.Strip
import TopicSync.Proofs.Api.Target
import TopicSync.Proofs.Store.MapNames
import TopicSync.Proofs.Store.MapDocument
import TopicSync.Proofs.Store.MapServer
import TopicSync.Proofs.Store.MapRecords
import TopicSync.Proofs.Store.MapRequests
import TopicSync.Proofs.Store.Interchange
import TopicSync.Proofs.Plan.Acceptance
import TopicSync.Proofs.Plan.Growth
import TopicSync.Proofs.Pool
import TopicSync.Proofs.Broker.Requests
import TopicSync.Proofs.Memory.Counts
import TopicSync.Proofs.Operator.Growth
import TopicSync.Proofs.Operator.Footprint
import TopicSync.Proofs.Operator.Unmanaged
import TopicSync.Proofs.Independence
import TopicSync.Proofs.Memory.Parts
import TopicSync.Proofs.Memory.Undisturbed
import TopicSync.Proofs.Operator.Independence
import TopicSync.Proofs.Topic.ResourceName
import TopicSync.Proofs.Balance
import TopicSync.Proofs.Operator.Charges
import TopicSync.Proofs.Operator.RecordName
import TopicSync.Proofs.Operator.Accounts
import TopicSync.Proofs.Memory.Books
import TopicSync.Proofs.Store.MapLegality
import TopicSync.Proofs.Store.MapSharing
import TopicSync.Proofs.Topic.DiffLaws
import TopicSync.Proofs.Plan.Scope
import TopicSync.Proofs.Memory.Indifference
import TopicSync.Proofs.Operator.Reporting
import TopicSync.Proofs.Operator.Sweep
import TopicSync.Proofs.Clients
import TopicSync.Proofs.Store.Versions
import TopicSync.Proofs.Visibility
import TopicSync.Proofs.Store.Prefix
