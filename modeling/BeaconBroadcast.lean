import BeaconBroadcast.Sha256
import BeaconBroadcast.Chain.Sidecar
import BeaconBroadcast.Slot.Clock
import BeaconBroadcast.Validation.Sidecars
import BeaconBroadcast.Publish.Failure
import BeaconBroadcast.Settings
import BeaconBroadcast.Ledger
import BeaconBroadcast.Json.Layout
import BeaconBroadcast.Wire.Settings
import BeaconBroadcast.Wire.Validation
import BeaconBroadcast.Text.Escaped
import BeaconBroadcast.Arrival
import BeaconBroadcast.Publish.Selector
import BeaconBroadcast.Publish.Simulation
import BeaconBroadcast.Proofs.Publish.Course
import BeaconBroadcast.Proofs.Publish.Stages
import BeaconBroadcast.Proofs.Publish.Broadcast
import BeaconBroadcast.Proofs.Publish.ImportGate
import BeaconBroadcast.Proofs.Publish.Reference
import BeaconBroadcast.Proofs.Publish.Telemetry
import BeaconBroadcast.Proofs.Arrival.Listing
import BeaconBroadcast.Proofs.Arrival.Roll
import BeaconBroadcast.Proofs.Arrival.History
import BeaconBroadcast.Proofs.Arrival.WriteOnce
import BeaconBroadcast.Proofs.Arrival.Retention
import BeaconBroadcast.Proofs.Arrival.Pruning
import BeaconBroadcast.Proofs.Arrival.Reordering
import BeaconBroadcast.Proofs.Arrival.Coherence
import BeaconBroadcast.Proofs.Chain.ForkOrder
import BeaconBroadcast.Proofs.Chain.ForkLookup
import BeaconBroadcast.Proofs.Settings.Validity
import BeaconBroadcast.Proofs.Publish.Routing
import BeaconBroadcast.Proofs.Validation.Sidecars
import BeaconBroadcast.Proofs.Publish.BlobContract
import BeaconBroadcast.Proofs.Publish.Settled
import BeaconBroadcast.Proofs.Publish.Honesty
import BeaconBroadcast.Proofs.Publish.Tally
import BeaconBroadcast.Proofs.Publish.Interleaving
import BeaconBroadcast.Proofs.Json.Spelling
import BeaconBroadcast.Proofs.Json.Reading
import BeaconBroadcast.Proofs.Json.Printing
import BeaconBroadcast.Proofs.Json.Records
import BeaconBroadcast.Proofs.Wire.RoundTrip
import BeaconBroadcast.Proofs.Wire.RootIntegrity
import BeaconBroadcast.Proofs.Wire.RootBinding
import BeaconBroadcast.Proofs.Publish.Leaving
import BeaconBroadcast.Proofs.Publish.Results
import BeaconBroadcast.Proofs.Notice.Lines
import BeaconBroadcast.Proofs.Publish.Remarks
import BeaconBroadcast.Proofs.Publish.SidecarCounts
import BeaconBroadcast.Proofs.Publish.Accounting
import BeaconBroadcast.Proofs.Node.Runs
import BeaconBroadcast.Proofs.Node.Conservation
import BeaconBroadcast.Proofs.Slot.Exactness
import BeaconBroadcast.Proofs.Slot.Monotonicity
import BeaconBroadcast.Proofs.Slot.Judgements
import BeaconBroadcast.Proofs.Publish.Rewording
import BeaconBroadcast.Proofs.Publish.Levels
import BeaconBroadcast.Proofs.Publish.Bloblessness
import BeaconBroadcast.Proofs.Json.Members
import BeaconBroadcast.Proofs.Json.Respelling
import BeaconBroadcast.Proofs.Wire.ByName
import BeaconBroadcast.Proofs.Wire.Respelling
import BeaconBroadcast.Proofs.Settings.Overlay
import BeaconBroadcast.Proofs.Publish.Splicing
import BeaconBroadcast.Proofs.Publish.Following
import BeaconBroadcast.Proofs.Publish.Simulation
