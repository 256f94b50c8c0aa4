import WireMesh.Config
import WireMesh.Session
import WireMesh.Proofs.Field.Acceptance
import WireMesh.Proofs.Field.OneLine
import WireMesh.Proofs.Config.Rows
import WireMesh.Proofs.Network.Links
import WireMesh.Proofs.Config.Injection
import WireMesh.Proofs.ChangeSet.Run
import WireMesh.Proofs.Network.Allocation
import WireMesh.Proofs.Reading
import WireMesh.Proofs.Commit.Merge
import WireMesh.Proofs.Commit.Patch
import WireMesh.Proofs.Field.Reported
import WireMesh.Proofs.Field.AddressUse
import WireMesh.Proofs.Field.HookGroup
import WireMesh.Proofs.Commit.Validity
import WireMesh.Proofs.Commit.HookOrder
import WireMesh.Proofs.ChangeSet.Reports
import WireMesh.Proofs.ConnectionId.Canonical
import WireMesh.Proofs.Commit.Refusal
import WireMesh.Proofs.Network.Soundness
import WireMesh.Proofs.ConnectionId.Ends
import WireMesh.Proofs.Network.LinkKeys
import WireMesh.Proofs.Network.RoundTrip
import WireMesh.Proofs.Config.LinkEnds
import WireMesh.Proofs.Config.Reordered
import WireMesh.Proofs.Value.Same
import WireMesh.Proofs.Network.NextAddress
import WireMesh.Proofs.Commit.Outstanding
import WireMesh.Proofs.ChangeSet.Resubmission
import WireMesh.Proofs.Commit.Repetition
import WireMesh.Proofs.Ascending
import WireMesh.Proofs.Field.PlainForm
import WireMesh.Proofs.Network.SubnetReaders
import WireMesh.Proofs.Field.Failure
import WireMesh.Proofs.Config.Disclosure
import WireMesh.Proofs.Network.MissingPeers
import WireMesh.Proofs.Config.SwitchedOff
import WireMesh.Proofs.Commit.FieldByField
import WireMesh.Proofs.Commit.Composition
import WireMesh.Proofs.Commit.Commutation
import WireMesh.Proofs.Address.DottedQuad
import WireMesh.Proofs.Network.UsableAddress
import WireMesh.Proofs.Text.Joined
import WireMesh.Proofs.Field.HostPort
import WireMesh.Proofs.Field.CommaList
import WireMesh.Proofs.Field.Stable
import WireMesh.Proofs.Config.FileStem
import WireMesh.Proofs.Config.Stripped
import WireMesh.Proofs.Field.HookByHook
import WireMesh.Proofs.Config.NumberSetting
import WireMesh.Proofs.Value.Rearranged
import WireMesh.Proofs.Field.Tagging
