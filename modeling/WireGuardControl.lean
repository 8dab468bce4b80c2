import WireGuardControl.Chain.Rehearsal
import WireGuardControl.Config.Description
import WireGuardControl.Config.Effect
import WireGuardControl.Main
import WireGuardControl.Netlink.Exchange
import WireGuardControl.Netlink.Rehearsal
import WireGuardControl.OpenBsd.Filling
import WireGuardControl.OpenBsd.Rehearsal
import WireGuardControl.OpenBsd.Scan
import WireGuardControl.Uapi.Rehearsal
import WireGuardControl.Proofs.Failing
import WireGuardControl.Proofs.Listing
import WireGuardControl.Proofs.Octets
import WireGuardControl.Proofs.Tables
import WireGuardControl.Config.Precision
import WireGuardControl.Proofs.Batch.Parts
import WireGuardControl.Proofs.Batch.Effect
import WireGuardControl.Proofs.Batch.Settings
import WireGuardControl.Proofs.Netlink.Readback
import WireGuardControl.Proofs.Netlink.Faithful
import WireGuardControl.Proofs.Netlink.Malformed
import WireGuardControl.Proofs.Netlink.Room
import WireGuardControl.Proofs.Netlink.Limits
import WireGuardControl.Proofs.Netlink.Forest
import WireGuardControl.Proofs.Netlink.Reassembly
import WireGuardControl.Proofs.Chain.Asking
import WireGuardControl.Proofs.Chain.Calls
import WireGuardControl.Proofs.Netlink.Delivery
import WireGuardControl.Proofs.Netlink.Collecting
import WireGuardControl.Proofs.Net.Address
import WireGuardControl.Proofs.Text.Hex
import WireGuardControl.Proofs.Net.Network
import WireGuardControl.Proofs.Text.Lines
import WireGuardControl.Proofs.Net.Endpoint
import WireGuardControl.Proofs.Uapi.Pairs
import WireGuardControl.Proofs.Uapi.Readback
import WireGuardControl.Proofs.Uapi.Malformed
import WireGuardControl.Proofs.Uapi.Faithful
import WireGuardControl.Proofs.Faithful
import WireGuardControl.Proofs.OpenBsd.Fields
import WireGuardControl.Proofs.OpenBsd.Filling
import WireGuardControl.Proofs.OpenBsd.Readback
import WireGuardControl.Proofs.OpenBsd.Malformed
import WireGuardControl.Proofs.OpenBsd.Faithful
import WireGuardControl.Proofs.Chain.Malformed
import WireGuardControl.Proofs.Chain.Nesting
import WireGuardControl.Proofs.Netlink.Transcript
import WireGuardControl.Proofs.OpenBsd.Snapshot
import WireGuardControl.Proofs.Time
import WireGuardControl.Proofs.Uapi.Blocks
import WireGuardControl.Proofs.Uapi.Grammar
import WireGuardControl.Proofs.Uapi.Handshake
import WireGuardControl.Proofs.OpenBsd.Handshake
import WireGuardControl.Proofs.Handshake
import WireGuardControl.Proofs.Show.Hidden
import WireGuardControl.Proofs.Uapi.Framing
import WireGuardControl.Proofs.Uapi.Lookup
import WireGuardControl.Proofs.Naming
import WireGuardControl.Proofs.Identity
import WireGuardControl.Bytes.Access
import WireGuardControl.Netlink.Cursor
import WireGuardControl.Proofs.Batch.Shape
import WireGuardControl.Proofs.Netlink.Grammar
import WireGuardControl.Proofs.Netlink.Framing
import WireGuardControl.Proofs.Netlink.Writing
import WireGuardControl.Proofs.OpenBsd.Placement
import WireGuardControl.Proofs.OpenBsd.Live
import WireGuardControl.Proofs.OpenBsd.Bounds
import WireGuardControl.Proofs.Netlink.Links
import WireGuardControl.Proofs.Netlink.Enumeration
import WireGuardControl.Proofs.OpenBsd.Enumeration
import WireGuardControl.Proofs.Text.Base64
import WireGuardControl.Proofs.Key
import WireGuardControl.Proofs.Net.Local
import WireGuardControl.Proofs.Uapi.Endpoint
import WireGuardControl.Proofs.Uapi.Status
import WireGuardControl.Proofs.Keepalive
import WireGuardControl.Proofs.Show.Duration
import WireGuardControl.Proofs.Uapi.Discovery
import WireGuardControl.Proofs.Json.Scan
import WireGuardControl.Proofs.Json.Numeral
import WireGuardControl.Proofs.Json.Codec
import WireGuardControl.Proofs.Json.Record
import WireGuardControl.Proofs.Json.Model
