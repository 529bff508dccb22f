import GuestHost.Main
import GuestHost.Proofs.Action
import GuestHost.Proofs.Suspension.Faithful
import GuestHost.Proofs.Suspension.Transparency
import GuestHost.Proofs.Suspension.Lockstep
import GuestHost.Proofs.Suspension.Unruly
import GuestHost.Proofs.Suspension.Custody
import GuestHost.Proofs.Suspension.Scratch
import GuestHost.Proofs.Memory
import GuestHost.Proofs.Memory.Scatter
import GuestHost.Proofs.Memory.Store
import GuestHost.Proofs.Stream
import GuestHost.Proofs.Stream.Input
import GuestHost.Proofs.Text.Utf8
import GuestHost.Proofs.Stream.Text
import GuestHost.Proofs.Stream.File
import GuestHost.Proofs.Stream.Seek
import GuestHost.Proofs.Table
import GuestHost.Proofs.Table.Counted
import GuestHost.Proofs.Table.History
import GuestHost.Proofs.Table.Standards
import GuestHost.Proofs.Wasi.Transfer
import GuestHost.Proofs.Wasi.EmptyBuffers
import GuestHost.Proofs.Wasi.Output
import GuestHost.Proofs.Wasi.Failure
import GuestHost.Proofs.Wasi.Delivery
import GuestHost.Proofs.Wasi.Guest
import GuestHost.Proofs.Wasi.Confinement
import GuestHost.Proofs.Wasi.Secrecy
import GuestHost.Proofs.Wasi.Reported
import GuestHost.Proofs.Wasi.Strings
import GuestHost.Proofs.Wasi.Footprint
import GuestHost.Proofs.Checked
import GuestHost.Proofs.Checked.Transfer
import GuestHost.Proofs.Checked.Scatter
import GuestHost.Proofs.Checked.Stream
import GuestHost.Proofs.Checked.Strings
import GuestHost.Proofs.Checked.Call
import GuestHost.Proofs.Checked.Store
import GuestHost.Proofs.Linking
import GuestHost.Proofs.ImportSet
import GuestHost.Proofs.Wasm.Invariant
import GuestHost.Proofs.Wasm.Exit
import GuestHost.Proofs.Wasm.Engine
import GuestHost.Proofs.Host.Setup
import GuestHost.Proofs.Host.Interception
import GuestHost.Proofs.Host.Detection
import GuestHost.Proofs.Host.Exit
import GuestHost.Proofs.Host.Watch
import GuestHost.Proofs.Host.Shadow
import GuestHost.Proofs.Host.Watched
import GuestHost.Proofs.Host.StartUp
import GuestHost.Proofs.CommandLine.Output
import GuestHost.Proofs.CommandLine.Log
import GuestHost.Proofs.CommandLine.Strings
import GuestHost.Proofs.Json.Grammar
import GuestHost.Proofs.Json.Reading
import GuestHost.Proofs.Json.Skipping
import GuestHost.Proofs.Json.Record
import GuestHost.Proofs.Json.Writing
import GuestHost.Proofs.Config.Decoding
