import Oyster.ControlPlane.Eligible
import Oyster.ControlPlane.Kill
import Oyster.ControlPlane.AwsInstances
import Oyster.Lib.Pipe
import Oyster.Scallop.StreamIntegrity
import Oyster.Scallop.Complete
import Oyster.Scallop.Auth
import Oyster.Executor.Nonce
import Oyster.Executor.Events
import Oyster.Executor.Once
import Oyster.Executor.Timeout
import Oyster.Indexer.Ledger
import Oyster.Indexer.EventLoop
import Oyster.Lib.Abi
import Oyster.Indexer.Contract
import Oyster.Indexer.Advance
import Oyster.ControlPlane.Account
import Oyster.Indexer.View
import Oyster.Indexer.Agreement
import Oyster.ControlPlane.NewJobs
import Oyster.Lib.Interleave
import Oyster.Executor.Cgroups
import Oyster.Executor.JobHandler
import Oyster.Lib.Frames
import Oyster.RawProxy.Receiver
import Oyster.RawProxy.Framing
import Oyster.Attestation.Sdk
import Oyster.Lib.CborDecode
import Oyster.Attestation.Guest
import Oyster.Attestation.GuestSound
import Oyster.RawProxy.Input
import Oyster.RawProxy.Untrusted
import Oyster.RawProxy.Recovery
import Oyster.Scallop.EndOfStream
import Oyster.Scallop.InputSafety
import Oyster.ControlPlane.Solvency
import Oyster.ControlPlane.Metadata
import Oyster.ControlPlane.Splice
import Oyster.Executor.Resend
import Oyster.Executor.Unblock
import Oyster.Attestation.Freshness
import Oyster.Attestation.Verifier
import Oyster.Executor.Workerd
import Oyster.Executor.Deadline
import Oyster.ControlPlane.Enclave
import Oyster.ControlPlane.EnclaveStart
import Oyster.ControlPlane.ImageMarker
import Oyster.Attestation.GoSdk
import Oyster.Attestation.Mock
import Oyster.Attestation.MockGuest
import Oyster.ControlPlane.ElasticIp
import Oyster.ControlPlane.Launch
import Oyster.ControlPlane.NoPanic
import Oyster.ControlPlane.Server
import Oyster.Lib.Loop
import Oyster.Scallop.Polls
import Oyster.Scallop.WellFormed
import Oyster.Scallop.FlushEnds
import Oyster.Scallop.Scripts
import Oyster.Lib.Decimal
import Oyster.Lib.Flow
import Oyster.TcpProxy.Address
import Oyster.TcpProxy.Transfer
import Oyster.TcpProxy.Integrity
import Oyster.TcpProxy.Completes
import Oyster.Executor.Lifecycle
import Oyster.Executor.Provenance
import Oyster.Executor.Lifetime
import Oyster.Executor.Signing
import Oyster.Executor.Execution
import Oyster.Executor.Isolation
import Oyster.Lib.Threads
import Oyster.ControlPlane.Fleet
import Oyster.ControlPlane.Managers
import Oyster.ControlPlane.JobsApart
