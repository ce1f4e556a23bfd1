import LabRuntime.Deployment.Dto
import LabRuntime.Deployment.Validation
import LabRuntime.Deployment.Structure
import LabRuntime.Deployment.Frozen
import LabRuntime.Deployment.Accepted
import LabRuntime.Deployment.Windows
import LabRuntime.Deployment.Properties
import LabRuntime.Deployment.Changes
import LabRuntime.Deployment.LiveApply
import LabRuntime.Deployment.Edits
import LabRuntime.Deployment.OwnerRows
import LabRuntime.Deployment.Candidates
import LabRuntime.Deployment.Mutability
import LabRuntime.Native.Instruments
import LabRuntime.Managed.Owner
import LabRuntime.Managed.Machine
import LabRuntime.Managed.Changes
import LabRuntime.Managed.Steps
import LabRuntime.Managed.Correlations
import LabRuntime.Managed.Threads
import LabRuntime.Managed.Signals
import LabRuntime.Managed.Topology
import LabRuntime.Managed.Failure
import LabRuntime.Managed.Prepared
import LabRuntime.Signal.Attempts
import LabRuntime.Reference.Ramp
import LabRuntime.Managed.Contract
import LabRuntime.Server.MessageRun
import LabRuntime.Host.Periodic
import LabRuntime.Managed.MeanRun
import LabRuntime.Events.Delivery
import LabRuntime.Lib.Decimal
import LabRuntime.Lib.Ledger
import LabRuntime.Sessions.Admission
import LabRuntime.Metakon.Bursts
import LabRuntime.Runtime.Machine
import LabRuntime.Output.Arming
import LabRuntime.Output.Receipt
import LabRuntime.Transport.Serial
import LabRuntime.Runtime.Evidence
import LabRuntime.Runtime.Moves
import LabRuntime.Runtime.Shell
import LabRuntime.Runtime.ShellIo
import LabRuntime.Runtime.ShellCalls
import LabRuntime.Transport.Asked
import LabRuntime.Runtime.ControllerMoves
import LabRuntime.Runtime.Sends
import LabRuntime.Runtime.Receipts
import LabRuntime.Recorder.Protection
import LabRuntime.Recorder.Status
import LabRuntime.Com.Retirement
import LabRuntime.Simple.Instances
import LabRuntime.Server.Conserved
import LabRuntime.Simple.Readback
import LabRuntime.Recording.Loss
import LabRuntime.Wire.Request
import LabRuntime.Archive.ReadsBack
import LabRuntime.Archive.RunPaging
import LabRuntime.Recorder.Handoff
import LabRuntime.Sessions.Retention
import LabRuntime.Sessions.Pending
import LabRuntime.Events.Publication
