import SignalChain.Bench
import SignalChain.CommandLine.Folder
import SignalChain.Counters.Json
import SignalChain.Device.Wave
import SignalChain.Lockstep
import SignalChain.Mailbox.Session
import SignalChain.Main
import SignalChain.Proofs.Chain.Completion
import SignalChain.Proofs.Chain.Counting
import SignalChain.Proofs.Chain.Holding
import SignalChain.Proofs.Chain.Lossless
import SignalChain.Proofs.Chain.Rejections
import SignalChain.Proofs.Chain.Shutdown
import SignalChain.Proofs.Chain.Trace
import SignalChain.Proofs.Chain.Upstream
import SignalChain.Proofs.Counters.Sharing
import SignalChain.Proofs.Estimate.Means
import SignalChain.Proofs.Estimate.Trimming
import SignalChain.Proofs.Json.WholeTexts
import SignalChain.Proofs.Log.Recovery
import SignalChain.Proofs.Mailbox.Closing
import SignalChain.Proofs.Mailbox.Delivery
import SignalChain.Proofs.Mailbox.Waiting
import SignalChain.Proofs.Override.Presses
import SignalChain.Proofs.Pwm.Holding
import SignalChain.Proofs.Pwm.Scaling
import SignalChain.Proofs.Settings.Meaning
import SignalChain.Proofs.Stage.Horizon
import SignalChain.Proofs.Stage.Lateness
import SignalChain.Proofs.Stage.Memory
import SignalChain.Proofs.Wave.Plan
import SignalChain.Proofs.Window.Ring
import SignalChain.Settings.Json
import SignalChain.Sink
