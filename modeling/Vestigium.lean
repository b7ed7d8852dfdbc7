import Vestigium.Cli.Altered
import Vestigium.Cli.Checkpoint
import Vestigium.Cli.Confinement
import Vestigium.Cli.Failures
import Vestigium.Cli.Isolation
import Vestigium.Cli.Layout
import Vestigium.Cli.Loading
import Vestigium.Cli.Malformed
import Vestigium.Cli.Record
import Vestigium.Cli.Replay
import Vestigium.Cli.Report
import Vestigium.Cli.Reproducible
import Vestigium.Cli.Restore
import Vestigium.Cli.Verdict
import Vestigium.Cli.Verify
import Vestigium.Engine.Answers
import Vestigium.Engine.Archive
import Vestigium.Engine.Canonical
import Vestigium.Engine.Counting
import Vestigium.Engine.Crash
import Vestigium.Engine.Divergence
import Vestigium.Engine.Exchange
import Vestigium.Engine.Handling
import Vestigium.Engine.Image
import Vestigium.Engine.Injection
import Vestigium.Engine.Loader
import Vestigium.Engine.Lockstep
import Vestigium.Engine.Reach
import Vestigium.Engine.Record
import Vestigium.Engine.Replay
import Vestigium.Engine.Snapshot
import Vestigium.Engine.Tampering
import Vestigium.Engine.Tripwire
import Vestigium.Engine.TwoRuns
import Vestigium.Lib.Codec
import Vestigium.Lib.Delimited
import Vestigium.Lib.HashMap
import Vestigium.Lib.Labelled
import Vestigium.Lib.Loop
import Vestigium.Lib.Overlay
import Vestigium.Lib.PageWalk
import Vestigium.Lib.Relational
import Vestigium.Payload.Program
import Vestigium.Payload.TargetApp
import Vestigium.Trace.Format
import Vestigium.Vmm.Machine
import Vestigium.Vmm.Paging
import Vestigium.Vmm.Regions
import Vestigium.Vmm.SampleCpu
import Vestigium.Vmm.Vcpu
