import CausalWorks.Machine
import CausalWorks.Ingest
import CausalWorks.Causal
import CausalWorks.Manifest
import CausalWorks.Pcap
import CausalWorks.Replay
import CausalWorks.Stream
import CausalWorks.Discovery
import CausalWorks.Harness
import CausalWorks.Trace
import CausalWorks.Storage
import CausalWorks.RocksSink
import CausalWorks.ManifestRun
import CausalWorks.DemoRun
import CausalWorks.Fixture
import CausalWorks.Report
import CausalWorks.Commands
import CausalWorks.Lib.CircularArray
import CausalWorks.Lib.Worklist
import CausalWorks.Lib.DepthFirst
import CausalWorks.Lib.Rounding
import CausalWorks.Lib.Binary64
import CausalWorks.Lib.Delivery
import CausalWorks.Lib.Ranking
import CausalWorks.Lib.Keyed
import CausalWorks.Lib.WriteOnce
import CausalWorks.Lib.OrderStatistic
import CausalWorks.Lib.Sorting
import CausalWorks.Lib.ByteOrder
import CausalWorks.Lib.Interleaving
import CausalWorks.History
import CausalWorks.Proof.Cycle
import CausalWorks.Proof.Overrun
import CausalWorks.Proof.Ring
import CausalWorks.Proof.Walk
import CausalWorks.Proof.Ingest
import CausalWorks.Proof.Refinement
import CausalWorks.Proof.Window
import CausalWorks.Proof.Detection
import CausalWorks.Proof.Attribution
import CausalWorks.Proof.Validation
import CausalWorks.Proof.Accepted
import CausalWorks.Proof.Safety
import CausalWorks.Proof.Fabrication
import CausalWorks.Proof.Readers
import CausalWorks.Proof.Capture
import CausalWorks.Proof.RoundTrip
import CausalWorks.Proof.Cut
import CausalWorks.Proof.Grammar
import CausalWorks.Proof.Reparse
import CausalWorks.Proof.Streams
import CausalWorks.Proof.Vlan
import CausalWorks.Proof.Coverage
import CausalWorks.Proof.Profiles
import CausalWorks.Proof.Toggling
import CausalWorks.Proof.Sighting
import CausalWorks.Proof.Lint
import CausalWorks.Proof.AppendOnly
import CausalWorks.Proof.Evidence
import CausalWorks.Proof.Completeness
import CausalWorks.Proof.Staging
import CausalWorks.Proof.Downstream
import CausalWorks.Proof.Fork
import CausalWorks.Proof.EdgeOrder
import CausalWorks.Proof.Overlap
import CausalWorks.Proof.Reproducible
import CausalWorks.Proof.Truncation
import CausalWorks.Proof.Rereading
import CausalWorks.Proof.WalkBound
import CausalWorks.Proof.Records
import CausalWorks.Proof.Flips
import CausalWorks.Proof.Percentiles
import CausalWorks.Proof.EventWindow
import CausalWorks.Proof.SelfContained
import CausalWorks.Proof.KeyOrder
import CausalWorks.Proof.Backends
import CausalWorks.Proof.Bucketing
import CausalWorks.Proof.MostRecent
import CausalWorks.Proof.Timing
import CausalWorks.Proof.Reports
import CausalWorks.Proof.Exactness
import CausalWorks.Proof.Restart
import CausalWorks.Proof.TimeOrigin
import CausalWorks.Proof.Budgets
import CausalWorks.Proof.Capacity
import CausalWorks.Proof.Redundant
import CausalWorks.Proof.Preflight
import CausalWorks.Proof.SnapLength
import CausalWorks.Proof.Fixture
import CausalWorks.Proof.Anonymised
import CausalWorks.Proof.DiscoveryReport
import CausalWorks.Proof.PreflightReport
import CausalWorks.Proof.Counts
import CausalWorks.Proof.Exits
import CausalWorks.Proof.Memory
import CausalWorks.Proof.EndToEnd
import CausalWorks.Proof.Durable
import CausalWorks.Proof.Renaming
import CausalWorks.Proof.Growing
import CausalWorks.Proof.Interleaved
import CausalWorks.Proof.Declared
import CausalWorks.Proof.Warnings
import CausalWorks.Proof.Findings
