import ExchangeBench.Main
import ExchangeBench.Json.Reader
import ExchangeBench.Simulation.Machine
import ExchangeBench.Proofs.Failure.Tally
import ExchangeBench.Proofs.Metrics.ClosedForm
import ExchangeBench.Proofs.Scalar.Order
import ExchangeBench.Proofs.Stats.Latency
import ExchangeBench.Proofs.Interleaving
import ExchangeBench.Proofs.Metrics.Permutation
import ExchangeBench.Proofs.Phase.Worker
import ExchangeBench.Proofs.Phase.Accounting
import ExchangeBench.Proofs.Sampler.Samples
import ExchangeBench.Proofs.Sampler.Stop
import ExchangeBench.Run.Course
import ExchangeBench.Proofs.Run.Course
import ExchangeBench.Proofs.Run.Turns
import ExchangeBench.Proofs.Run.Provenance
import ExchangeBench.Proofs.Repeat.Result
import ExchangeBench.Proofs.Run.Isolation
import ExchangeBench.Proofs.Config
import ExchangeBench.Proofs.Run.Notes
import ExchangeBench.Proofs.Failure.Merge
import ExchangeBench.Proofs.Report.Entries
import ExchangeBench.Proofs.Text.Keyed
import ExchangeBench.Proofs.Json.Schema
import ExchangeBench.Proofs.Report.Conservation
import ExchangeBench.Proofs.Decimal.Binary64
import ExchangeBench.Proofs.Decimal.Shortest
import ExchangeBench.Proofs.Decimal.Layout
import ExchangeBench.Proofs.Percentile.Key
import ExchangeBench.Proofs.Report.Schema
import ExchangeBench.Benchmark
import ExchangeBench.Proofs.Benchmark
import ExchangeBench.Proofs.Sampler.Pace
import ExchangeBench.Proofs.Run.Samplers
import ExchangeBench.Proofs.Benchmark.Capacity
import ExchangeBench.Proofs.Exchange
import ExchangeBench.Proofs.Exchange.Template
import ExchangeBench.Proofs.Run.Records
import ExchangeBench.Proofs.Report.Injection
import ExchangeBench.Proofs.Run.Wording
import ExchangeBench.Proofs.Benchmark.Wording
import ExchangeBench.Proofs.Scalar.Extended
import ExchangeBench.Proofs.Stats.Interpolation
import ExchangeBench.Proofs.CommandLine
import ExchangeBench.Proofs.CommandLine.Given
import ExchangeBench.Proofs.Profile.Parse
import ExchangeBench.Proofs.Command.World
import ExchangeBench.Proofs.Command.Exit
import ExchangeBench.Proofs.Sampler.Spacing
import ExchangeBench.Proofs.Stats.Running
import ExchangeBench.Proofs.Stats.Entries
import ExchangeBench.Proofs.Report.Percentiles
import ExchangeBench.Proofs.Scalar.Rounded
import ExchangeBench.Proofs.Stats.Monotone
import ExchangeBench.Proofs.Report.Order
import ExchangeBench.Proofs.Report.Merge
import ExchangeBench.Proofs.Repeat.Summary
import ExchangeBench.Proofs.Run.Summary
import ExchangeBench.Proofs.Stats.Safety
import ExchangeBench.Proofs.Text.Blank
import ExchangeBench.Proofs.Text.Bytes
import ExchangeBench.Proofs.Duration.Text
import ExchangeBench.Proofs.Decimal.Nearest
import ExchangeBench.Proofs.Scalar.Nearest
import ExchangeBench.Proofs.Scalar.Special
import ExchangeBench.Proofs.Stats.Range
import ExchangeBench.Proofs.Decimal.Literal
import ExchangeBench.Proofs.Percentile.Language
import ExchangeBench.Proofs.Percentile.Effective
import ExchangeBench.Proofs.Exchange.Messages
import ExchangeBench.Proofs.Exchange.KeyMaterial
import ExchangeBench.Proofs.Json.Grammar
import ExchangeBench.Proofs.Json.Reader
import ExchangeBench.Proofs.Json.Writer
import ExchangeBench.Proofs.Report.Datum
import ExchangeBench.Proofs.Report.Contents
import ExchangeBench.Proofs.Report.Text
import ExchangeBench.Proofs.Report.Cpu
import ExchangeBench.Proofs.Text.Grouped
import ExchangeBench.Proofs.Run.Truncation
