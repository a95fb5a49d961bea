import GaugeExporter.CommandLine.Execute
import GaugeExporter.Main
import GaugeExporter.Proofs.Text.Order
import GaugeExporter.Proofs.Registry.Arrangement
import GaugeExporter.Proofs.Collection.Endings
import GaugeExporter.Proofs.Collection.Snapshots
import GaugeExporter.Proofs.Registry.History
import GaugeExporter.Proofs.Decimal.Reading
import GaugeExporter.Proofs.Binary.Rounding
import GaugeExporter.Proofs.Decimal.RoundTrip
import GaugeExporter.Proofs.Exposition.Decoder
import GaugeExporter.Proofs.Collection.Decoding
import GaugeExporter.Proofs.Collection.Concurrent
import GaugeExporter.Proofs.Collection.Isolation
import GaugeExporter.Proofs.Collection.Effects
import GaugeExporter.Proofs.Config.RoundTrip
import GaugeExporter.Proofs.Producer.Documents
import GaugeExporter.Proofs.Producer.Growth
import GaugeExporter.Proofs.Config.Scaffold
import GaugeExporter.Proofs.Exporter.Exports
import GaugeExporter.Proofs.Exporter.Shutdown
import GaugeExporter.Proofs.Decimal.Nearest
import GaugeExporter.Proofs.Decimal.Fewest
import GaugeExporter.Proofs.Decimal.Lengths
import GaugeExporter.Proofs.Exposition.Numerals
import GaugeExporter.Proofs.Exposition.Values
import GaugeExporter.Proofs.Collection.Refresh
import GaugeExporter.Proofs.Producer.Additions
import GaugeExporter.Proofs.Producer.Readings
import GaugeExporter.Proofs.Producer.Contributions
import GaugeExporter.Proofs.CommandLine.Collect
import GaugeExporter.Proofs.Config.Durations
import GaugeExporter.Proofs.Producer.LoadAverages
import GaugeExporter.Proofs.Producer.StaticGauges
import GaugeExporter.Proofs.Config.Notations
import GaugeExporter.Proofs.Config.Validation
import GaugeExporter.Proofs.Collection.Rendering
import GaugeExporter.Proofs.Collection.Blocks
import GaugeExporter.Proofs.Exposition.Fragments
