import StreamlingPlugins.Arrow.Arrays
import StreamlingPlugins.Arrow.Buffers
import StreamlingPlugins.Arrow.DataType
import StreamlingPlugins.Arrow.TextColumn
import StreamlingPlugins.Calendar
import StreamlingPlugins.Changelog
import StreamlingPlugins.Checkpointing
import StreamlingPlugins.CivilDate
import StreamlingPlugins.CloudTrail.Config
import StreamlingPlugins.CloudTrail.Delivery
import StreamlingPlugins.CloudTrail.Fetching
import StreamlingPlugins.CloudTrail.Monotone
import StreamlingPlugins.CloudTrail.Poller
import StreamlingPlugins.CloudTrail.Progress
import StreamlingPlugins.CloudTrail.RestartSafety
import StreamlingPlugins.CloudTrail.Service
import StreamlingPlugins.CloudTrail.Source
import StreamlingPlugins.CloudTrail.Windows
import StreamlingPlugins.Conveyor
import StreamlingPlugins.Digits
import StreamlingPlugins.Erc7984.Decode
import StreamlingPlugins.Erc7984.Exactness
import StreamlingPlugins.Erc7984.RoundTrip
import StreamlingPlugins.Erc7984.Transform
import StreamlingPlugins.Fallible
import StreamlingPlugins.Grouping
import StreamlingPlugins.Hex
import StreamlingPlugins.Holes
import StreamlingPlugins.IcebergSink.AutoCreate
import StreamlingPlugins.IcebergSink.Convert
import StreamlingPlugins.IcebergSink.Epochs
import StreamlingPlugins.IcebergSink.Lossless
import StreamlingPlugins.IcebergSink.Schema
import StreamlingPlugins.IcebergSink.Sink
import StreamlingPlugins.IcebergSink.TypeTable
import StreamlingPlugins.IcebergSource.Ancestry
import StreamlingPlugins.IcebergSource.CheckpointSafety
import StreamlingPlugins.IcebergSource.Lineage
import StreamlingPlugins.IcebergSource.Monotone
import StreamlingPlugins.IcebergSource.Reader
import StreamlingPlugins.IcebergSource.ReaderRuns
import StreamlingPlugins.IcebergSource.Resume
import StreamlingPlugins.IcebergSource.Snapshots
import StreamlingPlugins.IcebergSource.SoundReader
import StreamlingPlugins.IcebergSource.Source
import StreamlingPlugins.KeyedMap
import StreamlingPlugins.Machine
import StreamlingPlugins.MySql.Dates
import StreamlingPlugins.MySql.Decimals
import StreamlingPlugins.MySql.ReplayedBatch
import StreamlingPlugins.MySql.RowOrder
import StreamlingPlugins.MySql.Sink
import StreamlingPlugins.MySql.Timestamps
import StreamlingPlugins.Packing
import StreamlingPlugins.PercentEncoding
import StreamlingPlugins.PluginApi
import StreamlingPlugins.PostgresCdc.AckExactness
import StreamlingPlugins.PostgresCdc.AckProgress
import StreamlingPlugins.PostgresCdc.AckSafety
import StreamlingPlugins.PostgresCdc.Alignment
import StreamlingPlugins.PostgresCdc.Bridge
import StreamlingPlugins.PostgresCdc.CellTexts
import StreamlingPlugins.PostgresCdc.Cells
import StreamlingPlugins.PostgresCdc.Checkpoints
import StreamlingPlugins.PostgresCdc.Delivery
import StreamlingPlugins.PostgresCdc.GroupStart
import StreamlingPlugins.PostgresCdc.Ledger
import StreamlingPlugins.PostgresCdc.Registry
import StreamlingPlugins.PostgresCdc.RegistrySafety
import StreamlingPlugins.PostgresCdc.Replay
import StreamlingPlugins.PostgresCdc.RowBatch
import StreamlingPlugins.PostgresCdc.Store
import StreamlingPlugins.PostgresCdc.StoreLoads
import StreamlingPlugins.PostgresCdc.StorePruning
import StreamlingPlugins.PostgresCdc.StoreRefinement
import StreamlingPlugins.PostgresCdc.StoreRestart
import StreamlingPlugins.Renaming
import StreamlingPlugins.Replication
import StreamlingPlugins.S2.RoundTrip
import StreamlingPlugins.S2.Routing
import StreamlingPlugins.S2.RoutingExactness
import StreamlingPlugins.S2.Sink
import StreamlingPlugins.S2.Tickets
import StreamlingPlugins.S2Source.Convert
import StreamlingPlugins.S2Source.Converter
import StreamlingPlugins.S2Source.DecodeAgreement
import StreamlingPlugins.S2Source.Delivery
import StreamlingPlugins.S2Source.FieldSpecs
import StreamlingPlugins.S2Source.PrefixScan
import StreamlingPlugins.S2Source.ScanExactness
import StreamlingPlugins.S2Source.Source
import StreamlingPlugins.S3.ObjectKeys
import StreamlingPlugins.S3.PartitionExactness
import StreamlingPlugins.S3.Partitioning
import StreamlingPlugins.Saturating
import StreamlingPlugins.Sqs.ArrayBodies
import StreamlingPlugins.Sqs.SendLoop
import StreamlingPlugins.Sqs.Sink
import StreamlingPlugins.Tally
import StreamlingPlugins.Text
import StreamlingPlugins.TokenStream
import StreamlingPlugins.Utf8
import StreamlingPlugins.Utils.DecimalArb
import StreamlingPlugins.Utils.JsonExactness
import StreamlingPlugins.Utils.LeafShapes
import StreamlingPlugins.Utils.Rebuilding
import StreamlingPlugins.Utils.RecordBatchJson
import StreamlingPlugins.ZamaDecrypt.Decrypt
import StreamlingPlugins.ZamaDecrypt.Lookups
import StreamlingPlugins.ZamaDecrypt.RowResults
import StreamlingPlugins.ZamaDecrypt.Transfers
import StreamlingPlugins.ZamaPublicDecrypt.Batching
import StreamlingPlugins.ZamaPublicDecrypt.Decrypt
