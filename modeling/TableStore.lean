import TableStore.Session
import TableStore.Main
import TableStore.Proofs.Engine
import TableStore.Proofs.Seeking
import TableStore.Proofs.TableRows
import TableStore.Proofs.Overlay
import TableStore.Proofs.Merge
import TableStore.Proofs.Registry
import TableStore.Proofs.Reads
import TableStore.Proofs.Batch
import TableStore.Proofs.Commit
import TableStore.Proofs.Changes
import TableStore.Proofs.History
import TableStore.Proofs.Serial
import TableStore.Proofs.Views
import TableStore.Proofs.Utf8
import TableStore.Proofs.Turns
import TableStore.Proofs.Lock
import TableStore.Proofs.Waiting
import TableStore.Proofs.ReadBack
import TableStore.Proofs.Opening
import TableStore.Proofs.Lifetime
import TableStore.Proofs.Writers
import TableStore.Proofs.Isolation
import TableStore.Proofs.KeyShape
import TableStore.Proofs.BrokenWalk
import TableStore.Proofs.KeyOrder
import TableStore.Proofs.ValueShape
import TableStore.Proofs.TypedTable
import TableStore.Proofs.HexText
import TableStore.Proofs.CommandText
import TableStore.Proofs.Catalogue
import TableStore.Proofs.Ready
import TableStore.Proofs.Commands
import TableStore.Proofs.Errands
import TableStore.Proofs.OpenHead
import TableStore.Proofs.ExactValues
import TableStore.Proofs.Clamping
import TableStore.Proofs.Growth
import TableStore.Proofs.Allocation
import TableStore.Proofs.Calls
import TableStore.Proofs.Endings
import TableStore.Proofs.Counts
import TableStore.Proofs.Reach
import TableStore.Proofs.LastChange
import TableStore.Proofs.BatchShape
import TableStore.Proofs.EmptyRange
import TableStore.Proofs.Expectations
import TableStore.Proofs.Dump
import TableStore.Proofs.PrintedRow
import TableStore.Proofs.JsonText
import TableStore.Proofs.JsonLayout
import TableStore.Proofs.ConfigFile
import TableStore.Proofs.ConfigLayers
import TableStore.Proofs.TotalOrder
