import RowStore.Json.Row
import RowStore.Session.Run
import RowStore.Schema.Builder
import RowStore.Proofs.BuiltSchema
import RowStore.Proofs.CellOrder
import RowStore.Proofs.MapLaws
import RowStore.Proofs.LeadingCells
import RowStore.Proofs.SeekLaws
import RowStore.Proofs.IndexMaps
import RowStore.Proofs.TableInvariant
import RowStore.Proofs.TableWrites
import RowStore.Proofs.AllTables
import RowStore.Proofs.Runs
import RowStore.Proofs.StoredCells
import RowStore.Proofs.StoredRows
import RowStore.Proofs.Copies
import RowStore.Proofs.CursorSteps
import RowStore.Proofs.FiniteMap
import RowStore.Proofs.ByKeyRuns
import RowStore.Proofs.TableWork
import RowStore.Proofs.FoundRows
import RowStore.Proofs.Requests
import RowStore.Proofs.PopulatedRuns
import RowStore.Proofs.IndexView
import RowStore.Proofs.ScanOrder
import RowStore.Proofs.ScanSteps
import RowStore.Proofs.ScanOpening
import RowStore.Proofs.ScanRuns
import RowStore.Proofs.KeyRows
import RowStore.Proofs.SweepReference
import RowStore.Proofs.SweepRuns
import RowStore.Proofs.PointLookups
import RowStore.Proofs.Mirrors
import RowStore.Proofs.ScanAmidWrites
import RowStore.Proofs.EngineMirrors
import RowStore.Proofs.CursorMirrors
import RowStore.Proofs.Calls
import RowStore.Proofs.CallAnswers
import RowStore.Proofs.CallFrames
import RowStore.Proofs.Isolation
import RowStore.Proofs.EngineSteps
import RowStore.Proofs.Commits
import RowStore.Proofs.TableDefinitions
import RowStore.Proofs.Deeds
import RowStore.Proofs.ByKeyDeeds
import RowStore.Proofs.CursorLogs
import RowStore.Proofs.FailedWrites
import RowStore.Proofs.ScanDeeds
import RowStore.Proofs.RecordedCalls
import RowStore.Proofs.Releases
import RowStore.Proofs.CursorHistories
import RowStore.Proofs.RequestLogs
import RowStore.Proofs.Interruptions
import RowStore.Proofs.OrderlyLogs
import RowStore.Proofs.Agreement
import RowStore.Proofs.Numerals
import RowStore.Proofs.IntegerTexts
import RowStore.Proofs.CursorPlaces
import RowStore.Proofs.OnwardScans
import RowStore.Proofs.Desks
import RowStore.Proofs.SpentHandles
import RowStore.Proofs.LedgerCounts
import RowStore.Proofs.RowRoundTrips
import RowStore.Proofs.IntegerRanges
import RowStore.Proofs.Visits
import RowStore.Proofs.FailedReads
import RowStore.Proofs.ScanParts
import RowStore.Proofs.PrefixSearch
import RowStore.Proofs.Builders
import RowStore.Proofs.ClientTallies
import RowStore.Proofs.CellPlaces
import RowStore.Proofs.KeyOrder
