import EvmStorage.HandleCache
import EvmStorage.Main
import EvmStorage.Proofs.WellPlaced
import EvmStorage.Proofs.Decimal
import EvmStorage.Proofs.ScalarValue
import EvmStorage.Proofs.Overwrite
import EvmStorage.Proofs.InPlace
import EvmStorage.Proofs.Labels
import EvmStorage.Proofs.ArrayElements
import EvmStorage.Proofs.StructMembers
import EvmStorage.Proofs.ValueTree
import EvmStorage.Proofs.RoundTrip
import EvmStorage.Proofs.Requests
import EvmStorage.Proofs.StoredBytes
import EvmStorage.Proofs.PartPlaces
import EvmStorage.Proofs.KeyText
import EvmStorage.Proofs.PathText
import EvmStorage.Proofs.WrittenPath
import EvmStorage.Proofs.Returning
import EvmStorage.Proofs.Decodable
import EvmStorage.Proofs.Progress
import EvmStorage.Proofs.ReadPlan
import EvmStorage.Proofs.Retrying
import EvmStorage.Proofs.KeyMeaning
import EvmStorage.Proofs.NestedSlots
import EvmStorage.Proofs.PromisedFaults
import EvmStorage.Proofs.PromisedReads
import EvmStorage.Proofs.PromisedPaths
import EvmStorage.Proofs.ArrayPacking
import EvmStorage.Proofs.SelectedBlock
import EvmStorage.Proofs.DecodedKeys
import EvmStorage.Proofs.Attempts
import EvmStorage.Proofs.LargeElements
import EvmStorage.Proofs.PathGrammar
import EvmStorage.Proofs.RawWords
import EvmStorage.Proofs.RefusedKeys
import EvmStorage.Proofs.DistinctKeys
import EvmStorage.Proofs.DeclaredKeyTypes
import EvmStorage.Proofs.OutsideMembers
import EvmStorage.Proofs.PrintedElements
import EvmStorage.Proofs.LoadedLayouts
import EvmStorage.Proofs.ArrayLabels
import EvmStorage.Proofs.SameReports
import EvmStorage.Proofs.HandleRuns
import EvmStorage.Proofs.LengthWords
import EvmStorage.Proofs.ShownCalculation
import EvmStorage.Proofs.SignedWindows
import EvmStorage.Proofs.NamedBlocks
import EvmStorage.Proofs.DistinctKeys
