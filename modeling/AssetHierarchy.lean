import AssetHierarchy.Simulation.MemoryTransport
import AssetHierarchy.Simulation.ScriptedServer
import AssetHierarchy.Proofs.Ancestry
import AssetHierarchy.Proofs.CycleWalk
import AssetHierarchy.Proofs.WritingOrder
import AssetHierarchy.Proofs.Run
import AssetHierarchy.Proofs.Validity
import AssetHierarchy.Proofs.Gatekeeping
import AssetHierarchy.Proofs.SubmissionSafety
import AssetHierarchy.Proofs.FinalAccounting
import AssetHierarchy.Proofs.Exchange
import AssetHierarchy.Proofs.WriteLog
import AssetHierarchy.Proofs.Attempts
import AssetHierarchy.Proofs.NotWritten
import AssetHierarchy.Proofs.WriteOnce
import AssetHierarchy.Proofs.Completion
import AssetHierarchy.Proofs.Fate
import AssetHierarchy.Proofs.Rearrangement
import AssetHierarchy.Proofs.Stopping
import AssetHierarchy.Proofs.Layering
import AssetHierarchy.Proofs.AssumedParents
import AssetHierarchy.Proofs.ParentLookup
import AssetHierarchy.Proofs.Problems
import AssetHierarchy.Proofs.InputOrder
import AssetHierarchy.Proofs.RetryDelay
import AssetHierarchy.Proofs.Retrying
import AssetHierarchy.Proofs.RetrySafety
import AssetHierarchy.Proofs.BatchSize
import AssetHierarchy.Proofs.BulkCalls
import AssetHierarchy.Proofs.BatchRequests
import AssetHierarchy.Proofs.TwoPasses
import AssetHierarchy.Proofs.Representation
import AssetHierarchy.Proofs.ProjectUrls
import AssetHierarchy.Proofs.RequestHeaders
import AssetHierarchy.Proofs.JsonRoundTrip
import AssetHierarchy.Proofs.Payload
import AssetHierarchy.Proofs.BaseAddresses
import AssetHierarchy.Proofs.BatchOutcomes
import AssetHierarchy.Proofs.BatchWaves
import AssetHierarchy.Proofs.CycleSearch
