import Emend.Proofs.Batch.Coherence
import Emend.Proofs.Batch.Conflicts
import Emend.Proofs.Batch.Isolation
import Emend.Proofs.Batch.LostUpdate
import Emend.Proofs.Batch.Repeat
import Emend.Proofs.Batch.Run
import Emend.Proofs.Cli.Escapes
import Emend.Proofs.Diff.Minimality
import Emend.Proofs.Edit.Regions
import Emend.Proofs.History.Recall
import Emend.Proofs.History.Runs
import Emend.Proofs.Message.Deletion
import Emend.Proofs.Message.RoundTrip
import Emend.Proofs.Store.Recorded
import Emend.Proofs.Edit.Insertions
import Emend.Proofs.Edit.LineBlocks
import Emend.Proofs.Edit.LineEnds
import Emend.Proofs.Message.Bodies
import Emend.Proofs.Edit.Wordings
import Emend.Proofs.Edit.WholeLines
import Emend.Proofs.Edit.Ambiguity
import Emend.Proofs.Edit.Composition
import Emend.Proofs.Diff.Preview
import Emend.Proofs.Message.LineEnds
import Emend.Proofs.Config.Overrides
import Emend.Proofs.History.Reading
import Emend.Proofs.Data.JsonFront
import Emend.Proofs.History.Accepted
import Emend.Proofs.Message.WellFormed
import Emend.Proofs.Message.Ignored
