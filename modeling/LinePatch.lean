import LinePatch.Command.Run
import LinePatch.Main
import LinePatch.Proofs.Command.Frame
import LinePatch.Proofs.Patch.Commute
import LinePatch.Proofs.Patch.LineEndings
import LinePatch.Proofs.Patch.Replacement
import LinePatch.Proofs.Patch.Report
import LinePatch.Proofs.Patch.Rerun
import LinePatch.Proofs.Patch.Validation
import LinePatch.Proofs.Block.LoneBrace
import LinePatch.Proofs.Patch.WorkingCopy
import LinePatch.Proofs.Document.Joined
import LinePatch.Proofs.Patch.Reload
import LinePatch.Proofs.Patch.RerunReplacement
import LinePatch.Proofs.Patch.RerunInsertion
import LinePatch.Proofs.Document.Beside
import LinePatch.Proofs.Braces.Dyck
import LinePatch.Proofs.Block.Context
import LinePatch.Proofs.Patch.OwnText
import LinePatch.Proofs.Patch.InsertedText
import LinePatch.Proofs.Patch.ReplacedText
import LinePatch.Proofs.Patch.Verification
import LinePatch.Proofs.Command.Extract
import LinePatch.Proofs.Patch.Bounds
import LinePatch.Proofs.Block.Outcome
import LinePatch.Proofs.Document.Contains
import LinePatch.Proofs.Json.Grammar
import LinePatch.Proofs.Patch.Edits
import LinePatch.Proofs.Toml.Grammar
import LinePatch.Proofs.Spec.Format
import LinePatch.Proofs.Braces.Terminators
import LinePatch.Proofs.Document.RoundTrip
import LinePatch.Proofs.Anchor.Nearest
