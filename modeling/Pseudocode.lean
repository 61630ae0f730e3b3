import Pseudocode.Main
import Pseudocode.Proofs.CarriageReturn
import Pseudocode.Proofs.CommentText
import Pseudocode.Proofs.Conversation
import Pseudocode.Proofs.DebugForm
import Pseudocode.Proofs.Encoding
import Pseudocode.Proofs.Events
import Pseudocode.Proofs.FileRun
import Pseudocode.Proofs.FileText
import Pseudocode.Proofs.History
import Pseudocode.Proofs.Isolation
import Pseudocode.Proofs.Juxtaposition
import Pseudocode.Proofs.Labels
import Pseudocode.Proofs.Limits
import Pseudocode.Proofs.LineBreak
import Pseudocode.Proofs.LineStamp
import Pseudocode.Proofs.Located
import Pseudocode.Proofs.Longest
import Pseudocode.Proofs.Lookahead
import Pseudocode.Proofs.Modes
import Pseudocode.Proofs.NormalPath
import Pseudocode.Proofs.Partition
import Pseudocode.Proofs.Passing
import Pseudocode.Proofs.Printed
import Pseudocode.Proofs.PrintedLines
import Pseudocode.Proofs.Progress
import Pseudocode.Proofs.Quotation
import Pseudocode.Proofs.ReadingBack
import Pseudocode.Proofs.Recognition
import Pseudocode.Proofs.Rendering
import Pseudocode.Proofs.Restart
import Pseudocode.Proofs.Rounding
import Pseudocode.Proofs.Verbosity
import Pseudocode.Session
