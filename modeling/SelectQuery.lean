import SelectQuery.CommandLine.Directory
import SelectQuery.CommandLine.Run
import SelectQuery.Main
import SelectQuery.Proofs.FirstError
import SelectQuery.Proofs.RoundTrip
import SelectQuery.Proofs.Limit
import SelectQuery.Proofs.Splitting
import SelectQuery.Proofs.Slice
import SelectQuery.Proofs.Held
import SelectQuery.Proofs.Fingerprint
import SelectQuery.Proofs.Reading
import SelectQuery.Proofs.Cursor
import SelectQuery.Proofs.Displacement
import SelectQuery.Proofs.Reuse
import SelectQuery.Proofs.Seam
import SelectQuery.Proofs.StringBody
import SelectQuery.Proofs.Lookahead
import SelectQuery.Proofs.Decoration
import SelectQuery.Proofs.Minimal
import SelectQuery.Proofs.Routes
import SelectQuery.Proofs.Nodes
import SelectQuery.Proofs.LeastLimit
import SelectQuery.Proofs.Continuation
import SelectQuery.Proofs.Kinds
import SelectQuery.Proofs.Separation
import SelectQuery.Proofs.Flaw
import SelectQuery.Proofs.Worklist
import SelectQuery.Proofs.Verdicts
import SelectQuery.Proofs.Course
import SelectQuery.Proofs.Descent
