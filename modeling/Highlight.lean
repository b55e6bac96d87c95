import Highlight.Line.Nesting
import Highlight.Line.Overlay
import Highlight.Main
import Highlight.Proofs.Catalog.Detection
import Highlight.Proofs.CommandLine
import Highlight.Proofs.Line.Associative
import Highlight.Proofs.Line.Overlay
import Highlight.Proofs.Line.Refused
import Highlight.Proofs.Scan.Agreement
import Highlight.Proofs.Scan.Places
import Highlight.Proofs.Scan.Ends
import Highlight.Proofs.Scan.SingleLine
import Highlight.Proofs.Scan.WellFormed
import Highlight.Proofs.Session.Batch
import Highlight.Proofs.Session.Delivery
import Highlight.Proofs.Session.Disposal
import Highlight.Proofs.Session.Listeners
import Highlight.Proofs.Session.Reports
import Highlight.Proofs.Session.Answers
import Highlight.Proofs.Languages.LeftOpen
import Highlight.Proofs.Languages.Recolored
import Highlight.Proofs.Session.Shelter
import Highlight.Proofs.Session.Transparent
import Highlight.Proofs.Session.Work
import Highlight.Proofs.Languages.CharLiterals
import Highlight.Proofs.Languages.Comments
import Highlight.Proofs.Settings
import Highlight.Proofs.Style.Color
import Highlight.Proofs.Session.Moved
import Highlight.Proofs.Document.Coordinates
import Highlight.Proofs.Document.LineEnds
import Highlight.Proofs.Session.Paths
