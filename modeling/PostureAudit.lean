import PostureAudit.Linter
import PostureAudit.Posture.Draft
import PostureAudit.Proofs.Scan
import PostureAudit.Proofs.Assignment
import PostureAudit.Proofs.Declaration
import PostureAudit.Proofs.LineEnds
import PostureAudit.Proofs.Identifier
import PostureAudit.Proofs.Gate
import PostureAudit.Proofs.Draft
import PostureAudit.Proofs.Tree
import PostureAudit.Proofs.File
import PostureAudit.Proofs.LineResolution
import PostureAudit.Proofs.Captures
import PostureAudit.Proofs.Severity
import PostureAudit.Proofs.Preamble
import PostureAudit.Proofs.Growth
import PostureAudit.Proofs.Listing
import PostureAudit.Proofs.Starter
import PostureAudit.Proofs.Decoding
import PostureAudit.Proofs.LineReports
import PostureAudit.Proofs.JsonReport
import PostureAudit.Proofs.LineSearch
import PostureAudit.Proofs.Selection
import PostureAudit.Proofs.Configuration
import PostureAudit.Proofs.Stylish
import PostureAudit.Proofs.DecodedText
import PostureAudit.Proofs.DecodedLines
import PostureAudit.Proofs.UnknownKeys
import PostureAudit.Proofs.Pathnames
import PostureAudit.Proofs.Layout
import PostureAudit.Proofs.LayoutWalk
import PostureAudit.Proofs.Rows
import PostureAudit.Proofs.RuleEntries
