import SyntaxDialects.Identity.Allocators
import SyntaxDialects.Identity.Tokens
import SyntaxDialects.Proofs.Catalog.Lookup
import SyntaxDialects.Proofs.Text.Quoting
import SyntaxDialects.Session.Store
import SyntaxDialects.Sharing.FirstUse
import SyntaxDialects.Proofs.Dialect.Display
import SyntaxDialects.Proofs.Session.Runs
import SyntaxDialects.Proofs.Session.Naming
import SyntaxDialects.Proofs.Schema.Written
import SyntaxDialects.Proofs.Toml.Keyed
import SyntaxDialects.Proofs.Conf.Decoding
import SyntaxDialects.Proofs.Toml.Reading
import SyntaxDialects.Proofs.Toml.Statements
import SyntaxDialects.Proofs.Conf.Growth
import SyntaxDialects.Proofs.Conf.Spelling
import SyntaxDialects.Proofs.Dialect.Layout
import SyntaxDialects.Proofs.Session.Acts
import SyntaxDialects.Proofs.Session.Moments
import SyntaxDialects.Proofs.Session.Numbering
import SyntaxDialects.Proofs.Session.Traces
import SyntaxDialects.Proofs.Session.Lineage
import SyntaxDialects.Proofs.Session.Distinct
import SyntaxDialects.Proofs.Session.Renaming
import SyntaxDialects.Proofs.Session.Unquoting
import SyntaxDialects.Proofs.Session.Sameness
import SyntaxDialects.Proofs.Sharing.Crowd
import SyntaxDialects.Proofs.Sharing.Moves
import SyntaxDialects.Proofs.Sharing.Reliance
import SyntaxDialects.Proofs.Sharing.Conservation
import SyntaxDialects.Proofs.Sharing.FirstUse
import SyntaxDialects.Proofs.Sharing.Progress
import SyntaxDialects.Proofs.Sharing.Phases
import SyntaxDialects.Proofs.Sharing.SetOnce
import SyntaxDialects.Proofs.Sharing.Races
import SyntaxDialects.Proofs.Layers
import SyntaxDialects.Proofs.Schema.Forms
import SyntaxDialects.Proofs.Reports
import SyntaxDialects.Proofs.Text.ByteOrder
import SyntaxDialects.Proofs.Conf.Problems
import SyntaxDialects.Proofs.Conf.Reordering
import SyntaxDialects.Proofs.Session.Quotations
import SyntaxDialects.Proofs.Conf.Resolution
import SyntaxDialects.Proofs.Session.Log
import SyntaxDialects.Proofs.Text.Records
import SyntaxDialects.Proofs.Dialect.DebugText
import SyntaxDialects.Proofs.Parts
import SyntaxDialects.Proofs.Identity.Draws
import SyntaxDialects.Proofs.Identity.Tokens
