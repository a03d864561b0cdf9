import Rebind.Plugin
import Rebind.Proofs.Json.Bracket
import Rebind.Proofs.Json.Compact
import Rebind.Proofs.Json.FormLocality
import Rebind.Proofs.Json.Locality
import Rebind.Proofs.Json.Members
import Rebind.Proofs.Json.Position
import Rebind.Proofs.Json.Prefix
import Rebind.Proofs.Json.Reader
import Rebind.Proofs.Json.Record
import Rebind.Proofs.Json.StringLiteral
import Rebind.Proofs.Options.Duplicate
import Rebind.Proofs.Options.Locality
import Rebind.Proofs.Options.Reader
import Rebind.Proofs.Options.Rejection
import Rebind.Proofs.Options.Table
import Rebind.Proofs.Plugin
import Rebind.Proofs.Rewrite.Agreement
import Rebind.Proofs.Rewrite.Binding
import Rebind.Proofs.Rewrite.Candidate
import Rebind.Proofs.Rewrite.Composition
import Rebind.Proofs.Rewrite.Decorator
import Rebind.Proofs.Rewrite.Extension
import Rebind.Proofs.Rewrite.Idempotence
import Rebind.Proofs.Rewrite.Import
import Rebind.Proofs.Rewrite.LongForm
import Rebind.Proofs.Rewrite.Origin
import Rebind.Proofs.Rewrite.Provider
import Rebind.Proofs.Rewrite.Report
import Rebind.Proofs.Rewrite.Skip
import Rebind.Proofs.Rewrite.Substitutions
import Rebind.Proofs.Rewrite.Token
import Rebind.Proofs.Rewrite.TwoPasses
import Rebind.Proofs.Rewrite.Walk
import Rebind.Proofs.RoundTrip
import Rebind.Proofs.Session.Accounting
import Rebind.Proofs.Session.Metadata
import Rebind.Proofs.Session.Program
import Rebind.Proofs.Session.Promotion
import Rebind.Proofs.Session.Provider
import Rebind.Proofs.Session.Queue
import Rebind.Proofs.Session.Sharing
import Rebind.Proofs.Session.Threaded
import Rebind.Proofs.Tree.Alongside
import Rebind.Proofs.Tree.Children
import Rebind.Proofs.Tree.Occurrence
import Rebind.Proofs.Tree.Outermost
import Rebind.Proofs.Tree.Redecorated
