import Routebook.Main
import Routebook.Proofs.Route.Denotation
import Routebook.Proofs.Document.Meaning
import Routebook.Proofs.Document.Responses
import Routebook.Proofs.Document.Routes
import Routebook.Proofs.Generate.Run
import Routebook.Proofs.Generate.Isolation
import Routebook.Proofs.Generate.Scratch
import Routebook.Proofs.Path.Mount
import Routebook.Proofs.Session.Calls
import Routebook.Proofs.Document.Documentation
import Routebook.Proofs.Merge.Manual
import Routebook.Proofs.Route.Markers
import Routebook.Proofs.Generate.Documentation
import Routebook.Proofs.Session.Inheritance
import Routebook.Proofs.Session.Exports
import Routebook.Proofs.Session.ExportClauses
import Routebook.Proofs.Session.Namespaces
import Routebook.Proofs.Document.Unfolding
import Routebook.Proofs.Document.Unions
import Routebook.Proofs.Merge.Neutral
import Routebook.Proofs.Generate.Untouched
import Routebook.Proofs.Merge.Failures
import Routebook.Proofs.Route.Order
import Routebook.Proofs.Document.Parameters
import Routebook.Proofs.Session.Interfaces
import Routebook.Proofs.Path.Matches
import Routebook.Proofs.Session.Instances
import Routebook.Proofs.Route.Framework
import Routebook.Proofs.Session.DefaultAlias
import Routebook.Proofs.Path.Grammar
import Routebook.Proofs.Route.Scanning
import Routebook.Proofs.Session.Nesting
import Routebook.Proofs.Document.Stack
import Routebook.Proofs.Document.Discovered
import Routebook.Proofs.Merge.Exclusions
import Routebook.Proofs.Document.Enumerations
import Routebook.Proofs.Text.Slices
