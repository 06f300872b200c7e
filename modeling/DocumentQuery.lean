import DocumentQuery.Main
import DocumentQuery.Pattern.Schema
import DocumentQuery.Proofs.Addressing
import DocumentQuery.Proofs.Json.RoundTrip
import DocumentQuery.Proofs.Negotiation
import DocumentQuery.Proofs.Toml.RoundTrip
import DocumentQuery.Proofs.TestEnvironments
import DocumentQuery.Proofs.Logging
import DocumentQuery.Proofs.Steady
import DocumentQuery.Proofs.Display
import DocumentQuery.Proofs.Dumping
import DocumentQuery.Proofs.Arguments
import DocumentQuery.Proofs.Command
import DocumentQuery.Proofs.Pattern.Stops
import DocumentQuery.Proofs.Pattern.Faults
import DocumentQuery.Proofs.Pattern.Caret
import DocumentQuery.Proofs.Composition
import DocumentQuery.Proofs.Pattern.Padding
import DocumentQuery.Proofs.Pattern.Prefixes
import DocumentQuery.Proofs.Restoring
import DocumentQuery.Proofs.Markup
import DocumentQuery.Proofs.Reports
import DocumentQuery.Proofs.Nulls
import DocumentQuery.Proofs.Refusals
import DocumentQuery.Proofs.ArrayForms
import DocumentQuery.Proofs.Settings
import DocumentQuery.Proofs.Toml.Splitting
import DocumentQuery.Proofs.Json.Validity
import DocumentQuery.Proofs.Pattern.Sources
