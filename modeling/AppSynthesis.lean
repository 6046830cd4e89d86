import AppSynthesis.Controller
import AppSynthesis.Main
import AppSynthesis.Proofs.Build
import AppSynthesis.Proofs.Controller.Alone
import AppSynthesis.Proofs.Controller.Convergence
import AppSynthesis.Proofs.Controller.Effect
import AppSynthesis.Proofs.Controller.Isolation
import AppSynthesis.Proofs.Controller.Reconcile
import AppSynthesis.Proofs.Controller.Replacement
import AppSynthesis.Proofs.Controller.Settled
import AppSynthesis.Proofs.Resolution
import AppSynthesis.Proofs.Schema.Fields
import AppSynthesis.Proofs.Schema.RoundTrip
import AppSynthesis.Proofs.Store.Clients
import AppSynthesis.Proofs.Store.Interference
import AppSynthesis.Proofs.Store.Journal
import AppSynthesis.Proofs.Store.WellFormed
import AppSynthesis.Proofs.Synthesis.App
import AppSynthesis.Proofs.Synthesis.Document
import AppSynthesis.Proofs.Synthesis.Frame
import AppSynthesis.Proofs.Synthesis.Inherited
import AppSynthesis.Proofs.Synthesis.Rebuild
import AppSynthesis.Proofs.Synthesis.Recognised
import AppSynthesis.Proofs.Synthesis.SelfSame
import AppSynthesis.Proofs.Synthesis.WellFormed
import AppSynthesis.Proofs.Value.Distinct
import AppSynthesis.Synthesis.Record
import AppSynthesis.Proofs.Schema.Hereditary
import AppSynthesis.Proofs.Manifest.Parsed
import AppSynthesis.Proofs.Store.Respelled
import AppSynthesis.Proofs.Resolution.Order
import AppSynthesis.Proofs.Manifest.RoundTrip
import AppSynthesis.Proofs.Value.Path
import AppSynthesis.Proofs.Manifest.Layout
import AppSynthesis.Proofs.Manifest.Kept
import AppSynthesis.Proofs.Store.CallTree
import AppSynthesis.Proofs.Store.Dispatch
import AppSynthesis.Proofs.Store.Order
import AppSynthesis.Proofs.Duration.RoundTrip
import AppSynthesis.Proofs.Duration.Grammar
import AppSynthesis.Proofs.Duration.Canonical
import AppSynthesis.Proofs.Synthesis.Share
import AppSynthesis.Proofs.Resolution.Exact
import AppSynthesis.Proofs.Ownership.Controller
import AppSynthesis.Proofs.Ownership.Single
import AppSynthesis.Proofs.Ownership.Upgrade
import AppSynthesis.Proofs.Synthesis.Outcome
import AppSynthesis.Proofs.Synthesis.Secret
import AppSynthesis.Proofs.Store.Registration
import AppSynthesis.Proofs.CommandLine.Reading
import AppSynthesis.Proofs.CommandLine.SyncPeriod
import AppSynthesis.Proofs.Controller.Listening
import AppSynthesis.Proofs.Manifest.Outcome
