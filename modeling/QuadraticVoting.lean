import QuadraticVoting.Assembly.Replay
import QuadraticVoting.Assembly.Snapshot
import QuadraticVoting.Desk
import QuadraticVoting.EntryPoint
import QuadraticVoting.Log.Highlight
import QuadraticVoting.Log.Logbook
import QuadraticVoting.Proofs.Atomicity
import QuadraticVoting.Proofs.Defects
import QuadraticVoting.Settings.Load
import QuadraticVoting.Settings.Preference
import QuadraticVoting.Proofs.Later
import QuadraticVoting.Proofs.Stranding
import QuadraticVoting.Proofs.Closures
import QuadraticVoting.Proofs.Releases
import QuadraticVoting.Proofs.Recovery
import QuadraticVoting.Proofs.Lineage
import QuadraticVoting.Proofs.Majorities
import QuadraticVoting.Proofs.Retelling
import QuadraticVoting.Proofs.Histories
import QuadraticVoting.Proofs.Isolation
import QuadraticVoting.Proofs.Bookkeeping
import QuadraticVoting.Proofs.Reconciliation
import QuadraticVoting.Proofs.Eligibility
import QuadraticVoting.Proofs.Agenda
import QuadraticVoting.Proofs.Conditions
import QuadraticVoting.Proofs.Strokes
import QuadraticVoting.Proofs.Commuting
import QuadraticVoting.Proofs.Documents
import QuadraticVoting.Proofs.Snapshots
import QuadraticVoting.Proofs.Startup
import QuadraticVoting.Proofs.Recasting
import QuadraticVoting.Proofs.Saturation
import QuadraticVoting.Proofs.Creations
import QuadraticVoting.Proofs.Polls
import QuadraticVoting.Proofs.Leftovers
import QuadraticVoting.Proofs.Reports
import QuadraticVoting.Proofs.Opening
import QuadraticVoting.Proofs.Handlers
import QuadraticVoting.Proofs.Delivery
import QuadraticVoting.Proofs.SafeTexts
import QuadraticVoting.Proofs.DateFormats
import QuadraticVoting.Proofs.Specifiers
import QuadraticVoting.Proofs.LineFormats
import QuadraticVoting.Proofs.LineHeaders
import QuadraticVoting.Proofs.LineBreaks
import QuadraticVoting.Proofs.AccountLists
import QuadraticVoting.Proofs.FrozenTable
import QuadraticVoting.Proofs.BallotViews
import QuadraticVoting.Proofs.Precedence
import QuadraticVoting.Proofs.Preferences
