import Quiesce.Basic
import Quiesce.Binary64
import Quiesce.Cancel
import Quiesce.Config.Basic
import Quiesce.Config.Contents
import Quiesce.Config.Load
import Quiesce.Drain
import Quiesce.Handoff
import Quiesce.Pool.Basic
import Quiesce.Pool.Machine
import Quiesce.Rehearsal.Basic
import Quiesce.Rehearsal.Command
import Quiesce.Template
import Quiesce.Text.Basic
import Quiesce.Text.Casing
import Quiesce.Text.Quoted
import Quiesce.Toml.Document
import Quiesce.Toml.Reading
import Quiesce.Toml.Value
import Quiesce.Proofs.Bindings
import Quiesce.Proofs.Bindings.OrderedMap
import Quiesce.Proofs.Bindings.Sources
import Quiesce.Proofs.Cancel.Families
import Quiesce.Proofs.Cancel.Wakeup
import Quiesce.Proofs.Config.Loading
import Quiesce.Proofs.Config.Schema
import Quiesce.Proofs.Config.Startup
import Quiesce.Proofs.Config.Validation
import Quiesce.Proofs.Config.Visits
import Quiesce.Proofs.Drain.Abandoned
import Quiesce.Proofs.Drain.Courses
import Quiesce.Proofs.Drain.Guarantees
import Quiesce.Proofs.Drain.Protocol
import Quiesce.Proofs.Drain.Repeated
import Quiesce.Proofs.Drain.Seat
import Quiesce.Proofs.Drain.Served
import Quiesce.Proofs.Drain.Spent
import Quiesce.Proofs.Handoff.Outcome
import Quiesce.Proofs.Handoff.Passage
import Quiesce.Proofs.Handoff.Receive
import Quiesce.Proofs.Pool.Admission
import Quiesce.Proofs.Pool.Announcement
import Quiesce.Proofs.Pool.Answers
import Quiesce.Proofs.Pool.Await
import Quiesce.Proofs.Pool.Calls
import Quiesce.Proofs.Pool.Conservation
import Quiesce.Proofs.Pool.Crew
import Quiesce.Proofs.Pool.Endings
import Quiesce.Proofs.Pool.Forced
import Quiesce.Proofs.Pool.Ledger
import Quiesce.Proofs.Pool.Step
import Quiesce.Proofs.Pool.Stops
import Quiesce.Proofs.Pool.Termination
import Quiesce.Proofs.Pool.Wakeup
import Quiesce.Proofs.Template.Inert
import Quiesce.Proofs.Template.Passes
import Quiesce.Proofs.Template.Pieces
import Quiesce.Proofs.Template.Substitution
import Quiesce.Proofs.Text.Cuts
import Quiesce.Proofs.Text.Form
import Quiesce.Proofs.Text.Join
import Quiesce.Proofs.Text.Replace
import Quiesce.Proofs.Text.Sweep
import Quiesce.Proofs.Text.Utf8
import Quiesce.Proofs.Toml.Keys
