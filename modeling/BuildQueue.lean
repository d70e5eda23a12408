import BuildQueue.SortedMap
import BuildQueue.Binary64
import BuildQueue.Binary64.Shortest
import BuildQueue.Text.Scan
import BuildQueue.Json
import BuildQueue.Json.Reader
import BuildQueue.Json.Printer
import BuildQueue.Json.Decode
import BuildQueue.Json.Form
import BuildQueue.Text.Character
import BuildQueue.Toml.Reader
import BuildQueue.Settings.Load
import BuildQueue.Settings.Listing
import BuildQueue.Sample
import BuildQueue.Script
import BuildQueue.Store.Call
import BuildQueue.Source.LookupKey
import BuildQueue.View.Merge
import BuildQueue.Memo.Service
import BuildQueue.Memo.Listing
import BuildQueue.Context
import BuildQueue.Session
import BuildQueue.Proofs.Order
import BuildQueue.Proofs.SortedMap
import BuildQueue.Proofs.Script
import BuildQueue.Proofs.Store.Submitted
import BuildQueue.Proofs.Store.Submission
import BuildQueue.Proofs.Store.Updates
import BuildQueue.Proofs.Store.Exchange
import BuildQueue.Proofs.Store.History
import BuildQueue.Proofs.Store.Chronicle
import BuildQueue.Proofs.Store.Ledger
import BuildQueue.Proofs.Store.Lifecycle
import BuildQueue.Proofs.Store.Permanence
import BuildQueue.Proofs.Store.Evolution
import BuildQueue.Proofs.Store.Links
import BuildQueue.Proofs.Store.Filing
import BuildQueue.Proofs.Store.Accounting
import BuildQueue.Proofs.View.Loading
import BuildQueue.Proofs.View.Covering
import BuildQueue.Proofs.Memo.Slots
import BuildQueue.Proofs.Memo.Fills
import BuildQueue.Proofs.Memo.Sound
import BuildQueue.Proofs.Memo.Natural
import BuildQueue.Proofs.Memo.Usage
import BuildQueue.Proofs.Memo.Table
import BuildQueue.Proofs.Memo.History
import BuildQueue.Proofs.Memo.Ends
import BuildQueue.Proofs.Memo.Stamps
import BuildQueue.Proofs.Memo.Finality
import BuildQueue.Proofs.Memo.Shape
import BuildQueue.Proofs.Memo.Tracking
import BuildQueue.Proofs.Memo.Sharing
import BuildQueue.Proofs.Memo.Failing
import BuildQueue.Proofs.System
import BuildQueue.Proofs.System.Moves
import BuildQueue.Proofs.System.Views
import BuildQueue.Proofs.Pass.Rules
import BuildQueue.Proofs.Pass.Tally
import BuildQueue.Proofs.Pass.Finding
import BuildQueue.Proofs.Sample
import BuildQueue.Proofs.Pass.Screening
import BuildQueue.Proofs.Pass.Attest
import BuildQueue.Proofs.Pass.Competing
import BuildQueue.Proofs.Pass.Course
import BuildQueue.Proofs.View.Caching
import BuildQueue.Proofs.View.Assembling
import BuildQueue.Proofs.Pass.Skipping
import BuildQueue.Proofs.Pass.Searching
import BuildQueue.Proofs.Pass.Alone
import BuildQueue.Proofs.Pass.Ending
import BuildQueue.Proofs.Pass.StandIn
import BuildQueue.Proofs.System.Survivor
import BuildQueue.Proofs.System.Once
import BuildQueue.Proofs.System.Progress
import BuildQueue.Proofs.System.Confluence
import BuildQueue.Proofs.System.Crew
import BuildQueue.Proofs.Store.Batches
import BuildQueue.Proofs.Store.Queue
import BuildQueue.Proofs.View.Fingerprint
import BuildQueue.Proofs.Pass.Deciding
import BuildQueue.Proofs.Store.Numbering
import BuildQueue.Proofs.Memo.Recency
import BuildQueue.Proofs.Memo.Renewal
import BuildQueue.Proofs.Memo.Rounds
import BuildQueue.Proofs.Memo.Restarts
import BuildQueue.Proofs.Memo.Spinning
import BuildQueue.Proofs.Text.Trimming
import BuildQueue.Proofs.Settings.Checking
import BuildQueue.Proofs.Settings.Validity
import BuildQueue.Proofs.Policy
import BuildQueue.Proofs.Source
import BuildQueue.Proofs.View.Merging
import BuildQueue.Proofs.Text.Splitting
import BuildQueue.Proofs.View.Reasons
import BuildQueue.Proofs.View.Cost
import BuildQueue.Proofs.Pass.Billing
import BuildQueue.Proofs.Context.Origins
import BuildQueue.Proofs.Context.Sharing
import BuildQueue.Proofs.Json.Restating
import BuildQueue.Proofs.Json.Rows
import BuildQueue.Proofs.Calendar
import BuildQueue.Proofs.Text.Digits
import BuildQueue.Proofs.Timestamp
