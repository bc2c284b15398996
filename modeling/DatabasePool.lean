import DatabasePool.Config.Decode
import DatabasePool.Session
import DatabasePool.Time.Timestamp
import DatabasePool.Proofs.Cases
import DatabasePool.Proofs.Ledger
import DatabasePool.Proofs.Tasks
import DatabasePool.Proofs.Action
import DatabasePool.Proofs.Bookkeeping
import DatabasePool.Proofs.Capacity
import DatabasePool.Proofs.Places
import DatabasePool.Proofs.Exclusive
import DatabasePool.Proofs.Names
import DatabasePool.Proofs.Rings
import DatabasePool.Proofs.Turns
import DatabasePool.Proofs.Release
import DatabasePool.Proofs.Scene
import DatabasePool.Proofs.Deeds
import DatabasePool.Proofs.Happenings
import DatabasePool.Proofs.Entries
import DatabasePool.Proofs.Custody
import DatabasePool.Proofs.Slots
import DatabasePool.Proofs.Currency
import DatabasePool.Proofs.Overdue
import DatabasePool.Proofs.Moves
import DatabasePool.Proofs.Records
import DatabasePool.Proofs.Holders
import DatabasePool.Proofs.Finality
import DatabasePool.Proofs.Undoing
import DatabasePool.Proofs.Except
import DatabasePool.Proofs.Json.Grammar
import DatabasePool.Proofs.Json.Numeral
import DatabasePool.Proofs.Json.Quoted
import DatabasePool.Proofs.Json.Loops
import DatabasePool.Proofs.Json.Values
import DatabasePool.Proofs.Json.Write
import DatabasePool.Proofs.Config.Choices
import DatabasePool.Proofs.Config.Options
import DatabasePool.Proofs.Config.Groups
import DatabasePool.Proofs.Config.RoundTrip
import DatabasePool.Proofs.Requests
import DatabasePool.Proofs.Checkouts
import DatabasePool.Proofs.Totals
import DatabasePool.Proofs.Deadlines
import DatabasePool.Proofs.Recency
import DatabasePool.Proofs.Horizon
import DatabasePool.Proofs.Retelling
import DatabasePool.Proofs.Dropping
import DatabasePool.Proofs.Remarks
import DatabasePool.Proofs.Verdicts
import DatabasePool.Proofs.Returning
import DatabasePool.Proofs.LastUse
import DatabasePool.Proofs.Trying
import DatabasePool.Proofs.Alone
import DatabasePool.Proofs.Scans
import DatabasePool.Proofs.Averages
import DatabasePool.Proofs.Samples
import DatabasePool.Proofs.Spinning
import DatabasePool.Proofs.Numbers
import DatabasePool.Proofs.Dialling
import DatabasePool.Proofs.Opening
