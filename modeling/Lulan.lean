import Lulan.Proofs.Inventory
import Lulan.Proofs.Tickets
import Lulan.Proofs.Payments
import Lulan.Proofs.Validation
import Lulan.Proofs.Callbacks
import Lulan.Proofs.HoldIndex
import Lulan.Proofs.Duplicates
import Lulan.Proofs.Timetable
import Lulan.Proofs.Refunds
import Lulan.Proofs.Vessels
import Lulan.Proofs.Cancellation
import Lulan.Proofs.FareRules
import Lulan.Proofs.SigningKeys
import Lulan.Proofs.Webhooks
import Lulan.Proofs.Calls
import Lulan.Proofs.Evaluation
import Lulan.Proofs.Scans
import Lulan.Proofs.Search
import Lulan.Proofs.Cascade
import Lulan.Proofs.Bookings
import Lulan.Proofs.Quotes
import Lulan.Proofs.Charges
import Lulan.Proofs.Rounding
import Lulan.Proofs.Demand
import Lulan.Proofs.Pools
import Lulan.Proofs.Releases
import Lulan.Proofs.Stops
import Lulan.Proofs.Routes
import Lulan.Proofs.RateLimit
import Lulan.Proofs.Attribution
import Lulan.Proofs.Signatures
import Lulan.Proofs.Tokens
import Lulan.Proofs.Deliveries
import Lulan.Proofs.ReadBack
import Lulan.Proofs.Ceilings
import Lulan.Proofs.Givebacks
import Lulan.Proofs.OrderEvents
import Lulan.Proofs.Intervals
import Lulan.Proofs.Amounts
import Lulan.Proofs.WrappingKeys
import Lulan.Proofs.Bodies
import Lulan.Proofs.Payloads
import Lulan.Proofs.Reimports
import Lulan.Proofs.Retries
import Lulan.Proofs.LastAboard
import Lulan.Proofs.Wasm
import Lulan.Proofs.Isolation
import Lulan.Proofs.Revocation
import Lulan.Proofs.AuditTrail
