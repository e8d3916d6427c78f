import ThatLimit.Framework.Transition
import ThatLimit.Framework.Refinement
import ThatLimit.Framework.Ranking
import ThatLimit.Framework.Pairing
import ThatLimit.Framework.DashMap
import ThatLimit.Framework.Tally
import ThatLimit.Framework.Chunks
import ThatLimit.Framework.Scan
import ThatLimit.Framework.Digits
import ThatLimit.Framework.Rounding
import ThatLimit.Framework.SingleFlight
import ThatLimit.Framework.Pool
import ThatLimit.Framework.FixedWindow
import ThatLimit.Framework.Broadcast
import ThatLimit.Framework.Lua
import ThatLimit.Core.Bucket
import ThatLimit.Core.Config
import ThatLimit.Core.Cache
import ThatLimit.Core.Range
import ThatLimit.Core.Store
import ThatLimit.Core.RedisText
import ThatLimit.Core.ScriptText
import ThatLimit.Core.Exact
import ThatLimit.Window.Scripts
import ThatLimit.Window.Bursts
import ThatLimit.Window.Keys
import ThatLimit.Lease.Ledger
import ThatLimit.Lease.Account
import ThatLimit.Adapters.Address
import ThatLimit.Adapters.Display
import ThatLimit.Concurrent.System
import ThatLimit.Concurrent.Steps
import ThatLimit.Concurrent.Refills
import ThatLimit.Concurrent.LiveTokens
import ThatLimit.Concurrent.Marks
import ThatLimit.Concurrent.Removals
import ThatLimit.Concurrent.Books
import ThatLimit.Concurrent.Admission
import ThatLimit.Concurrent.Holdings
import ThatLimit.Concurrent.Shortfall
import ThatLimit.Concurrent.Shutdown
import ThatLimit.Concurrent.Meter
import ThatLimit.Concurrent.Waits
import ThatLimit.Concurrent.Texts
import ThatLimit.Concurrent.Progress
import ThatLimit.Concurrent.Passes
import ThatLimit.Concurrent.Returns
import ThatLimit.Concurrent.Likeness
import ThatLimit.Concurrent.Lonely
import ThatLimit.Concurrent.Isolation
import ThatLimit.Serial.Call
import ThatLimit.Serial.Cluster
import ThatLimit.Serial.Embedding
import ThatLimit.Serial.Counter
import ThatLimit.Serial.Asking
import ThatLimit.Serial.Expiry
import ThatLimit.Serial.Outage
import ThatLimit.Serial.Timeline
import ThatLimit.Serial.Closing
import ThatLimit.Serial.Handback
import ThatLimit.Serial.Renewal
import ThatLimit.Process.Stopping
import ThatLimit.Process.Running
import ThatLimit.Adapters.Identity
import ThatLimit.Adapters.Extraction
import ThatLimit.Adapters.Agreement
import ThatLimit.Adapters.Answer
import ThatLimit.Adapters.Response
import ThatLimit.Adapters.Verdict
