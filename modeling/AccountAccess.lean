import AccountAccess.Http.Site
import AccountAccess.Proofs.Session.ConcurrentLogin
import AccountAccess.Proofs.Session.Failures
import AccountAccess.Proofs.Session.LogoutRace
import AccountAccess.Redis.Script
import AccountAccess.Sql.Script
import AccountAccess.Proofs.Code.Spend
import AccountAccess.Proofs.Code.Request
import AccountAccess.Proofs.Code.Contest
import AccountAccess.Proofs.Code.Concurrent
import AccountAccess.Proofs.Code.Ledger
import AccountAccess.Proofs.Grant.Derived
import AccountAccess.Proofs.Grant.Following
import AccountAccess.Proofs.Grant.Revocation
import AccountAccess.Proofs.Session.Opening
import AccountAccess.Proofs.Session.PasswordLogin
import AccountAccess.Proofs.Cache.Snapshots
import AccountAccess.Proofs.Service.Readings
import AccountAccess.Proofs.Session.Verdict
import AccountAccess.Proofs.Session.DeclaredScene
import AccountAccess.Proofs.Session.Staleness
import AccountAccess.Proofs.Http.Guards
import AccountAccess.Proofs.Http.Course
import AccountAccess.Proofs.Service.Outage
import AccountAccess.Proofs.Http.Outage
import AccountAccess.Proofs.Text.Hex
import AccountAccess.Proofs.Text.Literal
import AccountAccess.Proofs.Http.Header
import AccountAccess.Proofs.Partner.Admission
import AccountAccess.Proofs.Redis.Server
import AccountAccess.Proofs.Cache.Live
import AccountAccess.Proofs.Text.Bytes
import AccountAccess.Proofs.Redis.Carry
import AccountAccess.Proofs.Redis.Agreement
import AccountAccess.Proofs.Redis.Counters
import AccountAccess.Proofs.Redis.Clients
import AccountAccess.Proofs.Http.Causes
import AccountAccess.Proofs.Session.PasswordChange
import AccountAccess.Proofs.Grant.Sorted
import AccountAccess.Proofs.Grant.Rebuild
import AccountAccess.Proofs.Grant.Standing
import AccountAccess.Proofs.Http.Naming
import AccountAccess.Proofs.Http.Windows
import AccountAccess.Proofs.Http.FixedWindow
import AccountAccess.Proofs.Cache.Sweep
import AccountAccess.Proofs.Cache.Interruption
import AccountAccess.Proofs.Session.Retention
import AccountAccess.Proofs.Session.Bearer
import AccountAccess.Proofs.Account.Identifier
import AccountAccess.Proofs.Session.Owner
import AccountAccess.Proofs.Http.Mounting
import AccountAccess.Proofs.Grant.Exact
import AccountAccess.Proofs.Store.Deleted
import AccountAccess.Proofs.Http.ClientName
import AccountAccess.Proofs.Service.Passing
import AccountAccess.Proofs.Session.Expiry
import AccountAccess.Proofs.Password.Policy
import AccountAccess.Proofs.Account.Row
