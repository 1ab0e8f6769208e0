import Sakura.Txn.Prog
import Sakura.Txn.System
import Sakura.Txn.Rely
import Sakura.Basics
import Sakura.Ledger.Schema
import Sakura.Ledger.Balance
import Sakura.Ledger.Clients
import Sakura.Schema
import Sakura.Sql
import Sakura.Wallet
import Sakura.Membership
import Sakura.Commerce
import Sakura.Batch
import Sakura.Txn.Versions
import Sakura.Interference
import Sakura.Invariant
import Sakura.Proof.Session
import Sakura.Proof.Wallet
import Sakura.Proof.Membership
import Sakura.Proof.Grants
import Sakura.Proof.Commerce
import Sakura.Platform
import Sakura.Proof.Runs
import Sakura.Recharges
import Sakura.Spending
import Sakura.Refunds
import Sakura.MembershipTime
import Sakura.Conservation
import Sakura.BatchItems
import Sakura.Identity.Schema
import Sakura.Identity.Discipline
import Sakura.Identity.Requests
import Sakura.Identity.Owners
import Sakura.Identity.Sessions
import Sakura.Text
import Sakura.Txn.Alone
import Sakura.Queue.Failures
import Sakura.Emby.Accounts
import Sakura.Emby.Worker
import Sakura.Emby.Discipline
import Sakura.Emby.Upkeep
import Sakura.Emby.Provision
import Sakura.Emby.Requests
import Sakura.Emby.Users
import Sakura.Queue.Attempts
import Sakura.Txn.Single
import Sakura.Legacy.Wallets
import Sakura.Legacy.Keys
import Sakura.Legacy.Rows
import Sakura.Legacy.Convergence
import Sakura.Legacy.Checker
import Sakura.Legacy.Money
import Sakura.Legacy.Report
import Sakura.Legacy.People
import Sakura.Legacy.Gate
import Sakura.Queue.Workers
import Sakura.Favorites.Service
import Sakura.Favorites.Rows
import Sakura.Favorites.Runs
import Sakura.Risk.Service
import Sakura.Risk.Cancel
import Sakura.Risk.Upkeep
import Sakura.Risk.Suspension
import Sakura.Community.Media
import Sakura.Community.Automation
import Sakura.Community.Tickets
import Sakura.Community.Notes
import Sakura.Redemptions
import Sakura.Settings.Import
import Sakura.Settings.History
import Sakura.Migrate.Once
import Sakura.Community.Requests
import Sakura.Community.Downloads
import Sakura.Community.Turns
import Sakura.Community.Steps
import Sakura.Community.RequestLog
import Sakura.Community.Finished
import Sakura.Community.Subscribers
import Sakura.Expiry
import Sakura.Entitlements.Import
import Sakura.Entitlements.Order
import Sakura.Risk.Conditions
import Sakura.Risk.Ingest
import Sakura.Risk.Events
import Sakura.Txn.Buckets
import Sakura.Risk.Verdict
import Sakura.Risk.Cooldown
import Sakura.Risk.Sessions
import Sakura.Txn.Labels
import Sakura.Emby.Invitations
import Sakura.Emby.Accounting
import Sakura.Txn.Gates
import Sakura.Barrier
import Sakura.Counters
import Sakura.Targets
import Sakura.Untyped
import Sakura.Community.Effects
import Sakura.Community.Fallback
import Sakura.Community.Starvation
import Sakura.Messages
import Sakura.Txn.Page
import Sakura.Queue.Keys
import Sakura.Queue.Fencing
import Sakura.Txn.Settled
import Sakura.Queue.Schedule
import Sakura.Entitlements.Service
import Sakura.Entitlements.Sync
import Sakura.Reload
import Sakura.Telegram
import Sakura.Emby.Adoption
import Sakura.Limits
import Sakura.Entitlements.Access
import Sakura.Entitlements.Redeemers
import Sakura.Entitlements.Stacking
import Sakura.Base64
import Sakura.Legacy.Fernet
import Sakura.Identity.Passwords
import Sakura.Txn.Saves
import Sakura.Catalog.Schema
import Sakura.Catalog.Service
import Sakura.Catalog.Saves
