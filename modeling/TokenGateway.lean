import TokenGateway.Billing.Period
import TokenGateway.Reseller.Projection
import TokenGateway.Reseller.LifeCycle
import TokenGateway.Billing.Applied
import TokenGateway.Billing.TaskConservation
import TokenGateway.Billing.AuditCalls
import TokenGateway.Reseller.Agreement
import TokenGateway.Payment.Manual
import TokenGateway.Payment.Wallet
import TokenGateway.Payment.BatchUpdate
import TokenGateway.Pricing.TextQuota
import TokenGateway.Expression.OneLeaf
import TokenGateway.Editor.Simulator
import TokenGateway.Realtime.Revisions
import TokenGateway.Realtime.Cutover
import TokenGateway.Relay.FinalResponse
import TokenGateway.Relay.ClaudeStream
import TokenGateway.Toolconv.HostedHistory
import TokenGateway.Channels.Disable
import TokenGateway.Channels.Keys
import TokenGateway.Channels.Retry
import TokenGateway.Sessions.Revocation
import TokenGateway.Tasks.Lease
import TokenGateway.Tasks.Polling
import TokenGateway.Authz.Permissions
import TokenGateway.Limits.Memory
import TokenGateway.Limits.Redis
import TokenGateway.Invoices.UsageCover
import TokenGateway.Invoices.Ownership
