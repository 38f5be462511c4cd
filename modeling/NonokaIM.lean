import NonokaIM.Verification.Seq.Handover
import NonokaIM.Verification.MsgID.Uniqueness
import NonokaIM.Verification.Worker.Durability
import NonokaIM.Verification.Worker.SeqFallback
import NonokaIM.Verification.Worker.Delivery
import NonokaIM.Verification.Consumer.AtLeastOnce
import NonokaIM.Verification.Consumer.Order
import NonokaIM.Verification.Pull.RecallState
import NonokaIM.Verification.Delivery.Receipts
import NonokaIM.Verification.Delivery.FailedSet
import NonokaIM.Verification.Delivery.RetryBound
import NonokaIM.Verification.Delivery.Shutdown
import NonokaIM.Verification.Recall.ContentAfterRecall
import NonokaIM.Verification.Gateway.Authorisation
import NonokaIM.Verification.Worker.BatchFlush
import NonokaIM.Verification.Gateway.Notices
import NonokaIM.Verification.Session.Online
import NonokaIM.Verification.Session.LiveSocket
import NonokaIM.Verification.Router.WarmCache
import NonokaIM.Verification.Delivery.SinglePush
import NonokaIM.Verification.Delivery.ReceiptBatches
import NonokaIM.Verification.Delivery.PushWorkers
import NonokaIM.Verification.Delivery.ReceiptItems
import NonokaIM.Verification.Conversation.ReadPosition
import NonokaIM.Verification.Conversation.LostUpdates
import NonokaIM.Verification.Conversation.Previews
import NonokaIM.Verification.Outbox.Relay
import NonokaIM.Verification.Outbox.Transactions
import NonokaIM.Verification.Agent.ExclusiveRuns
import NonokaIM.Verification.Agent.OneReply
import NonokaIM.Verification.Agent.Retry
import NonokaIM.Verification.Agent.Context
import NonokaIM.Verification.Sdk.LoadMore
import NonokaIM.Verification.Sdk.PushDedup
import NonokaIM.Verification.Sdk.Handover
import NonokaIM.Verification.Sdk.Status
import NonokaIM.Verification.Sdk.Requests
import NonokaIM.Verification.Sdk.Sending
import NonokaIM.Verification.Web.LoadLatest
import NonokaIM.Verification.Web.Reconnect
import NonokaIM.Verification.Topic.NormalForms
import NonokaIM.Verification.Gateway.ConnManager
import NonokaIM.Verification.Gateway.Selection
import NonokaIM.Verification.Gateway.Origin
import NonokaIM.Verification.Worker.SenderCoherence
import NonokaIM.Verification.Gateway.ReadReceipts
import NonokaIM.Verification.Auth.Logout
import NonokaIM.Verification.Auth.RateLimit
import NonokaIM.Verification.Group.Provenance
import NonokaIM.Verification.Sdk.Gateways
import NonokaIM.Verification.Web.ReceiptStatus
import NonokaIM.Verification.Web.Unread
import NonokaIM.Verification.Web.OldestFirst
import NonokaIM.Verification.Web.ListPreview
import NonokaIM.Verification.Web.Mentions
import NonokaIM.Verification.Consumer.Backoff
import NonokaIM.Verification.Agent.ToolResults
import NonokaIM.Verification.File.Disposition
