import OHHive.AgentTools.Authority
import OHHive.AgentTools.PolicyUpdates
import OHHive.AgentTools.Revocation
import OHHive.AgentTools.Secrets
import OHHive.AgentTools.ToolLoopRuns
import OHHive.Bots.Concurrency
import OHHive.Bots.Headroom
import OHHive.Bots.HtmlTokens
import OHHive.Bots.MentionResolution
import OHHive.Bots.OwnReplies
import OHHive.Bots.Paging
import OHHive.Bots.Reading
import OHHive.Bots.RoomRuns
import OHHive.Bots.Routing
import OHHive.Bots.Sending
import OHHive.Bots.SoleConversation
import OHHive.Cloud.ArchiveColumns
import OHHive.Cloud.BlobSafety
import OHHive.Cloud.ClaimAdmission
import OHHive.Cloud.CodeBrainCeiling
import OHHive.Cloud.CodesConsumed
import OHHive.Cloud.Invisibility
import OHHive.Cloud.LeaseKeeping
import OHHive.Cloud.ProviderMoney
import OHHive.Cloud.Redemptions
import OHHive.Cloud.SoleCoordinator
import OHHive.Coder.Citations
import OHHive.Coder.Receipts
import OHHive.Coder.SessionBounds
import OHHive.Coder.WriteGuards
import OHHive.Control.Starvation
import OHHive.Desktop.Provider
import OHHive.Desktop.Spending
import OHHive.Fleet.SoundEnrollment
import OHHive.Foundation.ReadCommitted
import OHHive.LocalHub.BoundedReview
import OHHive.LocalHub.ChildCards
import OHHive.LocalHub.DependencyOutputs
import OHHive.LocalHub.DraftCheckpoints
import OHHive.LocalHub.Migrations
import OHHive.LocalHub.PreparationFencing
import OHHive.LocalHub.ScheduleRuns
import OHHive.LocalHub.StagedTasks
import OHHive.Subscription.DurableReplies
import OHHive.Vault.CuratedViews
import OHHive.Vault.DuplicateFindings
import OHHive.Vault.FolderPublication
import OHHive.Vault.Intake
import OHHive.Vault.IntakeOrder
import OHHive.Vault.LibraryDeletion
import OHHive.Vault.MaintenanceSafety
import OHHive.Vault.ReplyRuns
