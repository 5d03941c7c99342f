import AssetInventory.Dfir.Outcomes
import AssetInventory.Dfir.UserPrompt
import AssetInventory.Dfir.Artifacts
import AssetInventory.Dfir.Lease
import AssetInventory.Dfir.Heartbeats
import AssetInventory.DeepAgent.Candidates
import AssetInventory.DeepAgent.Gate
import AssetInventory.DeepAgent.Jobs
import AssetInventory.DeepAgent.ScriptTags
import AssetInventory.Server.AgentSettings
import AssetInventory.Server.SecondFactors
import AssetInventory.Server.Sessions
import AssetInventory.Server.Enrolment
import AssetInventory.Server.SuperAdmins
import AssetInventory.Server.Authenticators
import AssetInventory.Server.AlertRules
import AssetInventory.Dfir.Aliases
import AssetInventory.Dfir.Chat
import AssetInventory.Server.ClientIp
import AssetInventory.Fleet.OneToken
import AssetInventory.Fleet.Declined
import AssetInventory.Fleet.Normalize
import AssetInventory.Fleet.WeightedId
import AssetInventory.Fleet.Newest
import AssetInventory.Fleet.Bundles
import AssetInventory.Fleet.Attempts
import AssetInventory.Fleet.Classification
import AssetInventory.Fleet.Isolation
import AssetInventory.Profiles.ExtractJson
import AssetInventory.Profiles.SelfHeal
import AssetInventory.Profiles.Catalogue
import AssetInventory.Profiles.Procedure
import AssetInventory.Profiles.Decisions
import AssetInventory.Profiles.Codes
import AssetInventory.Profiles.Officers
import AssetInventory.Monitor.Loop
import AssetInventory.Monitor.Results
import AssetInventory.Monitor.Recipients
import AssetInventory.Monitor.Lost
import AssetInventory.Monitor.TelegramLinks
import AssetInventory.Velociraptor.Sync
import AssetInventory.Velociraptor.Top10
import AssetInventory.Velociraptor.Metadata
import AssetInventory.Velociraptor.Hunts
import AssetInventory.Velociraptor.Registry
import AssetInventory.Server.AuditTargets
import AssetInventory.Server.Subscriptions
import AssetInventory.Server.AlertTemplates
import AssetInventory.Fleet.Deletion
import AssetInventory.Fleet.Timeline
import AssetInventory.Fleet.Partitions
import AssetInventory.Portal.Session
