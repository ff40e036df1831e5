import OpenBms.Activity.FilterParser
import OpenBms.Alerts.Severity
import OpenBms.Auth.Sessions
import OpenBms.Authz.Coherence
import OpenBms.Authz.Regeneration
import OpenBms.Automation.Frequency
import OpenBms.Automation.Registry
import OpenBms.Automation.Removal
import OpenBms.Automation.Rename
import OpenBms.Automation.Terminal
import OpenBms.Automation.Testab
import OpenBms.Builder.Connectors
import OpenBms.Campaigns.Earliest
import OpenBms.Campaigns.Editing
import OpenBms.Campaigns.Redelivery
import OpenBms.Campaigns.Schedule
import OpenBms.Campaigns.Stop
import OpenBms.Campaigns.Winner
import OpenBms.Contacts.History
import OpenBms.Contacts.Import
import OpenBms.Contacts.Inactive
import OpenBms.Contacts.Pages
import OpenBms.Contacts.TagEvents
import OpenBms.Contacts.WebPush
import OpenBms.Editor.Layout
import OpenBms.Editor.RoundTrip
import OpenBms.Editor.Save
import OpenBms.EnterpriseImport.ApiKey
import OpenBms.EnterpriseImport.Ownership
import OpenBms.EnterpriseImport.Reconcile
import OpenBms.EnterpriseImport.Values
import OpenBms.Events.Activity
import OpenBms.Events.Association
import OpenBms.Events.Bounces
import OpenBms.Events.Delivery
import OpenBms.Events.Duplicates
import OpenBms.Events.Inserts
import OpenBms.Events.Triggers
import OpenBms.MessageTrigger.SafeEvaluator
import OpenBms.MessageTrigger.TestAB
import OpenBms.MessageTrigger.UtmNumbers
import OpenBms.Messages.Unlayer
import OpenBms.Messaging.Connection
import OpenBms.Messaging.Consume
import OpenBms.Messaging.Loss
import OpenBms.Messaging.Publisher
import OpenBms.Packer.Deliveries
import OpenBms.Packer.Editor
import OpenBms.Packer.Recipients
import OpenBms.Packer.Slices
import OpenBms.Segment.Agreement
import OpenBms.Segment.Join
import OpenBms.Segment.Sets
import OpenBms.Segment.TempTables
import OpenBms.Segment.WellFormed
import OpenBms.SendEmail.Counters
import OpenBms.SendEmail.Suppressed
import OpenBms.SendEmail.Variables
import OpenBms.SendPush.Guard
import OpenBms.Setup.Wizard
import OpenBms.Statistics.Aggregation
import OpenBms.Statistics.Keys
import OpenBms.TagProcess.ClickHouse
import OpenBms.TagProcess.Lookups
import OpenBms.TagProcess.Membership
import OpenBms.TagProcess.Recalculation
import OpenBms.TagProcess.SegmentHistory
import OpenBms.TagProcess.SegmentLock
import OpenBms.TagProcess.TagBatch
import OpenBms.TagProcess.Weeks
import OpenBms.Tags.RealTime
import OpenBms.Tracker.Redirect
import OpenBms.Users.Escalation
import OpenBms.Whatsapp.SharedTemplates
import OpenBms.Whatsapp.Statuses
import OpenBms.Whatsapp.TemplateStatus
import OpenBms.Whatsapp.Templates
