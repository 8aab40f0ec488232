import OpenHands.Lib.Run
import OpenHands.StreamRuns
import OpenHands.EventLog
import OpenHands.Lib.Bracket
import OpenHands.Lib.PySeq
import OpenHands.View
import OpenHands.Condenser
import OpenHands.CondensationSafety
import OpenHands.CondensedRuns
import OpenHands.MaskedCondensation
import OpenHands.State
import OpenHands.StateTracker
import OpenHands.ResponseActions
import OpenHands.RestoredHistory
import OpenHands.LoopRecovery
import OpenHands.ViewCache
import OpenHands.EventBus
import OpenHands.AgentController
import OpenHands.TurnFrame
import OpenHands.MessageRouting
import OpenHands.PendingAction
import OpenHands.OutstandingAction
import OpenHands.OutstandingRuns
import OpenHands.CondenserPipeline
import OpenHands.StoreContent
import OpenHands.NestedEventStore
import OpenHands.NestedSearchEnd
import OpenHands.ConcurrentStream
import OpenHands.SavedSession
import OpenHands.ControlLimits
import OpenHands.SessionLimits
import OpenHands.ToolCalls
import OpenHands.AnsweredCalls
import OpenHands.Lib.PyDict
import OpenHands.Lib.Fallible
import OpenHands.Lib.PyLines
import OpenHands.Lib.PyStr
import OpenHands.ConversationMemory
import OpenHands.ToolProtocol
import OpenHands.CompletedCalls
import OpenHands.EventClasses
import OpenHands.EventSerialization
import OpenHands.EventConstructors
import OpenHands.SerializationRoundTrip
import OpenHands.Lib.PyRe
import OpenHands.Lib.JsonText
import OpenHands.FnCallConverter
import OpenHands.Lib.JsonRoundTrip
import OpenHands.FnCallTags
import OpenHands.FnCallArguments
import OpenHands.FnCallFormat
import OpenHands.FnCallMessages
import OpenHands.FnCallAssistant
import OpenHands.FnCallUser
import OpenHands.FnCallRoundTrip
import OpenHands.AnsweredToolCalls
import OpenHands.ConversationStats
import OpenHands.BudgetValue
import OpenHands.Lib.PyReplace
import OpenHands.SecretReplacement
import OpenHands.BatchOperation
import OpenHands.BatchedWebHook
import OpenHands.Lib.UpdateLog
import OpenHands.MetricsDiff
import OpenHands.MirroredFiles
import OpenHands.FilesystemEvents
import OpenHands.EventPages
import OpenHands.Lib.FileTree
import OpenHands.FileStores
import OpenHands.SameStores
import OpenHands.SameListings
import OpenHands.PortLock
import OpenHands.PortLockRuns
import OpenHands.AgentLoops
import OpenHands.EventWebhook
import OpenHands.Lib.LastFound
import OpenHands.WebhookKeys
import OpenHands.Lib.OldestFirst
import OpenHands.RunningConversations
import OpenHands.ConversationLimit
import OpenHands.Lib.ExpiringKeys
import OpenHands.NestedStarts
import OpenHands.NestedStartRuns
import OpenHands.PolledEvents
import OpenHands.PolledRuns
import OpenHands.BillingCallbacks
import OpenHands.BillingRuns
import OpenHands.Lib.PickedRow
import OpenHands.Subscriptions
import OpenHands.SubscriptionRuns
import OpenHands.Sandboxes
import OpenHands.SandboxKeys
import OpenHands.ClusteredOwners
import OpenHands.ClusteredLimit
import OpenHands.LLMCompletions
import OpenHands.IdpTokenRuns
import OpenHands.SaasSettingsRuns
import OpenHands.ProactiveConversationRuns
import OpenHands.WebhookUpdates
import OpenHands.SandboxLimitRuns
import OpenHands.SocketConnectionRuns
import OpenHands.AgentSessionRuns
import OpenHands.SandboxRecords
import OpenHands.Lib.MergedPages
import OpenHands.ConversationSearch
import OpenHands.ConversationPages
import OpenHands.Lib.Forest
import OpenHands.ConversationDeletions
import OpenHands.DeletedSubtrees
import OpenHands.SandboxReferences
import OpenHands.AccessTokens
import OpenHands.AttachedConversations
import OpenHands.AttentionSelection
import OpenHands.MatchedToolCalls
import OpenHands.RecentEvents
import OpenHands.Lib.FirstFound
import OpenHands.CondensedViews
import OpenHands.ConversationWindow
import OpenHands.OrphanedObservations
import OpenHands.WindowRuns
import OpenHands.ForwardedDelegates
import OpenHands.RefusedIterations
import OpenHands.Replay
import OpenHands.RecordedTurns
import OpenHands.ReplayedSessions
import OpenHands.ReadableHistories
import OpenHands.RepeatedCalls
import OpenHands.RefreshedEventRuns
import OpenHands.FileActions
import OpenHands.StartedSessions
import OpenHands.GitChanges
import OpenHands.StuckDetector
import OpenHands.Lib.TextPieces
import OpenHands.BashEscaping
import OpenHands.Lib.JsonSplices
import OpenHands.Lib.PyFloat
import OpenHands.PS1Metadata
import OpenHands.BashSession
import OpenHands.BashSessionRuns
import OpenHands.DraftEdits
import OpenHands.DraftEditAttempts
import OpenHands.BashCommands
import OpenHands.QueuedBytes
import OpenHands.ContextualEvents
import OpenHands.Lib.CyclicPages
import OpenHands.PullRequests
import OpenHands.CollectedPullRequests
import OpenHands.GitlabWebhooks
import OpenHands.InstalledWebhooks
import OpenHands.Lib.EditScripts
import OpenHands.Patches
import OpenHands.AppliedPatches
import OpenHands.ListedConversations
import OpenHands.BucketStores
import OpenHands.RateLimits
import OpenHands.FileWindows
import OpenHands.SandboxWaits
import OpenHands.EncryptedSettings
import OpenHands.Lib.TimedCache
import OpenHands.LegacyRouting
import OpenHands.SingleWrites
import OpenHands.DeliveredWrites
import OpenHands.WorkingSeconds
