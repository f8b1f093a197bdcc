import Teleprompter.FiniteDictionary
import Teleprompter.StepRuns
import Teleprompter.KeyedQueues
import Teleprompter.SpawnedTasks
import Teleprompter.BiasedWriter
import Teleprompter.Base64
import Teleprompter.StreamCuts
import Teleprompter.ByteReaders
import Teleprompter.JsonValues
import Teleprompter.FramedStreams
import Teleprompter.FrameCodec
import Teleprompter.FrameChunks
import Teleprompter.FrameReaders
import Teleprompter.RelayRegistry
import Teleprompter.RelayRegistrySound
import Teleprompter.RingIsolation
import Teleprompter.RelayServer
import Teleprompter.RelayConn
import Teleprompter.RelayEffects
import Teleprompter.RelayIsolation
import Teleprompter.RelayAttached
import Teleprompter.RelayPresence
import Teleprompter.GroupBudgets
import Teleprompter.ResumeTokens
import Teleprompter.ResumeEviction
import Teleprompter.PushService
import Teleprompter.PushIsolation
import Teleprompter.DedupStorm
import Teleprompter.PushCounting
import Teleprompter.PairingCrypto
import Teleprompter.KeyExchange
import Teleprompter.KeyExchangeNetwork
import Teleprompter.KeyAgreement
import Teleprompter.KeyQuiescence
import Teleprompter.SessionRecords
import Teleprompter.AppSessionStore
import Teleprompter.RecordIngest
import Teleprompter.RecordReplay
import Teleprompter.PairingLink
import Teleprompter.SessionStore
import Teleprompter.StoreConfinement
import Teleprompter.StoreAgreement
import Teleprompter.SessionExport
import Teleprompter.RunnerProcesses
import Teleprompter.RunnerGenerations
import Teleprompter.RunnerTracking
import Teleprompter.RelayConnection
import Teleprompter.ClientDispose
import Teleprompter.ReconnectThrottle
import Teleprompter.PublishOrder
import Teleprompter.ControlOrder
import Teleprompter.ReplyRouting
import Teleprompter.TerminalInput
import Teleprompter.SessionSubscriptions
import Teleprompter.PairingOrchestrator
import Teleprompter.PairingRuntime
import Teleprompter.PairingTransitions
import Teleprompter.PairingOutcomes
import Teleprompter.PairingOwnership
import Teleprompter.RelayManager
import Teleprompter.PairingRemoval
import Teleprompter.PairingReconnect
import Teleprompter.PushTokens
import Teleprompter.PairingLabels
import Teleprompter.WireGuards
import Teleprompter.IpcMessages
import Teleprompter.RelayWire
import Teleprompter.IpcConnection
import Teleprompter.IpcAccept
import Teleprompter.LinkedPaths
import Teleprompter.WorktreePaths
import Teleprompter.WorktreeRemoval
import Teleprompter.WorktreeCreate
import Teleprompter.BestPerKey
import Teleprompter.PairingRecords
import Teleprompter.PairingReconcile
import Teleprompter.PeerSnapshots
import Teleprompter.PairingLifecycle
import Teleprompter.AntiDowngrade
import Teleprompter.SessionLists
import Teleprompter.TerminalHistory
import Teleprompter.RunnerOutput
import Teleprompter.RelayDelivery
import Teleprompter.RelayOrder
import Teleprompter.PushDelivery
import Teleprompter.CloseNotices
import Teleprompter.RunnerClose
import Teleprompter.DaemonLock
import Teleprompter.FallibleFiles
import Teleprompter.BundleUpgrade
import Teleprompter.PairingBounds
import Teleprompter.SessionRatchet
import Teleprompter.CreationLogs
import Teleprompter.RingRefinement
import Teleprompter.FixedWindows
import Teleprompter.PushBudgets
import Teleprompter.PushSealer
import Teleprompter.OpenDatabases
import Teleprompter.StoreUpserts
import Teleprompter.SessionPrune
import Teleprompter.WorktreeList
import Teleprompter.WorktreeContainment
import Teleprompter.ListPositions
import Teleprompter.ChatCoalescing
import Teleprompter.ListedKeys
import Teleprompter.PointerReconcile
import Teleprompter.CollapsedRuns
import Teleprompter.SessionLabels
import Teleprompter.VersionOrder
import Teleprompter.ChecksumFile
import Teleprompter.PushRetries
import Teleprompter.StableReaders
import Teleprompter.JsonLiterals
import Teleprompter.ShellWords
import Teleprompter.HookReceiver
import Teleprompter.PatternScans
import Teleprompter.AnsiStripping
import Teleprompter.TextLines
import Teleprompter.MarkedTexts
import Teleprompter.CompletionsInstall
import Teleprompter.BundleExtraction
import Teleprompter.Segmentations
import Teleprompter.ToggledWalks
import Teleprompter.ChatMarkdown
import Teleprompter.MarkdownLosses
import Teleprompter.IntegerGuards
import Teleprompter.GregorianCalendar
import Teleprompter.IsoTimestamps
import Teleprompter.PassthroughOutput
import Teleprompter.LossyUtf8
import Teleprompter.LogsTail
import Teleprompter.ExportTexts
import Teleprompter.DisplayedTimes
import Teleprompter.PushNotifier
import Teleprompter.FlatObjects
import Teleprompter.ApnsTokens
import Teleprompter.PairingRows
import Teleprompter.MarkupEvents
import Teleprompter.AdminPage
import Teleprompter.AppMessages
import Teleprompter.SealedMessages
