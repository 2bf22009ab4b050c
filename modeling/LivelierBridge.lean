import LivelierBridge.Framework.Run
import LivelierBridge.Framework.Log
import LivelierBridge.Framework.OrderedMap
import LivelierBridge.Js.String
import LivelierBridge.Chat.Rooms
import LivelierBridge.Chat.ListenerOwnership
import LivelierBridge.Nostr.Event
import LivelierBridge.Chat.Fingerprint
import LivelierBridge.Chat.Inbound
import LivelierBridge.Chat.AtMostOnce
import LivelierBridge.Chat.DeliveryOrder
import LivelierBridge.Owncast.ChatPool
import LivelierBridge.Owncast.Delivery
import LivelierBridge.Owncast.Adapter
import LivelierBridge.Owncast.PoolSockets
import LivelierBridge.Owncast.Teardown
import LivelierBridge.Js.Stringify
import LivelierBridge.Nostr.SignedEvents
import LivelierBridge.Nostr.SignedAsAsked
import LivelierBridge.Framework.Returns
import LivelierBridge.Framework.Regex
import LivelierBridge.Js.Text
import LivelierBridge.Js.Json
import LivelierBridge.Owncast.Html
import LivelierBridge.Owncast.Frames
import LivelierBridge.Framework.Faulty
import LivelierBridge.Framework.KeyedJobs
import LivelierBridge.Framework.PromiseChain
import LivelierBridge.Discovery.Identity
import LivelierBridge.Discovery.Store
import LivelierBridge.Discovery.Engine
import LivelierBridge.Discovery.Cycle
import LivelierBridge.Owncast.Directory
import LivelierBridge.Discovery.Effects
import LivelierBridge.Discovery.Coordinates
import LivelierBridge.Discovery.RelayTruth
import LivelierBridge.Framework.Isolation
import LivelierBridge.Discovery.Isolation
import LivelierBridge.Nostr.EventVerifier
import LivelierBridge.Nostr.ProfileRequests
import LivelierBridge.Chat.Sourced
import LivelierBridge.Chat.Authenticity
import LivelierBridge.Chat.Outbound
import LivelierBridge.Chat.NoEcho
import LivelierBridge.Chat.OutboundOrder
import LivelierBridge.Chat.Silence
import LivelierBridge.Chat.Firehoses
import LivelierBridge.Chat.OneFirehose
import LivelierBridge.Chat.Restarts
import LivelierBridge.Chat.EchoWatch
import LivelierBridge.Owncast.Identities
import LivelierBridge.Discovery.Turns
import LivelierBridge.Discovery.Passes
import LivelierBridge.Discovery.Calls
import LivelierBridge.Discovery.OptOut
import LivelierBridge.Discovery.Heartbeat
import LivelierBridge.Discovery.Failures
import LivelierBridge.Discovery.Starts
import LivelierBridge.Discovery.LiveEventTags
import LivelierBridge.Discovery.Viewers
import LivelierBridge.Discovery.HostKeys
import LivelierBridge.Nostr.Publishing
import LivelierBridge.Containment
import LivelierBridge.Nostr.KnownIds
import LivelierBridge.Nostr.RateLimits
import LivelierBridge.Nostr.ReplaceableLoader
import LivelierBridge.Nostr.ProfileCoordinator
import LivelierBridge.Nostr.ProfileSession
import LivelierBridge.Nostr.ProfileDemand
import LivelierBridge.Nostr.ProfileDispatches
import LivelierBridge.Nostr.ProfileAttempts
import LivelierBridge.Nostr.TracedLoader
import LivelierBridge.Nostr.RefreshSession
import LivelierBridge.Nostr.ProfileAdvances
import LivelierBridge.Nostr.ProfileRefreshes
import LivelierBridge.Database.PrefixApplied
import LivelierBridge.Owncast.NeverStuck
import LivelierBridge.Owncast.DialCadence
import LivelierBridge.Nostr.AuthedOutcome
import LivelierBridge.Owncast.HtmlRoundTrip
import LivelierBridge.Owncast.InstanceEmoji
import LivelierBridge.Owncast.TokensHtml
import LivelierBridge.Owncast.DirectoryEntries
import LivelierBridge.Content.Processors
import LivelierBridge.Chat.ExactDedup
import LivelierBridge.Content.Lossless
import LivelierBridge.Chat.ContentRender
import LivelierBridge.Nostr.QueryWithStats
import LivelierBridge.Nostr.QueryAccounting
import LivelierBridge.Nostr.EarlyCompletion
import LivelierBridge.Nostr.CooldownDiscipline
import LivelierBridge.Nostr.ReplaceableBatches
import LivelierBridge.Nostr.BatchIndependence
import LivelierBridge.Content.Declined
import LivelierBridge.Nostr.TierOutcomes
import LivelierBridge.Nostr.Resolution
import LivelierBridge.Nostr.BatchLoader
import LivelierBridge.Nostr.PublishContainment
import LivelierBridge.Discovery.Channel
import LivelierBridge.Chat.FingerprintRuns
import LivelierBridge.Owncast.SenderPacing
import LivelierBridge.Framework.StorageCell
import LivelierBridge.Nostr.ProfilePersistence
import LivelierBridge.Framework.RegexParts
import LivelierBridge.Owncast.EmojiText
import LivelierBridge.Nostr.LoaderCache
import LivelierBridge.Nostr.LoaderKeys
import LivelierBridge.Discovery.KeyMessages
import LivelierBridge.Discovery.PollLoop
import LivelierBridge.Discovery.LoopRuns
import LivelierBridge.Discovery.SnapshotCadence
import LivelierBridge.Nostr.ProfileMissCache
import LivelierBridge.Nostr.MissLedger
import LivelierBridge.Nostr.SubscriptionEnds
import LivelierBridge.Config
import LivelierBridge.Boot
import LivelierBridge.Operations.Retract
import LivelierBridge.Operations.RetractRuns
import LivelierBridge.Framework.Tables
import LivelierBridge.Operations.ArgParser
import LivelierBridge.Operations.SetChat
import LivelierBridge.Operations.SetChatRuns
import LivelierBridge.Nostr.QueryAnswers
import LivelierBridge.Site.Finder
import LivelierBridge.Site.FinderTruth
import LivelierBridge.Js.Html
import LivelierBridge.Site.Cards
import LivelierBridge.Site.InertCards
