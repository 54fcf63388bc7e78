import Gnostr.Lib.OrderStat
import Gnostr.Lib.Machine
import Gnostr.Time.Clock
import Gnostr.Time.Sync
import Gnostr.Time.Run
import Gnostr.Lib.IterOrder
import Gnostr.Lib.PadZip
import Gnostr.PerfectIp.Packet
import Gnostr.PerfectIp.Batch
import Gnostr.PerfectIp.Manager
import Gnostr.PerfectIp.Integrity
import Gnostr.PerfectIp.Repair
import Gnostr.Lib.MaxBy
import Gnostr.RepoState.Quorum
import Gnostr.RepoState.Convergence
import Gnostr.RepoState.Soundness
import Gnostr.Lib.Base64
import Gnostr.Lib.Outcome
import Gnostr.Lib.Bech32
import Gnostr.Lib.Hex
import Gnostr.Types.EventKind
import Gnostr.Types.Keys
import Gnostr.Types.Filter
import Gnostr.Crypto.ContentEncryption
import Gnostr.Crypto.EncryptedPrivateKey
import Gnostr.Content.Content
import Gnostr.Content.Partition
import Gnostr.Nip19.Agree
import Gnostr.Lib.Decimal
import Gnostr.Lib.Json
import Gnostr.Types.Delegation
import Gnostr.Types.Tag
import Gnostr.Signer.Authenticity
import Gnostr.Signer.Mining
import Gnostr.Types.Zap
import Gnostr.Nip34.RepoRef
import Gnostr.Types.FilterJson
import Gnostr.Types.Messages
import Gnostr.Types.TagV2Visitor
import Gnostr.GitHelpers.Addressing
import Gnostr.GitHelpers.BlobServer
import Gnostr.GitHelpers.BlossomStore
import Gnostr.GitHelpers.Completeness
import Gnostr.GitHelpers.Concurrency
import Gnostr.GitHelpers.Head
import Gnostr.GitHelpers.History
import Gnostr.GitHelpers.Newest
import Gnostr.Nip34.RepoState
import Gnostr.GitHelpers.Framing
import Gnostr.GitHelpers.Untrusted
import Gnostr.GitHelpers.Visibility
import Gnostr.Chat.Counting
import Gnostr.Chat.Delivery
import Gnostr.Chat.Mixing
import Gnostr.Chat.Outgoing
import Gnostr.Crawler.Html
import Gnostr.Crawler.Query
import Gnostr.Crawler.QueryPages
import Gnostr.GitHelpers.RemoteUrl
import Gnostr.Legit.Gitminer
import Gnostr.Crawler.Escaping
import Gnostr.Crawler.Files
import Gnostr.Crawler.NipBuckets
import Gnostr.Crypto.ImportPanics
import Gnostr.Lib.Authority
import Gnostr.Lib.Firsts
import Gnostr.Lib.SwapRemove
import Gnostr.Lib.Wrapping
import Gnostr.P2p.RelayBucket
import Gnostr.Time.Alert
import Gnostr.Types.Client
import Gnostr.Types.FilterOps
import Gnostr.Nip19.Urlize
import Gnostr.Nip34.Patch
import Gnostr.Types.KindNumbers
import Gnostr.Types.Mentions
import Gnostr.Types.Nip26
import Gnostr.Lib.Layout
import Gnostr.Types.SpeedyEvent
import Gnostr.Signer.ExportFailure
import Gnostr.Lib.StableSort
import Gnostr.Nip34.StateTags
import Gnostr.Nip34.StateOrder
import Gnostr.Types.FileMetadata
import Gnostr.Types.RelayList
import Gnostr.GitHelpers.ManifestSearch
import Gnostr.GitHelpers.RelayLookup
import Gnostr.GitHelpers.RepoAddr
import Gnostr.P2p.ChatTopics
import Gnostr.P2p.PeerTable
import Gnostr.P2p.DialRuns
import Gnostr.Crawler.RelayEntries
import Gnostr.Crawler.StopCondition
import Gnostr.Crawler.Fallback
import Gnostr.Asyncgit.Pow
import Gnostr.Crawler.FilterMeaning
import Gnostr.Crawler.ServedRelays
import Gnostr.Asyncgit.NoteLog
import Gnostr.Asyncgit.NoteAtomicity
import Gnostr.Crypto.Padding
import Gnostr.Cli.Retry
import Gnostr.Cli.WatchList
import Gnostr.Cli.RelayPriority
import Gnostr.Cli.QueryAgreement
import Gnostr.Types.Channels
import Gnostr.Asyncgit.AsyncNotes
import Gnostr.P2p.RelayBridge
import Gnostr.Lib.EditScript
import Gnostr.Lib.BestFirst
import Gnostr.Lib.Outline
import Gnostr.Asyncgit.Staging
import Gnostr.Asyncgit.StagingRuns
import Gnostr.Asyncgit.LogWalker
import Gnostr.Asyncgit.AsyncLog
import Gnostr.Filetree.Items
import Gnostr.Filetree.Build
import Gnostr.Filetree.Fold
import Gnostr.Filetree.Visibility
import Gnostr.Filetree.Tree
import Gnostr.Filetree.Reveal
import Gnostr.Filetree.Session
import Gnostr.Filetree.TreeFiles
import Gnostr.Lib.Ancestry
import Gnostr.Ngit.PushPlan
import Gnostr.Lib.Ancestry
import Gnostr.Ngit.Repo
import Gnostr.Ngit.PushPlan
import Gnostr.Ngit.PushRun
import Gnostr.Ngit.PushSafety
import Gnostr.Lib.CursorParser
import Gnostr.TuiGit.GituDiff
import Gnostr.TuiGit.DiffText
import Gnostr.TuiGit.DiffCuts
import Gnostr.TuiGit.DiffAnswers
