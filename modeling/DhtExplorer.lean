import DhtExplorer.BanList
import DhtExplorer.TableRuns
import DhtExplorer.BucketConcurrency
import DhtExplorer.LookupOrder
import DhtExplorer.MessageCodec
import DhtExplorer.QueueExactness
import DhtExplorer.NodeQueries
import DhtExplorer.PeerStore
import DhtExplorer.Receive
import DhtExplorer.RouterConcurrency
import DhtExplorer.SampleReply
import DhtExplorer.SearchResult
import DhtExplorer.SweepQueue
import DhtExplorer.LoadedTable
import DhtExplorer.AddressFallback
import DhtExplorer.SweepOnce
import DhtExplorer.RecencyOrder
import DhtExplorer.Shifts
import DhtExplorer.XorMetric
import DhtExplorer.CompactLists
import DhtExplorer.Bep42
import DhtExplorer.Tokens
import DhtExplorer.SearchDescent
import DhtExplorer.LookupAdvance
import DhtExplorer.AnnounceRound
import DhtExplorer.NetworkSearch
import DhtExplorer.NodeContacts
import DhtExplorer.NodeSearches
import DhtExplorer.AcceptedMessages
import DhtExplorer.QueryLimit
import DhtExplorer.TablePanics
import DhtExplorer.LookupCost
import DhtExplorer.LookupConcurrency
import DhtExplorer.SweepEnd
import DhtExplorer.NetworkSweep
import DhtExplorer.NodeNetwork
