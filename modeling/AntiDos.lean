import AntiDos.Poller.Locks
import AntiDos.Poller.Queue
import AntiDos.Poller.Samples
import AntiDos.Poller.Descriptors
import AntiDos.Poller.Operator
import AntiDos.Poller.PolicyFile
import AntiDos.Filter.Reports
import AntiDos.Filter.Fragments
import AntiDos.Stats.Snapshot
import AntiDos.Stats.PossibleCpus
import AntiDos.Filter.Padding
import AntiDos.Filter.PayloadLength
import AntiDos.System.WhiteList
import AntiDos.Loader.XdpLoader
import AntiDos.Loader.Repin
import AntiDos.Lists.LoadReport
import AntiDos.Lists.UpdateList
import AntiDos.Trace.Messages
import AntiDos.Trace.Survival
import AntiDos.Perf.RoundTrip
import AntiDos.Netlink.GetLink
import AntiDos.Object.MapSection
import AntiDos.System.Evidence
