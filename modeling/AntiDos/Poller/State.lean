import AntiDos.Packet
import Mathlib.Data.Finset.Card

/-!
# Data of the policy engine

The tables and globals of `start_policy`, the things one iteration of its poll loop receives from
outside (clock readings, kernel answers, perf records, the bytes found on the stack), and the
events by which a run is observed.
-/

namespace AntiDos

/-! ## Constants -/

abbrev interval : UInt64 := 1

abbrev lockTime : UInt64 := 5

abbrev block : Int := 1

abbrev unblock : Int := 0

/-- `IP_DYNAMIC`, the number of slots of `count_down`. -/
abbrev ipDynamic : ℕ := 100

/-- The number of columns of `psi[j].ip`. -/
abbrev psiRows : ℕ := 100

/-- The number of elements of `packets_queue`. -/
abbrev queueSlots : ℕ := 3000000

/-- `max_entries` of `black_list`. -/
abbrev blackListEntries : ℕ := 10000

/-! ## Policies -/

structure Policy where
  id : Int32
  ip : UInt32
  threshold : Int32
  deriving DecidableEq

/-- `list_policy[0..policy_len)`; the array has ten elements. -/
structure PolicyTable where
  policies : List Policy
  length_le : policies.length ≤ 10

/-- `struct policy_stats_ip`: `ip0` is the row of addresses, `ip1` the row of packet counts. -/
structure PolicyStatsIp where
  ip0 : ℕ → UInt32
  ip1 : ℕ → UInt32
  numIp : ℕ

/-! ## The black-list map as the process sees it -/

/-- The fields of `struct bpf_map_info` that `check_map_fd_info` compares. -/
structure BpfMapInfo where
  keySize : UInt32
  valueSize : UInt32
  maxEntries : UInt32
  type : UInt32
  deriving DecidableEq

/-- The pinned map `black_list`, the descriptors the process holds on it, and the global `info`. -/
structure BlackListMap where
  entries : Finset UInt32
  fds : Finset Int
  info : BpfMapInfo

/-- What the kernel answers to the calls one `policyChangeBlackList` makes: a zero `infoErr`,
`update` or `delete` lets that call succeed when nothing else stands against it. -/
structure MapReply where
  objGet : Int
  infoErr : Int
  info : BpfMapInfo
  update : Int
  delete : Int

/-! ## The poller -/

/-- One slot of `count_down`: `count_down[0][g]` and `count_down[1][g]`. Address `0` marks a free
slot. -/
structure Slot where
  addr : UInt32
  stamp : UInt32
  deriving DecidableEq

abbrev CountDown := Fin ipDynamic → Slot

/-- The globals of `start_policy` that the poll loop reads and writes. `queue` is
`packets_queue[0..packets_queue_len)`. -/
structure Poller where
  timeStart : UInt64
  prevTime : UInt64
  queue : List PktMeta
  countDown : CountDown
  map : BlackListMap

/-- The globals when `main` enters `event_poller`. -/
def Poller.init (map : BlackListMap) : Poller :=
  ⟨0, 0, [], fun _ ↦ ⟨0, 0⟩, map⟩

/-! ## What an iteration receives -/

abbrev perfRecordSample : UInt32 := 9

/-- A record of a perf ring. `copied` is false when the record wraps around the ring and the
buffer to copy it into cannot be allocated. -/
structure PerfRecord where
  type : UInt32
  pktMeta : PktMeta
  copied : Bool

structure PerfBuffer where
  revents : Bool
  records : List PerfRecord

/-- What one call of `detect_attackers` receives: the bytes found on the stack where `psi` is put,
and, for row `j` of policy `i`, the clock reading and the kernel's answers if it is reported. -/
structure Window where
  stack : ℕ → PolicyStatsIp
  clock : ℕ → ℕ → UInt64
  reply : ℕ → ℕ → MapReply

structure Tick where
  now : UInt64
  window : Window
  reply : Fin ipDynamic → MapReply
  buffers : List PerfBuffer

/-! ## Observations -/

/-- An access outside an array; nothing is said about a run after it. -/
inductive Fault where
  | psiRow (index : ℕ)
  | queueSlot (index : ℕ)
  deriving DecidableEq

/-- The observable steps of a run. `added` and `removed` say that the map operation was made and
succeeded. -/
inductive Event where
  /-- `now = time(NULL)` at the top of an iteration. -/
  | reading (now : UInt64)
  /-- `detect_attackers` is called on a queue. -/
  | detect (queue : List PktMeta)
  /-- The line printed for a source over the threshold of a policy. -/
  | detected (policy : Policy) (src : UInt32) (sent : UInt32)
  /-- `policy_change_black_list(addr, BLOCK)`, where `time(NULL)` returned `time`. -/
  | block (addr : UInt32) (time : UInt64) (added : Bool)
  /-- `policy_change_black_list(addr, UNBLOCK)` for a slot, in an iteration that read `now`. -/
  | unblock (slot : Fin ipDynamic) (addr : UInt32) (now : UInt64) (removed : Bool)
  /-- `policy_stats` stores a record in the queue. -/
  | store (index : ℕ) (pktMeta : PktMeta)
  deriving DecidableEq

end AntiDos
