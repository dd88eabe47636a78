import AntiDos.Lib.Fault
import AntiDos.Poller.BlackList

/-!
# Detecting attackers

`detect_attackers` counts, for every policy, the packets each source sent to the address of the
policy during the window, and reports every row whose count is over the threshold. The table of a
policy is filled at the shared index `num_ip`, and its length is set to `num_ip` after each of its
packets; of the rest of the table nothing is initialised.
-/

namespace AntiDos

open Faulting

/-! ## Counting -/

structure Counting where
  psi : ℕ → PolicyStatsIp
  numIp : ℕ

/-- The loop over `k`: the first of the rows `k, .., k + n - 1` whose address is `src`. -/
def findRow (t : PolicyStatsIp) (src : UInt32) : ℕ → ℕ → Except Fault (Option ℕ)
  | _, 0 => .ok none
  | k, n + 1 => do
      let addr ← read .psiRow psiRows t.ip0 k
      if src = addr then .ok (some k) else findRow t src (k + 1) n

/-- The body of the loop over `j` for a packet from `src` to the address of policy `j`. -/
def countHit (c : Counting) (j : ℕ) (src : UInt32) : Except Fault Counting := do
  let t := c.psi j
  match ← findRow t src 0 t.numIp with
  | some k =>
      let sent ← read .psiRow psiRows t.ip1 k
      let ip1 ← write .psiRow psiRows t.ip1 k (sent + 1)
      .ok { c with psi := Function.update c.psi j { t with ip1 := ip1, numIp := c.numIp } }
  | none =>
      let ip0 ← write .psiRow psiRows t.ip0 c.numIp src
      let ip1 ← write .psiRow psiRows t.ip1 c.numIp 1
      .ok ⟨Function.update c.psi j ⟨ip0, ip1, c.numIp + 1⟩, c.numIp + 1⟩

def countPacket (pol : PolicyTable) (c : Counting) (m : PktMeta) : Except Fault Counting :=
  pol.policies.zipIdx.foldlM
    (fun c pj ↦ if m.dst = pj.1.ip then countHit c pj.2 m.src else .ok c) c

/-- The loop over `i`, the packets of the queue. -/
def countQueue (pol : PolicyTable) (c : Counting) (q : List PktMeta) : Except Fault Counting :=
  q.foldlM (countPacket pol) c

/-- `psi` and `num_ip` before the first packet: only the lengths are initialised. -/
def Counting.init (stack : ℕ → PolicyStatsIp) : Counting :=
  ⟨fun j ↦ { stack j with numIp := 0 }, 0⟩

/-! ## Reporting -/

/-- The loop over `g`: the first free slot, if there is one, takes the address. -/
def enterSlot (cd : CountDown) (addr stamp : UInt32) : CountDown :=
  match (List.finRange ipDynamic).find? (fun g ↦ (cd g).addr = 0) with
  | some g => Function.update cd g ⟨addr, stamp⟩
  | none => cd

/-- What is done for a row of policy `i` over its threshold: the address is blocked, whatever the
map answers, and entered in `count_down` with the low half of the clock reading. -/
def reportSource (w : Window) (p : Policy) (i j : ℕ) (addr sent : UInt32)
    (acc : Poller × List Event) : Poller × List Event :=
  let now := w.clock i j
  let c := policyChangeBlackList addr block (w.reply i j) acc.1.map
  ({ acc.1 with map := c.map, countDown := enterSlot acc.1.countDown addr now.toUInt32 },
    acc.2 ++ [.detected p addr sent, .block addr now c.done])

/-- The body of the loop over the rows `j` of policy `i`, where `psi[i].num_ip != 0` always holds.
The comparison is made on `unsigned` operands. -/
def reportRow (w : Window) (p : Policy) (i : ℕ) (t : PolicyStatsIp)
    (acc : Poller × List Event) (j : ℕ) : Except Fault (Poller × List Event) := do
  let sent ← read .psiRow psiRows t.ip1 j
  if p.threshold.toUInt32 < sent / interval.toUInt32 then
    let addr ← read .psiRow psiRows t.ip0 j
    .ok (reportSource w p i j addr (sent / interval.toUInt32) acc)
  else .ok acc

def reportPolicies (pol : PolicyTable) (w : Window) (c : Counting) (s : Poller) :
    Except Fault (Poller × List Event) :=
  pol.policies.zipIdx.foldlM
    (fun acc pi ↦ (List.range (c.psi pi.2).numIp).foldlM
      (reportRow w pi.1 pi.2 (c.psi pi.2)) acc) (s, [])

/-- `detect_attackers`, on the queue of the poller. The final `memset` of `psi` has no effect that
outlives the call. -/
def detectAttackers (pol : PolicyTable) (w : Window) (s : Poller) :
    Except Fault (Poller × List Event) := do
  let c ← countQueue pol (Counting.init w.stack) s.queue
  reportPolicies pol w c s

end AntiDos
