import Xfr.Report.Stats

structure UdpStats where
  packetsSent     : Nat
  packetsReceived : Nat
  lost            : Nat
  lostPercent     : Float
  jitterMs        : Float
  outOfOrder      : Nat
  jitterMaxMs     : Option Float
  packetSize      : Option Nat

namespace UdpStats

def percent (lost packetsSent : Nat) : Float :=
  if packetsSent > 0 then Float.ofNat lost / Float.ofNat packetsSent * 100.0 else 0.0

-- A receiver which saw no packet has measured nothing.
def isObserved (stats : UdpStats) : Bool :=
  stats.packetsReceived > 0 ∨ stats.lost > 0

def largerSize : Option Nat → Option Nat → Option Nat
  | none,   b      => b
  | some a, none   => some a
  | some a, some b => some (max a b)

def aggregateUdpStatsInner (receiverOnly : Bool) (stats : List UdpStats) : Option UdpStats :=
  if stats.isEmpty ∨ (receiverOnly ∧ ¬stats.any isObserved) then none
  else
    let packetsSent := (stats.map (·.packetsSent)).foldl U64.saturatingAdd 0
    let lost        := (stats.map (·.lost)).foldl U64.saturatingAdd 0
    let measured    := stats.filter fun s => !receiverOnly || s.packetsReceived > 0
    let jitters     := measured.map (·.jitterMs)
    let jitterMaxs  := measured.filterMap (·.jitterMaxMs)
    some {
      packetsSent     := packetsSent
      packetsReceived := (stats.map (·.packetsReceived)).foldl U64.saturatingAdd 0
      lost            := lost
      lostPercent     := percent lost packetsSent
      jitterMs        := if jitters.length > 0 then
                           jitters.foldl (· + ·) 0.0 / Float.ofNat jitters.length else 0.0
      outOfOrder      := (stats.map (·.outOfOrder)).foldl U64.saturatingAdd 0
      jitterMaxMs     := if jitterMaxs.length > 0 then
                           some (jitterMaxs.foldl (fun a b => if b > a then b else a) 0.0) else none
      packetSize      := (measured.map (·.packetSize)).foldl largerSize none
    }

def aggregateUdpStats : List UdpStats → Option UdpStats :=
  aggregateUdpStatsInner false

def aggregateUdpReceiverStats : List UdpStats → Option UdpStats :=
  aggregateUdpStatsInner true

end UdpStats
