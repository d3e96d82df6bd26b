import NetworkProgramming.Lib.Ring
import NetworkProgramming.Final.Header

/-!
# `tcpd.h`: the packets and the window of the simulated TCP

A `TrollHeader` is the memory a packet occupies, so the parts that nothing writes hold what
lay there before. The window is a ring of `WINDOW_SIZE` packets with one acknowledgement flag
each; `last_ack` and `last_send` are slots of the ring.
-/

namespace NetworkProgramming.Proj1

/-- `WINDOW_SIZE`. -/
def WINDOW_SIZE : ℕ := 10

instance : NeZero WINDOW_SIZE := ⟨by decide⟩

/-- `POLY`. -/
def POLY : UInt32 := 0x8408

/-- The size of `body` in a `TrollHeader`. -/
def BODY_LEN : ℕ := 800

/-- `struct tcphdr`; the program stores its numbers in the order of the machine. -/
structure TcpHdr where
  source : UInt16
  dest : UInt16
  seq : UInt32
  ackSeq : UInt32
  offset : UInt8
  flags : UInt8
  window : UInt16
  check : UInt16
  urgPtr : UInt16
deriving DecidableEq, Inhabited

/-- The bytes of a header on a little-endian machine. -/
def TcpHdr.bytes (h : TcpHdr) : List UInt8 :=
  leBytes 2 h.source.toNat ++ leBytes 2 h.dest.toNat ++ leBytes 4 h.seq.toNat ++
    leBytes 4 h.ackSeq.toNat ++ [h.offset, h.flags] ++ leBytes 2 h.window.toNat ++
    leBytes 2 h.check.toNat ++ leBytes 2 h.urgPtr.toNat

/-- The bit `ack` of the flags. -/
def ackFlag : UInt8 := 0x10

/-- `struct TrollHeader`. -/
structure TrollHeader where
  sendTo : SockaddrIn
  tcpHeader : TcpHdr
  body : Buffer BODY_LEN
deriving DecidableEq

/-- `struct my_window`. -/
structure MyWindow where
  lastAck : Fin WINDOW_SIZE
  lastSend : Fin WINDOW_SIZE
  numEmpty : ℤ
  trollHeaders : Fin WINDOW_SIZE → TrollHeader
  ackBitmap : Fin WINDOW_SIZE → Int32
deriving DecidableEq

/-- What `ftpc` hands over in one `SEND`: between 1 and 800 bytes. -/
structure Payload where
  bytes : List UInt8
  nonempty : 0 < bytes.length
  fits : bytes.length ≤ BODY_LEN
deriving DecidableEq

/-! ## `crc16` -/

/-- One round of the inner loop, on the register and the bit of the data that is next. -/
def crc16Bit (crc data : UInt32) : UInt32 :=
  if (crc &&& 1) ^^^ (data &&& 1) ≠ 0 then (crc >>> 1) ^^^ POLY else crc >>> 1

/-- The rounds of the inner loop for one byte. -/
def crc16Byte (crc : UInt32) (b : UInt8) : UInt32 :=
  ((List.range 8).foldl (fun s _ => (crc16Bit s.1 s.2, s.2 >>> 1)) (crc, b.toUInt32)).1

/-- `crc16`, CCITT with the register set to ones. -/
def crc16 (data : List UInt8) : UInt16 :=
  if data = [] then (~~~ (0xffff : UInt32)).toUInt16
  else
    let crc := ~~~ data.foldl crc16Byte 0xffff
    ((crc <<< 8) ||| (crc >>> 8 &&& 0xff)).toUInt16

end NetworkProgramming.Proj1
