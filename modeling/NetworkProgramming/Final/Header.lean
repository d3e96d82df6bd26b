import NetworkProgramming.Final.Crc32

/-!
# `Header.h`: constants and wire formats

The structures that `tcpd` exchanges with the troll and with the front processes. A
`TrollMessageStruct` is the memory a frame occupies: the checksum covers every byte from
`Session` on, the alignment bytes before `len` and the whole `body` included, and `len` is
whatever 64-bit number the frame carries.
-/

namespace NetworkProgramming

/-- `BUF_LEN`. -/
def BUF_LEN : ℕ := 1000

/-- `TCPD_MSG_LEN`. -/
def TCPD_MSG_LEN : ℕ := 8

/-- `MAX_BUFFER_PACKAGES`. -/
def MAX_BUFFER_PACKAGES : ℕ := 64

/-- `htons(AF_INET)`, as a little-endian machine stores it. -/
def htonsAfInet : UInt16 := 0x0200

/-- `struct sockaddr_in`, the port and the address in network order. -/
structure SockaddrIn where
  sinFamily : UInt16
  sinPort : UInt16
  sinAddr : UInt32
  sinZero : UInt64
deriving DecidableEq, Inhabited

/-- `struct timeval`. -/
structure Timeval where
  tvSec : ℤ
  tvUsec : ℤ
deriving DecidableEq, Inhabited

/-- The reading in seconds, in exact arithmetic (`USEC2SEC` is a millionth). -/
def Timeval.seconds (t : Timeval) : ℚ := t.tvSec + t.tvUsec / 1000000

/-- `struct TrollMessageStruct`; `pad` are the four bytes the compiler puts before `len`. -/
structure TrollMessageStruct where
  header : SockaddrIn
  checkSum : UInt32
  session : UInt32
  seqNum : UInt32
  pad : UInt32
  len : UInt64
  body : Buffer BUF_LEN
deriving DecidableEq

/-- `struct TrollAckStruct`. -/
structure TrollAckStruct where
  header : SockaddrIn
  checkSum : UInt32
  session : UInt32
  seqNum : UInt32
deriving DecidableEq, Inhabited

namespace TrollMessageStruct

/-- The bytes from `CheckSumOffset` to the end of the structure. -/
def checkedBytes (m : TrollMessageStruct) : List UInt8 :=
  leBytes 4 m.session.toNat ++ leBytes 4 m.seqNum.toNat ++ leBytes 4 m.pad.toNat
    ++ leBytes 8 m.len.toNat ++ m.body.toList

/-- `CHECKSUM_ALGORITHM` over the checked bytes of a frame. -/
def checksum (m : TrollMessageStruct) : UInt32 := crc32 0 m.checkedBytes

/-- The bytes of the body that count. -/
def data (m : TrollMessageStruct) : List UInt8 := m.body.toList.take m.len.toNat

/-- The troll may rewrite the header of a frame; the checksum does not cover it. -/
def withHeader (m : TrollMessageStruct) (h : SockaddrIn) : TrollMessageStruct :=
  { m with header := h }

@[simp] lemma checksum_withHeader (m : TrollMessageStruct) (h : SockaddrIn) :
    (m.withHeader h).checksum = m.checksum := rfl

@[simp] lemma data_withHeader (m : TrollMessageStruct) (h : SockaddrIn) :
    (m.withHeader h).data = m.data := rfl

/-- The receiver's test accepts the frame. -/
def Valid (m : TrollMessageStruct) : Prop := m.checksum = m.checkSum

instance (m : TrollMessageStruct) : Decidable m.Valid := inferInstanceAs (Decidable (_ = _))

/-- The frame with its own checksum. -/
def sealed (m : TrollMessageStruct) : TrollMessageStruct := { m with checkSum := m.checksum }

lemma valid_sealed (m : TrollMessageStruct) : m.sealed.Valid := rfl

/-- An intact frame that carries (at most `BUF_LEN` of) `bytes`. -/
def ofBytes (session seqNum : UInt32) (bytes : List UInt8) : TrollMessageStruct :=
  sealed
    { header := default, checkSum := 0, session, seqNum, pad := 0,
      len := UInt64.ofNat (bytes.take BUF_LEN).length,
      body := (Buffer.zero BUF_LEN).write 0 (bytes.take BUF_LEN) (by simp) }

lemma toNat_len_ofBytes (session seqNum : UInt32) (bytes : List UInt8) :
    (ofBytes session seqNum bytes).len.toNat = (bytes.take BUF_LEN).length := by
  show (UInt64.ofNat (bytes.take BUF_LEN).length).toNat = _
  rw [UInt64.toNat_ofNat', Nat.mod_eq_of_lt]
  have hle : (bytes.take BUF_LEN).length ≤ BUF_LEN := List.length_take_le _ _
  simp only [BUF_LEN] at hle ⊢
  omega

lemma data_ofBytes (session seqNum : UInt32) (bytes : List UInt8) :
    (ofBytes session seqNum bytes).data = bytes.take BUF_LEN := by
  have hfits : 0 + (bytes.take BUF_LEN).length ≤ BUF_LEN := by simp
  rw [data, toNat_len_ofBytes]
  exact Buffer.take_write hfits (Nat.zero_add _).symm

end TrollMessageStruct

namespace TrollAckStruct

/-- The bytes from `CheckSumOffset` to the end of the structure. -/
def checkedBytes (a : TrollAckStruct) : List UInt8 :=
  leBytes 4 a.session.toNat ++ leBytes 4 a.seqNum.toNat

/-- `CHECKSUM_ALGORITHM` over the checked bytes of an ack. -/
def checksum (a : TrollAckStruct) : UInt32 := crc32 0 a.checkedBytes

/-- The sender's test accepts the ack. -/
def Valid (a : TrollAckStruct) : Prop := a.checksum = a.checkSum

instance (a : TrollAckStruct) : Decidable a.Valid := inferInstanceAs (Decidable (_ = _))

/-- The troll may rewrite the header of an ack; the checksum does not cover it. -/
def withHeader (a : TrollAckStruct) (h : SockaddrIn) : TrollAckStruct := { a with header := h }

/-- The ack with its own checksum. -/
def sealed (a : TrollAckStruct) : TrollAckStruct := { a with checkSum := a.checksum }

lemma valid_sealed (a : TrollAckStruct) : a.sealed.Valid := rfl

end TrollAckStruct

end NetworkProgramming
