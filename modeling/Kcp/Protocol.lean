import Kcp.LittleEndian
import Kcp.Serial

namespace kcp_core.protocol

namespace constants

def IKCP_RTO_NDL : U32 := 30
def IKCP_RTO_MIN : U32 := 100
def IKCP_RTO_DEF : U32 := 200
def IKCP_RTO_MAX : U32 := 60000
def IKCP_CMD_PUSH : U8 := 81
def IKCP_CMD_ACK : U8 := 82
def IKCP_CMD_WASK : U8 := 83
def IKCP_CMD_WINS : U8 := 84
def IKCP_ASK_SEND : U32 := 1
def IKCP_ASK_TELL : U32 := 2
def IKCP_WND_RCV : U32 := 128
def IKCP_OVERHEAD : U32 := 24
def IKCP_THRESH_INIT : U32 := 2
def IKCP_THRESH_MIN : U32 := 2
def IKCP_PROBE_INIT : U32 := 7000
def IKCP_PROBE_LIMIT : U32 := 120000
def IKCP_FASTACK_LIMIT : U32 := 5

end constants

abbrev ConvId := U32
abbrev SeqNum := U32
/-- Milliseconds on the process-wide monotonic clock, modulo `2 ^ 32`. -/
abbrev Timestamp := U32

/-- The readings of `current_timestamp` that one engine call takes: the one it
takes as its `current`, and the one each header it builds is stamped with. -/
structure Clock where
  now : Timestamp
  hdr : Nat → Timestamp

/-- The clock that shows the same reading throughout a call. -/
def Clock.at (t : Timestamp) : Clock := ⟨t, fun _ => t⟩

@[simp] theorem Clock.at_now (t : Timestamp) : (Clock.at t).now = t := rfl

/-- The wrapping difference of two timestamps, as the `i32` the source casts it to. -/
def time_diff (later earlier : Timestamp) : Int := Serial.diff later earlier

/-- Readings less than half the clock apart differ by their difference. -/
theorem time_diff_eq {later earlier : Timestamp} (hlater : later.toNat < earlier.toNat + 2 ^ 31)
    (hearlier : earlier.toNat < later.toNat + 2 ^ 31) :
    time_diff later earlier = (later.toNat : Int) - earlier.toNat := by
  unfold time_diff Serial.diff
  have hlt := later.isLt
  have hlt' := earlier.isLt
  rw [BitVec.toInt_eq_toNat_cond, BitVec.toNat_sub]
  split <;> omega

def seq_before (seq1 seq2 : SeqNum) : Bool := decide (Serial.diff seq1 seq2 < 0)

def seq_after (seq1 seq2 : SeqNum) : Bool := decide (0 < Serial.diff seq1 seq2)

/-! ### Reading and writing fields -/

def put_u8 (buf : Bytes) (x : U8) : Bytes := buf ++ LittleEndian.bytes 1 x.toNat
def put_u16_le (buf : Bytes) (x : U16) : Bytes := buf ++ LittleEndian.bytes 2 x.toNat
def put_u32_le (buf : Bytes) (x : U32) : Bytes := buf ++ LittleEndian.bytes 4 x.toNat

def get_u8 (buf : Bytes) : U8 × Bytes := (BitVec.ofNat 8 (LittleEndian.value (buf.take 1)), buf.drop 1)
def get_u16_le (buf : Bytes) : U16 × Bytes := (BitVec.ofNat 16 (LittleEndian.value (buf.take 2)), buf.drop 2)
def get_u32_le (buf : Bytes) : U32 × Bytes := (BitVec.ofNat 32 (LittleEndian.value (buf.take 4)), buf.drop 4)

/-! ### Header -/

structure KcpHeader where
  conv : ConvId
  cmd : U8
  frg : U8
  wnd : U16
  ts : Timestamp
  sn : SeqNum
  una : SeqNum
  len : U32
  deriving DecidableEq, Repr

def KcpHeader.SIZE : Nat := 24

/-- A fresh header. `stamp` is the clock reading it is built at. -/
def KcpHeader.new (conv : ConvId) (cmd : U8) (stamp : Timestamp) : KcpHeader where
  conv := conv
  cmd := cmd
  frg := 0
  wnd := 0
  ts := stamp
  sn := 0
  una := 0
  len := 0

def KcpHeader.encode (self : KcpHeader) (buf : Bytes) : Bytes :=
  let buf := put_u32_le buf self.conv
  let buf := put_u8 buf self.cmd
  let buf := put_u8 buf self.frg
  let buf := put_u16_le buf self.wnd
  let buf := put_u32_le buf self.ts
  let buf := put_u32_le buf self.sn
  let buf := put_u32_le buf self.una
  put_u32_le buf self.len

/-- The header at the front of the buffer, and the buffer after it. -/
def KcpHeader.decode (buf : Bytes) : Option (KcpHeader × Bytes) :=
  if buf.length < KcpHeader.SIZE then none
  else
    let (conv, buf) := get_u32_le buf
    let (cmd, buf) := get_u8 buf
    let (frg, buf) := get_u8 buf
    let (wnd, buf) := get_u16_le buf
    let (ts, buf) := get_u32_le buf
    let (sn, buf) := get_u32_le buf
    let (una, buf) := get_u32_le buf
    let (len, buf) := get_u32_le buf
    some ({ conv, cmd, frg, wnd, ts, sn, una, len }, buf)

/-! ### Segment -/

structure KcpSegment where
  header : KcpHeader
  data : Bytes
  resendts : Timestamp
  rto : U32
  fastack : U32
  xmit : U32
  deriving DecidableEq, Repr

def KcpSegment.new (conv : ConvId) (cmd : U8) (data : Bytes) (stamp : Timestamp) : KcpSegment where
  header := { KcpHeader.new conv cmd stamp with len := BitVec.ofNat 32 data.length }
  data := data
  resendts := 0
  rto := constants.IKCP_RTO_DEF
  fastack := 0
  xmit := 0

def KcpSegment.push (conv : ConvId) (sn : SeqNum) (data : Bytes) (stamp : Timestamp) : KcpSegment :=
  let seg := KcpSegment.new conv constants.IKCP_CMD_PUSH data stamp
  { seg with header := { seg.header with sn } }

def KcpSegment.ack (conv : ConvId) (sn : SeqNum) (ts stamp : Timestamp) : KcpSegment :=
  let seg := KcpSegment.new conv constants.IKCP_CMD_ACK [] stamp
  { seg with header := { seg.header with sn, ts } }

def KcpSegment.encode (self : KcpSegment) (buf : Bytes) : Bytes := self.header.encode buf ++ self.data

def KcpSegment.decode (buf : Bytes) : Option KcpSegment :=
  match KcpHeader.decode buf with
  | none => none
  | some (header, buf) =>
    if buf.length ≠ header.len.toNat then none
    else some { header, data := buf, resendts := 0, rto := constants.IKCP_RTO_DEF, fastack := 0, xmit := 0 }

def KcpSegment.size (self : KcpSegment) : Nat := KcpHeader.SIZE + self.data.length

/-! ### Statistics -/

/-- Connection statistics. The 64-bit counters are natural numbers; where a
counter could pass `2 ^ 64` is a question for the checked engine. -/
structure KcpStats where
  bytes_sent : Nat := 0
  bytes_received : Nat := 0
  packets_sent : Nat := 0
  packets_received : Nat := 0
  retransmissions : Nat := 0
  fast_retransmissions : Nat := 0
  rtt : U32 := 0
  rtt_var : U32 := 0
  rto : U32 := 0
  snd_wnd : U32 := 0
  rcv_wnd : U32 := 0
  cwnd : U32 := 0
  snd_buf_size : U32 := 0
  rcv_buf_size : U32 := 0
  deriving DecidableEq, Repr

/-! ### Wire format -/

/-- The bytes a header takes on the wire. -/
def KcpHeader.bytes (self : KcpHeader) : Bytes := self.encode []

/-- The encoder appends the bytes of the header. -/
theorem KcpHeader.encode_eq (self : KcpHeader) (buf : Bytes) : self.encode buf = buf ++ self.bytes := by
  simp [KcpHeader.bytes, KcpHeader.encode, put_u32_le, put_u16_le, put_u8]

@[simp] theorem KcpHeader.length_bytes (self : KcpHeader) : self.bytes.length = 24 := by
  simp [KcpHeader.bytes, KcpHeader.encode, put_u32_le, put_u16_le, put_u8]

/-- The bytes a segment takes on the wire. -/
def KcpSegment.bytes (self : KcpSegment) : Bytes := self.header.bytes ++ self.data

/-- The encoder appends the bytes of the header, and those of the data. -/
theorem KcpSegment.encode_eq (self : KcpSegment) (buf : Bytes) : self.encode buf = buf ++ self.bytes := by
  simp [KcpSegment.encode, KcpHeader.encode_eq, KcpSegment.bytes]

@[simp] theorem KcpSegment.length_bytes (self : KcpSegment) : self.bytes.length = self.size := by
  simp [KcpSegment.bytes, KcpSegment.size, KcpHeader.SIZE]

theorem get_u8_bytes (x : U8) (buf : Bytes) : get_u8 (LittleEndian.bytes 1 x.toNat ++ buf) = (x, buf) := by
  have hlen := LittleEndian.length_bytes 1 x.toNat
  simp [get_u8, hlen, @LittleEndian.value_bytes 1 _ x.isLt]

/-- A number is read back from its bytes. -/
theorem get_u16_le_bytes (x : U16) (buf : Bytes) :
    get_u16_le (LittleEndian.bytes 2 x.toNat ++ buf) = (x, buf) := by
  have hlen := LittleEndian.length_bytes 2 x.toNat
  simp [get_u16_le, hlen, @LittleEndian.value_bytes 2 _ x.isLt]

theorem get_u32_le_bytes (x : U32) (buf : Bytes) :
    get_u32_le (LittleEndian.bytes 4 x.toNat ++ buf) = (x, buf) := by
  have hlen := LittleEndian.length_bytes 4 x.toNat
  simp [get_u32_le, hlen, @LittleEndian.value_bytes 4 _ x.isLt]

/-- Decoding reads an encoded header back and leaves what follows it. -/
theorem KcpHeader.decode_bytes (self : KcpHeader) (buf : Bytes) :
    KcpHeader.decode (self.bytes ++ buf) = some (self, buf) := by
  have hlen : ¬ (self.bytes ++ buf).length < KcpHeader.SIZE := by
    simp [KcpHeader.SIZE]
  unfold KcpHeader.decode
  rw [if_neg hlen]
  simp only [KcpHeader.bytes, KcpHeader.encode, put_u32_le, put_u16_le, put_u8, List.nil_append,
    List.append_assoc, get_u32_le_bytes, get_u16_le_bytes, get_u8_bytes]

/-- A field of `n` bytes that is read off the front of a buffer is the front of the buffer. -/
theorem bytes_read {n w : Nat} (hwidth : 256 ^ n = 2 ^ w) {buf : Bytes} (h : n ≤ buf.length) :
    LittleEndian.bytes n (BitVec.ofNat w (LittleEndian.value (buf.take n))).toNat ++ buf.drop n = buf := by
  have hlt := LittleEndian.value_take_lt n buf
  rw [hwidth] at hlt
  rw [BitVec.toNat_ofNat, Nat.mod_eq_of_lt hlt, LittleEndian.bytes_take h, List.take_append_drop]

theorem bytes_get_u8 {buf : Bytes} (h : 1 ≤ buf.length) :
    LittleEndian.bytes 1 (get_u8 buf).1.toNat ++ (get_u8 buf).2 = buf := bytes_read rfl h

/-- The bytes read make up the number. -/
theorem bytes_get_u16_le {buf : Bytes} (h : 2 ≤ buf.length) :
    LittleEndian.bytes 2 (get_u16_le buf).1.toNat ++ (get_u16_le buf).2 = buf := bytes_read rfl h

theorem bytes_get_u32_le {buf : Bytes} (h : 4 ≤ buf.length) :
    LittleEndian.bytes 4 (get_u32_le buf).1.toNat ++ (get_u32_le buf).2 = buf := bytes_read rfl h

/-- A buffer that a header is read from starts with the encoding of that header. -/
theorem KcpHeader.bytes_decode {buf rest : Bytes} {header : KcpHeader} (h : KcpHeader.decode buf = some (header, rest)) :
    header.bytes ++ rest = buf := by
  unfold KcpHeader.decode at h
  split at h
  · cases h
  · rename_i hlong
    simp only [KcpHeader.SIZE, not_lt] at hlong
    simp only [Option.some.injEq, Prod.mk.injEq] at h
    obtain ⟨rfl, rfl⟩ := h
    simp only [KcpHeader.bytes, KcpHeader.encode, put_u32_le, put_u16_le, put_u8, List.nil_append, List.append_assoc]
    rw [bytes_get_u32_le, bytes_get_u32_le, bytes_get_u32_le, bytes_get_u32_le, bytes_get_u16_le, bytes_get_u8,
      bytes_get_u8, bytes_get_u32_le]
    all_goals first | omega | simp only [get_u32_le, get_u16_le, get_u8, List.length_drop]; omega

end kcp_core.protocol
