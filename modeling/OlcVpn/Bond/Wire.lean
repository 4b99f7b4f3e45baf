/-
  The WIRE of the olcRTC stream bond (`bond-server/bond.go`, `OlcrtcBond.kt`).

  A bonded connection is one byte stream cut into numbered frames that travel over several lanes.
  Two records cross a lane:

  * `Hello` — 17 bytes, once, right after the lane opens: magic, version, connection id, lane index,
    lane count, all big-endian.  The Kotlin client writes it (`writeHello`), the Go server reads it
    (`readHello`).
  * `Frame` — DATA or FIN, ordered by a 64-bit sequence number: 13 bytes of header and a payload.
    Both sides write and read it, the client with signed numbers (`clientWriteFrame`,
    `clientReadFrame`).

  The machine widths are the source's own (`uint64` ids and sequence numbers, `uint16` lane fields,
  `byte` types): a Kotlin `Long` is carried by its 64 bits, so `UInt64` on both sides.

  The rest of the development needs `readHello_writeHello` from this file: the server sees exactly
  the id, index and count the client announced.  `codecs_agree` says that each side reads what the
  other wrote, frame by frame.
-/
import Mathlib.Data.List.Basic
import Mathlib.Tactic

namespace OlcVpn.Bond

abbrev Bytes := List UInt8

def bondVersion : UInt8 := 1

/-- `"OLB1"`. -/
def bondMagic : Bytes := [0x4F, 0x4C, 0x42, 0x31]

def frameData : UInt8 := 1
def frameFIN : UInt8 := 2

/-- The striper's read buffer, and so the longest DATA payload. -/
def maxChunk : Nat := 16 * 1024
/-- `reorder` gives up rather than park more frames than this. -/
def pendingCap : Nat := 1024
/-- Depth of the fan-in channel between the lane readers and `reorder`. -/
def recvBuf : Nat := 1024
def helloLen : Nat := 17

/-- The per-lane handshake. -/
structure Hello where
  connID : UInt64
  laneIndex : UInt16
  laneCount : UInt16
  deriving DecidableEq, Repr

/-- One bonded DATA or FIN unit, ordered by `seq` within a connection. -/
structure Frame where
  type : UInt8
  seq : UInt64
  data : Bytes
  deriving DecidableEq, Repr

/-! ## Big-endian fields -/

/-- `binary.BigEndian.Uint16/32/64` of a slice, as a number. -/
def beNat (bs : Bytes) : Nat := bs.foldl (fun acc b => acc * 256 + b.toNat) 0

variable (v : UInt64)

/-- The eight bits of `v` from bit `k` up: Kotlin's `((v ushr k) and 0xFF).toByte()`. -/
def byteAt (k : Nat) : UInt8 := ((v >>> UInt64.ofNat k) &&& 0xFF).toUInt8

/-- `OlcrtcBond.putLong`: eight bytes, most significant first. -/
def putLong : Bytes := (List.range 8).map fun i => byteAt v (56 - i * 8)

/-- `OlcrtcBond.putShort`: the low sixteen bits of an `Int`. -/
def putShort (v : UInt16) : Bytes := [byteAt v.toUInt64 8, byteAt v.toUInt64 0]

theorem byteAt_toNat {k : Nat} (hk : k < 64) : (byteAt v k).toNat = v.toNat / 2 ^ k % 256 := by
  unfold byteAt
  have hmod : (UInt64.ofNat k).toNat % 64 = k := by
    rw [UInt64.toNat_ofNat']; omega
  have hmask : (0xFF : UInt64).toNat = 2 ^ 8 - 1 := rfl
  rw [UInt64.toNat_toUInt8, UInt64.toNat_and, UInt64.toNat_shiftRight, hmod,
    Nat.shiftRight_eq_div_pow, hmask, Nat.and_two_pow_sub_one_eq_mod]
  omega

theorem beNat_putLong : beNat (putLong v) = v.toNat := by
  have hv := v.toNat_lt
  simp only [putLong, beNat, List.range, List.range.loop, List.map, List.foldl]
  simp only [byteAt_toNat, Nat.reduceMul, Nat.reduceSub, Nat.reduceLT]
  norm_num
  omega

theorem beNat_putShort (v : UInt16) : beNat (putShort v) = v.toNat := by
  have hv := v.toNat_lt
  simp only [putShort, beNat, List.foldl]
  simp only [byteAt_toNat, Nat.reduceLT, UInt16.toNat_toUInt64]
  norm_num
  omega

/-! ## The handshake -/

/-- `OlcrtcBond.writeHello`: what the client puts on a lane. -/
def writeHello (connId : UInt64) (laneIndex laneCount : UInt16) : Bytes :=
  bondMagic ++ [bondVersion] ++ putLong connId ++ putShort laneIndex ++ putShort laneCount

/-- Why a lane is turned away: `io.ReadFull` came up short, or the two `fmt.Errorf` texts. -/
inductive HelloError where
  | short
  | badMagic
  | unsupportedVersion (v : UInt8)
  deriving DecidableEq, Repr

variable (r : Bytes)

/-- `ReadHello`, on the bytes the lane has delivered. -/
def readHello : Except HelloError Hello :=
  if r.length < helloLen then .error .short
  else if r.take 4 ≠ bondMagic then .error .badMagic
  else if r.getD 4 0 ≠ bondVersion then .error (.unsupportedVersion (r.getD 4 0))
  else .ok
    { connID := UInt64.ofNat (beNat ((r.drop 5).take 8))
      laneIndex := UInt16.ofNat (beNat ((r.drop 13).take 2))
      laneCount := UInt16.ofNat (beNat ((r.drop 15).take 2)) }

/-- **The handshake arrives as announced**, whatever comes behind it. -/
theorem readHello_writeHello (connId : UInt64) (i n : UInt16) (rest : Bytes) :
    readHello (writeHello connId i n ++ rest) = .ok ⟨connId, i, n⟩ := by
  have hid : (((writeHello connId i n ++ rest).drop 5).take 8) = putLong connId := rfl
  have hi : (((writeHello connId i n ++ rest).drop 13).take 2) = putShort i := rfl
  have hn : (((writeHello connId i n ++ rest).drop 15).take 2) = putShort n := rfl
  have hlen : ¬ (writeHello connId i n ++ rest).length < helloLen := by
    show ¬ rest.length + 17 < 17
    omega
  have hmagic : ¬ (writeHello connId i n ++ rest).take 4 ≠ bondMagic := fun h => h rfl
  have hver : ¬ (writeHello connId i n ++ rest).getD 4 0 ≠ bondVersion := fun h => h rfl
  rw [readHello, if_neg hlen, if_neg hmagic, if_neg hver, hid, hi, hn, beNat_putLong,
    beNat_putShort, beNat_putShort, UInt64.ofNat_toNat, UInt16.ofNat_toNat, UInt16.ofNat_toNat]

/-! ## Frames -/

def frameHdr : Nat := 13

/-- `OlcrtcBond.putInt`, and `PutUint32` of Go. -/
def putInt (v : UInt32) : Bytes :=
  [byteAt v.toUInt64 24, byteAt v.toUInt64 16, byteAt v.toUInt64 8, byteAt v.toUInt64 0]

/-- `OlcrtcBond.getInt`. -/
def getInt (b : Bytes) : UInt32 :=
  (b.getD 0 0).toUInt32 <<< 24 ||| (b.getD 1 0).toUInt32 <<< 16 ||| (b.getD 2 0).toUInt32 <<< 8 |||
    (b.getD 3 0).toUInt32

/-- `OlcrtcBond.getLong`. -/
def getLong (b : Bytes) : UInt64 := b.foldl (fun v x => v <<< 8 ||| x.toUInt64) 0

/-- The server's `writeFrame`; `none` is its error. -/
def writeFrame (f : Frame) : Option Bytes :=
  if 4294967295 < f.data.length then none
  else some ([f.type] ++ putLong f.seq ++ putInt (UInt32.ofNat f.data.length) ++ f.data)

/-- The client's `writeFrame`: `len` bytes of an array that may be longer, or missing. -/
def clientWriteFrame (type : UInt8) (seq : UInt64) (data : Option Bytes) (len : UInt32) : Bytes :=
  [type] ++ putLong seq ++ putInt len ++ if 0 <
    len.toInt32.toInt then (data.getD []).take len.toNat else []

inductive FrameError where
  | short
  | tooLarge (size : Int)
  deriving DecidableEq, Repr

/-- The length a header announces. -/
def lengthField : Nat := beNat ((r.drop 9).take 4)

/-- The server's `readFrame`: the frame, and what is left on the lane. -/
def readFrame : Except FrameError (Frame × Bytes) :=
  if r.length < frameHdr then .error .short
  else if maxChunk < lengthField r then .error (.tooLarge (lengthField r))
  else if (r.drop frameHdr).length < lengthField r then .error .short
  else .ok (⟨r.getD 0 0, UInt64.ofNat (beNat ((r.drop 1).take 8)),
    (r.drop frameHdr).take (lengthField r)⟩,
    (r.drop frameHdr).drop (lengthField r))

/-- The client's `readFrame`: a lane that ends inside a header is no error, and the length is
    signed. -/
def clientReadFrame : Except FrameError (Option (Frame × Bytes)) :=
  let size := (getInt ((r.drop 9).take 4)).toInt32.toInt
  if r.length < frameHdr then .ok none
  else if size < 0 ∨ maxChunk < size then .error (.tooLarge size)
  else if (r.drop frameHdr).length < size then .error .short
  else .ok (some (⟨r.getD 0 0, getLong ((r.drop 1).take 8), (r.drop frameHdr).take size.toNat⟩,
    (r.drop frameHdr).drop size.toNat))

theorem beNat_putInt (v : UInt32) : beNat (putInt v) = v.toNat := by
  have hv := v.toNat_lt
  simp only [putInt, beNat, List.foldl]
  simp only [byteAt_toNat, Nat.reduceLT, UInt32.toNat_toUInt64]
  norm_num
  omega

/-- A byte put behind a number. -/
theorem shift_or (n : Nat) (x : UInt8) :
    UInt64.ofNat n <<< 8 ||| x.toUInt64 = UInt64.ofNat (n * 256 + x.toNat) := by
  have hx := x.toNat_lt
  have hshift : (UInt64.ofNat n <<< 8).toNat = 2 ^ 8 * (n % 2 ^ 56) := by
    rw [UInt64.toNat_shiftLeft, UInt64.toNat_ofNat', Nat.shiftLeft_eq,
      show UInt64.toNat 8 % 64 = 8 from rfl]
    omega
  rw [← UInt64.toNat_inj, UInt64.toNat_or, hshift, UInt8.toNat_toUInt64,
    ← Nat.two_pow_add_eq_or_of_lt hx,
    UInt64.toNat_ofNat']
  omega

theorem getLong_eq (b : Bytes) : getLong b = UInt64.ofNat (beNat b) := by
  have hfold : ∀ n, b.foldl (fun (v : UInt64) x => v <<< 8 ||| x.toUInt64) (UInt64.ofNat n) =
      UInt64.ofNat (b.foldl (fun acc x => acc * 256 + x.toNat) n) := by
    induction b with
    | nil => exact fun n => rfl
    | cons x b ih =>
      intro n
      rw [List.foldl_cons, List.foldl_cons, shift_or, ih]
  exact hfold 0

theorem getInt_toNat (x y z t : UInt8) : (getInt [x, y, z, t]).toNat = beNat [x, y, z, t] := by
  have hx := x.toNat_lt
  have hy := y.toNat_lt
  have hz := z.toNat_lt
  have ht := t.toNat_lt
  simp only [getInt, List.getD_cons_zero, List.getD_cons_succ, UInt32.toNat_or,
    UInt32.toNat_shiftLeft,
    UInt8.toNat_toUInt32, UInt32.reduceToNat, Nat.reduceMod, beNat, List.foldl]
  rw [Nat.mod_eq_of_lt (by omega), Nat.mod_eq_of_lt (by omega), Nat.mod_eq_of_lt (by omega),
    Nat.or_assoc, Nat.or_assoc,
    ← Nat.shiftLeft_add_eq_or_of_lt ht,
    ← Nat.shiftLeft_add_eq_or_of_lt (show z.toNat <<< 8 + t.toNat < 2 ^ 16 by omega),
    ← Nat.shiftLeft_add_eq_or_of_lt (show y.toNat <<< 16 + (z.toNat <<< 8 + t.toNat) <
    2 ^ 24 by omega)]
  omega

/-- Half of the lengths are negative for the client. -/
theorem signed_eq (v : UInt32) :
    v.toInt32.toInt = if v.toNat < 2147483648 then (v.toNat : Int) else v.toNat - 4294967296 := by
  have hv := v.toNat_lt
  rw [show v.toInt32.toInt = v.toBitVec.toInt from rfl, BitVec.toInt_eq_toNat_cond,
    UInt32.toNat_toBitVec]
  split_ifs <;> omega

/-- The length the client reads is that of the header, or negative. -/
theorem signed_length {r : Bytes} (h : frameHdr ≤ r.length) :
    (getInt ((r.drop 9).take 4)).toInt32.toInt = lengthField r ∨
      (getInt ((r.drop 9).take 4)).toInt32.toInt < 0 ∧ maxChunk < lengthField r := by
  obtain ⟨x, y, z, t, hbytes⟩ : ∃ x y z t, (r.drop 9).take 4 = [x, y, z, t] := by
    rw [← List.length_eq_four, List.length_take, List.length_drop]
    unfold frameHdr at h
    omega
  have hbound := (getInt [x, y, z, t]).toNat_lt
  rw [signed_eq, lengthField, hbytes, ← getInt_toNat, maxChunk]
  split_ifs <;> omega

/-- Behind a whole header the readers do the same. -/
theorem clientReadFrame_eq {r : Bytes} (h : frameHdr ≤ r.length) :
    (clientReadFrame r).toOption = (readFrame r).toOption.map some := by
  unfold clientReadFrame readFrame
  obtain hlength | ⟨hnegative, hlarge⟩ := signed_length h
  · simp only [hlength, getLong_eq, Nat.cast_lt, Int.toNat_natCast, Int.natCast_nonneg,
      not_lt.mpr, false_or]
    split_ifs <;> first | rfl | omega
  · simp only [hnegative, hlarge, true_or, if_true, h.not_gt, if_false]
    rfl

/-- The header is there, and the payload unless it is too long. -/
def WholeFrame : Prop :=
  frameHdr ≤ r.length ∧ (lengthField r ≤ maxChunk → frameHdr + lengthField r ≤ r.length)

/-- A whole frame is refused only for its length. -/
theorem readFrame_eq_none {r : Bytes} (h : WholeFrame r) :
    (readFrame r).toOption = none ↔ maxChunk < lengthField r := by
  obtain ⟨hheader, hpayload⟩ := h
  rw [readFrame, List.length_drop]
  split_ifs <;> simp [Except.toOption] <;> omega

/-- The client's bytes of a frame. -/
def clientFrame (f : Frame) : Bytes := clientWriteFrame f.type f.seq (some f.data)
    (UInt32.ofNat f.data.length)

section Written

variable {f : Frame} (hsize : f.data.length ≤ maxChunk)
include hsize

theorem toNat_length : (UInt32.ofNat f.data.length).toNat = f.data.length := by
  rw [UInt32.toNat_ofNat', Nat.mod_eq_of_lt]
  unfold maxChunk at hsize
  omega

theorem clientFrame_eq :
    clientFrame f = [f.type] ++ putLong f.seq ++ putInt (UInt32.ofNat f.data.length) ++ f.data := by
  rw [clientFrame, clientWriteFrame, signed_eq, toNat_length hsize, Option.getD_some,
    List.take_length]
  unfold maxChunk at hsize
  rw [if_pos (by omega : f.data.length < 2147483648)]
  split_ifs with hpos
  · rfl
  · rw [List.length_eq_zero_iff.mp (by omega : f.data.length = 0)]

theorem writeFrame_eq : writeFrame f = some (clientFrame f) := by
  rw [writeFrame, if_neg, clientFrame_eq hsize]
  unfold maxChunk at hsize
  omega

/-- A FRAME IS READ BACK, whatever follows it. -/
theorem readFrame_append (rest : Bytes) : readFrame (clientFrame f ++ rest) = .ok (f, rest) := by
  rw [clientFrame_eq hsize]
  generalize hr : [f.type] ++ putLong f.seq ++ putInt (UInt32.ofNat f.data.length) ++
    f.data ++ rest = r
  have hlength : lengthField r = f.data.length := by
    have hfield : (r.drop 9).take 4 = putInt (UInt32.ofNat f.data.length) := by rw [← hr]; rfl
    rw [lengthField, hfield, beNat_putInt, toNat_length hsize]
  have hseq : (r.drop 1).take 8 = putLong f.seq := by rw [← hr]; rfl
  have htail : r.drop frameHdr = f.data ++ rest := by rw [← hr]; rfl
  have hheader : ¬ r.length < frameHdr := by
    rw [← hr]
    exact (Nat.le_add_left 13 (f.data ++ rest).length).not_gt
  rw [readFrame, if_neg hheader, hlength, if_neg hsize.not_gt, hseq, htail, if_neg (by simp),
    beNat_putLong,
    UInt64.ofNat_toNat, List.take_left' rfl, List.drop_left' rfl, ← hr]
  rfl

end Written

/-- As many frames as are asked for, one behind the other. -/
def readMany (read : Bytes → Option (Frame × Bytes)) : Nat → Bytes → Option (List Frame × Bytes)
  | 0, r => some ([], r)
  | n + 1, r => (read r).bind fun (f, r) => (readMany read n r).map fun (fs, r) => (f :: fs, r)

/-- A reader of one frame reads a lane. -/
theorem readMany_flatMap {read : Bytes → Option (Frame × Bytes)} {write : Frame → Bytes}
    {frames : List Frame}
    (h : ∀ f ∈ frames, ∀ rest, read (write f ++ rest) = some (f, rest)) (rest : Bytes) :
    readMany read frames.length (frames.flatMap write ++ rest) = some (frames, rest) := by
  induction frames with
  | nil => rfl
  | cons f frames ih =>
    have hrest := ih fun g hg => h g (List.mem_cons_of_mem _ hg)
    simp [readMany, h f, hrest]

/-- **The two codecs agree**: each side reads what the other wrote, and both refuse the same frames.
    -/
theorem codecs_agree (connId : UInt64) (laneIndex laneCount : UInt16) {frames : List Frame}
    (hframes : ∀ f ∈ frames, f.data.length ≤ maxChunk) (rest : Bytes) :
    (∃ lane, lane = writeHello connId laneIndex laneCount ++ (frames.flatMap clientFrame ++ rest) ∧
      readHello lane = .ok ⟨connId, laneIndex, laneCount⟩ ∧
      readMany (fun r => (readFrame r).toOption) frames.length (lane.drop helloLen) =
        some (frames, rest)) ∧
    (∃ sent, (∀ f ∈ frames, writeFrame f = some (sent f)) ∧
      readMany (fun r => (clientReadFrame r).toOption.join) frames.length
        (frames.flatMap sent ++ rest) =
        some (frames, rest)) ∧
    ∀ r, WholeFrame r → ((readFrame r).toOption = none ↔ maxChunk < lengthField r) ∧
      ((clientReadFrame r).toOption = none ↔ maxChunk < lengthField r) := by
  have hserver : ∀ f ∈ frames, ∀ rest, (readFrame (clientFrame f ++ rest)).toOption =
      some (f, rest) := by
    intro f hf rest
    rw [readFrame_append (hframes f hf)]
    rfl
  have hclient : ∀ f ∈ frames, ∀ rest, (clientReadFrame (clientFrame f ++ rest)).toOption.join =
      some (f, rest) := by
    intro f hf rest
    have hheader : frameHdr ≤ (clientFrame f ++ rest).length := Nat.le_add_left 13 _
    rw [clientReadFrame_eq hheader, hserver f hf]
    rfl
  refine ⟨⟨_, rfl, readHello_writeHello _ _ _ _, readMany_flatMap hserver rest⟩,
    ⟨clientFrame, fun f hf => writeFrame_eq (hframes f hf), readMany_flatMap hclient rest⟩,
    fun r hr => ?_⟩
  rw [clientReadFrame_eq hr.1, Option.map_eq_none_iff, readFrame_eq_none hr]
  exact ⟨Iff.rfl, Iff.rfl⟩

/-- Two frames, one of them empty. -/
theorem two_frames_agree :
    ∃ sent, (∀ f ∈ [⟨frameData, 0, [7, 8]⟩, ⟨frameFIN, 1, []⟩], writeFrame f = some (sent f)) ∧
    readMany (fun r => (clientReadFrame r).toOption.join) 2
      ([⟨frameData, 0, [7, 8]⟩, ⟨frameFIN, 1, []⟩].flatMap sent ++ []) =
        some ([⟨frameData, 0, [7, 8]⟩, ⟨frameFIN, 1, []⟩], []) :=
      (codecs_agree 5 0 2 (by decide) []).2.1

end OlcVpn.Bond
