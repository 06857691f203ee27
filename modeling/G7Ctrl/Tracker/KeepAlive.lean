import G7Ctrl.Core.Memory
import G7Ctrl.Tracker.Stream

/-!
# The keep-alive packet

A keep-alive packet has eight bytes: two that mark it, a sequence number of two bytes and a device
id of four, the low bytes first.  The server puts the numbers together in sums of products of
bytes, and such products and sums are computed in `int`.

* `IntArith` — what an `int` operation gives: `intChecked`, by the language, nothing when the
  result does not fit; `intWrapping`, on the usual machines, the low 32 bits.
* `keepAlivePacket` — the packet of the device (`send_keepalive` of the emulator).
* **`keepAlive_recovers_iff`** — the numbers are recovered without an overflow exactly when the
  device id is below 2^31.
* **`keepAlive_recovers_wrapping`** — with 32-bit wrap-around they are recovered in any case.
-/

namespace G7

/-- What an `int` operation with a given exact result gives. -/
abbrev IntArith := ℤ → Checked ℤ

/-- An overflow is undefined. -/
def intChecked : IntArith := fun v => if -(2 ^ 31) ≤ v ∧ v < 2 ^ 31 then .done v else .fault

/-- An overflow wraps around. -/
def intWrapping : IntArith := fun v => .done (toInt32 v)

/-- `(unsigned char) buffer[i]*weight` -/
def byteTimes (int : IntArith) (buffer : List Byte) (i : ℕ) (weight : ℤ) : Checked ℤ :=
  int ((byteAt buffer i).toNat * weight)

/-- The sum that `devid` is set to. -/
def keepAliveDevid (int : IntArith) (buffer : List Byte) : Checked ℤ := do
  let p₄ ← byteTimes int buffer 4 1
  let p₅ ← byteTimes int buffer 5 256
  let s₅ ← int (p₄ + p₅)
  let p₆ ← byteTimes int buffer 6 65536
  let s₆ ← int (s₅ + p₆)
  let p₇ ← byteTimes int buffer 7 16777216
  int (s₆ + p₇)

/-- The sum that `seq` is set to. -/
def keepAliveSeq (int : IntArith) (buffer : List Byte) : Checked ℤ := do
  let p₂ ← byteTimes int buffer 2 1
  let p₃ ← byteTimes int buffer 3 256
  int (p₂ + p₃)

/-- The numbers `handleKeepAlivePackage` takes from a packet, `devid` first; `none` when the package
is none and 1 is returned. -/
def keepAlivePackageNumbers (int : IntArith) (buffer : List Byte) : Checked (Option (ℕ × ℕ)) :=
  if buffer.length = keepAliveLen ∧ byteAt buffer 0 = 0xD0 ∧ byteAt buffer 1 = 0xD7 then do
    let devid ← keepAliveDevid int buffer
    let seq ← keepAliveSeq int buffer
    return some (toUnsigned32 devid, toUnsigned32 seq)
  else return none

/-- The bytes `send_keepalive` writes.  Each is the low byte of what is assigned to it, and what it
stands for is taken off before the next one is computed. -/
def keepAlivePacket (seq devid : ℕ) : List Byte :=
  let ka₃ := UInt8.ofNat (seq / 256)
  let ka₂ := UInt8.ofNat (seq - 256 * ka₃.toNat)
  let ka₇ := UInt8.ofNat (devid / 16777216)
  let tmp₆ := devid - ka₇.toNat * 16777216
  let ka₆ := UInt8.ofNat (tmp₆ / 65536)
  let tmp₅ := tmp₆ - ka₆.toNat * 65536
  let ka₅ := UInt8.ofNat (tmp₅ / 256)
  let ka₄ := UInt8.ofNat (tmp₅ - ka₅.toNat * 256)
  [0xD0, 0xD7, ka₂, ka₃, ka₄, ka₅, ka₆, ka₇]

section

variable {v : ℤ} {buffer : List Byte} {seq devid : ℕ}

lemma intChecked_of_range (h : -(2 ^ 31) ≤ v) (h' : v < 2 ^ 31) : intChecked v = .done v :=
  if_pos ⟨h, h'⟩

lemma intChecked_eq_fault (h : 2 ^ 31 ≤ v) : intChecked v = .fault :=
  if_neg fun hv => absurd hv.2 (not_lt.mpr h)

/-- The bytes of the packet are the base 256 digits of the numbers. -/
lemma keepAlivePacket_digits (hseq : seq < 2 ^ 16) (hdevid : devid < 2 ^ 32)
    (hbuffer : keepAlivePacket seq devid = buffer) :
    (byteAt buffer 2).toNat + (byteAt buffer 3).toNat * 256 = seq ∧
      (byteAt buffer 4).toNat + (byteAt buffer 5).toNat * 256 + (byteAt buffer 6).toNat * 65536
        + (byteAt buffer 7).toNat * 16777216 = devid := by
  subst hbuffer
  simp only [keepAlivePacket, byteAt, List.getD_cons_succ, List.getD_cons_zero,
    UInt8.toNat_ofNat']
  constructor
  · omega
  · omega

/-- Every packet is taken for one. -/
lemma keepAlivePackageNumbers_packet (int : IntArith)
    (hbuffer : keepAlivePacket seq devid = buffer) :
    keepAlivePackageNumbers int buffer = (do
      let devid ← keepAliveDevid int buffer
      let seq ← keepAliveSeq int buffer
      return some (toUnsigned32 devid, toUnsigned32 seq)) := by
  subst hbuffer
  exact if_pos ⟨rfl, rfl, rfl⟩

/-- The product with the last byte is the one that does not fit when its high bit is set. -/
lemma keepAliveDevid_checked
    (h : (byteAt buffer 4).toNat + (byteAt buffer 5).toNat * 256 + (byteAt buffer 6).toNat * 65536
      + (byteAt buffer 7).toNat * 16777216 = devid) :
    keepAliveDevid intChecked buffer
      = if devid < 2 ^ 31 then .done (devid : ℤ) else .fault := by
  have h₄ := (byteAt buffer 4).toNat_lt
  have h₅ := (byteAt buffer 5).toNat_lt
  have h₆ := (byteAt buffer 6).toNat_lt
  simp only [keepAliveDevid, byteTimes]
  rw [intChecked_of_range (by omega) (by omega), Checked.done_bind,
    intChecked_of_range (by omega) (by omega), Checked.done_bind,
    intChecked_of_range (by omega) (by omega), Checked.done_bind,
    intChecked_of_range (by omega) (by omega), Checked.done_bind,
    intChecked_of_range (by omega) (by omega), Checked.done_bind]
  split_ifs with hdevid
  · rw [intChecked_of_range (by omega) (by omega), Checked.done_bind,
      intChecked_of_range (by omega) (by omega), ← h]
    push_cast
    rw [mul_one]
  · rw [intChecked_eq_fault (by omega), Checked.fault_bind]

/-- The sequence number always fits. -/
lemma keepAliveSeq_checked (h : (byteAt buffer 2).toNat + (byteAt buffer 3).toNat * 256 = seq) :
    keepAliveSeq intChecked buffer = .done (seq : ℤ) := by
  have h₂ := (byteAt buffer 2).toNat_lt
  have h₃ := (byteAt buffer 3).toNat_lt
  simp only [keepAliveSeq, byteTimes]
  rw [intChecked_of_range (by omega) (by omega), Checked.done_bind,
    intChecked_of_range (by omega) (by omega), Checked.done_bind,
    intChecked_of_range (by omega) (by omega), ← h]
  push_cast
  rw [mul_one]

lemma toInt32_emod (v : ℤ) : toInt32 v % 2 ^ 32 = v % 2 ^ 32 := Int.bmod_emod

/-- With wrap-around the sum over four bytes is right up to multiples of 2^32. -/
lemma keepAliveDevid_wrapping
    (h : (byteAt buffer 4).toNat + (byteAt buffer 5).toNat * 256 + (byteAt buffer 6).toNat * 65536
      + (byteAt buffer 7).toNat * 16777216 = devid) :
    ∃ v, keepAliveDevid intWrapping buffer = .done v ∧ v % 2 ^ 32 = (devid : ℤ) % 2 ^ 32 := by
  refine ⟨_, rfl, ?_⟩
  have h₄ := toInt32_emod ((byteAt buffer 4).toNat * 1)
  have h₅ := toInt32_emod ((byteAt buffer 5).toNat * 256)
  have h₆ := toInt32_emod ((byteAt buffer 6).toNat * 65536)
  have h₇ := toInt32_emod ((byteAt buffer 7).toNat * 16777216)
  generalize toInt32 ((byteAt buffer 4).toNat * 1) = p₄ at *
  generalize toInt32 ((byteAt buffer 5).toNat * 256) = p₅ at *
  generalize toInt32 ((byteAt buffer 6).toNat * 65536) = p₆ at *
  generalize toInt32 ((byteAt buffer 7).toNat * 16777216) = p₇ at *
  have hs₅ := toInt32_emod (p₄ + p₅)
  generalize toInt32 (p₄ + p₅) = s₅ at *
  have hs₆ := toInt32_emod (s₅ + p₆)
  generalize toInt32 (s₅ + p₆) = s₆ at *
  rw [toInt32_emod, ← h]
  push_cast
  omega

/-- So is the sum over two bytes. -/
lemma keepAliveSeq_wrapping (h : (byteAt buffer 2).toNat + (byteAt buffer 3).toNat * 256 = seq) :
    ∃ v, keepAliveSeq intWrapping buffer = .done v ∧ v % 2 ^ 32 = (seq : ℤ) % 2 ^ 32 := by
  refine ⟨_, rfl, ?_⟩
  have h₂ := toInt32_emod ((byteAt buffer 2).toNat * 1)
  have h₃ := toInt32_emod ((byteAt buffer 3).toNat * 256)
  generalize toInt32 ((byteAt buffer 2).toNat * 1) = p₂ at *
  generalize toInt32 ((byteAt buffer 3).toNat * 256) = p₃ at *
  rw [toInt32_emod, ← h]
  push_cast
  omega

lemma toUnsigned32_natCast {n : ℕ} (h : n < 2 ^ 32) : toUnsigned32 (n : ℤ) = n := by
  rw [toUnsigned32, Int.emod_eq_of_lt (by omega) (by omega)]
  omega

end

/-- **When the server recovers what the device has sent**, no term being too large for an `int`. -/
theorem keepAlive_recovers_iff (seq : UInt16) (devid : UInt32) :
    keepAlivePackageNumbers intChecked (keepAlivePacket seq.toNat devid.toNat)
        = .done (some (devid.toNat, seq.toNat)) ↔ devid.toNat < 2 ^ 31 := by
  generalize hbuffer : keepAlivePacket seq.toNat devid.toNat = buffer
  obtain ⟨hseq, hdevid⟩ := keepAlivePacket_digits seq.toNat_lt devid.toNat_lt hbuffer
  rw [keepAlivePackageNumbers_packet _ hbuffer, keepAliveDevid_checked hdevid,
    keepAliveSeq_checked hseq]
  split_ifs with h
  · have hseq₃₂ : seq.toNat < 2 ^ 32 := seq.toNat_lt.trans (by decide)
    rw [Checked.done_bind, Checked.done_bind, toUnsigned32_natCast devid.toNat_lt,
      toUnsigned32_natCast hseq₃₂]
    exact iff_of_true rfl h
  · exact iff_of_false (by rw [Checked.fault_bind]; exact fun h => by cases h) h

/-- **Where an overflow wraps around, the numbers are recovered from every packet.** -/
theorem keepAlive_recovers_wrapping (seq : UInt16) (devid : UInt32) :
    keepAlivePackageNumbers intWrapping (keepAlivePacket seq.toNat devid.toNat)
      = .done (some (devid.toNat, seq.toNat)) := by
  generalize hbuffer : keepAlivePacket seq.toNat devid.toNat = buffer
  obtain ⟨hseq, hdevid⟩ := keepAlivePacket_digits seq.toNat_lt devid.toNat_lt hbuffer
  obtain ⟨v, hv, hmod⟩ := keepAliveDevid_wrapping hdevid
  obtain ⟨w, hw, hmod'⟩ := keepAliveSeq_wrapping hseq
  rw [keepAlivePackageNumbers_packet _ hbuffer, hv, Checked.done_bind, hw, Checked.done_bind,
    ← toUnsigned32_natCast devid.toNat_lt,
    ← toUnsigned32_natCast (seq.toNat_lt.trans (by decide)), toUnsigned32, toUnsigned32, hmod, hmod']
  rfl

/-- A tracker of the make the program is for has a device id from 3000000001 on. -/
theorem realDevid_overflows :
    keepAlivePackageNumbers intChecked (keepAlivePacket 1 3000000001) = .fault ∧
    ¬ keepAlivePackageNumbers intChecked (keepAlivePacket 1 3000000001)
      = .done (some (3000000001, 1)) := by
  decide

end G7
