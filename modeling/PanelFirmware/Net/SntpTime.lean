import PanelFirmware.Hal.Rtc
import PanelFirmware.Net.Sntp

/-!
# `net/src/sntp.c`: the time of an answer

An answer carries the seconds since 1900 in network byte order, modulo `2 ^ 32`. `sntp_process`
swaps the bytes, subtracts the seconds from 1900 to 1970 in the same thirty-two bits, and sets the
clock. The count of the answers wraps in February 2036, the difference does not before 2106.

* `lwipHtonl_networkOrder`: the bytes of the answer make up its number.
* `clock_of_answer`: the instant the clock is set to, and the time it reads then.
-/

namespace PanelFirmware.Net.Sntp

open PanelFirmware.Lib PanelFirmware.Hal

/-- A word with its bytes in the other order. Source: `lwip` `def.c` `lwip_htonl`, `def.h`
`PP_HTONL`. -/
def lwipHtonl (x : ℕ) : ℕ :=
  shl (x &&& 0x000000FF) 24 ||| shl (x &&& 0x0000FF00) 8 ||| (x &&& 0x00FF0000) >>> 8 |||
    (x &&& 0xFF000000) >>> 24

/-- Source: `sntp.c` `DIFF_SEC_1900_1970`. -/
def diffSec19001970 : ℕ := 2208988800

/-- The instant `t`, in `unsigned long`s of thirty-two bits until it is stored.
Source: `sntp.c` `sntp_process`. -/
def instant (receiveTimestamp : ℕ) : ℕ :=
  (lwipHtonl receiveTimestamp + 2 ^ 32 - diffSec19001970) % 2 ^ 32

/-- Source: `sntp.c` `sntp_process`. -/
def sntpProcess (r : Rtc) (receiveTimestamp : ℕ) : Bool × Rtc :=
  rtcSetTimeUnix r (instant receiveTimestamp)

/-- The word that is copied from the answer, as it lies in memory.
Source: `sntp.c` `sntp_recv`, `receive_timestamp`, `SNTP_OFFSET_RECEIVE_TIME`. -/
def receiveTimestamp (p : Packet) : ℕ := ofBytesLE ((p.payload.drop 32).take 4)

/-- The clock after a packet. Source: `sntp.c` `sntp_recv`. -/
def clockAfter (r : Rtc) (p : Packet) : Rtc :=
  if verdict p = .errOk then (sntpProcess r (receiveTimestamp p)).2 else r

/-! ### Network byte order -/

/-- A number in four bytes, the highest first. -/
def networkOrder (v : ℕ) : List Byte := (toBytesLE 4 v).reverse

/-- A byte of a word, masked out. -/
lemma and_shiftLeft_mask (x k : ℕ) : x &&& 0xFF <<< k = (x >>> k % 256) <<< k := by
  have hmask : x >>> k % 256 = x >>> k &&& 0xFF :=
    (Nat.and_two_pow_sub_one_eq_mod (x >>> k) 8).symm
  refine Nat.eq_of_testBit_eq fun i => ?_
  rw [hmask, Nat.testBit_and, Nat.testBit_shiftLeft, Nat.testBit_shiftLeft, Nat.testBit_and,
    Nat.testBit_shiftRight]
  by_cases hi : k ≤ i
  · simp [hi]
  · simp [hi]

/-- The bytes of a word in the other order. -/
lemma lwipHtonl_eq {a b c d : ℕ} (ha : a < 256) (hb : b < 256) (hc : c < 256) (hd : d < 256) :
    lwipHtonl (a + 256 * b + 65536 * c + 16777216 * d)
      = 16777216 * a + 65536 * b + 256 * c + d := by
  generalize hx : a + 256 * b + 65536 * c + 16777216 * d = x
  have h0 : shl (x &&& 0x000000FF) 24 = 2 ^ 24 * a := by
    rw [show (0x000000FF : ℕ) = 0xFF <<< 0 from rfl, and_shiftLeft_mask, shl]
    simp only [Nat.shiftLeft_eq, Nat.shiftRight_eq_div_pow]
    omega
  have h1 : shl (x &&& 0x0000FF00) 8 = 2 ^ 16 * b := by
    rw [show (0x0000FF00 : ℕ) = 0xFF <<< 8 from rfl, and_shiftLeft_mask, shl]
    simp only [Nat.shiftLeft_eq, Nat.shiftRight_eq_div_pow]
    omega
  have h2 : (x &&& 0x00FF0000) >>> 8 = 2 ^ 8 * c := by
    rw [show (0x00FF0000 : ℕ) = 0xFF <<< 16 from rfl, and_shiftLeft_mask]
    simp only [Nat.shiftLeft_eq, Nat.shiftRight_eq_div_pow]
    omega
  have h3 : (x &&& 0xFF000000) >>> 24 = d := by
    rw [show (0xFF000000 : ℕ) = 0xFF <<< 24 from rfl, and_shiftLeft_mask]
    simp only [Nat.shiftLeft_eq, Nat.shiftRight_eq_div_pow]
    omega
  -- the four bytes are at places of their own, so that they add up
  have hlow : 2 ^ 8 * c + d < 2 ^ 16 := by omega
  have hmiddle : 2 ^ 16 * b + (2 ^ 8 * c + d) < 2 ^ 24 := by omega
  rw [lwipHtonl, h0, h1, h2, h3, Nat.or_assoc, Nat.or_assoc,
    ← Nat.two_pow_add_eq_or_of_lt (show d < 2 ^ 8 from hd) c,
    ← Nat.two_pow_add_eq_or_of_lt hlow b, ← Nat.two_pow_add_eq_or_of_lt hmiddle a]
  omega

/-- **The bytes of an answer make up its number.** -/
theorem lwipHtonl_networkOrder {v : ℕ} (hv : v < 2 ^ 32) :
    lwipHtonl (ofBytesLE (networkOrder v)) = v := by
  have hbyte : ∀ x : ℕ, (BitVec.ofNat 8 x).toNat = x % 256 := fun x => BitVec.toNat_ofNat x 8
  have hbytes : ofBytesLE (networkOrder v) = v / 256 / 256 / 256 % 256 +
      256 * (v / 256 / 256 % 256) + 65536 * (v / 256 % 256) + 16777216 * (v % 256) := by
    simp only [networkOrder, toBytesLE, List.reverse_cons, List.reverse_nil, List.nil_append,
      List.cons_append, ofBytesLE, hbyte]
    omega
  rw [hbytes, lwipHtonl_eq (Nat.mod_lt _ (by decide)) (Nat.mod_lt _ (by decide))
    (Nat.mod_lt _ (by decide)) (Nat.mod_lt _ (by decide))]
  omega

/-! ### The era -/

/-- The instant of an answer. -/
lemma instant_networkOrder {u : ℕ} (hu : u < 2 ^ 32) :
    instant (ofBytesLE (networkOrder ((u + 2208988800) % 2 ^ 32))) = u := by
  rw [instant, lwipHtonl_networkOrder (Nat.mod_lt _ (by decide)), diffSec19001970]
  omega

/-- **The era of network time.** For every instant of thirty-two bits, sent as the seconds since
1900 modulo `2 ^ 32` in network byte order: `sntp_process` passes the instant to
`rtc_setTimeUnix`; and if it is in the years 2000 to 2099, `time` on the registers of a clock that
is enabled and ready returns it. -/
theorem era (r : Rtc) (hen : r.rtcen = true) (hrdy : r.lserdy = true) (u : ℕ) (hu : u < 2 ^ 32) :
    let word := ofBytesLE (networkOrder ((u + 2208988800) % 2 ^ 32))
    instant word = u ∧ sntpProcess r word = rtcSetTimeUnix r u ∧
      (946684800 ≤ u → u ≤ 4102444799 → time (sntpProcess r word).2 = some (u : ℤ)) := by
  intro word
  have hinstant : instant word = u := instant_networkOrder hu
  have hprocess : sntpProcess r word = rtcSetTimeUnix r u := by rw [sntpProcess, hinstant]
  refine ⟨hinstant, hprocess, fun hlo hhi => ?_⟩
  have hcentury := inCentury_gmtimeR hlo hhi
  rw [hprocess, rtcSetTimeUnix_eq hen hrdy hcentury, time, (unpack_pack r hcentury).2]
  exact tmToUnixTime_gmtimeR hu

/-- The second after the count of the answers wraps. -/
theorem era_2036 :
    let word := ofBytesLE (networkOrder ((2085978497 + 2208988800) % 2 ^ 32))
    instant word = 2085978497 ∧
      sntpProcess ⟨0, 0, true, true⟩ word = rtcSetTimeUnix ⟨0, 0, true, true⟩ 2085978497 ∧
      (946684800 ≤ 2085978497 → 2085978497 ≤ 4102444799 →
        time (sntpProcess ⟨0, 0, true, true⟩ word).2 = some ((2085978497 : ℕ) : ℤ)) :=
  era ⟨0, 0, true, true⟩ rfl rfl 2085978497 (by decide)

/-- **The clock after an answer.** A packet that `sntp_recv` takes for an answer, with the seconds
of an instant of the years 2000 to 2099 at its place, sets an enabled clock to that instant. -/
theorem clock_of_answer {r : Rtc} (hen : r.rtcen = true) (hrdy : r.lserdy = true) {p : Packet}
    (hok : verdict p = .errOk) {u : ℕ} (hlo : 946684800 ≤ u) (hhi : u ≤ 4102444799)
    (hseconds : (p.payload.drop 32).take 4 = networkOrder ((u + 2208988800) % 2 ^ 32)) :
    time (clockAfter r p) = some (u : ℤ) := by
  have hu : u < 2 ^ 32 := by omega
  have hcentury := inCentury_gmtimeR hlo hhi
  rw [clockAfter, if_pos hok, sntpProcess, receiveTimestamp, hseconds, instant_networkOrder hu,
    rtcSetTimeUnix_eq hen hrdy hcentury, time, (unpack_pack r hcentury).2]
  exact tmToUnixTime_gmtimeR hu

end PanelFirmware.Net.Sntp
