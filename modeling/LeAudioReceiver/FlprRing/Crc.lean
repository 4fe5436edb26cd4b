import LeAudioReceiver.Crc.Basic
import LeAudioReceiver.FlprRing.Slot

/-!
# The check of a slot

`flpr_ring_crc32` is meant to be the reflected CRC-32 with polynomial `0xEDB88320`, by way of a
table.  All entries of the table are right but one (`crc32Table_eq`): entry `0xBB` is `0x5CB30A04`
where eight bit steps give `0x5CB36A04`.  A message whose loop looks up this entry is off by
`0x6000` from there on, moved through the bytes that follow.

* `wrongLookups` : the bytes at which the entry is looked up, from the correct remainder and the
  error so far;
* `crc32_eq_reflected_iff` : the check is the CRC-32 exactly if the errors of these bytes cancel;
* `crc32_eq_of_wrongLookups_eq_nil`, `crc32_ne_of_wrongLookups_eq_singleton` : they do if there is
  no such byte, and do not if there is just one.
-/

namespace LeAudioReceiver

namespace FlprRing

/-- The polynomial of the Ethernet CRC-32, low bit first. -/
def crc32Poly : BitVec 32 := 0xEDB88320#32

/-- The CRC-32 of a message, bit by bit. -/
def crc32Bitwise (data : List UInt8) : BitVec 32 :=
  Crc.reflected crc32Poly 0xFFFFFFFF#32 0xFFFFFFFF#32 data

/-- The entry of the table that the code reads. -/
def crc32Entry (i : ℕ) : BitVec 32 := (crc32Table.getD i 0).toBitVec

/-- The error of an entry. -/
def entryError (i : ℕ) : BitVec 32 := if i = 0xBB then 0x6000#32 else 0#32

theorem crc32Table_eq :
    crc32Table.map UInt32.toBitVec =
      (List.range 256).map fun i =>
        Crc.bitSteps crc32Poly 8 (BitVec.ofNat 32 i) ^^^ entryError i := by
  decide +kernel

theorem crc32Entry_eq {i : ℕ} (hi : i < 256) :
    crc32Entry i = Crc.bitSteps crc32Poly 8 (BitVec.ofNat 32 i) ^^^ entryError i := by
  have hmap : crc32Entry i = (crc32Table.map UInt32.toBitVec).getD i 0 := by
    rw [crc32Entry, List.getD_eq_getElem?_getD, List.getD_eq_getElem?_getD, List.getElem?_map]
    cases crc32Table[i]? <;> rfl
  rw [hmap, crc32Table_eq, List.getD_eq_getElem?_getD, List.getElem?_map, List.getElem?_range hi]
  rfl

/-! ### The loop of the code -/

theorem round_eq (c : UInt32) (b : UInt8) :
    (crc32Table.getD ((c ^^^ b.toUInt32) &&& 0xFF).toNat 0 ^^^ (c >>> 8)).toBitVec =
      Crc.tableStep crc32Entry c.toBitVec b := by
  have hand : ∀ x : UInt32, (x &&& 0xFF).toNat = x.toBitVec.toNat % 256 := by
    intro x
    rw [UInt32.toNat_and]
    exact Nat.and_two_pow_sub_one_eq_mod x.toNat 8
  rw [hand, UInt32.toBitVec_xor, UInt32.toBitVec_shiftRight]
  rfl

theorem loop_eq (data : List UInt8) (c : UInt32) :
    (data.foldl (fun (crc : UInt32) b =>
      crc32Table.getD ((crc ^^^ b.toUInt32) &&& 0xFF).toNat 0 ^^^ (crc >>> 8)) c).toBitVec =
      data.foldl (Crc.tableStep crc32Entry) c.toBitVec := by
  induction data generalizing c with
  | nil => rfl
  | cons b data ih => rw [List.foldl_cons, List.foldl_cons, ih, round_eq]

/-! ### Errors -/

/-- The bytes whose index is `0xBB`, each as the number of bytes that follow it: `c` is the correct
remainder and `e` the error that earlier such bytes have left in it. -/
def wrongLookups (c e : BitVec 32) : List UInt8 → List ℕ
  | [] => []
  | b :: data =>
    if Crc.index (c ^^^ e) b = 0xBB then
      data.length ::
        wrongLookups (Crc.byteStep crc32Poly c b) (Crc.bitSteps crc32Poly 8 e ^^^ 0x6000#32) data
    else wrongLookups (Crc.byteStep crc32Poly c b) (Crc.bitSteps crc32Poly 8 e) data

/-- What the errors of these bytes add up to at the end. -/
def totalError (ds : List ℕ) : BitVec 32 :=
  (ds.map fun d => Crc.bitSteps crc32Poly (8 * d) 0x6000#32).foldr (· ^^^ ·) 0#32

/-- The invariant of the loop: its remainder is the correct one with the errors so far. -/
theorem foldl_tableStep (data : List UInt8) (c e : BitVec 32) :
    data.foldl (Crc.tableStep crc32Entry) (c ^^^ e) =
      data.foldl (Crc.byteStep crc32Poly) c ^^^
        (Crc.bitSteps crc32Poly (8 * data.length) e ^^^ totalError (wrongLookups c e data)) := by
  induction data generalizing c e with
  | nil => exact congrArg (c ^^^ ·) BitVec.xor_zero.symm
  | cons b data ih =>
    have hlen : 8 * (b :: data).length = 8 + 8 * data.length := by
      rw [List.length_cons]
      omega
    have hentry := crc32Entry_eq (i := Crc.index (c ^^^ e) b) (Nat.mod_lt _ (by decide))
    rw [List.foldl_cons, List.foldl_cons, Crc.tableStep_xor crc32Entry c e b hentry, ih, hlen,
      Crc.bitSteps_add, Crc.bitSteps_xor, wrongLookups, entryError]
    split
    · -- the error of this byte moves through the bytes behind it
      rw [totalError, totalError, List.map_cons, List.foldr_cons]
      ac_rfl
    · rw [BitVec.xor_zero, Crc.bitSteps_zero, BitVec.xor_zero]

theorem crc32_eq (data : List UInt8) (h : data ≠ []) :
    (crc32 data).toBitVec =
      crc32Bitwise data ^^^ totalError (wrongLookups 0xFFFFFFFF#32 0#32 data) := by
  have hlen : data.length ≠ 0 := fun h₀ => h (List.length_eq_zero_iff.1 h₀)
  have hloop := foldl_tableStep data 0xFFFFFFFF#32 0#32
  rw [Crc.bitSteps_zero, BitVec.zero_xor] at hloop
  rw [crc32, if_neg hlen, UInt32.toBitVec_xor, loop_eq, crc32Bitwise, Crc.reflected]
  show data.foldl (Crc.tableStep crc32Entry) (0xFFFFFFFF#32 ^^^ 0#32) ^^^ 0xFFFFFFFF#32 = _
  rw [hloop]
  ac_rfl

/-- **The check of a slot is the CRC-32 exactly if the errors cancel.** -/
theorem crc32_eq_reflected_iff (data : List UInt8) (h : data ≠ []) :
    (crc32 data).toBitVec = crc32Bitwise data ↔
      totalError (wrongLookups 0xFFFFFFFF#32 0#32 data) = 0#32 := by
  rw [crc32_eq data h, Crc.xor_eq_self_iff]

theorem crc32_eq_reflected_iff_digits :
    crc32 [0x31, 0x32, 0x33, 0x34, 0x35, 0x36, 0x37, 0x38, 0x39] = 0xCBF43926 ∧
      (crc32 [0x31, 0x32, 0x33, 0x34, 0x35, 0x36, 0x37, 0x38, 0x39]).toBitVec =
        crc32Bitwise [0x31, 0x32, 0x33, 0x34, 0x35, 0x36, 0x37, 0x38, 0x39] :=
  ⟨by decide +kernel, (crc32_eq_reflected_iff _ (by decide)).2 (by decide +kernel)⟩

/-- A block of one frame, its left sample 68: the first byte looks up the wrong entry. -/
theorem crc32_frame_ne :
    (crc32 [0x44, 0x00, 0x00, 0x00]).toBitVec ≠ crc32Bitwise [0x44, 0x00, 0x00, 0x00] := by
  decide +kernel

/-- A message that never looks up the entry. -/
theorem crc32_eq_of_wrongLookups_eq_nil {data : List UInt8} (h : data ≠ [])
    (hnone : wrongLookups 0xFFFFFFFF#32 0#32 data = []) :
    (crc32 data).toBitVec = crc32Bitwise data := by
  rw [crc32_eq data h, hnone]
  exact BitVec.xor_zero

/-- A message that looks it up once: a single error never dies out. -/
theorem crc32_ne_of_wrongLookups_eq_singleton {data : List UInt8} (h : data ≠ []) {d : ℕ}
    (hone : wrongLookups 0xFFFFFFFF#32 0#32 data = [d]) :
    (crc32 data).toBitVec ≠ crc32Bitwise data := by
  intro heq
  have htop : crc32Poly.getLsbD (32 - 1) = true := by decide
  rw [crc32_eq data h, hone, Crc.xor_eq_self_iff] at heq
  have herror : Crc.bitSteps crc32Poly (8 * d) 0x6000#32 ^^^ 0#32 = 0#32 := heq
  rw [BitVec.xor_zero, Crc.bitSteps_eq_zero_iff htop] at herror
  exact absurd herror (by decide)

end FlprRing

end LeAudioReceiver
