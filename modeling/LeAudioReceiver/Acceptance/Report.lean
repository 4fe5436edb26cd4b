import LeAudioReceiver.Handshake.Peer
import Mathlib.Algebra.Ring.Nat
import Mathlib.Data.UInt

/-!
# The report of a ring test

The counters of the FLPR core travel to the application core in five `RING_TEST_REPORT` messages
(`src/flpr/acceptance.c`), which its diagnostic handler decodes (`src/flpr_acceptance.c`).  The
subtype of a report is the high byte of the sequence field, and the first report has its CRC error
count in the whole of that field.

* `foldl_settled` : a field that some message sets and no message sets otherwise;
* `reports_agree_iff` : in any order, the decoded fields agree with the counters from any earlier
  decoded values if and only if the CRC error count fits in the low byte of the field.
-/

namespace LeAudioReceiver

namespace Acceptance

open Handshake

/-- `FLPR_MSG_RING_TEST_REPORT`. -/
def msgRingTestReport : UInt8 := 0x14

/-- The counters of the FLPR core that are reported. -/
structure Counters where
  ringTestBlockCount : UInt32
  ringTestCrcErrors : UInt32
  diagNotifyRcv : UInt32
  diagWorkerWake : UInt32
  diagConsumeOk : UInt32
  diagConsumeEmpty : UInt32
  diagConsumeStale : UInt32
  diagProduceOk : UInt32
  diagProduceFull : UInt32
  deriving DecidableEq

/-- A report. -/
def report (seq : UInt16) (data : UInt32) : Msg := ⟨msgRingTestReport, protocolVersion, seq, data⟩

/-- `x & 0xFFFFU`. -/
def low16 (x : UInt32) : UInt32 := x &&& 0xFFFF

/-- Two 16-bit values in one word. -/
def pack (lo hi : UInt32) : UInt32 := low16 lo ||| (low16 hi <<< 16)

/-- The messages of `flpr_acceptance_handle_msg` for `RING_TEST_STOP`. -/
def Counters.reports (c : Counters) : List Msg :=
  [report (low16 c.ringTestCrcErrors).toUInt16 c.ringTestBlockCount,
    report 0xD100 c.diagConsumeOk,
    report 0xD200 c.diagProduceOk,
    report ((0xD300 : UInt32) ||| if c.diagNotifyRcv > 255 then 255 else c.diagNotifyRcv).toUInt16
      (pack c.diagWorkerWake c.diagProduceFull),
    report 0xD400 (pack c.diagConsumeEmpty c.diagConsumeStale)]

/-- What the application core has decoded: `test_flpr_*`. -/
structure Decoded where
  blocks : UInt32
  crcErr : UInt32
  notifyRcv : UInt32
  workerWake : UInt32
  consumeOk : UInt32
  consumeEmpty : UInt32
  consumeStale : UInt32
  produceOk : UInt32
  produceFull : UInt32
  deriving DecidableEq

/-- The subtype of a report. -/
def subtype (m : Msg) : UInt8 := (m.seq >>> 8).toUInt8

/-- `flpr_acceptance_diag_handler` for `RING_TEST_REPORT`. -/
def Decoded.diagHandler (d : Decoded) (m : Msg) : Decoded :=
  match subtype m with
  | 0x00 => { d with crcErr := (m.seq &&& 0xFFFF).toUInt32, blocks := m.data }
  | 0xD1 => { d with consumeOk := m.data }
  | 0xD2 => { d with produceOk := m.data }
  | 0xD3 =>
    { d with
        notifyRcv := (m.seq &&& 0xFF).toUInt32
        workerWake := low16 m.data
        produceFull := low16 (m.data >>> 16) }
  | 0xD4 => { d with consumeEmpty := low16 m.data, consumeStale := low16 (m.data >>> 16) }
  | _ => d

/-- The decoded values are the counters, to the width that a report has for them. -/
structure Decoded.Agrees (d : Decoded) (c : Counters) : Prop where
  blocks : d.blocks = c.ringTestBlockCount
  consumeOk : d.consumeOk = c.diagConsumeOk
  produceOk : d.produceOk = c.diagProduceOk
  crcErr : d.crcErr.toNat = c.ringTestCrcErrors.toNat % 2 ^ 16
  workerWake : d.workerWake.toNat = c.diagWorkerWake.toNat % 2 ^ 16
  produceFull : d.produceFull.toNat = c.diagProduceFull.toNat % 2 ^ 16
  consumeEmpty : d.consumeEmpty.toNat = c.diagConsumeEmpty.toNat % 2 ^ 16
  consumeStale : d.consumeStale.toNat = c.diagConsumeStale.toNat % 2 ^ 16
  notifyRcv : d.notifyRcv.toNat = min c.diagNotifyRcv.toNat 255

/-! ### Packed words -/

theorem toNat_low16 (x : UInt32) : (low16 x).toNat = x.toNat % 2 ^ 16 := by
  rw [low16, UInt32.toNat_and]
  exact Nat.and_two_pow_sub_one_eq_mod _ 16

theorem toNat_pack (lo hi : UInt32) :
    (pack lo hi).toNat = 2 ^ 16 * (hi.toNat % 2 ^ 16) + lo.toNat % 2 ^ 16 := by
  have hlo := Nat.mod_lt lo.toNat (show 0 < 2 ^ 16 by decide)
  have hhi := Nat.mod_lt hi.toNat (show 0 < 2 ^ 16 by decide)
  rw [pack, UInt32.toNat_or, UInt32.toNat_shiftLeft, toNat_low16, toNat_low16,
    Nat.two_pow_add_eq_or_of_lt hlo, Nat.or_comm, Nat.shiftLeft_eq]
  simp only [UInt32.reduceToNat, Nat.reduceMod]
  congr 1
  omega

theorem toNat_pack_lo (lo hi : UInt32) : (low16 (pack lo hi)).toNat = lo.toNat % 2 ^ 16 := by
  rw [toNat_low16, toNat_pack]
  omega

theorem toNat_pack_hi (lo hi : UInt32) :
    (low16 (pack lo hi >>> 16)).toNat = hi.toNat % 2 ^ 16 := by
  rw [toNat_low16, UInt32.toNat_shiftRight, toNat_pack, Nat.shiftRight_eq_div_pow]
  simp only [UInt32.reduceToNat, Nat.reduceMod]
  omega

/-- `diag_notify_rcv > 255 ? 255 : diag_notify_rcv`. -/
theorem toNat_saturated (n : UInt32) : (if n > 255 then 255 else n).toNat = min n.toNat 255 := by
  have h255 : (255 : UInt32).toNat = 255 := rfl
  split_ifs with h
  · have hlt : 255 < n.toNat := h
    omega
  · have hle : ¬ 255 < n.toNat := h
    omega

theorem toNat_miscSeq {n : UInt32} (h : n.toNat ≤ 255) :
    (0xD300 ||| n).toUInt16.toNat = 0xD300 + n.toNat := by
  have hor : 0xD300 + n.toNat = 0xD300 ||| n.toNat :=
    Nat.two_pow_add_eq_or_of_lt (i := 8) (by omega) 0xD3
  rw [UInt32.toNat_toUInt16, UInt32.toNat_or]
  simp only [UInt32.reduceToNat]
  omega

theorem toNat_subtype (m : Msg) : (subtype m).toNat = m.seq.toNat / 2 ^ 8 % 2 ^ 8 := by
  rw [subtype, UInt16.toNat_toUInt8, UInt16.toNat_shiftRight, Nat.shiftRight_eq_div_pow]
  rfl

/-! ### The messages, one by one -/

theorem diagHandler_first {seq : UInt16} (data : UInt32) (d : Decoded) (h : seq.toNat < 2 ^ 8) :
    d.diagHandler (report seq data) =
      { d with crcErr := (seq &&& 0xFFFF).toUInt32, blocks := data } := by
  have hsub : subtype (report seq data) = 0x00 := by
    rw [← UInt8.toNat_inj, toNat_subtype]
    change seq.toNat / 2 ^ 8 % 2 ^ 8 = 0
    omega
  unfold Decoded.diagHandler
  rw [hsub]
  rfl

theorem diagHandler_misc {seq : UInt16} {n : ℕ} (data : UInt32) (d : Decoded)
    (h : seq.toNat = 0xD300 + n) (hn : n ≤ 255) :
    d.diagHandler (report seq data) =
      { d with
          notifyRcv := (seq &&& 0xFF).toUInt32
          workerWake := low16 data
          produceFull := low16 (data >>> 16) } := by
  have hsub : subtype (report seq data) = 0xD3 := by
    rw [← UInt8.toNat_inj, toNat_subtype]
    change seq.toNat / 2 ^ 8 % 2 ^ 8 = 0xD3
    omega
  unfold Decoded.diagHandler
  rw [hsub]
  rfl

theorem diagHandler_consumeOk (data : UInt32) (d : Decoded) :
    d.diagHandler (report 0xD100 data) = { d with consumeOk := data } := by
  have hsub : subtype (report 0xD100 data) = 0xD1 :=
    (by decide : ((0xD100 : UInt16) >>> 8).toUInt8 = 0xD1)
  unfold Decoded.diagHandler
  rw [hsub]
  rfl

theorem diagHandler_produceOk (data : UInt32) (d : Decoded) :
    d.diagHandler (report 0xD200 data) = { d with produceOk := data } := by
  have hsub : subtype (report 0xD200 data) = 0xD2 :=
    (by decide : ((0xD200 : UInt16) >>> 8).toUInt8 = 0xD2)
  unfold Decoded.diagHandler
  rw [hsub]
  rfl

theorem diagHandler_empty (data : UInt32) (d : Decoded) :
    d.diagHandler (report 0xD400 data) =
      { d with consumeEmpty := low16 data, consumeStale := low16 (data >>> 16) } := by
  have hsub : subtype (report 0xD400 data) = 0xD4 :=
    (by decide : ((0xD400 : UInt16) >>> 8).toUInt8 = 0xD4)
  unfold Decoded.diagHandler
  rw [hsub]
  rfl

/-- A report with any other first half of its sequence field sets no block count. -/
theorem diagHandler_blocks {seq : UInt16} (data : UInt32) (d : Decoded) (h : 2 ^ 8 ≤ seq.toNat) :
    (d.diagHandler (report seq data)).blocks = d.blocks := by
  have hsub : subtype (report seq data) ≠ 0x00 := by
    rw [Ne, ← UInt8.toNat_inj, toNat_subtype]
    have := seq.toNat_lt
    change ¬ seq.toNat / 2 ^ 8 % 2 ^ 8 = 0
    omega
  unfold Decoded.diagHandler
  split
  · contradiction
  all_goals rfl

/-! ### All messages, in any order -/

/-- A field that some message sets to `v`, and that every message sets to `v` or keeps. -/
theorem foldl_settled {σ α ι : Type*} {f : σ → ι → σ} {field : σ → α} {v : α} {l : List ι}
    (hkeep : ∀ m ∈ l, ∀ s, field (f s m) = v ∨ field (f s m) = field s)
    (hset : ∃ m ∈ l, ∀ s, field (f s m) = v) (s : σ) : field (l.foldl f s) = v := by
  obtain ⟨m, hm, hv⟩ := hset
  obtain ⟨l₁, l₂, rfl⟩ := List.append_of_mem hm
  rw [List.foldl_append, List.foldl_cons]
  refine List.foldlRecOn l₂ f (motive := fun s => field s = v) (hv _) fun s hs m' hm' => ?_
  exact (hkeep m' (by simp [hm']) s).elim id fun h => h.trans hs

theorem agrees_of_fits {c : Counters} {order : List Msg} (h : order.Perm c.reports)
    (hfits : c.ringTestCrcErrors.toNat % 2 ^ 16 < 2 ^ 8) (d : Decoded) :
    (order.foldl Decoded.diagHandler d).Agrees c := by
  have hcrc : (low16 c.ringTestCrcErrors).toUInt16.toNat = c.ringTestCrcErrors.toNat % 2 ^ 16 := by
    rw [UInt32.toNat_toUInt16, toNat_low16, Nat.mod_mod]
  have hsaturated := toNat_saturated c.diagNotifyRcv
  have hmisc := toNat_miscSeq (n := if c.diagNotifyRcv > 255 then 255 else c.diagNotifyRcv)
    (hsaturated ▸ Nat.min_le_right _ _)
  have hfirst := fun d => diagHandler_first c.ringTestBlockCount d (hcrc ▸ hfits)
  have hfourth := fun d => diagHandler_misc (pack c.diagWorkerWake c.diagProduceFull) d hmisc
    (hsaturated ▸ Nat.min_le_right _ _)
  have settled {α : Type} (field : Decoded → α) (v : α)
      (hkeep : ∀ m ∈ c.reports, ∀ s : Decoded,
        field (s.diagHandler m) = v ∨ field (s.diagHandler m) = field s)
      (hset : ∃ m ∈ c.reports, ∀ s : Decoded, field (s.diagHandler m) = v) :
      field (order.foldl Decoded.diagHandler d) = v := by
    refine foldl_settled (fun m hm => hkeep m (h.mem_iff.1 hm)) ?_ d
    obtain ⟨m, hm, hv⟩ := hset
    exact ⟨m, h.mem_iff.2 hm, hv⟩
  simp only [Counters.reports, List.mem_cons, List.not_mem_nil, or_false, forall_eq_or_imp,
    forall_eq, exists_eq_or_imp, exists_eq_left, hfirst, hfourth, diagHandler_consumeOk,
    diagHandler_produceOk, diagHandler_empty] at settled
  have hcrcErr : ((low16 c.ringTestCrcErrors).toUInt16 &&& 0xFFFF).toUInt32.toNat =
      c.ringTestCrcErrors.toNat % 2 ^ 16 := by
    rw [UInt16.toNat_toUInt32, UInt16.toNat_and, hcrc]
    exact (Nat.and_two_pow_sub_one_eq_mod _ 16).trans (Nat.mod_mod _ _)
  have hnotify : ((0xD300 ||| if c.diagNotifyRcv > 255 then 255 else c.diagNotifyRcv).toUInt16 &&&
      0xFF).toUInt32.toNat = min c.diagNotifyRcv.toNat 255 := by
    rw [UInt16.toNat_toUInt32, UInt16.toNat_and, hmisc, hsaturated]
    refine (Nat.and_two_pow_sub_one_eq_mod _ 8).trans ?_
    omega
  constructor
  · exact settled (·.blocks) _ (by simp) (by simp)
  · exact settled (·.consumeOk) _ (by simp) (by simp)
  · exact settled (·.produceOk) _ (by simp) (by simp)
  · refine settled (·.crcErr.toNat) _ ?_ (.inl fun _ => hcrcErr)
    simp only [hcrcErr, true_or, or_true, implies_true, and_self]
  · exact settled (·.workerWake.toNat) _ (by simp [toNat_pack_lo]) (by simp [toNat_pack_lo])
  · exact settled (·.produceFull.toNat) _ (by simp [toNat_pack_hi]) (by simp [toNat_pack_hi])
  · exact settled (·.consumeEmpty.toNat) _ (by simp [toNat_pack_lo]) (by simp [toNat_pack_lo])
  · exact settled (·.consumeStale.toNat) _ (by simp [toNat_pack_hi]) (by simp [toNat_pack_hi])
  · refine settled (·.notifyRcv.toNat) _ ?_ (.inr (.inr (.inr (.inl fun _ => hnotify))))
    simp only [hnotify, true_or, or_true, implies_true, and_self]

/-- The reports in any order: from any earlier values the decoded fields agree with the counters
if and only if the CRC error count leaves the high byte of its field clear. -/
theorem reports_agree_iff (c : Counters) {order : List Msg} (h : order.Perm c.reports) :
    (∀ d : Decoded, (order.foldl Decoded.diagHandler d).Agrees c) ↔
      c.ringTestCrcErrors.toNat % 2 ^ 16 < 2 ^ 8 := by
  refine ⟨fun hagrees => ?_, fun hfits => agrees_of_fits h hfits⟩
  by_contra hlarge
  have hcrc : (low16 c.ringTestCrcErrors).toUInt16.toNat = c.ringTestCrcErrors.toNat % 2 ^ 16 := by
    rw [UInt32.toNat_toUInt16, toNat_low16, Nat.mod_mod]
  have hmisc := toNat_miscSeq (n := if c.diagNotifyRcv > 255 then 255 else c.diagNotifyRcv)
    (toNat_saturated c.diagNotifyRcv ▸ Nat.min_le_right _ _)
  -- No report has the subtype of the first one, so the earlier block count stays.
  have hseq : ∀ m ∈ c.reports, 2 ^ 8 ≤ m.seq.toNat := by
    simp only [Counters.reports, report, List.mem_cons, List.not_mem_nil, or_false,
      forall_eq_or_imp, forall_eq]
    exact ⟨by omega, by decide, by decide, by omega, by decide⟩
  have hkept (d : Decoded) : (order.foldl Decoded.diagHandler d).blocks = d.blocks := by
    refine List.foldlRecOn order _ (motive := fun s : Decoded => s.blocks = d.blocks) rfl
      fun s hs m hm => ?_
    exact (diagHandler_blocks _ s (hseq m (h.mem_iff.1 hm))).trans hs
  have hblocks := (hagrees ⟨c.ringTestBlockCount + 1, 0, 0, 0, 0, 0, 0, 0, 0⟩).blocks
  rw [hkept] at hblocks
  have hnat := congrArg UInt32.toNat hblocks
  have hlt := c.ringTestBlockCount.toNat_lt
  rw [UInt32.toNat_add] at hnat
  simp only [UInt32.reduceToNat] at hnat
  omega

/-- Counters of a test with `n` CRC errors. -/
def tested (n : UInt32) : Counters := ⟨700, n, 300, 40, 700, 2, 0, 700, 0⟩

/-- Nothing decoded yet. -/
def Decoded.zero : Decoded := ⟨0, 0, 0, 0, 0, 0, 0, 0, 0⟩

theorem reports_agree_reversed :
    ((tested 255).reports.reverse.foldl Decoded.diagHandler .zero).Agrees (tested 255) :=
  (reports_agree_iff _ (List.reverse_perm _)).2 (by decide) .zero

/-- With 256 CRC errors neither the count nor the number of blocks arrives. -/
theorem first_report_lost :
    ((tested 256).reports.foldl Decoded.diagHandler .zero).blocks = 0 ∧
      ((tested 256).reports.foldl Decoded.diagHandler .zero).crcErr = 0 ∧
      ¬ ((tested 256).reports.foldl Decoded.diagHandler .zero).Agrees (tested 256) := by
  have hblocks : ((tested 256).reports.foldl Decoded.diagHandler .zero).blocks = 0 := by decide
  refine ⟨hblocks, by decide, fun h => ?_⟩
  exact absurd (hblocks.symm.trans h.blocks) (by decide)

end Acceptance

end LeAudioReceiver
