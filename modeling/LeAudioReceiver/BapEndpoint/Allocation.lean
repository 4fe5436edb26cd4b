import LeAudioReceiver.BapEndpoint.Basic
import LeAudioReceiver.Ltv.Guard
import Mathlib.Data.List.GetD

/-!
# The channel allocation of a configuration

`SetConfiguration` scans a configuration for its channel allocation with a cursor that moves on by
the length octet `L` of each entry, although an entry takes `L + 1` octets.  So the cursor goes from
the first octet of a record to its last one, and on from there by the value of that octet.

* `scan_spec` : the scan of any octets ends, inside them, at the first allocation header that the
  cursor comes to;
* `allocation_iff` : for a concatenation of records it finds the allocation exactly if the cursor
  comes to the beginning of an allocation record before it comes to such a header elsewhere;
* `comes_to_next` : it does come to the next record behind one whose last octet is `0` or `1`.
-/

namespace LeAudioReceiver

namespace BapEndpoint

open Ltv (Record)

/-! ### The scan with its cursor -/

/-- A read past the end, or more iterations than allowed. -/
inductive Stuck where
  | outOfBounds
  | outOfFuel
  deriving DecidableEq, Repr

/-- `b[i]`. -/
def octet (b : List UInt8) (i : ℕ) : Except Stuck ℕ :=
  match b[i]? with
  | some x => .ok x.toNat
  | none => .error .outOfBounds

/-- The loop of `SetConfiguration` with its cursor: where it stops, and the allocation it reads
there. -/
def scan (b : List UInt8) : ℕ → ℕ → Except Stuck (Option (ℕ × ℕ))
  | 0, _ => .error .outOfFuel
  | fuel + 1, i =>
    if i + 1 < b.length then do
      let ltvLen ← octet b i
      let ltvType ← octet b (i + 1)
      if ltvType = 0x03 ∧ ltvLen = 5 ∧ i + 6 ≤ b.length then do
        let b₀ ← octet b (i + 2)
        let b₁ ← octet b (i + 3)
        let b₂ ← octet b (i + 4)
        let b₃ ← octet b (i + 5)
        return some (i, b₀ ||| b₁ <<< 8 ||| b₂ <<< 16 ||| b₃ <<< 24)
      else scan b fuel (i + if ltvLen > 0 then ltvLen else 1)
    else return none

/-- The octet at `i`, as a number. -/
def byteAt (b : List UInt8) (i : ℕ) : ℕ := (b.getD i 0).toNat

/-- The header of an allocation, with its four octets behind it. -/
def HeaderAt (b : List UInt8) (i : ℕ) : Prop :=
  byteAt b i = 5 ∧ byteAt b (i + 1) = 3 ∧ i + 6 ≤ b.length

/-- The little-endian value behind a header. -/
def valueAt (b : List UInt8) (i : ℕ) : ℕ :=
  byteAt b (i + 2) ||| byteAt b (i + 3) <<< 8 ||| byteAt b (i + 4) <<< 16 |||
    byteAt b (i + 5) <<< 24

/-- The cursor after `k` moves: each is by the octet that it stands on, and by one at least. -/
def cursor (b : List UInt8) : ℕ → ℕ
  | 0 => 0
  | k + 1 => cursor b k + if byteAt b (cursor b k) > 0 then byteAt b (cursor b k) else 1

/-- The first header that the cursor comes to is behind `k` moves. -/
def FirstHeader (b : List UInt8) (k : ℕ) : Prop :=
  HeaderAt b (cursor b k) ∧ ∀ j < k, ¬ HeaderAt b (cursor b j)

section Scan

variable {b : List UInt8} {i fuel : ℕ}

theorem octet_eq (h : i < b.length) : octet b i = .ok (byteAt b i) := by
  rw [octet, byteAt, List.getD_eq_getElem?_getD, List.getElem?_eq_getElem h]
  rfl

theorem cursor_lt_succ (b : List UInt8) (k : ℕ) : cursor b k < cursor b (k + 1) := by
  rw [cursor]
  split_ifs <;> omega

theorem cursor_mono (b : List UInt8) {j k : ℕ} (h : j ≤ k) : cursor b j ≤ cursor b k :=
  monotone_nat_of_le_succ (fun k => (cursor_lt_succ b k).le) h

theorem scan_end (h : ¬ i + 1 < b.length) : scan b (fuel + 1) i = .ok none := by
  rw [scan, if_neg h]
  rfl

theorem scan_header (h : HeaderAt b i) :
    scan b (fuel + 1) i = .ok (some (i, valueAt b i)) := by
  obtain ⟨hlen, htype, hend⟩ := h
  rw [scan, if_pos (by omega), octet_eq (by omega), octet_eq (by omega), octet_eq (by omega),
    octet_eq (by omega), octet_eq (by omega), octet_eq (by omega)]
  simp only [bind, Except.bind]
  rw [if_pos ⟨htype, hlen, hend⟩]
  rfl

theorem scan_move (hi : i + 1 < b.length) (h : ¬ HeaderAt b i) :
    scan b (fuel + 1) i = scan b fuel (i + if byteAt b i > 0 then byteAt b i else 1) := by
  rw [scan, if_pos hi, octet_eq (by omega), octet_eq hi]
  simp only [bind, Except.bind]
  rw [if_neg fun ⟨htype, hlen, hend⟩ => h ⟨hlen, htype, hend⟩]

/-- The scan from where the cursor is, by induction on the iterations left. -/
theorem scan_cursor {k : ℕ} (hpast : ∀ j < k, ¬ HeaderAt b (cursor b j))
    (hfuel : b.length - cursor b k < fuel) :
    (∃ m, FirstHeader b m ∧
      scan b fuel (cursor b k) = .ok (some (cursor b m, valueAt b (cursor b m)))) ∨
    ((∀ j, ¬ HeaderAt b (cursor b j)) ∧ scan b fuel (cursor b k) = .ok none) := by
  induction fuel generalizing k with
  | zero => omega
  | succ fuel ih =>
    by_cases hend : cursor b k + 1 < b.length
    · by_cases hheader : HeaderAt b (cursor b k)
      · exact .inl ⟨k, ⟨hheader, hpast⟩, scan_header hheader⟩
      · rw [scan_move hend hheader]
        have hlt := cursor_lt_succ b k
        have hpast' : ∀ j < k + 1, ¬ HeaderAt b (cursor b j) := by
          intro j hj
          rcases Nat.lt_succ_iff_lt_or_eq.1 hj with hj | rfl
          · exact hpast j hj
          · exact hheader
        exact ih hpast' (by omega)
    · -- the cursor is at the end, and stays there
      refine .inr ⟨fun j hj => ?_, scan_end hend⟩
      rcases Nat.lt_or_ge j k with hjk | hkj
      · exact hpast j hjk hj
      · have hle := cursor_mono b hkj
        have := hj.2.2
        omega

/-- **The scan of any octets** ends without a read past them: at the first header that the cursor
comes to, or at the end if it comes to none. -/
theorem scan_spec (b : List UInt8) :
    (∃ m, FirstHeader b m ∧
      scan b (b.length + 1) 0 = .ok (some (cursor b m, valueAt b (cursor b m)))) ∨
    ((∀ j, ¬ HeaderAt b (cursor b j)) ∧ scan b (b.length + 1) 0 = .ok none) :=
  scan_cursor (fun j hj => absurd hj (Nat.not_lt_zero j)) (Nat.lt_succ_of_le (Nat.sub_le _ _))

/-! ### The scan without a cursor -/

theorem byteAt_drop (b : List UInt8) (i j : ℕ) : byteAt (b.drop i) j = byteAt b (i + j) := by
  rw [byteAt, byteAt, List.getD_eq_getElem?_getD, List.getD_eq_getElem?_getD, List.getElem?_drop]

theorem headerAt_drop : HeaderAt (b.drop i) 0 ↔ HeaderAt b i := by
  rw [HeaderAt, HeaderAt, byteAt_drop, byteAt_drop, List.length_drop, Nat.add_zero, Nat.zero_add]
  constructor
  · rintro ⟨hlen, htype, hend⟩
    exact ⟨hlen, htype, by omega⟩
  · rintro ⟨hlen, htype, hend⟩
    exact ⟨hlen, htype, by omega⟩

theorem parseChannelAlloc_header (h : HeaderAt b 0) :
    parseChannelAlloc b (fuel + 1) = valueAt b 0 := by
  obtain ⟨hlen, htype, hend⟩ := h
  match b, hlen, htype, hend with
  | len :: type :: b₀ :: b₁ :: b₂ :: b₃ :: rest, hlen, htype, _ =>
    have hlen : len = 5 := UInt8.toNat_inj.1 hlen
    have htype : type = 3 := UInt8.toNat_inj.1 htype
    exact if_pos ⟨htype, hlen⟩

theorem parseChannelAlloc_end (h : ¬ 1 < b.length) : parseChannelAlloc b (fuel + 1) = 3 := by
  match b, h with
  | [], _ => rfl
  | [_], _ => rfl
  | _ :: _ :: _, h =>
    simp only [List.length_cons] at h
    omega

theorem parseChannelAlloc_move (hb : 1 < b.length) (h : ¬ HeaderAt b 0) :
    parseChannelAlloc b (fuel + 1) =
      parseChannelAlloc (b.drop (if byteAt b 0 > 0 then byteAt b 0 else 1)) fuel := by
  match b, hb, h with
  | len :: type :: rest, _, h =>
    have hmove : (if len > 0 then len.toNat else 1) =
        if byteAt (len :: type :: rest) 0 > 0 then byteAt (len :: type :: rest) 0 else 1 := rfl
    rw [← hmove]
    match rest, h with
    | b₀ :: b₁ :: b₂ :: b₃ :: rest, h =>
      have hno : ¬ (type = 0x03 ∧ len = 5) := by
        rintro ⟨rfl, rfl⟩
        refine h ⟨rfl, rfl, ?_⟩
        simp only [List.length_cons]
        omega
      exact if_neg hno
    | [], _ | [_], _ | [_, _], _ | [_, _, _], _ => rfl

/-- The loop over what is left of the octets is the scan from the cursor on. -/
theorem parseChannelAlloc_drop (hfuel : b.length - i ≤ fuel) :
    ∃ r, scan b (fuel + 1) i = .ok r ∧
      parseChannelAlloc (b.drop i) fuel = r.elim 3 Prod.snd := by
  induction fuel generalizing i with
  | zero => exact ⟨none, scan_end (by omega), rfl⟩
  | succ fuel ih =>
    have hlength : (b.drop i).length = b.length - i := List.length_drop
    by_cases hend : i + 1 < b.length
    · by_cases hheader : HeaderAt b i
      · refine ⟨_, scan_header hheader, ?_⟩
        rw [parseChannelAlloc_header (headerAt_drop.2 hheader)]
        simp only [valueAt, byteAt_drop, Nat.zero_add, Option.elim]
      · rw [scan_move hend hheader, parseChannelAlloc_move (by omega) (mt headerAt_drop.1 hheader),
          byteAt_drop, Nat.add_zero, List.drop_drop]
        refine ih ?_
        split_ifs <;> omega
    · refine ⟨none, scan_end hend, ?_⟩
      rw [parseChannelAlloc_end (by omega)]
      rfl

theorem channelAllocOf_eq (b : List UInt8) :
    ∃ r, scan b (b.length + 1) 0 = .ok r ∧ channelAllocOf b = r.elim 3 Prod.snd :=
  parseChannelAlloc_drop (i := 0) (Nat.sub_le _ _)

end Scan

/-! ### Concatenations of records -/

/-- An allocation: type `0x03` and length 5. -/
def IsAllocation (r : Record) : Bool := r.type = 0x03 ∧ r.data.length = 4

/-- The little-endian value of four octets. -/
def littleEndian (data : List UInt8) : ℕ :=
  (data.getD 0 0).toNat ||| (data.getD 1 0).toNat <<< 8 ||| (data.getD 2 0).toNat <<< 16 |||
    (data.getD 3 0).toNat <<< 24

/-- What the records say: the first allocation, or else `0x03`. -/
def allocationOf (records : List Record) : ℕ :=
  match records.find? IsAllocation with
  | some r => littleEndian r.data
  | none => 0x03

/-- The octets of a sequence of records. -/
def octetsOf (records : List Record) : List UInt8 := records.flatMap Record.octets

/-- A record begins at this octet. -/
def Begins (records : List Record) (i : ℕ) : Prop :=
  ∃ pre r post, records = pre ++ r :: post ∧ i = (octetsOf pre).length

/-- The scan finds the allocation of the records, and reads it where a record begins. -/
def Finds (records : List Record) : Prop :=
  ∃ stop, scan (octetsOf records) ((octetsOf records).length + 1) 0 = .ok stop ∧
    channelAllocOf (octetsOf records) = stop.elim 3 Prod.snd ∧
    channelAllocOf (octetsOf records) = allocationOf records ∧
    ∀ p v, stop = some (p, v) → Begins records p

/-- The cursor comes to the beginning of an allocation record before it comes to an allocation
header elsewhere, and the records up to there say nothing else; or it comes to no such header, and
the records say `0x03`. -/
def Aligned (records : List Record) : Prop :=
  (∃ pre r post k, records = pre ++ r :: post ∧ FirstHeader (octetsOf records) k ∧
    cursor (octetsOf records) k = (octetsOf pre).length ∧
    allocationOf (pre ++ [r]) = littleEndian r.data) ∨
  ((∀ k, ¬ HeaderAt (octetsOf records) (cursor (octetsOf records) k)) ∧
    allocationOf records = 0x03)

section Records

variable {pre post : List Record} {r : Record}

theorem octetsOf_append (records records' : List Record) :
    octetsOf (records ++ records') = octetsOf records ++ octetsOf records' :=
  List.flatMap_append

theorem drop_octetsOf (pre post : List Record) (r : Record) :
    (octetsOf (pre ++ r :: post)).drop (octetsOf pre).length = r.octets ++ octetsOf post := by
  rw [octetsOf_append, List.drop_left, octetsOf, List.flatMap_cons, ← octetsOf]

theorem headerAt_record :
    HeaderAt (octetsOf (pre ++ r :: post)) (octetsOf pre).length ↔ IsAllocation r = true := by
  have hlen : byteAt (r.octets ++ octetsOf post) 0 = r.data.length + 1 := r.toNat_length
  have htype : byteAt (r.octets ++ octetsOf post) (0 + 1) = r.type.toNat := rfl
  rw [← headerAt_drop, drop_octetsOf, HeaderAt, hlen, htype, List.length_append, r.length_octets,
    IsAllocation, decide_eq_true_iff]
  constructor
  · rintro ⟨hdata, htype, -⟩
    exact ⟨UInt8.toNat_inj.1 htype, by omega⟩
  · rintro ⟨htype, hdata⟩
    exact ⟨by omega, congrArg UInt8.toNat htype, by omega⟩

theorem valueAt_record (h : IsAllocation r = true) :
    valueAt (octetsOf (pre ++ r :: post)) (octetsOf pre).length = littleEndian r.data := by
  rw [IsAllocation, decide_eq_true_iff] at h
  obtain ⟨-, hdata⟩ := h
  have hbyte : ∀ j < 4, byteAt (octetsOf (pre ++ r :: post)) ((octetsOf pre).length + (j + 2)) =
      (r.data.getD j 0).toNat := by
    intro j hj
    rw [← byteAt_drop, drop_octetsOf, byteAt]
    exact congrArg UInt8.toNat (List.getD_append _ _ _ _ (by rw [r.length_octets]; omega))
  rw [valueAt, littleEndian, hbyte 0 (by omega), hbyte 1 (by omega), hbyte 2 (by omega),
    hbyte 3 (by omega)]

/-- The records behind an allocation do not count. -/
theorem allocationOf_append (h : IsAllocation r = true) :
    allocationOf (pre ++ r :: post) = allocationOf (pre ++ [r]) := by
  have hfind : ∀ tail, (pre ++ r :: tail).find? IsAllocation =
      (pre.find? IsAllocation).or (some r) := by
    intro tail
    rw [List.find?_append, List.find?_cons_of_pos h]
  rw [allocationOf, allocationOf, hfind, hfind]

theorem FirstHeader.unique {b : List UInt8} {k m : ℕ} (hk : FirstHeader b k)
    (hm : FirstHeader b m) : k = m := by
  rcases Nat.lt_trichotomy k m with h | h | h
  · exact absurd hk.1 (hm.2 k h)
  · exact h
  · exact absurd hm.1 (hk.2 m h)

end Records

/-- **The allocation of a configuration.**  The scan of any octets ends, after at most one iteration
for each and one more, without a read past them.  For a concatenation of records it finds what they
say exactly if the cursor is aligned. -/
theorem allocation_iff (b : List UInt8) (records : List Record) :
    (∃ stop, scan b (b.length + 1) 0 = .ok stop ∧ channelAllocOf b = stop.elim 3 Prod.snd) ∧
      (Finds records ↔ Aligned records) := by
  refine ⟨channelAllocOf_eq b, ?_⟩
  obtain ⟨stop, hscan, halloc⟩ := channelAllocOf_eq (octetsOf records)
  rcases scan_spec (octetsOf records) with ⟨m, hfirst, hstop⟩ | ⟨hnone, hstop⟩
  · -- the scan stops at a header
    obtain rfl : some (cursor (octetsOf records) m, _) = stop :=
      Except.ok.inj (hstop.symm.trans hscan)
    constructor
    · rintro ⟨stop, hscan', halloc', hvalue, hbegins⟩
      obtain rfl := Except.ok.inj (hscan.symm.trans hscan')
      obtain ⟨pre, r, post, rfl, hp⟩ := hbegins _ _ rfl
      have hr : IsAllocation r = true := headerAt_record.1 (hp ▸ hfirst.1)
      refine .inl ⟨pre, r, post, m, rfl, hfirst, hp, ?_⟩
      rw [← allocationOf_append hr, ← hvalue, halloc]
      show valueAt _ (cursor _ m) = _
      rw [hp, valueAt_record hr]
    · rintro (⟨pre, r, post, k, rfl, hk, hcursor, hsays⟩ | ⟨hno, -⟩)
      · obtain rfl := hk.unique hfirst
        have hr : IsAllocation r = true := headerAt_record.1 (hcursor ▸ hfirst.1)
        refine ⟨_, hscan, halloc, ?_, ?_⟩
        · rw [halloc, allocationOf_append hr, hsays]
          show valueAt _ (cursor _ k) = _
          rw [hcursor, valueAt_record hr]
        · intro p v heq
          obtain ⟨rfl, -⟩ := Prod.mk.inj (Option.some.inj heq)
          exact ⟨pre, r, post, rfl, hcursor⟩
      · exact absurd hfirst.1 (hno m)
  · -- the scan comes to no header
    obtain rfl : none = stop := Except.ok.inj (hstop.symm.trans hscan)
    constructor
    · rintro ⟨stop, hscan', halloc', hvalue, -⟩
      exact .inr ⟨hnone, hvalue.symm.trans halloc⟩
    · rintro (⟨pre, r, post, k, rfl, hk, -⟩ | ⟨-, hsays⟩)
      · exact absurd hk.1 (hnone k)
      · exact ⟨none, hscan, halloc, halloc.trans hsays.symm, fun p v h => by cases h⟩

/-- Sampling frequency 48 kHz, frames of 10 ms, the left channel, 120 octets. -/
def leftRecords : List Record :=
  [⟨⟨0x01, [0x08]⟩, by decide⟩, ⟨⟨0x02, [0x01]⟩, by decide⟩,
    ⟨⟨0x03, [0x01, 0x00, 0x00, 0x00]⟩, by decide⟩, ⟨⟨0x04, [0x78, 0x00]⟩, by decide⟩]

/-- The octet `0x08` of the frequency moves the cursor over the header of the allocation. -/
theorem leftRecords_missed :
    allocationOf leftRecords = 0x01 ∧ channelAllocOf (octetsOf leftRecords) = 0x03 ∧
      ¬ ∀ records, channelAllocOf (octetsOf records) = allocationOf records :=
  ⟨by decide, by decide, fun h => absurd (h leftRecords) (by decide)⟩

/-! ### Records that keep the cursor aligned -/

/-- The last octet of a record. -/
def lastOctet (r : Record) : ℕ := byteAt r.octets (r.data.length + 1)

section Quiet

variable {pre post : List Record} {r : Record}

/-- From a record that ends in `0` or `1` the cursor comes to the next one, in two moves. -/
theorem comes_to_next {k : ℕ} (hlast : lastOctet r ≤ 1)
    (hk : cursor (octetsOf (pre ++ r :: post)) k = (octetsOf pre).length) :
    cursor (octetsOf (pre ++ r :: post)) (k + 1 + 1) = (octetsOf (pre ++ [r])).length ∧
      ¬ HeaderAt (octetsOf (pre ++ r :: post)) (cursor (octetsOf (pre ++ r :: post)) (k + 1)) := by
  have hbyte : ∀ j, byteAt (octetsOf (pre ++ r :: post)) ((octetsOf pre).length + j) =
      byteAt (r.octets ++ octetsOf post) j := by
    intro j
    rw [← byteAt_drop, drop_octetsOf]
  have hlen : byteAt (octetsOf (pre ++ r :: post)) (octetsOf pre).length = r.data.length + 1 :=
    (hbyte 0).trans r.toNat_length
  have hmove : cursor (octetsOf (pre ++ r :: post)) (k + 1) =
      (octetsOf pre).length + (r.data.length + 1) := by
    rw [cursor, hk, hlen, if_pos (Nat.succ_pos _)]
  have hoctet : byteAt (octetsOf (pre ++ r :: post)) ((octetsOf pre).length + (r.data.length + 1)) =
      lastOctet r := by
    rw [hbyte, lastOctet]
    exact congrArg UInt8.toNat (List.getD_append _ _ _ _ (by rw [r.length_octets]; omega))
  constructor
  · rw [cursor, hmove, hoctet, octetsOf_append, List.length_append]
    have hsingle : (octetsOf [r]).length = r.data.length + 2 := by
      rw [octetsOf, List.flatMap_singleton, r.length_octets]
    split_ifs <;> omega
  · rw [hmove]
    intro hheader
    have := hheader.1
    omega

/-- So it comes to the first allocation if all records before it end like this. -/
theorem aligned_of_last_le_one (hpre : ∀ q ∈ pre, lastOctet q ≤ 1 ∧ IsAllocation q = false)
    (hr : IsAllocation r = true) : Aligned (pre ++ r :: post) := by
  have hcomes : ∀ front tail, pre = front ++ tail →
      ∃ k, cursor (octetsOf (pre ++ r :: post)) k = (octetsOf front).length ∧
        ∀ j < k, ¬ HeaderAt (octetsOf (pre ++ r :: post))
          (cursor (octetsOf (pre ++ r :: post)) j) := by
    intro front
    induction front using List.reverseRecOn with
    | nil =>
      intro tail _
      exact ⟨0, rfl, fun j hj => absurd hj (Nat.not_lt_zero j)⟩
    | append_singleton front q ih =>
      intro tail hsplit
      rw [List.append_assoc, List.singleton_append] at hsplit
      obtain ⟨k, hk, hno⟩ := ih (q :: tail) hsplit
      obtain ⟨hlast, hq⟩ := hpre q (hsplit ▸ List.mem_append_right _ List.mem_cons_self)
      have hwhole : pre ++ r :: post = front ++ q :: (tail ++ r :: post) := by
        rw [hsplit, List.append_assoc, List.cons_append]
      rw [hwhole] at hk hno ⊢
      obtain ⟨hnext, hbetween⟩ := comes_to_next hlast hk
      refine ⟨k + 1 + 1, hnext, fun j hj => ?_⟩
      rcases Nat.lt_trichotomy j k with hjk | rfl | hjk
      · exact hno j hjk
      · rw [hk, headerAt_record, hq]
        exact Bool.false_ne_true
      · obtain rfl : j = k + 1 := by omega
        exact hbetween
  obtain ⟨k, hk, hno⟩ := hcomes pre [] (List.append_nil pre).symm
  refine .inl ⟨pre, r, post, k, rfl, ⟨?_, hno⟩, hk, ?_⟩
  · rw [hk]
    exact headerAt_record.2 hr
  · have hnone : pre.find? IsAllocation = none :=
      List.find?_eq_none.2 fun q hq => by rw [(hpre q hq).2]; exact Bool.false_ne_true
    rw [allocationOf, List.find?_append, hnone, Option.none_or, List.find?_cons_of_pos hr]

end Quiet

end BapEndpoint

end LeAudioReceiver
