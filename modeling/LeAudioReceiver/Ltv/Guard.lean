import Mathlib.Data.List.Basic
import Mathlib.Data.Int.Notation
import Mathlib.Data.Nat.Notation
import Mathlib.Tactic.Common

/-!
# The guard of the metadata parser

A model of `src/bt_audio_ltv_guard.c`.  `__wrap_bt_audio_data_parse` takes the records of a
length-type-value list off one by one and hands each to the parser of the host,
`__real_bt_audio_data_parse`, which is a parameter.  Every access is checked against the declared
size, and the loop has a bound on its iterations; both are to be shown superfluous.

* `MaximalPrefix.unique` : what a list begins with is determined;
* `wrapParse_spec` : the callback sees **the maximal well-formed prefix**, up to the first record
  that it rejects, and the result is `0` for a well-formed list of accepted records only.
-/

namespace LeAudioReceiver

namespace Ltv

/-- `struct bt_data`; `data_len` is the length of the data. -/
structure BtData where
  type : UInt8
  data : List UInt8
  deriving DecidableEq, Repr

/-- A callback with its user data. -/
abbrev Callback (σ : Type) := BtData → σ → Bool × σ

/-- `__real_bt_audio_data_parse`: what it returns, and the user data behind it. -/
abbrev RealParse (σ : Type) := List UInt8 → Callback σ → σ → ℤ × σ

/-- Why a run gets stuck. -/
inductive Stuck where
  /-- An octet at or beyond `size` was to be read. -/
  | outOfBounds
  /-- More iterations than allowed. -/
  | outOfFuel
  deriving DecidableEq, Repr

/-- `EINVAL`. -/
def einval : ℤ := 22

/-- `ECANCELED`. -/
def ecanceled : ℤ := 140

/-- `ltv[i]`. -/
def octet (ltv : List UInt8) (size i : ℕ) : Except Stuck UInt8 :=
  match (ltv.take size)[i]? with
  | some x => .ok x
  | none => .error .outOfBounds

/-- The `count` octets at `ltv + offset`. -/
def octets (ltv : List UInt8) (size offset count : ℕ) : Except Stuck (List UInt8) :=
  if offset + count ≤ (ltv.take size).length then .ok (((ltv.take size).drop offset).take count)
  else .error .outOfBounds

section Guard

variable {σ : Type}

/-- The loop of `__wrap_bt_audio_data_parse`. -/
def parseLoop (real : RealParse σ) (func : Callback σ) (ltv : List UInt8) (size : ℕ) :
    ℕ → ℕ → σ → Except Stuck (ℤ × σ)
  | 0, _, _ => .error .outOfFuel
  | fuel + 1, offset, userData =>
    if offset < size then do
      let len ← octet ltv size offset
      let remaining := size - offset
      if len.toNat < 1 ∨ len.toNat ≥ remaining then return (-einval, userData)
      else do
        let record ← octets ltv size offset (1 + len.toNat)
        let (ret, userData) := real record func userData
        if ret ≠ 0 then return (ret, userData)
        else parseLoop real func ltv size fuel (offset + (1 + len.toNat)) userData
    else return (0, userData)

/-- `__wrap_bt_audio_data_parse` with at most `fuel` iterations. -/
def wrapParse (real : RealParse σ) (fuel : ℕ) (ltv : Option (List UInt8)) (size : ℕ)
    (func : Option (Callback σ)) (userData : σ) : Except Stuck (ℤ × σ) :=
  match ltv, func with
  | some ltv, some func => parseLoop real func ltv size fuel 0 userData
  | _, _ => .ok (-einval, userData)

end Guard

/-! ### Records -/

/-- A record: a type and at most 254 octets of value. -/
structure Record extends BtData where
  short : data.length < 255

/-- The length octet, the type and the value. -/
def Record.octets (r : Record) : List UInt8 :=
  UInt8.ofNat (r.data.length + 1) :: r.type :: r.data

theorem Record.length_octets (r : Record) : r.octets.length = r.data.length + 2 := rfl

theorem Record.toNat_length (r : Record) :
    (UInt8.ofNat (r.data.length + 1)).toNat = r.data.length + 1 := by
  have hshort := r.short
  rw [UInt8.toNat_ofNat']
  exact Nat.mod_eq_of_lt (by omega)

/-- The records that a list begins with, and a rest that begins with none. -/
structure MaximalPrefix (ltv : List UInt8) (records : List Record) (rest : List UInt8) : Prop where
  eq : ltv = records.flatMap Record.octets ++ rest
  maximal : ∀ r : Record, ¬ r.octets <+: rest

/-- A length octet with enough octets behind it begins a record. -/
theorem exists_record {len : UInt8} {tail : List UInt8} (hpos : 1 ≤ len.toNat)
    (hlen : len.toNat ≤ tail.length) : ∃ r : Record, r.octets <+: len :: tail := by
  obtain ⟨type, value, rfl⟩ : ∃ type value, tail = type :: value :=
    List.exists_cons_of_length_pos (by omega)
  have hlt := len.toNat_lt
  rw [List.length_cons] at hlen
  have hdata : (value.take (len.toNat - 1)).length = len.toNat - 1 := by
    rw [List.length_take]
    omega
  refine ⟨⟨⟨type, value.take (len.toNat - 1)⟩, by dsimp only; omega⟩, ?_⟩
  unfold Record.octets
  dsimp only
  rw [hdata, Nat.sub_add_cancel hpos, UInt8.ofNat_toNat]
  exact List.prefix_cons_inj _ |>.2 (List.prefix_cons_inj _ |>.2 (List.take_prefix _ _))

/-- Octets begin with at most one record. -/
theorem Record.octets_append_inj {r r' : Record} {l l' : List UInt8}
    (h : r.octets ++ l = r'.octets ++ l') : r = r' ∧ l = l' := by
  obtain ⟨⟨type, data⟩, hshort⟩ := r
  obtain ⟨⟨type', data'⟩, hshort'⟩ := r'
  unfold octets at h
  simp only [List.cons_append, List.cons.injEq] at h
  obtain ⟨hlen, rfl, hdata⟩ := h
  have hlength : data.length = data'.length := by
    have hnat := congrArg UInt8.toNat hlen
    rw [UInt8.toNat_ofNat', UInt8.toNat_ofNat'] at hnat
    dsimp only at hshort hshort'
    omega
  obtain ⟨rfl, rfl⟩ := List.append_inj hdata hlength
  exact ⟨rfl, rfl⟩

namespace MaximalPrefix

variable {ltv rest rest' : List UInt8} {records records' : List Record} {r : Record}

theorem nil : MaximalPrefix [] [] [] := by
  refine ⟨rfl, fun r h => ?_⟩
  have hlen := h.length_le
  rw [Record.length_octets] at hlen
  exact absurd hlen (by simp)

theorem cons (h : MaximalPrefix ltv records rest) :
    MaximalPrefix (r.octets ++ ltv) (r :: records) rest := by
  refine ⟨?_, h.maximal⟩
  rw [List.flatMap_cons, List.append_assoc, ← h.eq]

/-- The records at the beginning of a list are determined. -/
theorem unique (h : MaximalPrefix ltv records rest) (h' : MaximalPrefix ltv records' rest') :
    records = records' ∧ rest = rest' := by
  induction records generalizing ltv records' with
  | nil =>
    have heq := h.eq
    rw [List.flatMap_nil, List.nil_append] at heq
    cases records' with
    | nil =>
      have heq' := h'.eq
      rw [List.flatMap_nil, List.nil_append] at heq'
      exact ⟨rfl, heq.symm.trans heq'⟩
    | cons r records' =>
      refine absurd ?_ (h.maximal r)
      rw [← heq, h'.eq, List.flatMap_cons, List.append_assoc]
      exact List.prefix_append _ _
  | cons r records ih =>
    have heq := h.eq
    rw [List.flatMap_cons, List.append_assoc] at heq
    cases records' with
    | nil =>
      have heq' := h'.eq
      rw [List.flatMap_nil, List.nil_append] at heq'
      refine absurd ?_ (h'.maximal r)
      rw [← heq', heq]
      exact List.prefix_append _ _
    | cons r' records' =>
      have heq' := h'.eq
      rw [List.flatMap_cons, List.append_assoc, heq] at heq'
      obtain ⟨rfl, htail⟩ := Record.octets_append_inj heq'
      obtain ⟨rfl, rfl⟩ := ih ⟨rfl, h.maximal⟩ ⟨htail, h'.maximal⟩
      exact ⟨rfl, rfl⟩

end MaximalPrefix

theorem exists_maximalPrefix (ltv : List UInt8) :
    ∃ records rest, MaximalPrefix ltv records rest := by
  induction hlen : ltv.length using Nat.strongRecOn generalizing ltv with
  | ind n ih =>
    by_cases hrecord : ∃ r : Record, r.octets <+: ltv
    · obtain ⟨r, tail, rfl⟩ := hrecord
      rw [List.length_append, Record.length_octets] at hlen
      obtain ⟨records, rest, h⟩ := ih tail.length (by omega) tail rfl
      exact ⟨r :: records, rest, h.cons⟩
    · exact ⟨[], ltv, rfl, fun r hr => hrecord ⟨r, hr⟩⟩

/-! ### The callback -/

section Parse

variable {σ : Type}

/-- The records handed to the callback, up to the first that it rejects: whether it accepted all,
and the user data behind it. -/
def feed (func : Callback σ) : List Record → σ → Bool × σ
  | [], userData => (true, userData)
  | r :: records, userData =>
    if (func r.toBtData userData).1 then feed func records (func r.toBtData userData).2
    else (false, (func r.toBtData userData).2)

/-- What the parser of the host does with exactly one complete record: it invokes the callback
once with it, and returns `0` if and only if the callback accepts. -/
def OnRecord (real : RealParse σ) : Prop :=
  ∀ (func : Callback σ) (r : Record) (userData : σ),
    ((real r.octets func userData).1 = 0 ↔ (func r.toBtData userData).1 = true) ∧
      (real r.octets func userData).2 = (func r.toBtData userData).2

variable {real : RealParse σ} {ltv : List UInt8} {size : ℕ}

/-! ### The loop -/

theorem octet_of_drop {offset : ℕ} {len : UInt8} {tail : List UInt8}
    (h : (ltv.take size).drop offset = len :: tail) : octet ltv size offset = .ok len := by
  have hget : (ltv.take size)[offset]? = some len := by
    rw [← Nat.add_zero offset, ← List.getElem?_drop, h]
    rfl
  unfold octet
  rw [hget]

theorem octets_of_drop {offset : ℕ} {front tail : List UInt8}
    (h : (ltv.take size).drop offset = front ++ tail) (hfront : 0 < front.length) :
    octets ltv size offset front.length = .ok front := by
  have hlength := congrArg List.length h
  rw [List.length_drop, List.length_append] at hlength
  unfold octets
  rw [if_pos (by omega), h, List.take_left]

theorem parseLoop_record (hreal : OnRecord real) (func : Callback σ) (hsize : size ≤ ltv.length)
    {fuel offset : ℕ} {r : Record} {tail : List UInt8}
    (h : (ltv.take size).drop offset = r.octets ++ tail) (userData : σ) :
    parseLoop real func ltv size (fuel + 1) offset userData =
      if (func r.toBtData userData).1 then
        parseLoop real func ltv size fuel (offset + r.octets.length) (func r.toBtData userData).2
      else .ok ((real r.octets func userData).1, (func r.toBtData userData).2) := by
  have hlength := congrArg List.length h
  rw [List.length_drop, List.length_take_of_le hsize, List.length_append, r.length_octets]
    at hlength
  have hrecord := octets_of_drop h (by rw [r.length_octets]; omega)
  have hcount : r.octets.length = 1 + (UInt8.ofNat (r.data.length + 1)).toNat := by
    rw [r.length_octets, r.toNat_length]
    omega
  rw [hcount] at hrecord ⊢
  obtain ⟨hret, hstate⟩ := hreal func r userData
  rw [parseLoop, if_pos (by omega), octet_of_drop h]
  simp only [bind, Except.bind]
  rw [if_neg (by rw [r.toNat_length]; omega), hrecord]
  dsimp only
  rw [hstate]
  by_cases haccepts : (func r.toBtData userData).1 = true
  · rw [if_neg (not_not.2 (hret.2 haccepts)), if_pos haccepts]
  · rw [if_pos (mt hret.1 haccepts), if_neg haccepts]
    rfl

theorem parseLoop_broken (real : RealParse σ) (func : Callback σ) (hsize : size ≤ ltv.length)
    {fuel offset : ℕ} {len : UInt8} {tail : List UInt8}
    (h : (ltv.take size).drop offset = len :: tail)
    (hno : ∀ r : Record, ¬ r.octets <+: len :: tail) (userData : σ) :
    parseLoop real func ltv size (fuel + 1) offset userData = .ok (-einval, userData) := by
  have hlength := congrArg List.length h
  rw [List.length_drop, List.length_take_of_le hsize, List.length_cons] at hlength
  have hbroken : len.toNat < 1 ∨ len.toNat ≥ size - offset := by
    by_contra hgood
    obtain ⟨r, hr⟩ := @exists_record len tail (by omega) (by omega)
    exact hno r hr
  unfold parseLoop
  rw [if_pos (by omega), octet_of_drop h]
  simp only [bind, Except.bind]
  rw [if_pos hbroken]
  rfl

/-- The loop from an offset on, by induction on the records there. -/
theorem parseLoop_spec (hreal : OnRecord real) (func : Callback σ) (hsize : size ≤ ltv.length)
    {fuel offset : ℕ} {records : List Record} {rest : List UInt8}
    (hmax : MaximalPrefix ((ltv.take size).drop offset) records rest)
    (hfuel : size - offset < fuel) (userData : σ) :
    ∃ ret, parseLoop real func ltv size fuel offset userData =
        .ok (ret, (feed func records userData).2) ∧
      (ret = 0 ↔ rest = [] ∧ (feed func records userData).1 = true) := by
  obtain ⟨fuel, rfl⟩ := Nat.exists_eq_succ_of_ne_zero (by omega : fuel ≠ 0)
  have heq := hmax.eq
  induction records generalizing fuel offset userData with
  | nil =>
    rw [List.flatMap_nil, List.nil_append] at heq
    cases rest with
    | nil =>
      have hend : ¬ offset < size := by
        rw [List.drop_eq_nil_iff, List.length_take_of_le hsize] at heq
        omega
      refine ⟨0, ?_, by simp [feed]⟩
      unfold parseLoop
      rw [if_neg hend]
      rfl
    | cons len tail =>
      exact ⟨-einval, parseLoop_broken real func hsize heq hmax.maximal userData,
        by simp [einval]⟩
  | cons r records ih =>
    rw [List.flatMap_cons, List.append_assoc] at heq
    have hlength := congrArg List.length heq
    rw [List.length_drop, List.length_take_of_le hsize, List.length_append, r.length_octets]
      at hlength
    rw [parseLoop_record hreal func hsize heq, feed]
    by_cases haccepts : (func r.toBtData userData).1 = true
    · rw [if_pos haccepts, if_pos haccepts]
      have htail : (ltv.take size).drop (offset + r.octets.length) =
          records.flatMap Record.octets ++ rest := by
        rw [← List.drop_drop, heq, List.drop_left]
      obtain ⟨fuel, rfl⟩ := Nat.exists_eq_succ_of_ne_zero (by omega : fuel ≠ 0)
      exact ih ⟨htail, hmax.maximal⟩ (func r.toBtData userData).2 fuel
        (by rw [r.length_octets]; omega) htail
    · rw [if_neg haccepts, if_neg haccepts]
      refine ⟨_, rfl, ?_⟩
      rw [(hreal func r userData).1]
      simp [haccepts]

/-- **The guard.**  For every list of octets, every declared size within it and every callback,
the run ends, after at most `size + 1` tests of the loop condition, without a read at or beyond
`size`.  It returns `0` if and only if the octets are a concatenation of complete records all of
which the callback accepts; and the callback has seen the maximal well-formed prefix of records,
in order, up to the first that it rejects. -/
theorem wrapParse_spec (hreal : OnRecord real) (func : Callback σ) (hsize : size ≤ ltv.length)
    {fuel : ℕ} (hfuel : size < fuel) (userData : σ) :
    ∃ ret userData',
      wrapParse real fuel (some ltv) size (some func) userData = .ok (ret, userData') ∧
      (ret = 0 ↔ ∃ records, ltv.take size = records.flatMap Record.octets ∧
        (feed func records userData).1 = true) ∧
      ∃ records rest, MaximalPrefix (ltv.take size) records rest ∧
        userData' = (feed func records userData).2 := by
  obtain ⟨records, rest, hmax⟩ := exists_maximalPrefix (ltv.take size)
  obtain ⟨ret, hloop, hzero⟩ := @parseLoop_spec σ real ltv size hreal func hsize fuel 0 records
    rest hmax (by omega) userData
  refine ⟨ret, _, hloop, ?_, records, rest, hmax, rfl⟩
  rw [hzero]
  constructor
  · rintro ⟨rfl, haccepts⟩
    refine ⟨records, ?_, haccepts⟩
    rw [hmax.eq, List.append_nil]
  · rintro ⟨records', heq, haccepts⟩
    have hmax' : MaximalPrefix (ltv.take size) records' [] := by
      refine ⟨?_, MaximalPrefix.nil.maximal⟩
      rw [heq, List.append_nil]
    obtain ⟨rfl, rfl⟩ := hmax.unique hmax'
    exact ⟨rfl, haccepts⟩

/-- A parser of the host for single records. -/
def parseOne : RealParse σ
  | _ :: type :: data, func, userData =>
    if (func ⟨type, data⟩ userData).1 then (0, (func ⟨type, data⟩ userData).2)
    else (-ecanceled, (func ⟨type, data⟩ userData).2)
  | _, _, userData => (-einval, userData)

theorem onRecord_parseOne : OnRecord (parseOne : RealParse σ) := by
  intro func r userData
  have hparse : parseOne r.octets func userData =
      if (func r.toBtData userData).1 then (0, (func r.toBtData userData).2)
      else (-ecanceled, (func r.toBtData userData).2) := rfl
  rw [hparse]
  split_ifs with h
  · exact ⟨by simp [h], rfl⟩
  · exact ⟨by simp [h, ecanceled], rfl⟩

/-- A list whose second record runs past the declared size. -/
theorem wrapParse_spec_truncated : ∃ ret userData',
    wrapParse parseOne 5 (some [1, 0xf0, 2, 0xf1, 0xaa]) 4
      (some fun record seen => (true, seen ++ [record])) [] = .ok (ret, userData') ∧
      (ret = 0 ↔ ∃ records, [1, 0xf0, 2, 0xf1] = records.flatMap Record.octets ∧
        (feed (fun record seen => (true, seen ++ [record])) records []).1 = true) ∧
      ∃ records rest, MaximalPrefix [1, 0xf0, 2, 0xf1] records rest ∧
        userData' = (feed (fun record seen => (true, seen ++ [record])) records []).2 :=
  wrapParse_spec onRecord_parseOne _ (by decide) (by decide) []

end Parse

end Ltv

end LeAudioReceiver
